import Shading.Proofs.SourceParts
import Shading.Proofs.StageEntries
import Shading.Proofs.StructureDiscovery
import Mathlib
/-!
Where the structures that a stage source names are defined.

A source defines the structures that the resources, signatures, variables and constructed values of
its set lead to, before everything else and each after those it holds. It defines no others, so the
type of a conversion, or what lies behind arrays of arrays, is named without a definition unless
something else leads to it.
-/

namespace Shading

open Glsl Context

variable {p : Program} {set : ShaderSet} {t : Target} {m : Model} {c c' : Context}
  {l l' : Layouts} {name : String} {ty : TypeRef} {s : Structure}
  {emitted : List (Stage × List EmittedFunction)} {overrides : List (String × Nat)}

-- The type of a value that a resource of the stage keeps in memory, or one in a function of the
-- stage: in its signature, of one of its variables, or of a value that it constructs.
def StageEntry.Needs (p : Program) (entry : StageEntry) (ty : TypeRef) : Prop :=
  (∃ r ∈ entry.resources, r.kind.hasMemoryLayout ∧ r.valueType = ty) ∨
  ∃ id ∈ entry.functions, ∃ m, p.method? id = some m ∧ ty ∈ m.types

-- Resources count here whether a stage uses them or not.
def Model.Needs (p : Program) (m : Model) (ty : TypeRef) : Prop :=
  (∃ r ∈ m.resources, r.kind.hasMemoryLayout ∧ r.valueType = ty) ∨
  ∃ stage entry, m.entry? stage = some entry ∧
    ∃ id ∈ entry.functions, ∃ m, p.method? id = some m ∧ ty ∈ m.types

namespace Generation

theorem eq_ok_of_run_liftExcept {r : Except Error α} {a : α}
    (h : (liftExcept r : Access α).run l = .ok a l') : r = .ok a ∧ l' = l := by
  cases r <;> cases h
  exact ⟨rfl, rfl⟩

theorem exists_of_run_assemble (h : (assemble p set t).run l = .ok (emitted, c) l') :
    ∃ resources c₁ c₂, bindResources p set = .ok resources ∧
      collectFunctions p set { backend := t.name, set := set.name, resources } = .ok c₁ ∧
      (discoverAll p c₁ (c₁.touchedTypes p)).run l = .ok (.ok (), c₂) l' ∧
      emitStages p t (set.entryPoints.map Prod.fst) c₂ = .ok (emitted, c) := by
  have ⟨resources, _, first, rest⟩ := Access.run_bind_eq_ok h
  have ⟨c₁, _, second, rest⟩ := Access.run_bind_eq_ok rest
  have ⟨(r, c₂), _, found, rest⟩ := Access.run_bind_eq_ok rest
  have ⟨_, _, third, last⟩ := Access.run_bind_eq_ok rest
  obtain ⟨bound, rfl⟩ := eq_ok_of_run_liftExcept first
  obtain ⟨collected, rfl⟩ := eq_ok_of_run_liftExcept second
  obtain ⟨rfl, rfl⟩ := eq_ok_of_run_liftExcept third
  obtain ⟨emission, rfl⟩ := eq_ok_of_run_liftExcept last
  exact ⟨resources, c₁, c₂, bound, collected, found, emission⟩

-- A function has been collected for the entry of a stage that reaches it.
theorem Assembled.isSome_iff (a : Assembled p set t emitted c) (id : MethodId) :
    (c.function? id).isSome ↔
    ∃ stage entry, c.build.entry? stage = some entry ∧ id ∈ entry.functions := by
  have entry?_eq (stage : Stage) : c.build.entry? stage = c.entryFor? stage :=
    PerStage.get_ofFn ..
  rw [a.functions]
  constructor
  case mp =>
    rintro ⟨stage, u, used, mem⟩
    obtain ⟨fs, _, staged⟩ := a.each stage u used
    have last := List.mem_of_getLast? (CallGraph.order_orders staged.ordered).entry_last
    obtain ⟨f, found⟩ := Option.isSome_iff_exists.mp ((a.functions _).mpr ⟨stage, u, used, last⟩)
    obtain ⟨entry, known, functions⟩ : ∃ entry, c.entryFor? stage = some entry ∧
        entry.functions = u.functions := by
      simp [entryFor?, used, found]
    exact ⟨stage, entry, (entry?_eq stage).trans known, functions ▸ mem⟩
  case mpr =>
    rintro ⟨stage, entry, known, mem⟩
    rw [entry?_eq] at known
    obtain ⟨u, used, known⟩ := Option.bind_eq_some_iff.mp known
    obtain ⟨_, _, known⟩ := Option.bind_eq_some_iff.mp known
    cases known
    exact ⟨stage, u, used, mem⟩

-- Discovery has led from what a model needs to the structures that it has.
structure Surveyed (p : Program) (m : Model) (l : Layouts) (c c' : Context) (l' : Layouts) :
    Prop where
  empty         : c.structures = []
  mentioned     : c.Mentioned p
  needs         : ∀ ty, ty ∈ c.touchedTypes p ↔ m.Needs p ty
  run           : (discoverAll p c (c.touchedTypes p)).run l = .ok (.ok (), c') l'
  structures_eq : m.structures = c'.structures

theorem surveyed_of_assemble (h : (assemble p set t).run l = .ok (emitted, c) l') :
    ∃ c₁ c₂, Surveyed p c.build l c₁ c₂ l' := by
  have assembled := (assemble_ensures p set t).of_run h
  obtain ⟨resources, c₁, c₂, bound, collection, found, emission⟩ := exists_of_run_assemble h
  have start : Context.Mentioned p { backend := t.name, set := set.name, resources } :=
    ⟨mentioned_of_bindResources bound, nofun⟩
  have collected := collected_of_collectFunctions (nodup_entryPoints set) collection
  have emission := Emitted.of_emitStages (nodup_entryPoints set) emission
  obtain ⟨resources_eq, functions_eq, _⟩ := (discoverAll_frame p c₁ _).of_run found
  have mentioned := start.collectFunctions collection
  have isSome_eq (id : MethodId) : (c₁.function? id).isSome = (c.function? id).isSome := by
    rw [emission.isSome_eq id, function?, function?, functions_eq]
  refine ⟨c₁, c₂, {
    empty         := collected.structures_eq
    mentioned     := mentioned
    needs ty      := mentioned.mem_touchedTypes.trans (or_congr ?_ ?_)
    run           := found
    structures_eq := emission.structures_eq }⟩
  · rw [← resources_eq, ← emission.resources_eq]
    rfl
  · simp only [isSome_eq, assembled.isSome_iff]
    constructor
    · rintro ⟨id, m, ⟨stage, entry, known, mem⟩, declared⟩
      exact ⟨stage, entry, known, id, mem, m, declared⟩
    · rintro ⟨stage, entry, known, id, mem, m, declared⟩
      exact ⟨id, m, ⟨stage, entry, known, mem⟩, declared⟩

theorem exists_surveyed {g : GeneratedSet} (h : (generateFor p set t).run l = .ok g l') :
    ∃ c c' l'', Surveyed p g.model l c c' l'' := by
  have ⟨(emitted, c), l'', assembled, h⟩ := Access.run_bind_eq_ok h
  have ⟨_, _, _, h⟩ := Access.run_bind_eq_ok h
  have ⟨_, _, _, h⟩ := Access.run_bind_eq_ok h
  cases h
  have ⟨c₁, c₂, surveyed⟩ := surveyed_of_assemble assembled
  exact ⟨c₁, c₂, l'', surveyed⟩

namespace Surveyed

theorem hasStructure_iff (h : Surveyed p m l c c' l') :
    c'.hasStructure name ↔ ∃ s, m.structure? name = some s := by
  refine ⟨exists_structure?_of_hasStructure h.structures_eq, fun ⟨s, found⟩ => ?_⟩
  have mem := h.structures_eq ▸ List.mem_of_find?_eq_some found
  exact Context.hasStructure_iff.mpr ⟨s, mem, Model.name_of_structure? found⟩

-- The structures of the model are those that its needs lead to.
theorem exists_structure?_iff (h : Surveyed p m l c c' l') :
    (∃ s, m.structure? name = some s) ↔ p.Reached (m.Needs p) name := by
  have needs : (· ∈ c.touchedTypes p) = m.Needs p := funext fun ty => propext (h.needs ty)
  rw [← h.hasStructure_iff, hasStructure_iff_reached h.empty h.run, needs]

theorem contains (h : Surveyed p m l c c' l') (known : m.structure? s.name = some s) {f : Field}
    (mem : f ∈ s.fields) (struct : structName? f.ty = some name)
    (declared : (p.type? name).isSome) : m.Contains s.name name := by
  have ⟨_, declared⟩ := Option.isSome_iff_exists.mp declared
  have here := h.structures_eq ▸ List.mem_of_find?_eq_some known
  rcases (discovered_of_run h.run).structures s here with old | ⟨_, covers⟩
  case inl => simp [h.empty] at old
  case inr =>
    have refers : name ∈ s.memberTypeNames :=
      List.mem_map.mpr ⟨f, mem, name_of_structName? struct⟩
    exact ⟨⟨s, known, refers⟩, h.hasStructure_iff.mp (covers f mem _ _ struct declared)⟩

theorem acyclic (h : Surveyed p m l c c' l') (u : Universe p p.mentionedTypes)
    (fit : l.Fit overrides (Fitting p overrides p.mentionedTypes)) : m.Acyclic := by
  have known (ty : TypeRef) (mem : ty ∈ c.touchedTypes p) := h.mentioned.touchedTypes mem
  have alone := (u.run_steady (u.discoverAll_steady c known) fit).left
  rw [h.run] at alone
  exact u.acyclic_of_alone_discoverAll h.empty known alone.symm h.structures_eq

end Surveyed

-- Among canonical names, no structure of a generated set holds itself.
theorem acyclic_of_generate {targets : List Target} {o : Outcome} {g : GeneratedSet}
    (canonical : Canonical p.mentionedTypes) (faithful : l.Faithful p p.mentionedTypes)
    (h : generate p targets l = .ok o l') (mem : g ∈ o.sets) : g.model.Acyclic := by
  have u : Universe p p.mentionedTypes := .of_canonical canonical
  have kept : Preserved p (Layouts.Fit l.overrides (Fitting p l.overrides p.mentionedTypes)) :=
    fun set t l₁ fit => (u.run_steady (generateFor_steady u) fit).right
  have ⟨_, _, _, _, _, _, l₁, _, fit, run⟩ := exists_run_of_generate kept (faithful.fit u) h mem
  have ⟨_, _, _, surveyed⟩ := exists_surveyed run
  exact surveyed.acyclic u fit

end Generation

theorem typeName_of_structName? (t : Target) (h : structName? ty = some name) :
    t.typeName ty = .ok (identifier (shortName name)) := by
  have ⟨_, element⟩ := structName?_eq_some_iff.mp h
  have inner : t.typeName ty = t.typeName ty.elementOrSelf := by cases ty <;> rfl
  rw [inner, element]
  rfl

-- Among definitions is one of the structure that a type refers to, by the name that the type has in
-- the source.
def Glsl.Target.Defines (t : Target) (defined : List (Structure × StructDecl)) (name : String)
    (ty : TypeRef) : Prop :=
  ∃ s d, (s, d) ∈ defined ∧ s.name = name ∧ t.typeName ty = .ok d.name

theorem defines_of_mem {defined : List (Structure × StructDecl)}
    (made : ∀ s d, (s, d) ∈ defined → t.structDecl s = .ok d)
    (mem : name ∈ defined.map (·.1.name)) (struct : structName? ty = some name) :
    t.Defines defined name ty := by
  have ⟨⟨s, d⟩, here, same⟩ := List.mem_map.mp mem
  refine ⟨s, d, here, same, (typeName_of_structName? t struct).trans ?_⟩
  rw [Target.name_of_structDecl (made s d here), ← same]
  rfl

-- The definitions of a source with what they define.
theorem Glsl.SourceParts.exists_defined {input : StageInput} {source : StageSource}
    (parts : SourceParts t input source) :
    ∃ defined : List (Structure × StructDecl), defined.map Prod.fst = input.structures ∧
      defined.map Prod.snd = source.structures ∧
      ∀ s d, (s, d) ∈ defined → t.structDecl s = .ok d := by
  have length := parts.structures.length_eq
  exact ⟨input.structures.zip source.structures, List.map_fst_zip length.le,
    List.map_snd_zip length.ge, fun _ _ => List.forall₂_zip parts.structures⟩

-- What a source holds after its definitions.
theorem Glsl.SourceParts.text_eq {input : StageInput} {source : StageSource}
    {fs : List EmittedFunction} (parts : SourceParts t input source)
    (functions : input.functions = fs.map EmittedFunction.text) :
    ∃ header, source.text = header ++ String.join (source.structures.map StructDecl.text) ++
      (String.join (source.resources.map ResourceDecl.text) ++ source.interface.text ++
        String.join (fs.map (·.text ++ "\n")) ++ source.main.text) := by
  have functions : source.functions.map (· ++ "\n") = fs.map (·.text ++ "\n") := by
    rw [parts.functions, functions, List.map_map]
    rfl
  refine ⟨String.join (source.header.map (· ++ "\n")) ++ "\n", ?_⟩
  simp only [StageSource.text, functions, String.append_assoc]

-- The members of a structure refer to definitions before its own.
theorem Generation.Surveyed.defines_member {defined earlier later : List (Structure × StructDecl)}
    {d : StructDecl} {f : Field} (h : Surveyed p m l c c' l') (acyclic : m.Acyclic)
    (firsts : defined.map Prod.fst = m.dependencyOrder)
    (made : ∀ s d, (s, d) ∈ defined → t.structDecl s = .ok d)
    (split : defined = earlier ++ (s, d) :: later) (mem : f ∈ s.fields)
    (struct : structName? f.ty = some name) (declared : (p.type? name).isSome) :
    t.Defines earlier name f.ty := by
  have ordered : m.dependencyOrder = earlier.map Prod.fst ++ s :: later.map Prod.fst := by
    rw [← firsts, split, List.map_append, List.map_cons]
  have here : s ∈ m.dependencyOrder := ordered ▸ List.mem_append_right _ List.mem_cons_self
  have contains := h.contains (Model.mem_dependencyOrder.mp here) mem struct declared
  have before := (Model.sorted_dependencyOrder acyclic).mem_earlier ordered contains
  rw [List.map_map] at before
  exact defines_of_mem (fun s d mem => made s d (split ▸ List.mem_append_left _ mem)) before struct

open Generation in
theorem structures_defined_before_use (p : Program) (targets : List Target) (l l' : Layouts)
    (o : Outcome) (g : GeneratedSet) (stage : Stage) (entry : StageEntry)
    (generated : generate p targets l = .ok o l') (mem : g ∈ o.sets)
    (known : g.model.entry? stage = some entry) :
    ∃ t ∈ targets, ∃ (defined : List (Structure × StructDecl)) (fs : List EmittedFunction)
        (source : StageSource),
      g.sources.get stage = some source.text ∧
      defined.map Prod.fst = g.model.dependencyOrder ∧
      defined.map Prod.snd = source.structures ∧
      (∃ header, source.text = header ++ String.join (source.structures.map StructDecl.text) ++
        (String.join (source.resources.map ResourceDecl.text) ++ source.interface.text ++
          String.join (fs.map (·.text ++ "\n")) ++ source.main.text)) ∧
      (entry.resources.filter t.declares).Forall₂ (fun r d => t.resourceDecl? r = .ok (some d))
        source.resources ∧
      EmitsAll ⟨t, p, g.model.resources, stage⟩ entry.functions fs ∧
      (∀ name, name ∈ defined.map (·.1.name) ↔ p.Reached (g.model.Needs p) name) ∧
      (∀ ty name, entry.Needs p ty → structName? ty = some name → (p.type? name).isSome →
        t.Defines defined name ty) ∧
      ∀ earlier s d later, defined = earlier ++ (s, d) :: later →
        t.structDecl s = .ok d ∧ s.name ∉ earlier.map (·.1.name) ∧
        (Canonical p.mentionedTypes → l.Faithful p p.mentionedTypes → ∀ f ∈ s.fields, ∀ name,
          structName? f.ty = some name → (p.type? name).isSome → t.Defines earlier name f.ty) := by
  obtain ⟨_, _, set, _, t, target, l₁, l₂, _, run⟩ :=
    exists_run_of_generate (P := fun _ => True) (fun _ _ _ _ => trivial) trivial generated mem
  have ⟨_, fs, source, compiled, made, text⟩ :=
    ((generateFor_ensures p set t).of_run run).compiled known
  have ⟨_, _, _, surveyed⟩ := exists_surveyed run
  have parts := Target.sourceParts_of_stageSource made
  have ⟨defined, firsts, seconds, decls⟩ := parts.exists_defined
  have names : defined.map (·.1.name) = g.model.dependencyOrder.map Structure.name :=
    (List.map_map ..).symm.trans (congrArg (List.map Structure.name) firsts)
  have reached (name : String) :
      name ∈ defined.map (·.1.name) ↔ p.Reached (g.model.Needs p) name := by
    rw [names, Model.name_mem_dependencyOrder, surveyed.exists_structure?_iff]
  refine ⟨t, target, defined, fs, source, text, firsts, seconds, parts.text_eq rfl,
    parts.resources, compiled.emitted, reached, ?needs, fun earlier s d later split => ⟨?_, ?_, ?_⟩⟩
  case needs =>
    intro ty name needs struct declared
    have ⟨_, declared⟩ := Option.isSome_iff_exists.mp declared
    refine defines_of_mem decls ((reached name).mpr (.start ?_ struct declared)) struct
    rcases needs with ⟨r, mem, memory⟩ | here
    case inl => exact .inl ⟨r, List.mem_of_mem_filter (compiled.resources ▸ mem), memory⟩
    case inr => exact .inr ⟨stage, entry, known, here⟩
  · exact decls s d (split ▸ List.mem_append_right _ List.mem_cons_self)
  · have distinct := g.model.nodup_dependencyOrder
    rw [← names, split, List.map_append, List.map_cons] at distinct
    exact fun mem => List.disjoint_of_nodup_append distinct mem List.mem_cons_self
  · intro canonical faithful f field name
    have acyclic := acyclic_of_generate canonical faithful generated mem
    exact surveyed.defines_member acyclic firsts decls split field

def kindle : MethodDecl where
  name       := "kindle"
  returnType := .unit
  stage      := some .fragment
  body       := some [.eval (.cast ⟨.struct "Wick" [], none⟩
    (.name ⟨.struct "Arm" [], none⟩ ⟨"Chandelier", "arm", .field⟩))]

-- A chandelier with a structure inside of a structure, and one that values are only converted to.
def chandelier : Program where
  types         := [
    { name := "Arm", kind := .struct, fields := [{ name := "flame", ty := .struct "Flame" [] }] },
    { name := "Flame", kind := .struct, fields := [
      { name := "color", ty := .primitive "Vector4" [] }] },
    { name := "Wick", kind := .struct, fields := [
      { name := "color", ty := .primitive "Vector4" [] }] },
    { name := "Chandelier", kind := .object, fields := [{ name := "arm", ty := .struct "Arm" [] }],
      methods := [kindle] }]
  sets          := []
  types_nodup   := by decide
  methods_nodup := by decide

def chandelierSet : ShaderSet where
  name    := "Chandelier"
  entries := ⟨none, some ⟨"Chandelier", "kindle"⟩, none⟩

def chandelierContext (structures : List Structure) (used : List String) : Context where
  backend    := Target.name {}
  set        := "Chandelier"
  structures := structures
  resources  := [⟨"arm", "Chandelier", 0, 0, .struct "Arm" [], .uniform⟩]
  functions  := [.ofDecl "Chandelier" kindle]
  stages     := ⟨none, some ⟨⟨"Chandelier", "kindle"⟩, [⟨"Chandelier", "kindle"⟩], used⟩, none⟩

def armStructure : Structure where
  name      := "Arm"
  fields    := [⟨"flame", .struct "Flame" [], .unspecified, 0, ⟨16, 16, 4, 16⟩⟩]
  footprint := ⟨16, 16, 4, 16⟩
  agrees    := true

def chandelierEntry : StageEntry where
  function  := .ofDecl "Chandelier" kindle
  functions := [⟨"Chandelier", "kindle"⟩]
  resources := (chandelierContext [] []).resources

def chandelierModel : Model :=
  (chandelierContext [armStructure, flameStructure] ["arm"]).build

def chandelierLayouts : Layouts where
  known := [("Arm", ⟨16, 16, 4, 16⟩), ("Flame", ⟨16, 16, 4, 16⟩), ("Vector4", ⟨16, 16, 4, 16⟩)]

theorem chandelier_structures :
    (discoverAll chandelier (chandelierContext [] [])
      ((chandelierContext [] []).touchedTypes chandelier)).run {} =
    .ok (.ok (), chandelierContext [armStructure, flameStructure] []) chandelierLayouts := by
  cbv

theorem chandelier_order : chandelierModel.dependencyOrder = [flameStructure, armStructure] := by
  cbv

def chandelierSource : String :=
  "#version 450\n\n" ++
  "struct Flame\n\x7b\n    vec4 color;\n\x7d;\n\n" ++
  "struct Arm\n\x7b\n    Flame flame;\n\x7d;\n\n" ++
  "layout(std140, set = 0, binding = 0) uniform armBuffer\n\x7b\n    Arm arm;\n\x7d;\n\n\n" ++
  "void kindle()\n\x7b\n    Wick(arm);\n\x7d\n\n" ++
  "void main()\n\x7b\n    kindle();\n\x7d\n"

theorem chandelier_generated :
    generate chandelier [{}] {} = .ok ⟨[⟨"Chandelier", Target.name {}, chandelierModel,
      ⟨none, some chandelierSource, none⟩⟩], []⟩ chandelierLayouts := by
  have discovered : ShaderSet.discover chandelier = .ok [chandelierSet] := by cbv
  have collected : Generation.collectFunctions chandelier chandelierSet
      { backend := Target.name {}, set := "Chandelier",
        resources := (chandelierContext [] []).resources } =
      .ok (chandelierContext [] []) := by cbv
  have valid : chandelierModel.validate = .ok () := by cbv
  obtain ⟨fs, emission, source, made, text⟩ : ∃ fs, Generation.emitStages chandelier {} [.fragment]
      (chandelierContext [armStructure, flameStructure] []) =
      .ok ([(.fragment, fs)], chandelierContext [armStructure, flameStructure] ["arm"]) ∧
      ∃ source, Target.stageSource {} ⟨.fragment, chandelierEntry, [flameStructure, armStructure],
        fs.map EmittedFunction.text⟩ = .ok source ∧ source.text = chandelierSource :=
    ⟨_, rfl, _, rfl, by decide +kernel⟩
  rw [← text]
  exact Generation.generate_eq_ok discovered
    (Generation.run_assemble rfl collected chandelier_structures emission) valid
    (Generation.writeStages_eq_ok rfl chandelier_order made)

theorem structures_defined_before_use_chandelier :
    ∃ o l' g entry source defined, generate chandelier [{}] {} = .ok o l' ∧ g ∈ o.sets ∧
      g.model.entry? .fragment = some entry ∧
      g.sources.get .fragment = some (StageSource.text source) ∧
      defined.map Prod.fst = [flameStructure, armStructure] ∧
      Target.Defines {} defined "Arm" (.struct "Arm" []) ∧
      Target.Defines {} (defined.take 1) "Flame" (.struct "Flame" []) := by
  have ⟨t, target, defined, _, source, text, firsts, _, _, _, _, _, needs, order⟩ :=
    structures_defined_before_use chandelier [{}] {} _ _ _ .fragment _ chandelier_generated
      List.mem_cons_self rfl
  cases List.mem_singleton.mp target
  have firsts := firsts.trans chandelier_order
  match defined, firsts with
  | [(_, flame), (_, arm)], same =>
    obtain ⟨rfl, rfl⟩ : _ = flameStructure ∧ _ = armStructure := by simpa using same
    have inner := (order [(flameStructure, flame)] armStructure arm [] rfl).right.right
    refine ⟨_, _, _, _, source, _, chandelier_generated, List.mem_cons_self, rfl, text, rfl,
      needs (.struct "Arm" []) "Arm" (.inl ⟨_, List.mem_cons_self, rfl, rfl⟩) rfl rfl, ?_⟩
    exact inner (by decide) nofun _ List.mem_cons_self "Flame" rfl rfl

-- Nothing but the conversion leads to the structure that it names, which is not defined.
theorem conversion_undefined :
    ∃ o l' g entry body operand, generate chandelier [{}] {} = .ok o l' ∧ g ∈ o.sets ∧
      g.model.entry? .fragment = some entry ∧
      (chandelier.method? entry.function.id).bind MethodDecl.body = some body ∧
      .cast ⟨.struct "Wick" [], none⟩ operand ∈ Stmt.exprsAll body ∧
      (chandelier.type? "Wick").isSome ∧ (∀ s ∈ g.model.dependencyOrder, s.name ≠ "Wick") ∧
      g.sources.get .fragment = some chandelierSource := by
  refine ⟨_, _, _, _, _, _, chandelier_generated, List.mem_cons_self, rfl, rfl, List.mem_cons_self,
    rfl, ?_, rfl⟩
  rw [chandelier_order]
  decide

end Shading
