import Shading.Proofs.ResourceUse
import Shading.Proofs.SetDiscovery
import Shading.Proofs.SourceParts
import Shading.Proofs.StageLegality
import Mathlib
/-!
What becomes of the fields and properties that are written by their name alone.

Each of them is a builtin variable, a constant, a declared resource of the stage or a constant of a
builtin type. A field that is none of these is stray: its name is written as it is, and nothing in
the source declares it. Static fields are stray, and so are those of types without entry points.
-/

namespace Shading

open Glsl

variable {p : Program} {set : ShaderSet} {t : Target} {resources : List Resource} {symbol : Symbol}
  {env : Emission} {e : Expr} {c : Bool} {owner name : String} {stage : Stage}
  {entry : StageEntry} {fs : List EmittedFunction} {id : MethodId}

theorem ShaderSet.mem_resourceOwners : owner ∈ set.resourceOwners ↔
    ∃ stage id, set.entries.get stage = some id ∧ id.owner = owner := by
  have collected (entryPoints : List (Stage × MethodId)) (owners : List String) :
      owner ∈ entryPoints.foldl (fun owners e =>
        if e.2.owner ∈ owners then owners else owners ++ [e.2.owner]) owners ↔
      owner ∈ owners ∨ ∃ e ∈ entryPoints, e.2.owner = owner := by
    induction entryPoints generalizing owners
    case nil => simp
    case cons e entryPoints hi =>
      rw [List.foldl_cons, hi]
      by_cases known : e.2.owner ∈ owners
      case pos =>
        have old : e.2.owner = owner → owner ∈ owners := fun same => same ▸ known
        simp only [known, if_true, List.exists_mem_cons_iff]
        tauto
      case neg =>
        simp only [known, if_false, List.mem_append, List.mem_singleton, List.exists_mem_cons_iff,
          eq_comm, or_assoc]
  refine (collected set.entryPoints []).trans ?_
  simp only [List.not_mem_nil, false_or, Prod.exists]
  exact exists_congr fun stage => exists_congr fun id => and_congr_left fun _ =>
    PerStage.mem_present

-- The field is one of those that occupy storage in a type that declares an entry point of the set.
def ShaderSet.Owns (p : Program) (set : ShaderSet) (owner name : String) : Prop :=
  (∃ stage id, set.entries.get stage = some id ∧ id.owner = owner) ∧
  ∃ t f, p.type? owner = some t ∧ f ∈ t.instanceFields ∧ f.name = name

-- The resources of a set are the fields that it owns.
theorem Generation.exists_bound_iff (h : bindResources p set = .ok resources) :
    (∃ r ∈ resources, r.owner = owner ∧ r.name = name) ↔ set.Owns p owner name := by
  have answered := bindResources_eq_ok_iff.mp h
  constructor
  case mp =>
    rintro ⟨r, mem, rfl, rfl⟩
    have granted : .ok r ∈ Binder.answers {} (set.requests p) := answered ▸ List.mem_map_of_mem mem
    have ⟨q, mem, _, grants⟩ := Binder.exists_grants granted
    have ⟨owns, t, declared, field⟩ := ShaderSet.mem_requests.mp mem
    rw [grants.owner, grants.name]
    exact ⟨ShaderSet.mem_resourceOwners.mp owns, t, q.field, declared, field, rfl⟩
  case mpr =>
    rintro ⟨owns, t, f, declared, field, rfl⟩
    have mem : ⟨owner, f⟩ ∈ set.requests p :=
      ShaderSet.mem_requests.mpr ⟨ShaderSet.mem_resourceOwners.mpr owns, t, declared, field⟩
    have ⟨b, there⟩ := Binder.exists_answer {} mem
    rw [answered] at there
    have ⟨r, mem, same⟩ := List.mem_map.mp there
    have grants := Binder.answer_eq_ok_iff.mp same.symm
    exact ⟨r, mem, grants.owner, grants.name⟩

namespace Symbol

-- A field or property that is spelled as what it stands for.
inductive Resolved (t : Target) (p : Program) (resources : List Resource) (s : Symbol) :
    Term → Prop
  | builtin {builtin} :
    (isBuiltinsType s.owner) → (BuiltinVariable.parse? s.name = some builtin) →
    Resolved t p resources s (t.builtinVariable builtin)
  | constant {value} :
    (¬isBuiltinsType s.owner) → (p.constant? s.owner s.name = some value) →
    Resolved t p resources s (.atom (t.literal value))
  | resource {r} :
    (¬isBuiltinsType s.owner) → (p.constant? s.owner s.name = none) → (r ∈ resources) →
    (r.owner = s.owner) → (r.name = s.name) →
    Resolved t p resources s (.atom (identifier r.name))
  | static {term} :
    (¬isBuiltinsType s.owner) → (p.type? s.owner = none) →
    (staticMember? s.owner s.name = some term) → Resolved t p resources s term

-- A field or property that stands for nothing that is known: it is neither a builtin variable nor a
-- constant, no field that the set owns, and no constant of a builtin type.
structure Stray (p : Program) (set : ShaderSet) (s : Symbol) : Prop where
  builtin  : ¬isBuiltinsType s.owner
  constant : p.constant? s.owner s.name = none
  field    : ¬set.Owns p s.owner s.name
  static   : p.type? s.owner = none → staticMember? s.owner s.name = none

theorem Resolved.transfer {resources' : List Resource} {term : Term}
    (h : symbol.Resolved t p resources term)
    (kept : ∀ r ∈ resources, ¬isBuiltinsType symbol.owner →
      p.constant? symbol.owner symbol.name = none → r.owner = symbol.owner → r.name = symbol.name →
      r ∈ resources') : symbol.Resolved t p resources' term := by
  cases h
  case builtin builtins parsed => exact .builtin builtins parsed
  case constant other value    => exact .constant other value
  case static other none value => exact .static other none value
  case resource other none mem owner name =>
    exact .resource other none (kept _ mem other none owner name) owner name

theorem Resolved.not_stray {term : Term} (bound : Generation.bindResources p set = .ok resources)
    (h : symbol.Resolved t p resources term) : ¬symbol.Stray p set := by
  intro stray
  cases h
  case builtin builtins _          => exact stray.builtin builtins
  case constant known              => cases stray.constant.symm.trans known
  case static undeclared known     => cases (stray.static undeclared).symm.trans known
  case resource mem owner name     =>
    exact stray.field ((Generation.exists_bound_iff bound).mp ⟨_, mem, owner, name⟩)

end Symbol

namespace Emission

theorem lowerSymbol_of_isData (data : symbol.isData) : env.lowerSymbol symbol =
    if isBuiltinsType symbol.owner then env.lowerBuiltin symbol.name
    else match env.program.constant? symbol.owner symbol.name with
      | some value => return .atom (env.target.literal value)
      | none =>
        match env.resource? symbol.owner symbol.name with
        | some r => do
          modify (Emitter.useResource r)
          return .atom (identifier symbol.name)
        | none =>
          let constant := if (env.program.type? symbol.owner).isNone then
            staticMember? symbol.owner symbol.name else none
          return constant.getD (.atom (identifier symbol.name)) := by
  obtain ⟨owner, name, kind⟩ := symbol
  cases kind
  case field | property => rfl
  all_goals simp [Symbol.isData] at data

-- An expression that names a symbol is lowered as the symbol is.
theorem lower_of_names {s : Emitter} (names : e.Names c symbol) (data : symbol.isData)
    (ctor : s.inConstructor = c) :
    env.lower e s = EmitM.locate e.location (env.lowerSymbol symbol) s := by
  have implicit {node : Node} {target : Expr} (h : isImplicit c target) :
      env.lower (.member node target symbol) s =
      EmitM.locate (Expr.member node target symbol).location (env.lowerSymbol symbol) s := by
    rw [lower]
    simp only [data, Bool.true_and]
    split
    case isTrue builtins => rw [lowerSymbol_of_isData data, if_pos builtins]
    case isFalse =>
      have asked : (get : EmitM Emitter) s = .ok s s := rfl
      simp only [EmitM.locate, EStateM.adaptExcept, bind, EStateM.bind, asked, ctor, h, if_true]
  cases names
  case bare        => rw [lower]
  case ofType kind => exact implicit (beq_iff_eq.mpr kind)
  case ofThis same => exact implicit (same ▸ rfl)

-- A data symbol whose builtin variables are legal is spelled as what it stands for. One that stands
-- for nothing keeps its name.
theorem lowerSymbol_spells (env : Emission)
    (bound : Generation.bindResources env.program set = .ok env.resources) (data : symbol.isData)
    (legal : isBuiltinsType symbol.owner → ∃ builtin,
      BuiltinVariable.parse? symbol.name = some builtin ∧ builtin.stages.allows env.stage)
    (s : Emitter) :
    ∃ term s', env.lowerSymbol symbol s = .ok term s' ∧
      (symbol.Resolved env.target env.program env.resources term ∨
        term = .atom (identifier symbol.name) ∧ symbol.Stray env.program set) := by
  rw [lowerSymbol_of_isData data]
  by_cases builtins : isBuiltinsType symbol.owner
  case pos =>
    obtain ⟨builtin, parsed, allowed⟩ := legal builtins
    refine ⟨env.target.builtinVariable builtin, s.touch builtin.flag, ?_,
      .inl (.builtin builtins parsed)⟩
    simp only [builtins, if_true, lowerBuiltin, parsed, allowed]
    rfl
  case neg =>
    simp only [builtins]
    cases constant : env.program.constant? symbol.owner symbol.name
    case some value => exact ⟨_, _, rfl, .inl (.constant builtins constant)⟩
    case none =>
      cases found : env.resource? symbol.owner symbol.name
      case some r =>
        have same : r.owner = symbol.owner ∧ r.name = symbol.name := by
          simpa using List.find?_some found
        have mem := List.mem_of_find?_eq_some found
        exact ⟨_, _, rfl, .inl (same.2 ▸ .resource builtins constant mem same.1 same.2)⟩
      case none =>
        have field : ¬set.Owns env.program symbol.owner symbol.name := by
          intro owns
          obtain ⟨r, mem, owner, name⟩ := (Generation.exists_bound_iff bound).mpr owns
          simpa [owner, name] using List.find?_eq_none.mp found r mem
        refine ⟨_, _, rfl, ?_⟩
        cases declared : env.program.type? symbol.owner
        case some d =>
          exact .inr ⟨rfl, builtins, constant, field, by simp [declared]⟩
        case none =>
          cases static : staticMember? symbol.owner symbol.name
          case some term => exact .inl (.static builtins declared static)
          case none      => exact .inr ⟨rfl, builtins, constant, field, fun _ => static⟩

end Emission

namespace Generation

-- A resource that a rendered expression of a stage denotes is listed by the stage.
theorem Compiled.mem_resources {r : Resource} (compiled : Compiled p t resources stage entry fs)
    (mem : id ∈ entry.functions) (renders : p.Renders id c e)
    (denotes : e.Denotes p resources c r) : r ∈ entry.resources := by
  have there := ((Expr.denotes_iff compiled.distinct).mp denotes).left
  rw [compiled.resources, List.mem_filter]
  simp only [decide_eq_true_eq]
  exact ⟨there, id, mem, c, e, renders, r, denotes, rfl⟩

end Generation

theorem field_references_resolved (p : Program) (targets : List Target) (l l' : Layouts)
    (o : Outcome) (g : GeneratedSet) (stage : Stage) (entry : StageEntry)
    (generated : generate p targets l = .ok o l') (mem : g ∈ o.sets)
    (known : g.model.entry? stage = some entry) :
    ∃ sets set t, ∃ source : StageSource, ShaderSet.discover p = .ok sets ∧ set ∈ sets ∧
      g.name = set.name ∧ t ∈ targets ∧ g.sources.get stage = some source.text ∧
      ((entry.resources.filter t.declares).Forall₂ (fun r d =>
        t.resourceDecl? r = .ok (some d) ∧ d.name = identifier r.name) source.resources) ∧
      ∀ id c e symbol, CallGraph.Reaches p entry.function.id id → p.Renders id c e →
        e.Names c symbol → symbol.isData → ∀ s : Emitter, s.inConstructor = c →
        ∃ term s', Emission.lower ⟨t, p, g.model.resources, stage⟩ e s = .ok term s' ∧
          (¬symbol.Stray p set → symbol.Resolved t p entry.resources term) ∧
          (symbol.Stray p set → term = .atom (identifier symbol.name) ∧
            ∀ term', ¬symbol.Resolved t p entry.resources term') := by
  obtain ⟨sets, discovered, set, inSets, t, target, produced⟩ :=
    Generation.produced_of_generate generated mem
  obtain ⟨bound, fs, source, compiled, made, text⟩ := produced.compiled known
  have parts := Target.sourceParts_of_stageSource made
  refine ⟨sets, set, t, source, discovered, inSets, produced.name, target, text, ?_, ?_⟩
  · exact parts.resources.imp fun r d h => ⟨h, Target.name_of_resourceDecl? h⟩
  · intro id c e symbol reaches renders names data s ctor
    have mem := ((CallGraph.order_orders compiled.ordered).mem_iff id).mpr reaches
    have legal := (compiled.legal mem renders).builtin symbol.name
    rw [names.builtin_iff] at legal
    obtain ⟨term, s', lowered, spelled⟩ := Emission.lowerSymbol_spells
      ⟨t, p, g.model.resources, stage⟩ bound data (fun b => legal ⟨data, b, rfl⟩) s
    refine ⟨term, s', ?_, ?_, ?_⟩
    · rw [Emission.lower_of_names names data ctor]
      simp only [EmitM.locate, EStateM.adaptExcept, lowered]
    · intro anchored
      have resolved := spelled.resolve_right fun h => anchored h.right
      refine resolved.transfer fun r there other none owner name => ?_
      refine compiled.mem_resources mem renders ((Expr.denotes_iff compiled.distinct).mpr ?_)
      exact ⟨there, symbol, names, data, other, none, owner.symm, name.symm⟩
    · intro stray
      refine ⟨(spelled.resolve_left fun h => h.not_stray bound stray).left, fun _ resolved => ?_⟩
      refine (resolved.transfer fun r there _ _ _ _ => ?_).not_stray bound stray
      rw [compiled.resources] at there
      exact List.mem_of_mem_filter there

theorem field_references_resolved_candle :
    ∃ o l' g entry, generate candle [{}] {} = .ok o l' ∧ g ∈ o.sets ∧
      g.model.entry? .fragment = some entry ∧ entry.resources = [candleFlame] ∧
      ∃ term s', Emission.lower ⟨{}, candle, [candleFlame], .fragment⟩
          (.name ⟨.struct "Flame" [], none⟩ ⟨"Candle", "flame", .field⟩) {} = .ok term s' ∧
        Symbol.Resolved {} candle [candleFlame] ⟨"Candle", "flame", .field⟩ term := by
  have generated := candle_generated {} rfl rfl
  have ⟨sets, set, t, source, discovered, inSets, _, target, _, declared, each⟩ :=
    field_references_resolved candle [{}] {} _ _ _ .fragment candleEntry generated
      List.mem_cons_self rfl
  cases discovered.symm.trans candle_discovered
  cases List.mem_singleton.mp inSets
  cases List.mem_singleton.mp target
  have ⟨term, s', lowered, resolved, _⟩ := each ⟨"Candle", "burn"⟩ false _ _ .refl
    ((Program.renders_iff rfl rfl).mpr ⟨rfl, List.mem_cons_self⟩) .bare rfl {} rfl
  refine ⟨_, _, _, candleEntry, generated, List.mem_cons_self, rfl, rfl, term, s', lowered, ?_⟩
  refine resolved fun stray => stray.field ⟨⟨.fragment, ⟨"Candle", "burn"⟩, rfl, rfl⟩, ?_⟩
  exact ⟨_, _, rfl, List.mem_cons_self, rfl⟩

def glimmer : MethodDecl where
  name       := "glimmer"
  returnType := .unit
  stage      := some .fragment
  body       := some [.eval (.name ⟨.primitive "Vector4" [], none⟩ ⟨"Brazier", "ember", .field⟩)]

-- A brazier whose ember is static, so that no resource is bound to it.
def brazier : Program where
  types         := [{
    name    := "Brazier"
    kind    := .object
    fields  := [{ name := "ember", ty := .primitive "Vector4" [], isStatic := true }]
    methods := [glimmer] }]
  sets          := []
  types_nodup   := by decide
  methods_nodup := by decide

def brazierSet : ShaderSet where
  name    := "Brazier"
  entries := ⟨none, some ⟨"Brazier", "glimmer"⟩, none⟩

def brazierContext : Context where
  backend   := Target.name {}
  set       := "Brazier"
  functions := [.ofDecl "Brazier" glimmer]
  stages    := ⟨none, some ⟨⟨"Brazier", "glimmer"⟩, [⟨"Brazier", "glimmer"⟩], []⟩, none⟩

-- The ember is written by its name, which nothing in the source declares.
theorem static_field_undeclared :
    ∃ o l' g entry e symbol, generate brazier [{}] {} = .ok o l' ∧ g ∈ o.sets ∧
      g.model.entry? .fragment = some entry ∧
      brazier.Renders entry.function.id false e ∧ e.Names false symbol ∧ symbol.isData ∧
      (∀ term, ¬symbol.Resolved {} brazier entry.resources term) ∧
      g.sources.get .fragment = some ("#version 450\n\n\n" ++
        "void glimmer()\n\x7b\n    ember;\n\x7d\n\n" ++
        "void main()\n\x7b\n    glimmer();\n\x7d\n") := by
  have discovered : ShaderSet.discover brazier = .ok [brazierSet] := by cbv
  have collected : Generation.collectFunctions brazier brazierSet
      { backend := Target.name {}, set := "Brazier", resources := [] } =
      .ok brazierContext := by cbv
  have found : (Context.discoverAll brazier brazierContext
      (brazierContext.touchedTypes brazier)).run {} = .ok (.ok (), brazierContext) {} := by cbv
  have generated := Generation.generate_eq_ok discovered
    (Generation.run_assemble rfl collected found rfl) rfl rfl
  refine ⟨_, _, _, _, _, ⟨"Brazier", "ember", .field⟩, generated, List.mem_cons_self, rfl,
    (Program.renders_iff rfl rfl).mpr ⟨rfl, List.mem_cons_self⟩, .bare, rfl, fun term h => ?_, rfl⟩
  cases h
  case builtin builtins _ => exact absurd builtins (by decide)
  case constant known     => cases known
  case resource mem _ _   => cases mem
  case static none _      => cases none

end Shading
