import Shading.Proofs.DependencyOrder
import Shading.Proofs.SourceParts
import Shading.Proofs.StageEntries
import Mathlib
/-!
The names at global scope of a stage source: those of its structures, resources, vertex inputs and
functions.

They are spelled from words of the program, which are kept apart within each group only, and as they
are before they are spelled. The main statement says which words make the names of a source differ.
Two words give one name if they are the same, or if one of them is reserved and the other is that
word with a bar, or if one of them is what the constructor of the other is called.
-/

namespace Shading

open Glsl

namespace Glsl

-- What a name is spelled from: a word of the program, or the type that a constructor belongs to.
inductive Word
  | plain (word : String)
  | constructor (type : String)

namespace Word

def ofMethod (id : MethodId) : Word :=
  if id.isConstructor then constructor (shortName id.owner) else plain id.name

def spelling : Word → String
  | plain word       => identifier word
  | constructor type => identifier type ++ "_ctor"

theorem spelling_ofMethod (id : MethodId) : (ofMethod id).spelling = functionName id := by
  simp only [ofMethod, functionName]
  split <;> rfl

end Word

-- Words that are the same, or become the same once the one that is reserved is given a bar.
def Coincide (a b : String) : Prop :=
  a = b ∨ a ∈ reservedWords ∧ b = a ++ "_" ∨ b ∈ reservedWords ∧ a = b ++ "_"

instance (a b : String) : Decidable (Coincide a b) :=
  inferInstanceAs (Decidable (_ ∨ _ ∨ _))

-- The name of a constructor is given no bar of its own, so a word that looks like it is the same
-- unless it is in the reserved range.
def Word.Alike : Word → Word → Prop
  | plain a, plain b             => Coincide a b
  | constructor a, constructor b => Coincide a b
  | plain a, constructor b       => a = identifier b ++ "_ctor" ∧ ¬"gl_".toList.isPrefixOf a.toList
  | constructor a, plain b       => b = identifier a ++ "_ctor" ∧ ¬"gl_".toList.isPrefixOf b.toList

instance : (a b : Word) → Decidable (a.Alike b)
  | .plain _, .plain _ | .constructor _, .constructor _ => inferInstanceAs (Decidable (Coincide ..))
  | .plain _, .constructor _ | .constructor _, .plain _ => inferInstanceAs (Decidable (_ ∧ _))

variable {a b : String}

theorem identifier_of_reserved (h : a ∈ reservedWords) : identifier a = a ++ "_" := by
  simp [identifier, h]

theorem identifier_of_range (h : "gl_".toList.isPrefixOf a.toList) : identifier a = a ++ "_" := by
  simp only [identifier, h, Bool.or_true, if_true]

theorem identifier_eq_self (word : a ∉ reservedWords) (range : ¬"gl_".toList.isPrefixOf a.toList) :
    identifier a = a := by
  simp only [identifier, range, Bool.or_false, List.contains_iff_mem, word, if_false]

-- Reserved words do not end in a bar, and a bar does not bring them into the reserved range. None
-- looks like the name of a constructor.
theorem reservedWords_shape (h : a ∈ reservedWords) : a.toList.getLast? ≠ some '_' ∧
    (¬"gl_".toList.isPrefixOf (a.toList ++ ['_'])) ∧ ¬"_ctor".toList.isSuffixOf a.toList := by
  have shape : ∀ chars ∈ reservedWords.map String.toList, chars.getLast? ≠ some '_' ∧
      (¬"gl_".toList.isPrefixOf (chars ++ ['_'])) ∧ ¬"_ctor".toList.isSuffixOf chars := by
    decide +kernel
  exact shape _ (List.mem_map_of_mem h)

-- A reserved word with a bar is not reserved.
theorem identifier_barred (h : a ∈ reservedWords) : identifier (a ++ "_") = a ++ "_" := by
  refine identifier_eq_self (fun word => (reservedWords_shape word).left (by simp)) ?_
  rw [String.toList_append]
  exact (reservedWords_shape h).right.left

theorem identifier_eq_or (a : String) : identifier a = a ∨
    identifier a = a ++ "_" ∧ (a ∈ reservedWords ∨ "gl_".toList.isPrefixOf a.toList) := by
  by_cases word : a ∈ reservedWords
  case pos => exact .inr ⟨identifier_of_reserved word, .inl word⟩
  case neg =>
    by_cases range : "gl_".toList.isPrefixOf a.toList
    case pos => exact .inr ⟨identifier_of_range range, .inr range⟩
    case neg => exact .inl (identifier_eq_self word range)

-- A word in the reserved range stays in it, so it is given a bar however it ends.
theorem identifier_append_ne (h : "gl_".toList.isPrefixOf a.toList) (rest : String) :
    identifier (a ++ rest) ≠ a ++ rest := by
  have range : "gl_".toList.isPrefixOf (a ++ rest).toList := by
    rw [String.toList_append]
    exact List.isPrefixOf_iff_prefix.mpr
      ((List.isPrefixOf_iff_prefix.mp h).trans (List.prefix_append ..))
  rw [identifier_of_range range]
  simp

theorem identifier_eq_iff : identifier a = identifier b ↔ Coincide a b := by
  constructor
  case mp =>
    intro same
    rcases identifier_eq_or a with first | ⟨first, word | range⟩ <;>
      rcases identifier_eq_or b with second | ⟨second, word' | range'⟩ <;>
      rw [first, second] at same
    case inl.inl     => exact .inl same
    case inl.inr.inl => exact .inr (.inr ⟨word', same⟩)
    case inr.inl.inl => exact .inr (.inl ⟨word, same.symm⟩)
    case inl.inr.inr => exact absurd (same ▸ first) (identifier_append_ne range' "_")
    case inr.inr.inl => exact absurd (same ▸ second) (identifier_append_ne range "_")
    all_goals exact .inl ((String.append_left_inj "_").mp same)
  case mpr =>
    rintro (rfl | ⟨word, rfl⟩ | ⟨word, rfl⟩)
    · rfl
    · rw [identifier_of_reserved word, identifier_barred word]
    · rw [identifier_of_reserved word, identifier_barred word]

theorem identifier_eq_constructor_iff : identifier a = identifier b ++ "_ctor" ↔
    a = identifier b ++ "_ctor" ∧ ¬"gl_".toList.isPrefixOf a.toList := by
  constructor
  case mp =>
    intro same
    rcases identifier_eq_or a with plain | ⟨barred, _⟩
    case inl =>
      refine ⟨plain.symm.trans same, fun range => ?_⟩
      have barred := (identifier_of_range range).symm.trans plain
      simp at barred
    case inr =>
      -- The one ends in a bar, the other does not.
      have last := congrArg (·.toList.getLast?) (barred.symm.trans same)
      simp at last
  case mpr =>
    rintro ⟨same, range⟩
    refine (identifier_eq_self (fun word => ?_) range).trans same
    refine (reservedWords_shape word).right.right ?_
    rw [same, String.toList_append]
    exact List.isSuffixOf_iff_suffix.mpr (List.suffix_append ..)

theorem Word.spelling_eq_iff (a b : Word) : a.spelling = b.spelling ↔ a.Alike b := by
  cases a <;> cases b
  case plain.plain             => exact identifier_eq_iff
  case constructor.constructor => exact (String.append_left_inj "_ctor").trans identifier_eq_iff
  case plain.constructor       => exact identifier_eq_constructor_iff
  case constructor.plain       => exact eq_comm.trans identifier_eq_constructor_iff

-- A name at global scope. A function also has the types of its parameters, as they are spelled.
structure Global (α : Type) where
  name       : α
  parameters : Option (List String)

-- Functions may share a name if their parameters differ. Nothing else may.
def Global.Clashes (alike : α → α → Prop) (a b : Global α) : Prop :=
  alike a.name b.name ∧
    (a.parameters = none ∨ b.parameters = none ∨ a.parameters = b.parameters)

instance {alike : α → α → Prop} [DecidableRel alike] : DecidableRel (Global.Clashes alike) :=
  fun _ _ => inferInstanceAs (Decidable (_ ∧ _))

def Global.spelled (global : Global Word) : Global String :=
  ⟨global.name.spelling, global.parameters⟩

def Interface.vertexInputs (stage : Stage) : Interface → List InterfaceVariable
  | exchange inputs _ => if stage = .vertex then inputs else []
  | group _           => []

-- The names of a source, whose functions are the given definitions.
def StageSource.globals (source : StageSource) (stage : Stage) (definitions : List Definition) :
    List (Global String) :=
  (source.structures.map StructDecl.name ++ source.resources.map ResourceDecl.name ++
    (source.interface.vertexInputs stage).map InterfaceVariable.name).map (⟨·, none⟩) ++
  definitions.map fun d => ⟨d.name, some (d.parameters.map (·.decl.ty))⟩

end Glsl

variable {p : Program} {t : Target} {input : StageInput} {source : StageSource}

-- The types of the parameters of a method that have a spelling, as they are spelled.
def Program.parameterTypes (p : Program) (t : Target) (id : MethodId) : List String :=
  ((p.method? id).map fun m => m.parameters.filterMap fun q => (t.typeName q.ty).toOption).getD []

-- The members of the structure that a vertex stage takes.
def Glsl.StageInput.vertexFields (input : StageInput) : List Field :=
  if input.stage = .vertex then (input.inputStructure?.map Structure.fields).getD [] else []

-- What the names of the source of a stage are spelled from.
def Glsl.StageInput.words (input : StageInput) (p : Program) (t : Target) : List (Global Word) :=
  (input.structures.map Structure.short ++
    (input.entry.resources.filter t.declares).map Resource.name ++
    input.vertexFields.map Field.name).map (⟨.plain ·, none⟩) ++
  input.entry.functions.map fun id => ⟨.ofMethod id, some (p.parameterTypes t id)⟩

def Model.words (m : Model) (p : Program) (t : Target) (stage : Stage) (entry : StageEntry) :
    List (Global Word) :=
  StageInput.words ⟨stage, entry, m.dependencyOrder, []⟩ p t

theorem name_of_vertexInput {location : Nat} {f : Field} {v : InterfaceVariable}
    (h : t.vertexInput location f = .ok v) : v.name = identifier f.name := by
  have ⟨_, made, h⟩ := bind_eq_ok_iff.mp h
  have ⟨_, _, made⟩ := bind_eq_ok_iff.mp made
  cases made
  cases h
  rfl

theorem vertexInputs_of_stageInterface {interface : Interface}
    (h : t.stageInterface input = .ok interface) :
    (interface.vertexInputs input.stage).map InterfaceVariable.name =
    (input.vertexFields.map Field.name).map identifier := by
  simp only [Target.stageInterface] at h
  split at h
  case h_1 stage =>
    have ⟨inputs, made, h⟩ := bind_eq_ok_iff.mp h
    have ⟨_, _, h⟩ := bind_eq_ok_iff.mp h
    cases h
    simp only [Interface.vertexInputs, StageInput.vertexFields, stage, if_true]
    simp only [Target.vertexInputs] at made
    split at made
    case h_1 none =>
      cases made
      simp [none]
    case h_2 s some =>
      have named : inputs.map InterfaceVariable.name =
          s.fields.zipIdx.map fun f => identifier f.1.name :=
        map_eq_map_of_forall₂ (list_mapM_eq_ok_iff.mp made) fun _ _ => name_of_vertexInput
      have fields : s.fields.zipIdx.map Prod.fst = s.fields := List.zipIdx_map_fst ..
      rw [named, some, Option.map_some, Option.getD_some, List.map_map]
      exact (List.map_map ..).symm.trans (congrArg (List.map (identifier ∘ Field.name)) fields)
  case h_2 stage =>
    have ⟨_, _, h⟩ := bind_eq_ok_iff.mp h
    cases h
    simp [Interface.vertexInputs, StageInput.vertexFields, stage]
  case h_3 stage =>
    cases h
    simp [Interface.vertexInputs, StageInput.vertexFields, stage]

-- Definitions are named for their functions, and take what their functions do.
theorem Emission.Emits.global_eq {env : Emission} {id : MethodId} {f : EmittedFunction}
    (h : env.Emits id f) :
    Global.mk f.definition.name (some (f.definition.parameters.map (·.decl.ty))) =
    Global.spelled ⟨.ofMethod id, some (env.program.parameterTypes env.target id)⟩ := by
  have ⟨m, _, declared, _⟩ := h.declared
  have types : f.definition.parameters.map (·.decl.ty) =
      env.program.parameterTypes env.target id := by
    have each := h.parameters m declared
    simp only [Program.parameterTypes, declared, Option.map_some, Option.getD_some]
    generalize m.parameters = parameters, f.definition.parameters = decls at each
    induction each
    case nil => rfl
    case cons first _ hi =>
      have ⟨_, decl, first⟩ := bind_eq_ok_iff.mp first
      have ⟨_, typed, decl⟩ := bind_eq_ok_iff.mp decl
      cases decl
      cases first
      simp [typed, hi, Except.toOption]
  rw [Global.spelled, Word.spelling_ofMethod, h.name, types]

open Generation in
theorem globals_eq {fs : List EmittedFunction} {resources : List Resource}
    (parts : SourceParts t input source)
    (emitted : EmitsAll ⟨t, p, resources, input.stage⟩ input.entry.functions fs) :
    source.globals input.stage (fs.map EmittedFunction.definition) =
    (input.words p t).map Global.spelled := by
  have inputs := vertexInputs_of_stageInterface parts.interface
  have functions : fs.map (fun f => Global.mk f.definition.name
        (some (f.definition.parameters.map (·.decl.ty)))) =
      input.entry.functions.map fun id =>
        Global.spelled ⟨.ofMethod id, some (p.parameterTypes t id)⟩ :=
    map_eq_map_of_forall₂ emitted fun _ _ ⟨_, _, made⟩ => (Emission.emits_of_emit made).global_eq
  simp only [StageSource.globals, StageInput.words, parts.structureNames, parts.resourceNames,
    inputs, List.map_append, List.map_map]
  exact congrArg _ functions

theorem pairwise_spelled_iff (words : List (Global Word)) :
    (words.map Global.spelled).Pairwise (¬Global.Clashes (· = ·) · ·) ↔
    words.Pairwise (¬Global.Clashes Word.Alike · ·) := by
  rw [List.pairwise_map]
  simp only [Global.Clashes, Global.spelled, Word.spelling_eq_iff]

open Generation in
theorem global_names_distinct_iff (p : Program) (targets : List Target) (l l' : Layouts)
    (o : Outcome) (g : GeneratedSet) (stage : Stage) (entry : StageEntry)
    (generated : generate p targets l = .ok o l') (mem : g ∈ o.sets)
    (known : g.model.entry? stage = some entry) :
    ∃ t ∈ targets, ∃ (definitions : List Definition) (source : StageSource),
      g.sources.get stage = some source.text ∧
      source.functions = definitions.map Definition.text ∧
      source.globals stage definitions = (g.model.words p t stage entry).map Global.spelled ∧
      (g.model.dependencyOrder.map Structure.name).Nodup ∧
      (entry.resources.map Resource.name).Nodup ∧ entry.functions.Nodup ∧
      ((source.globals stage definitions).Pairwise (¬Global.Clashes (· = ·) · ·) ↔
        (g.model.words p t stage entry).Pairwise (¬Global.Clashes Word.Alike · ·)) := by
  have ⟨t, target, fs, source, compiled, made, text⟩ := compiled_of_generate generated mem known
  have parts := Target.sourceParts_of_stageSource made
  have functions : source.functions = (fs.map EmittedFunction.definition).map Definition.text := by
    rw [parts.functions, List.map_map]
    rfl
  have globals : source.globals stage (fs.map EmittedFunction.definition) =
      (g.model.words p t stage entry).map Global.spelled :=
    globals_eq parts compiled.emitted
  refine ⟨t, target, fs.map EmittedFunction.definition, source, text, functions, globals,
    g.model.nodup_dependencyOrder, ?_, (CallGraph.order_orders compiled.ordered).nodup, ?_⟩
  · rw [compiled.resources]
    exact compiled.distinct.sublist (List.filter_sublist.map _)
  · rw [globals]
    exact pairwise_spelled_iff _

theorem global_names_distinct_iff_candle :
    ∃ o l' g entry definitions source, generate candle [{}] {} = .ok o l' ∧ g ∈ o.sets ∧
      g.model.entry? .fragment = some entry ∧
      g.sources.get .fragment = some (StageSource.text source) ∧
      (source.globals .fragment definitions).map Global.name = ["Flame", "flame", "burn"] ∧
      (source.globals .fragment definitions).Pairwise (¬Global.Clashes (· = ·) · ·) := by
  have generated := candle_generated {} rfl rfl
  have ⟨t, target, definitions, source, text, _, globals, _, _, _, distinct⟩ :=
    global_names_distinct_iff candle [{}] {} _ _ _ .fragment candleEntry generated
      List.mem_cons_self rfl
  cases List.mem_singleton.mp target
  have words : (candleEmitted {}).build.words candle {} .fragment candleEntry =
      [⟨.plain "Flame", none⟩, ⟨.plain "flame", none⟩, ⟨.plain "burn", some []⟩] := by
    rw [Model.words, candle_order]
    rfl
  rw [words] at globals distinct
  refine ⟨_, _, _, _, definitions, source, generated, List.mem_cons_self, rfl, text, ?_, ?_⟩
  · rw [globals]
    decide
  · exact distinct.mpr (by decide)

def disperse : MethodDecl where
  name       := "disperse"
  returnType := .unit
  stage      := some .fragment
  body       := some [
    .eval (.name ⟨.primitive "Vector4" [], none⟩ ⟨"Prism", "sample", .field⟩),
    .eval (.name ⟨.primitive "Vector4" [], none⟩ ⟨"Prism", "sample_", .field⟩)]

-- A prism with two resources, of which the name of one is a reserved word.
def prism : Program where
  types         := [{
    name    := "Prism"
    kind    := .object
    fields  := [{ name := "sample", ty := .primitive "Vector4" [] },
      { name := "sample_", ty := .primitive "Vector4" [] }]
    methods := [disperse] }]
  sets          := []
  types_nodup   := by decide
  methods_nodup := by decide

def prismSet : ShaderSet where
  name    := "Prism"
  entries := ⟨none, some ⟨"Prism", "disperse"⟩, none⟩

def prismContext (used : List String) : Context where
  backend   := Target.name {}
  set       := "Prism"
  resources := [⟨"sample", "Prism", 0, 0, .primitive "Vector4" [], .uniform⟩,
    ⟨"sample_", "Prism", 0, 1, .primitive "Vector4" [], .uniform⟩]
  functions := [.ofDecl "Prism" disperse]
  stages    := ⟨none, some ⟨⟨"Prism", "disperse"⟩, [⟨"Prism", "disperse"⟩], used⟩, none⟩

-- Both resources are bound, as their names differ, and both are declared by one name.
theorem resources_declared_alike :
    ∃ o l' g entry r r', generate prism [{}] {} = .ok o l' ∧ g ∈ o.sets ∧
      g.model.entry? .fragment = some entry ∧ entry.resources = [r, r'] ∧ r.name ≠ r'.name ∧
      identifier r.name = identifier r'.name ∧
      g.sources.get .fragment = some ("#version 450\n\n" ++
        "layout(std140, set = 0, binding = 0) uniform sampleBuffer\n\x7b\n" ++
        "    vec4 sample_;\n\x7d;\n\n" ++
        "layout(std140, set = 0, binding = 1) uniform sample_Buffer\n\x7b\n" ++
        "    vec4 sample_;\n\x7d;\n\n\n" ++
        "void disperse()\n\x7b\n    sample_;\n    sample_;\n\x7d\n\n" ++
        "void main()\n\x7b\n    disperse();\n\x7d\n") := by
  have discovered : ShaderSet.discover prism = .ok [prismSet] := by cbv
  have collected : Generation.collectFunctions prism prismSet
      { backend := Target.name {}, set := "Prism", resources := (prismContext []).resources } =
      .ok (prismContext []) := by cbv
  have found : (Context.discoverAll prism (prismContext [])
      ((prismContext []).touchedTypes prism)).run {} = .ok (.ok (), prismContext []) {} := by cbv
  have valid : (prismContext ["sample", "sample_"]).build.validate = .ok () := by cbv
  have generated := Generation.generate_eq_ok discovered
    (Generation.run_assemble rfl collected found rfl) valid rfl
  exact ⟨_, _, _, _, _, _, generated, List.mem_cons_self, rfl, rfl, by decide, by decide,
    by decide +kernel⟩

end Shading
