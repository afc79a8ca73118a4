import Shading.Proofs.DependencyOrder
import Shading.Proofs.SourceParts
import Shading.Proofs.StageEntries
import Shading.Proofs.StructureDefinitions
import Mathlib
/-!
How values get into and out of the entry point of a graphics stage.

Each member of the structure that an entry point takes or returns has a carrier outside of it. The
declarations of the interface and the copies in `main` come from loops that count the members in
different ways. Here each of them is said in terms of the carriers.
-/

namespace Shading

open Glsl

section

variable {g : List α → α → β} {h : β → γ} {earlier as : List α}

-- Maps the elements of a list, each with those before it.
def mapEarlier (g : List α → α → β) (earlier : List α) : List α → List β
  | []      => []
  | a :: as => g earlier a :: mapEarlier g (earlier ++ [a]) as

theorem map_mapEarlier :
    (mapEarlier g earlier as).map h = mapEarlier (fun earlier a => h (g earlier a)) earlier as := by
  induction as generalizing earlier
  case nil     => rfl
  case cons hi => rw [mapEarlier, mapEarlier, List.map_cons, hi]

theorem filterMap_mapEarlier_congr {g' : List α → α → β'} {h : β → Option γ} {h' : β' → Option γ}
    (same : ∀ earlier a, h (g earlier a) = h' (g' earlier a)) :
    (mapEarlier g earlier as).filterMap h = (mapEarlier g' earlier as).filterMap h' := by
  induction as generalizing earlier
  case nil     => rfl
  case cons hi => rw [mapEarlier, mapEarlier, List.filterMap_cons, List.filterMap_cons, same, hi]

theorem zipIdx_eq_mapEarlier (earlier as : List α) :
    as.zipIdx earlier.length = mapEarlier (fun earlier a => (a, earlier.length)) earlier as := by
  induction as generalizing earlier
  case nil => rfl
  case cons a as hi =>
    have next : (earlier ++ [a]).length = earlier.length + 1 := by simp
    rw [List.zipIdx_cons, mapEarlier, ← hi, next]

-- A loop that passes over some elements before it counts.
theorem zipIdx_filter (condition : α → Bool) (earlier as : List α) :
    (as.filter condition).zipIdx (earlier.countP condition) =
    (mapEarlier (fun earlier a => (a, earlier.countP condition)) earlier as).filter
      (condition ·.1) := by
  induction as generalizing earlier
  case nil => rfl
  case cons a as hi =>
    rw [mapEarlier]
    by_cases counted : condition a
    case pos =>
      have next : (earlier ++ [a]).countP condition = earlier.countP condition + 1 := by
        simp [counted]
      rw [List.filter_cons_of_pos counted, List.filter_cons_of_pos (by exact counted),
        List.zipIdx_cons, ← hi, next]
    case neg =>
      have next : (earlier ++ [a]).countP condition = earlier.countP condition := by
        simp [counted]
      rw [List.filter_cons_of_neg counted, List.filter_cons_of_neg (by exact counted), ← hi, next]

end

namespace Glsl

-- What carries a member: a vertex input of its own name, a value between the stages, a color, or
-- the builtin variable of the position.
inductive Carrier
  | vertexInput (location : Nat)
  | varying (number : Nat)
  | color (location : Nat)
  | position
  deriving DecidableEq

def positionName (stage : Stage) : String :=
  if stage = .vertex then "gl_Position" else "gl_FragCoord"

namespace Carrier

-- Between the stages. Members are numbered without those that hold the position.
def between (earlier : List Field) (f : Field) : Carrier :=
  if f.semantic = .systemPosition then position
  else varying (earlier.countP (·.semantic != .systemPosition))

def ofInput (stage : Stage) (earlier : List Field) (f : Field) : Carrier :=
  if stage = .vertex then vertexInput earlier.length else between earlier f

def ofOutput (stage : Stage) (earlier : List Field) (f : Field) : Carrier :=
  if stage = .vertex then between earlier f else color earlier.length

-- The variable that main reads or writes.
def name (stage : Stage) (f : Field) : Carrier → String
  | vertexInput _ => identifier f.name
  | varying k     => varyingName k
  | color k       => colorName k
  | position      => positionName stage

end Carrier

-- The members of a structure with their carriers.
def carried (carrier : List Field → Field → Carrier) (fields : List Field) :
    List (Field × Carrier) :=
  mapEarlier (fun earlier f => (f, carrier earlier f)) [] fields

-- How a type is written, if it can be.
def Target.spelled (t : Target) (ty : TypeRef) : String := (t.typeName ty).toOption.getD ""

def fieldExtent (f : Field) : Option Nat := if f.isArray then some f.count else none

def Target.vertexVariable (t : Target) (k : Nat) (f : Field) : InterfaceVariable where
  location := some k
  isInput  := true
  ty       := t.spelled f.ty
  name     := identifier f.name
  extent   := fieldExtent f

def Target.varyingVariable (t : Target) (isInput : Bool) (k : Nat) (f : Field) :
    InterfaceVariable where
  location := if t.version.usesDescriptorSets then some k else none
  isFlat   := isIntegral f.ty
  isInput  := isInput
  ty       := t.spelled f.ty
  name     := varyingName k

namespace Carrier

-- The declaration of the variable, unless it is builtin.
def declared? (t : Target) (isInput : Bool) (f : Field) : Carrier → Option InterfaceVariable
  | vertexInput k => some (t.vertexVariable k f)
  | varying k     => some (t.varyingVariable isInput k f)
  | color k       => some (colorVariable k (colorName k))
  | position      => none

end Carrier

-- The copies that main makes of a member on its way in and out.
def copyIn (stage : Stage) (part : Field × Carrier) : MainStep :=
  .copy (.inputMember (identifier part.1.name)) (.global (part.2.name stage part.1))

def copyOut (stage : Stage) (part : Field × Carrier) : MainStep :=
  .copy (.global (part.2.name stage part.1)) (.outputMember (identifier part.1.name))

variable {t : Target} {stage : Stage} {isInput : Bool} {f : Field} {fields : List Field}
  {s : Structure} {vs : List InterfaceVariable} {k : Nat}

-- The counter of a loop is the number of those that it has counted before.
theorem numberFields_eq (condition : Field → Bool) (earlier fields : List Field) :
    numberFields condition (earlier.countP condition) fields = mapEarlier (fun earlier f =>
      (f, if condition f then some (earlier.countP condition) else none)) earlier fields := by
  induction fields generalizing earlier
  case nil => rfl
  case cons f fields hi =>
    rw [mapEarlier, ← hi, numberFields]
    split
    case isTrue counted => simp [counted]
    case isFalse other  => simp [other]

theorem numberedVaryings_eq : numberedVaryings s = mapEarlier (fun earlier f =>
    (f, if f.semantic != .systemPosition then
      some (earlier.countP (·.semantic != .systemPosition)) else none)) [] s.fields :=
  numberFields_eq (·.semantic != .systemPosition) [] s.fields

theorem inputSteps_eq (graphics : stage ≠ .compute) :
    inputSteps stage s = (carried (.ofInput stage) s.fields).map (copyIn stage) := by
  rw [inputSteps, numberedVaryings_eq, carried, map_mapEarlier, map_mapEarlier]
  congr 1
  funext earlier f
  cases stage
  case vertex => rfl
  case fragment =>
    by_cases position : f.semantic = .systemPosition
    all_goals simp [copyIn, Carrier.ofInput, Carrier.between, Carrier.name, positionName, position]
  case compute => exact absurd rfl graphics

-- The position may be flipped once it has been copied.
def stepsOut (t : Target) (stage : Stage) (part : Field × Carrier) : List MainStep :=
  copyOut stage part :: if part.2 = .position ∧ t.flipVertexY then [.flipPosition] else []

theorem vertexOutputSteps_eq :
    t.vertexOutputSteps s =
    (carried (.ofOutput .vertex) s.fields).flatMap (stepsOut t .vertex) := by
  rw [Target.vertexOutputSteps, numberedVaryings_eq, carried, List.flatMap_def, List.flatMap_def,
    map_mapEarlier, map_mapEarlier]
  congr 2
  funext earlier f
  by_cases position : f.semantic = .systemPosition
  all_goals
    simp [stepsOut, copyOut, Carrier.ofOutput, Carrier.between, Carrier.name, positionName,
      position]

theorem colorSteps_eq :
    (s.fields.zipIdx.map fun part => MainStep.copy (.global (colorName part.2))
      (.outputMember (identifier part.1.name))) =
    (carried (.ofOutput .fragment) s.fields).flatMap (stepsOut t .fragment) := by
  have numbered : s.fields.zipIdx = _ := zipIdx_eq_mapEarlier [] s.fields
  rw [numbered, carried, List.map_eq_flatMap, List.flatMap_def, List.flatMap_def, map_mapEarlier,
    map_mapEarlier]
  congr 2

theorem spelled_of_typeName {ty : TypeRef} {text : String} (h : t.typeName ty = .ok text) :
    t.spelled ty = text := by
  rw [Target.spelled, h]
  rfl

theorem declared?_of_varying {v : InterfaceVariable} (h : t.varying isInput k f = .ok v) :
    (Carrier.varying k).declared? t isInput f = some v := by
  have ⟨_, typed, h⟩ := bind_eq_ok_iff.mp h
  cases h
  rw [Carrier.declared?, Target.varyingVariable, spelled_of_typeName typed]

theorem declared?_of_vertexInput {v : InterfaceVariable} (h : t.vertexInput k f = .ok v) :
    (Carrier.vertexInput k).declared? t true f = some v := by
  have ⟨_, made, h⟩ := bind_eq_ok_iff.mp h
  have ⟨_, typed, made⟩ := bind_eq_ok_iff.mp made
  cases made
  cases h
  rw [Carrier.declared?, Target.vertexVariable, spelled_of_typeName typed]
  rfl

theorem map_fst_carried (carrier : List Field → Field → Carrier) (fields : List Field) :
    (carried carrier fields).map Prod.fst = fields := by
  have first (earlier : List Field) :
      mapEarlier (fun (_ : List Field) f => f) earlier fields = fields := by
    induction fields generalizing earlier
    case nil     => rfl
    case cons hi => rw [mapEarlier, hi]
  rw [carried, map_mapEarlier, first]

theorem exists_mem_carried (carrier : List Field → Field → Carrier) (mem : f ∈ fields) :
    ∃ c, (f, c) ∈ carried carrier fields := by
  rw [← map_fst_carried carrier fields] at mem
  have ⟨⟨_, c⟩, here, same⟩ := List.mem_map.mp mem
  exact ⟨c, same ▸ here⟩

theorem mem_of_mem_carried {carrier : List Field → Field → Carrier} {c : Carrier}
    (mem : (f, c) ∈ carried carrier fields) : f ∈ fields :=
  map_fst_carried carrier fields ▸ List.mem_map.mpr ⟨_, mem, rfl⟩

theorem carrier_of_mem_carried {carrier : List Field → Field → Carrier} {c : Carrier}
    (mem : (f, c) ∈ carried carrier fields) : ∃ earlier, c = carrier earlier f := by
  rw [carried] at mem
  generalize [] = earlier at mem
  induction fields generalizing earlier
  case nil => cases mem
  case cons f' fields hi =>
    rcases List.mem_cons.mp mem with same | mem
    case inl =>
      cases same
      exact ⟨earlier, rfl⟩
    case inr => exact hi _ mem

-- The members that travel between the stages, in order.
def travelling (fields : List Field) : List Field :=
  fields.filter (·.semantic != .systemPosition)

-- Passing over the position before counting gives the same numbers as counting past it.
theorem filterMap_between (h : Field → Carrier → Option α) (h' : Field × Nat → Option α)
    (position : ∀ f, h f .position = none) (varying : ∀ f k, h f (.varying k) = h' (f, k)) :
    (carried .between fields).filterMap (fun part => h part.1 part.2) =
    (travelling fields).zipIdx.filterMap h' := by
  have numbered : (travelling fields).zipIdx = _ :=
    zipIdx_filter (fun f : Field => f.semantic != .systemPosition) [] fields
  rw [numbered, List.filterMap_filter, carried]
  refine filterMap_mapEarlier_congr fun earlier f => ?_
  by_cases first : f.semantic = .systemPosition
  all_goals simp [Carrier.between, position, varying, first]

theorem mem_varying_iff :
    (f, .varying k) ∈ carried .between fields ↔ (travelling fields)[k]? = some f := by
  let number (f : Field) : Carrier → Option (Field × Nat)
    | .varying k => some (f, k)
    | _          => none
  have numbers : (carried .between fields).filterMap (fun part => number part.1 part.2) =
      (travelling fields).zipIdx.filterMap some :=
    filterMap_between number some (fun _ => rfl) fun _ _ => rfl
  rw [List.filterMap_some] at numbers
  have indexed : (f, k) ∈ (travelling fields).zipIdx ↔ _ := List.mem_zipIdx_iff_getElem?
  rw [← indexed, ← numbers, List.mem_filterMap]
  constructor
  · exact fun mem => ⟨_, mem, rfl⟩
  · rintro ⟨⟨f', c⟩, mem, same⟩
    cases c <;> cases same
    exact mem

theorem mem_position_iff : (f, .position) ∈ carried .between fields ↔
    f ∈ fields ∧ f.semantic = .systemPosition := by
  constructor
  · intro mem
    have ⟨_, same⟩ := carrier_of_mem_carried mem
    simp only [Carrier.between] at same
    split at same
    case isTrue position => exact ⟨mem_of_mem_carried mem, position⟩
    case isFalse         => cases same
  · rintro ⟨mem, position⟩
    have ⟨c, mem⟩ := exists_mem_carried .between mem
    have ⟨_, same⟩ := carrier_of_mem_carried mem
    rw [Carrier.between, if_pos position] at same
    exact same ▸ mem

theorem declared_between :
    ((carried .between fields).filterMap fun part => part.2.declared? t isInput part.1) =
    (travelling fields).zipIdx.map fun part => t.varyingVariable isInput part.2 part.1 := by
  rw [← List.filterMap_eq_map]
  exact filterMap_between (fun f c => c.declared? t isInput f) _ (fun _ => rfl) fun _ _ => rfl

theorem varyingVariables_eq_ok (h : t.varyingVariables isInput (some s) = .ok vs) :
    vs = (carried .between s.fields).filterMap fun part => part.2.declared? t isInput part.1 := by
  have each := list_mapM_eq_ok_iff.mp h
  have listed : vs.map some = (varyings s).zipIdx.map fun part =>
      (Carrier.varying part.2).declared? t isInput part.1 :=
    map_eq_map_of_forall₂ each fun _ _ made => (declared?_of_varying made).symm
  have vs_eq : vs = (vs.map some).filterMap id := by simp
  rw [vs_eq, listed, List.filterMap_map, declared_between, ← List.filterMap_eq_map]
  rfl

theorem declared_vertexInputs :
    ((carried (.ofInput .vertex) fields).filterMap fun part => part.2.declared? t true part.1) =
    fields.zipIdx.map fun part => t.vertexVariable part.2 part.1 := by
  have numbered : fields.zipIdx = _ := zipIdx_eq_mapEarlier [] fields
  rw [numbered, ← List.filterMap_eq_map, carried]
  exact filterMap_mapEarlier_congr fun _ _ => rfl

theorem vertexInputs_eq_ok (h : t.vertexInputs (some s) = .ok vs) :
    vs = (carried (.ofInput .vertex) s.fields).filterMap fun part =>
      part.2.declared? t true part.1 := by
  have each := list_mapM_eq_ok_iff.mp h
  have listed : vs.map some = s.fields.zipIdx.map fun part =>
      (Carrier.vertexInput part.2).declared? t true part.1 :=
    map_eq_map_of_forall₂ each fun _ _ made => (declared?_of_vertexInput made).symm
  have vs_eq : vs = (vs.map some).filterMap id := by simp
  rw [vs_eq, listed, List.filterMap_map, declared_vertexInputs, ← List.filterMap_eq_map]
  rfl

theorem colorVariables_eq :
    ((List.range fields.length).map fun i => colorVariable i (colorName i)) =
    (carried (.ofOutput .fragment) fields).filterMap fun part =>
      part.2.declared? t false part.1 := by
  have numbered : fields.zipIdx = _ := zipIdx_eq_mapEarlier [] fields
  have range : List.range fields.length = fields.zipIdx.map Prod.snd := by
    simp [List.range_eq_range']
  rw [range, numbered, ← List.filterMap_eq_map, List.filterMap_map, carried]
  exact filterMap_mapEarlier_congr fun _ _ => rfl

end Glsl

namespace Model

variable {m : Model} {stage : Stage} {f : ShaderFunction} {entry : StageEntry}

-- The members of the structure that an entry point takes, if it takes one.
def inputFields (m : Model) (f : ShaderFunction) : List Field :=
  ((f.parameters.head?.bind fun q => m.structure? q.ty.name).map Structure.fields).getD []

def outputStructure? (m : Model) (f : ShaderFunction) : Option Structure :=
  if f.returnType.isStruct then m.structure? f.returnType.name else none

-- What validation makes sure of about the entry point of a graphics stage.
structure Admits (m : Model) (stage : Stage) (f : ShaderFunction) : Prop where
  input    : f.parameters = [] ∨
    ∃ q s, f.parameters = [q] ∧ q.ty.isStruct ∧ m.structure? q.ty.name = some s
  vertex   : stage = .vertex →
    ∃ s, m.outputStructure? f = some s ∧ ∃ x ∈ s.fields, x.semantic = .systemPosition
  fragment : stage = .fragment → f.returnType.isVoid ∨ f.returnType.short = "Vector4" ∨
    ∃ s, m.outputStructure? f = some s ∧ ∀ x ∈ s.fields, x.semantic = .colorTarget

theorem outputStructure?_of_isVoid (void : f.returnType.isVoid) : m.outputStructure? f = none := by
  refine if_neg fun struct => ?_
  cases kind : f.returnType
  all_goals simp_all [TypeRef.isVoid, TypeRef.isStruct]

-- Only fragment stages may return something else than a structure.
theorem Admits.stage_eq (admits : m.Admits stage f) (graphics : stage ≠ .compute)
    (none : m.outputStructure? f = none) : stage = .fragment := by
  cases stage
  case vertex =>
    have ⟨_, known, _⟩ := admits.vertex rfl
    cases none.symm.trans known
  case fragment => rfl
  case compute => exact absurd rfl graphics

theorem exists_of_stageStructure {ty : TypeRef} {role : String} {s : Structure}
    (h : m.stageStructure f ty role = .ok s) : ty.isStruct ∧ m.structure? ty.name = some s := by
  simp only [stageStructure] at h
  split at h
  case isFalse => cases h
  case isTrue struct =>
    split at h
    case h_1 found =>
      cases h
      exact ⟨struct, found⟩
    case h_2 => cases h

theorem parameters_of_checkInput (h : m.checkInput f = .ok ()) : f.parameters = [] ∨
    ∃ q s, f.parameters = [q] ∧ q.ty.isStruct ∧ m.structure? q.ty.name = some s := by
  simp only [checkInput] at h
  split at h
  case h_1 none => exact .inl none
  case h_2 q one =>
    obtain ⟨s, found, _⟩ := bind_eq_ok_iff.mp h
    obtain ⟨struct, found⟩ := exists_of_stageStructure found
    exact .inr ⟨q, s, one, struct, found⟩
  case h_3 => cases h

theorem output_of_checkVertex (h : m.checkVertex f = .ok ()) :
    m.checkInput f = .ok () ∧
    ∃ s, m.outputStructure? f = some s ∧ ∃ x ∈ s.fields, x.semantic = .systemPosition := by
  have ⟨_, input, h⟩ := bind_eq_ok_iff.mp h
  refine ⟨input, ?_⟩
  split at h
  case isTrue => cases h
  case isFalse =>
    have ⟨s, found, h⟩ := bind_eq_ok_iff.mp h
    have ⟨_, _, h⟩ := bind_eq_ok_iff.mp h
    have ⟨struct, found⟩ := exists_of_stageStructure found
    split at h
    case isTrue => cases h
    case isFalse present =>
      have ⟨x, found'⟩ := Option.ne_none_iff_exists'.mp (mt Option.isNone_iff_eq_none.mpr present)
      have known : m.outputStructure? f = some s := by rw [outputStructure?, if_pos struct, found]
      refine ⟨s, known, x, List.mem_of_find?_eq_some found', ?_⟩
      simpa using List.find?_some found'

theorem output_of_checkFragment (h : m.checkFragment f = .ok ()) :
    m.checkInput f = .ok () ∧ (f.returnType.isVoid ∨ f.returnType.short = "Vector4" ∨
      ∃ s, m.outputStructure? f = some s ∧ ∀ x ∈ s.fields, x.semantic = .colorTarget) := by
  have ⟨_, input, h⟩ := bind_eq_ok_iff.mp h
  refine ⟨input, ?_⟩
  split at h
  case isTrue plain =>
    rcases Bool.or_eq_true_iff.mp plain with void | vector
    case inl => exact .inl void
    case inr => exact .inr (.inl (beq_iff_eq.mp vector))
  case isFalse =>
    have ⟨s, found, h⟩ := bind_eq_ok_iff.mp h
    have ⟨_, _, h⟩ := bind_eq_ok_iff.mp h
    have ⟨struct, found⟩ := exists_of_stageStructure found
    split at h
    case h_1 => cases h
    case h_2 none =>
      refine .inr (.inr ⟨s, by rw [outputStructure?, if_pos struct, found], fun x mem => ?_⟩)
      simpa using List.find?_eq_none.mp none x mem

theorem admits_of_validate (h : m.validate = .ok ()) (known : m.entry? stage = some entry)
    (graphics : stage ≠ .compute) : m.Admits stage entry.function := by
  obtain ⟨_, stages, _⟩ := bind_eq_ok_iff.mp h
  have passed : m.checkStage stage = .ok () :=
    forM_eq_ok_iff.mp stages stage (by cases stage <;> decide)
  simp only [checkStage, known] at passed
  obtain ⟨_, _, passed⟩ := bind_eq_ok_iff.mp passed
  cases stage
  case vertex =>
    obtain ⟨input, output⟩ := output_of_checkVertex passed
    exact ⟨parameters_of_checkInput input, fun _ => output, by simp⟩
  case fragment =>
    obtain ⟨input, output⟩ := output_of_checkFragment passed
    exact ⟨parameters_of_checkInput input, by simp, fun _ => output⟩
  case compute => exact absurd rfl graphics

-- Look-ups find the same structures in the order in which they are defined.
theorem find?_dependencyOrder (m : Model) (name : String) :
    m.dependencyOrder.find? (·.name == name) = m.structure? name := by
  refine Option.ext fun s => ?_
  constructor
  · intro found
    have named : s.name = name := by simpa using List.find?_some found
    exact named ▸ mem_dependencyOrder.mp (List.mem_of_find?_eq_some found)
  · intro found
    have named := name_of_structure? found
    have mem : s ∈ m.dependencyOrder := mem_dependencyOrder.mpr (named ▸ found)
    have ⟨s', found'⟩ : ∃ s', m.dependencyOrder.find? (·.name == name) = some s' :=
      Option.isSome_iff_exists.mp (List.find?_isSome.mpr ⟨s, mem, beq_iff_eq.mpr named⟩)
    have named' : s'.name = name := by simpa using List.find?_some found'
    have known := mem_dependencyOrder.mp (List.mem_of_find?_eq_some found')
    cases (named' ▸ known).symm.trans found
    exact found'

end Model

namespace Glsl

variable {t : Target} {m : Model} {stage : Stage} {f : ShaderFunction} {input : StageInput}
  {source : StageSource}

-- How a graphics stage exchanges values, in terms of what carries each member.
structure Exchanges (t : Target) (m : Model) (stage : Stage) (f : ShaderFunction)
    (source : StageSource) (inputs outputs : List InterfaceVariable) : Prop where
  interface  : source.interface = .exchange inputs outputs
  function   : source.main.function = functionName f.id
  inputType  : source.main.inputType = f.parameters.head?.map (t.spelled ·.ty)
  inputs     : inputs = (carried (.ofInput stage) (m.inputFields f)).filterMap fun part =>
    part.2.declared? t true part.1
  before     : source.main.before = (carried (.ofInput stage) (m.inputFields f)).map (copyIn stage)
  outputType : source.main.outputType =
    if f.returnType.isVoid then none else some (t.spelled f.returnType)
  structured : ∀ s, m.outputStructure? f = some s →
    outputs = ((carried (.ofOutput stage) s.fields).filterMap fun part =>
      part.2.declared? t false part.1) ∧
    source.main.after = (carried (.ofOutput stage) s.fields).flatMap (stepsOut t stage)
  nothing    : f.returnType.isVoid → outputs = [] ∧ source.main.after = []
  color      : m.outputStructure? f = none → ¬f.returnType.isVoid →
    outputs = [colorVariable 0 "_outputColor_"] ∧
    source.main.after = [.copy (.global "_outputColor_") .output]

namespace Target

theorem main_of_stageSource (h : t.stageSource input = .ok source) :
    t.stageMain input = .ok source.main := by
  simp only [stageSource] at h
  split at h
  case isTrue => cases h
  case isFalse =>
    obtain ⟨_, _, h⟩ := bind_eq_ok_iff.mp h
    obtain ⟨_, _, h⟩ := bind_eq_ok_iff.mp h
    obtain ⟨_, _, h⟩ := bind_eq_ok_iff.mp h
    obtain ⟨_, main, h⟩ := bind_eq_ok_iff.mp h
    cases h
    exact main

variable {main : Main}

theorem function_of_stageMain (h : t.stageMain input = .ok main) :
    main.function = functionName input.entry.function.id := by
  have ⟨_, _, h⟩ := bind_eq_ok_iff.mp h
  have ⟨_, _, h⟩ := bind_eq_ok_iff.mp h
  cases h
  rfl

-- A parameter that is not of a structure of the set is left out.
theorem input_of_stageMain (h : t.stageMain input = .ok main)
    (found : ∀ q ∈ input.entry.function.parameters.head?, input.inputStructure?.isSome) :
    main.inputType = input.entry.function.parameters.head?.map (t.spelled ·.ty) ∧
    main.before = (input.inputStructure?.map (inputSteps input.stage)).getD [] := by
  have ⟨_, first, h⟩ := bind_eq_ok_iff.mp h
  have ⟨_, _, h⟩ := bind_eq_ok_iff.mp h
  cases h
  split at first
  case h_1 q rest s parameters known =>
    have ⟨_, typed, first⟩ := bind_eq_ok_iff.mp first
    cases first
    simp [parameters, known, spelled_of_typeName typed]
  case h_2 other =>
    cases first
    cases parameters : input.entry.function.parameters
    case nil => simp [StageInput.inputStructure?, parameters]
    case cons q rest =>
      have ⟨s, known⟩ := Option.isSome_iff_exists.mp (found q (by simp [parameters]))
      exact absurd known (other q rest s parameters)

theorem output_of_stageMain (h : t.stageMain input = .ok main) :
    main.outputType = (if input.entry.function.returnType.isVoid then none
      else some (t.spelled input.entry.function.returnType)) ∧
    main.after =
      if input.entry.function.returnType.isVoid then [] else t.outputSteps input := by
  have ⟨_, _, h⟩ := bind_eq_ok_iff.mp h
  have ⟨_, second, h⟩ := bind_eq_ok_iff.mp h
  cases h
  split at second
  case isTrue void =>
    cases second
    simp [void]
  case isFalse void =>
    have ⟨_, typed, second⟩ := bind_eq_ok_iff.mp second
    cases second
    simp [void, spelled_of_typeName typed]

end Target

variable {entry : StageEntry} {texts : List String}

theorem inputStructure?_eq :
    (StageInput.mk stage entry m.dependencyOrder texts).inputStructure? =
    entry.function.parameters.head?.bind fun q => m.structure? q.ty.name := by
  simp only [StageInput.inputStructure?, StageInput.structure?, Model.find?_dependencyOrder]
  rfl

theorem outputStructure?_eq :
    (StageInput.mk stage entry m.dependencyOrder texts).outputStructure? =
    m.outputStructure? entry.function := by
  simp only [StageInput.outputStructure?, StageInput.structure?, Model.find?_dependencyOrder]
  rfl

theorem inputs_of_stageInterface {interface : Interface}
    (h : t.stageInterface input = .ok interface) (graphics : input.stage ≠ .compute) :
    ∃ inputs outputs, interface = .exchange inputs outputs ∧
      inputs = (carried (.ofInput input.stage)
        ((input.inputStructure?.map Structure.fields).getD [])).filterMap (fun part =>
          part.2.declared? t true part.1) ∧
      (input.stage = .vertex → t.varyingVariables false input.outputStructure? = .ok outputs) ∧
      (input.stage = .fragment → outputs = colorVariables input) := by
  obtain ⟨stage, entry, structures, texts⟩ := input
  cases stage
  case vertex =>
    have ⟨inputs, taken, h⟩ := bind_eq_ok_iff.mp h
    have ⟨outputs, given, h⟩ := bind_eq_ok_iff.mp h
    cases h
    refine ⟨inputs, outputs, rfl, ?_, fun _ => given, nofun⟩
    generalize StageInput.inputStructure? _ = s at taken
    cases s
    case none   => cases taken; rfl
    case some s => exact vertexInputs_eq_ok taken
  case fragment =>
    have ⟨inputs, taken, h⟩ := bind_eq_ok_iff.mp h
    cases h
    refine ⟨inputs, _, rfl, ?_, nofun, fun _ => rfl⟩
    generalize StageInput.inputStructure? _ = s at taken
    cases s
    case none   => cases taken; rfl
    case some s => exact varyingVariables_eq_ok taken
  case compute => exact absurd rfl graphics

theorem exchanges_of_stageSource
    (h : t.stageSource ⟨stage, entry, m.dependencyOrder, texts⟩ = .ok source)
    (graphics : stage ≠ .compute) (admits : m.Admits stage entry.function) :
    ∃ inputs outputs, Exchanges t m stage entry.function source inputs outputs := by
  have main := Target.main_of_stageSource h
  have ⟨inputs, outputs, interface, inputs_eq, vertex, fragment⟩ :=
    inputs_of_stageInterface (Target.sourceParts_of_stageSource h).interface graphics
  rw [outputStructure?_eq] at vertex
  rw [inputStructure?_eq] at inputs_eq
  have ⟨inputType, before⟩ := Target.input_of_stageMain main (by
    rw [inputStructure?_eq]
    intro q head
    rcases admits.input with none | ⟨q, s, one, _, known⟩
    case inl => simp [none] at head
    case inr => simp [one, known])
  have ⟨outputType, after⟩ := Target.output_of_stageMain main
  rw [inputStructure?_eq] at before
  refine ⟨inputs, outputs, {
    interface  := interface
    function   := Target.function_of_stageMain main
    inputType  := inputType
    inputs     := inputs_eq
    before     := ?before
    outputType := outputType
    structured := ?structured
    nothing    := ?nothing
    color      := ?color }⟩
  case before =>
    rw [before, Model.inputFields]
    generalize entry.function.parameters.head?.bind _ = s
    cases s
    case none   => rfl
    case some s => exact inputSteps_eq graphics
  case structured =>
    intro s known
    have value : ¬entry.function.returnType.isVoid := fun void => by
      simp [Model.outputStructure?_of_isVoid void] at known
    rw [if_neg value] at after
    cases stage
    case vertex =>
      rw [known] at vertex
      refine ⟨varyingVariables_eq_ok (vertex rfl), ?_⟩
      rw [after, Target.outputSteps, outputStructure?_eq, known]
      exact vertexOutputSteps_eq
    case fragment =>
      rw [fragment rfl, after, colorVariables, Target.outputSteps, outputStructure?_eq, known]
      exact ⟨colorVariables_eq, colorSteps_eq⟩
    case compute => exact absurd rfl graphics
  case nothing =>
    intro void
    have none : m.outputStructure? entry.function = none := Model.outputStructure?_of_isVoid void
    obtain rfl := admits.stage_eq graphics none
    rw [fragment rfl, after, colorVariables, outputStructure?_eq, none, if_pos void]
    exact ⟨rfl, if_pos void⟩
  case color =>
    intro none value
    obtain rfl := admits.stage_eq graphics none
    rw [fragment rfl, after, colorVariables, Target.outputSteps, outputStructure?_eq, none,
      if_neg value]
    exact ⟨rfl, if_neg value⟩

end Glsl

namespace Generation

variable {p : Program} {set : ShaderSet} {t : Target} {g : GeneratedSet} {l l' : Layouts}

theorem validate_of_run (h : (generateFor p set t).run l = .ok g l') :
    g.model.validate = .ok () := by
  have ⟨_, _, _, h⟩ := Access.run_bind_eq_ok h
  have ⟨_, _, valid, h⟩ := Access.run_bind_eq_ok h
  have ⟨_, _, _, h⟩ := Access.run_bind_eq_ok h
  cases h
  exact (eq_ok_of_run_liftExcept valid).left

-- All graphics stages of a generated set exchange values in this way, for one target.
theorem exchanges_of_generate {targets : List Target} {o : Outcome}
    (h : generate p targets l = .ok o l') (mem : g ∈ o.sets) :
    ∃ t ∈ targets, ∀ stage entry, stage ≠ .compute → g.model.entry? stage = some entry →
      g.model.Admits stage entry.function ∧ ∃ texts source inputs outputs,
        g.sources.get stage = some source.text ∧
        t.stageSource ⟨stage, entry, g.model.dependencyOrder, texts⟩ = .ok source ∧
        Exchanges t g.model stage entry.function source inputs outputs := by
  have ⟨_, _, set, _, t, target, _, _, _, run⟩ :=
    exists_run_of_generate (P := fun _ => True) (fun _ _ _ _ => trivial) trivial h mem
  have produced := (generateFor_ensures p set t).of_run run
  refine ⟨t, target, fun stage entry graphics known => ?_⟩
  have admits := Model.admits_of_validate (validate_of_run run) known graphics
  have ⟨_, fs, source, _, made, text⟩ := produced.compiled known
  have ⟨inputs, outputs, exchanges⟩ := exchanges_of_stageSource made graphics admits
  exact ⟨admits, _, source, inputs, outputs, text, made, exchanges⟩

theorem writeStages_cons {m : Model} {stage : Stage} {entry : StageEntry}
    {emitted : List (Stage × List EmittedFunction)} {fs : List EmittedFunction}
    {order : List Structure} {source : StageSource} {sources : PerStage (Option String)}
    (known : m.entry? stage = some entry) (ordered : m.dependencyOrder = order)
    (made : t.stageSource ⟨stage, entry, order, fs.map EmittedFunction.text⟩ = .ok source)
    (rest : writeStages t m emitted = .ok sources) :
    writeStages t m ((stage, fs) :: emitted) = .ok (sources.set stage (some source.text)) := by
  simp only [writeStages, known]
  rw [ordered, made, rest]
  rfl

end Generation

open Generation

def rise : MethodDecl where
  name       := "rise"
  returnType := .struct "Crest" []
  parameters := [{ name := "swell", ty := .struct "Swell" [] }]
  stage      := some .vertex
  body       := some [
    .declare "crest" (.struct "Crest" []) none,
    .ret (some (.name ⟨.struct "Crest" [], none⟩ ⟨"", "crest", .local⟩))]

def glow : MethodDecl where
  name       := "glow"
  returnType := .primitive "Vector4" []
  parameters := [{ name := "crest", ty := .struct "Crest" [] }]
  stage      := some .fragment
  body       := some [
    .ret (some (.member ⟨.primitive "Vector4" [], none⟩
      (.name ⟨.struct "Crest" [], none⟩ ⟨"", "crest", .parameter⟩) ⟨"Crest", "height", .field⟩))]

-- A buoy that rises with the swell. One member is named like the input of main, one is a matrix,
-- and one is an array.
def buoy : Program where
  types         := [
    { name := "Swell", kind := .struct, fields := [
      { name := "_input", ty := .primitive "Vector4" [], semantic := .position },
      { name := "frame", ty := .primitive "Matrix4x4" [], semantic := .textureCoordinate },
      { name := "foam", ty := .primitive "Vector4" [], semantic := .color }] },
    { name := "Crest", kind := .struct, fields := [
      { name := "height", ty := .primitive "Vector4" [], semantic := .systemPosition },
      { name := "weights", ty := .array "float[]" (.primitive "float" []) [],
        semantic := .textureCoordinate, arraySize := some 3 }] },
    { name := "Buoy", kind := .object, methods := [rise, glow] }]
  sets          := []
  types_nodup   := by decide
  methods_nodup := by decide

def buoySet : ShaderSet where
  name    := "Buoy"
  entries := ⟨some ⟨"Buoy", "rise"⟩, some ⟨"Buoy", "glow"⟩, none⟩

def buoyContext (structures : List Structure) : Context where
  backend    := Target.name {}
  set        := "Buoy"
  structures := structures
  functions  := [.ofDecl "Buoy" rise, .ofDecl "Buoy" glow]
  stages     := ⟨some ⟨⟨"Buoy", "rise"⟩, [⟨"Buoy", "rise"⟩], []⟩,
    some ⟨⟨"Buoy", "glow"⟩, [⟨"Buoy", "glow"⟩], []⟩, none⟩

def swellStructure : Structure where
  name      := "Swell"
  fields    := [
    ⟨"_input", .primitive "Vector4" [], .position, 0, ⟨16, 16, 4, 16⟩⟩,
    ⟨"frame", .primitive "Matrix4x4" [], .textureCoordinate, 0, ⟨64, 64, 4, 16⟩⟩,
    ⟨"foam", .primitive "Vector4" [], .color, 0, ⟨16, 16, 4, 16⟩⟩]
  footprint := ⟨96, 96, 4, 16⟩
  agrees    := true

def crestStructure : Structure where
  name      := "Crest"
  fields    := [
    ⟨"height", .primitive "Vector4" [], .systemPosition, 0, ⟨16, 16, 4, 16⟩⟩,
    ⟨"weights", .array "float[]" (.primitive "float" []) [], .textureCoordinate, 3, ⟨12, 12, 4, 4⟩⟩]
  footprint := ⟨28, 28, 4, 16⟩
  agrees    := true

def buoyLayouts : Layouts where
  known := [("Crest", ⟨28, 28, 4, 16⟩), ("float", ⟨4, 4, 4, 4⟩), ("Swell", ⟨96, 96, 4, 16⟩),
    ("Matrix4x4", ⟨64, 64, 4, 16⟩), ("Vector4", ⟨16, 16, 4, 16⟩)]

def buoyModel : Model := (buoyContext [swellStructure, crestStructure]).build

theorem buoy_structures :
    (Context.discoverAll buoy (buoyContext []) ((buoyContext []).touchedTypes buoy)).run {} =
    .ok (.ok (), buoyContext [swellStructure, crestStructure]) buoyLayouts := by
  cbv

theorem buoy_order : buoyModel.dependencyOrder = [swellStructure, crestStructure] := by cbv

def buoyEntry (m : MethodDecl) : StageEntry where
  function  := .ofDecl "Buoy" m
  functions := [⟨"Buoy", m.name⟩]
  resources := []

def buoyDecls : String :=
  "#version 450\n\n" ++
  "struct Swell\n\x7b\n    vec4 _input;\n    mat4 frame;\n    vec4 foam;\n\x7d;\n\n" ++
  "struct Crest\n\x7b\n    vec4 height;\n    float weights[3];\n\x7d;\n\n"

def riseSource : String :=
  buoyDecls ++
  "layout(location = 0) in vec4 _input;\n" ++
  "layout(location = 1) in mat4 frame;\n" ++
  "layout(location = 2) in vec4 foam;\n" ++
  "layout(location = 0) out float fsin_0;\n\n" ++
  "Crest rise(Swell swell)\n\x7b\n    Crest crest;\n    return crest;\n\x7d\n\n" ++
  "void main()\n\x7b\n    Swell _input;\n    _input._input = _input;\n" ++
  "    _input.frame = frame;\n    _input.foam = foam;\n    Crest _output = rise(_input);\n" ++
  "    gl_Position = _output.height;\n    fsin_0 = _output.weights;\n\x7d\n"

def glowSource : String :=
  buoyDecls ++
  "layout(location = 0) in float fsin_0;\nlayout(location = 0) out vec4 _outputColor_;\n\n" ++
  "vec4 glow(Crest crest)\n\x7b\n    return crest.height;\n\x7d\n\n" ++
  "void main()\n\x7b\n    Crest _input;\n    _input.height = gl_FragCoord;\n" ++
  "    _input.weights = fsin_0;\n    vec4 _output = glow(_input);\n" ++
  "    _outputColor_ = _output;\n\x7d\n"

theorem buoy_emitted : ∃ fs fs', emitStages buoy {} [.vertex, .fragment]
      (buoyContext [swellStructure, crestStructure]) =
      .ok ([(.vertex, fs), (.fragment, fs')], buoyContext [swellStructure, crestStructure]) ∧
    (∃ source, Target.stageSource {} ⟨.vertex, buoyEntry rise, [swellStructure, crestStructure],
      fs.map EmittedFunction.text⟩ = .ok source ∧ source.text = riseSource) ∧
    (∃ source, Target.stageSource {} ⟨.fragment, buoyEntry glow, [swellStructure, crestStructure],
      fs'.map EmittedFunction.text⟩ = .ok source ∧ source.text = glowSource) :=
  ⟨_, _, rfl, ⟨_, rfl, by decide +kernel⟩, ⟨_, rfl, by decide +kernel⟩⟩

theorem buoy_generated :
    generate buoy [{}] {} = .ok ⟨[⟨"Buoy", Target.name {}, buoyModel,
      ⟨some riseSource, some glowSource, none⟩⟩], []⟩ buoyLayouts := by
  have discovered : ShaderSet.discover buoy = .ok [buoySet] := by cbv
  have collected : collectFunctions buoy buoySet
      { backend := Target.name {}, set := "Buoy", resources := [] } = .ok (buoyContext []) := by cbv
  have valid : buoyModel.validate = .ok () := by cbv
  obtain ⟨fs, fs', emission, ⟨source, made, text⟩, ⟨source', made', text'⟩⟩ := buoy_emitted
  rw [← text, ← text']
  exact generate_eq_ok discovered (run_assemble rfl collected buoy_structures emission) valid
    (writeStages_cons rfl buoy_order made (writeStages_eq_ok rfl buoy_order made'))

end Shading
