import Shading.Proofs.StageInterface
import Mathlib
/-!
The types of what `main` copies between the interface and its input and output.

The declarations of a source give a type to each place that is copied from or to. Vertex inputs are
declared like the members that they are copied to. All other variables of the interface are not
arrays, and those that hold a position or a color are vectors, whatever the members are.
-/

namespace Shading.Glsl

-- The name of a type, and the extent of an array.
abbrev DeclaredType := String × Option Nat

-- What a place is declared with in a source. The positions are builtin.
inductive Declares (source : StageSource) : Place → DeclaredType → Prop
  | interface {inputs outputs : List InterfaceVariable} {v : InterfaceVariable}
    (exchange : source.interface = .exchange inputs outputs) (mem : v ∈ inputs ++ outputs) :
    Declares source (.global v.name) (v.ty, v.extent)
  | position (stage : Stage) : Declares source (.global (positionName stage)) ("vec4", none)
  | inputMember {d : StructDecl} {x : Member} (mem : d ∈ source.structures)
    (taken : source.main.inputType = some d.name) (member : x ∈ d.members) :
    Declares source (.inputMember x.name) (x.ty, x.extent)
  | outputMember {d : StructDecl} {x : Member} (mem : d ∈ source.structures)
    (given : source.main.outputType = some d.name) (member : x ∈ d.members) :
    Declares source (.outputMember x.name) (x.ty, x.extent)
  | output {ty : String} (given : source.main.outputType = some ty) :
    Declares source .output (ty, none)

variable {t : Target} {m : Model} {stage : Stage} {f : ShaderFunction} {source : StageSource}
  {inputs outputs : List InterfaceVariable} {x : Field} {c : Carrier} {input : StageInput}
  {s : Structure}

theorem Declares.of_global {name : String} {ty : DeclaredType}
    (h : Declares source (.global name) ty) :
    (∃ inputs outputs v, source.interface = .exchange inputs outputs ∧ v ∈ inputs ++ outputs ∧
      v.name = name ∧ ty = (v.ty, v.extent)) ∨
    ∃ stage, name = positionName stage ∧ ty = ("vec4", none) := by
  generalize place : Place.global name = outer at h
  cases h <;> cases place
  case interface exchange mem => exact .inl ⟨_, _, _, exchange, mem, rfl, rfl⟩
  case position stage         => exact .inr ⟨stage, rfl, rfl⟩

theorem Declares.of_outputMember {name : String} {ty : DeclaredType}
    (h : Declares source (.outputMember name) ty) :
    ∃ d ∈ source.structures, source.main.outputType = some d.name ∧
      ∃ x ∈ d.members, x.name = name ∧ ty = (x.ty, x.extent) := by
  generalize place : Place.outputMember name = inner at h
  cases h <;> cases place
  case outputMember d x mem given member => exact ⟨d, mem, given, x, member, rfl, rfl⟩

def Target.memberType (t : Target) (x : Field) : DeclaredType := (t.spelled x.ty, fieldExtent x)

-- The type of the variable that carries a member.
def Carrier.type (t : Target) (x : Field) : Carrier → DeclaredType
  | vertexInput _ => t.memberType x
  | varying _     => (t.spelled x.ty, none)
  | color _       => ("vec4", none)
  | position      => ("vec4", none)

theorem fieldExtent_eq_none_iff : fieldExtent x = none ↔ ¬x.isArray := by
  simp [fieldExtent]

theorem memberType_eq_vec4_iff :
    ("vec4", none) = t.memberType x ↔ ¬x.isArray ∧ t.spelled x.ty = "vec4" := by
  rw [Target.memberType, Prod.mk.injEq, eq_comm (a := none), fieldExtent_eq_none_iff, and_comm,
    eq_comm (a := "vec4")]

def Target.memberDecl (t : Target) (x : Field) : Member :=
  ⟨t.spelled x.ty, identifier x.name, fieldExtent x⟩

theorem members_of_structDecl {d : StructDecl} (made : t.structDecl s = .ok d) :
    d.members = s.fields.map t.memberDecl := by
  have ⟨members, each, made⟩ := bind_eq_ok_iff.mp made
  cases made
  have same := map_eq_map_of_forall₂ (g := id) (list_mapM_eq_ok_iff.mp each)
    fun x member made => show member = t.memberDecl x by
      have ⟨_, typed, made⟩ := bind_eq_ok_iff.mp made
      cases made
      rw [Target.memberDecl, spelled_of_typeName typed]
      rfl
  rwa [List.map_id] at same

-- A structure of the set is declared by the name that its type has in the source.
theorem exists_structDecl {ty : TypeRef} (parts : SourceParts t input source)
    (structures : input.structures = m.dependencyOrder) (struct : ty.isStruct)
    (known : m.structure? ty.name = some s) :
    ∃ d ∈ source.structures, d.name = t.spelled ty ∧
      ∀ x ∈ s.fields, t.memberDecl x ∈ d.members := by
  have named := Model.name_of_structure? known
  have mem : s ∈ input.structures := structures ▸ Model.mem_dependencyOrder.mpr (named ▸ known)
  have ⟨d, here, made⟩ := exists_right_of_mem parts.structures mem
  refine ⟨d, here, ?_, fun x mem => members_of_structDecl made ▸ List.mem_map_of_mem mem⟩
  rw [Target.name_of_structDecl made, Structure.short, named]
  cases ty <;> cases struct
  exact (spelled_of_typeName rfl).symm

theorem declares_carrier (isInput : Bool) (exchange : source.interface = .exchange inputs outputs)
    (mem : ∀ v, c.declared? t isInput x = some v → v ∈ inputs ++ outputs) :
    Declares source (.global (c.name stage x)) (c.type t x) := by
  cases c
  case position => exact .position stage
  all_goals exact .interface exchange (mem _ rfl)

-- Where the types of a member and of its variable are the same.
def InputFits (t : Target) (stage : Stage) (x : Field) : Prop :=
  stage = .vertex ∨ ¬x.isArray ∧ (x.semantic = .systemPosition → t.spelled x.ty = "vec4")

def OutputFits (t : Target) (stage : Stage) (x : Field) : Prop :=
  ¬x.isArray ∧ (stage = .fragment ∨ x.semantic = .systemPosition → t.spelled x.ty = "vec4")

theorem type_between {earlier : List Field} :
    (Carrier.between earlier x).type t x = t.memberType x ↔
    ¬x.isArray ∧ (x.semantic = .systemPosition → t.spelled x.ty = "vec4") := by
  rw [Carrier.between]
  split
  case isTrue position  => simp [Carrier.type, memberType_eq_vec4_iff, position]
  case isFalse position =>
    rw [Carrier.type, Target.memberType, Prod.mk.injEq, eq_comm (a := none),
      fieldExtent_eq_none_iff]
    simp [position]

theorem type_ofInput {earlier : List Field} :
    (Carrier.ofInput stage earlier x).type t x = t.memberType x ↔ InputFits t stage x := by
  rw [Carrier.ofInput, InputFits]
  split
  case isTrue vertex  => simp [vertex, Carrier.type]
  case isFalse vertex => simp only [vertex, false_or, type_between]

theorem type_ofOutput {earlier : List Field} (graphics : stage ≠ .compute) :
    (Carrier.ofOutput stage earlier x).type t x = t.memberType x ↔ OutputFits t stage x := by
  rw [Carrier.ofOutput, OutputFits]
  cases stage
  case vertex   => simp [type_between]
  case fragment => simp [Carrier.type, memberType_eq_vec4_iff]
  case compute  => exact absurd rfl graphics

-- A variable and a member that are copied have declared types, which are the same where it fits.
def Compared (t : Target) (source : StageSource) (outer member : Place) (x : Field) (fits : Prop) :
    Prop :=
  ∃ ty, Declares source outer ty ∧ Declares source member (t.memberType x) ∧
    (ty = t.memberType x ↔ fits)

def MainStep.copied? : MainStep → Option (Place × Place)
  | copy target source => some (target, source)
  | flipPosition       => none

theorem forall₂_carried {carrier : List Field → Field → Carrier} {fields : List Field}
    {copy : Field × Carrier → α} {R : α → Field → Prop}
    (each : ∀ x c, (x, c) ∈ carried carrier fields → R (copy (x, c)) x) :
    ((carried carrier fields).map copy).Forall₂ R fields := by
  have related : ((carried carrier fields).map copy).Forall₂ R
      ((carried carrier fields).map Prod.fst) := by
    rw [List.forall₂_map_left_iff, List.forall₂_map_right_iff, List.forall₂_same]
    exact fun part => each part.1 part.2
  rwa [map_fst_carried] at related

namespace Exchanges

theorem declares_input {x : Field} (e : Exchanges t m stage f source inputs outputs)
    (admits : m.Admits stage f) (parts : SourceParts t input source)
    (structures : input.structures = m.dependencyOrder) (mem : x ∈ m.inputFields f) :
    Declares source (.inputMember (identifier x.name)) (t.memberType x) := by
  rcases admits.input with none | ⟨q, s, one, struct, known⟩
  case inl => simp [Model.inputFields, none] at mem
  case inr =>
    obtain ⟨d, here, named, members⟩ := exists_structDecl parts structures struct known
    have taken : source.main.inputType = some d.name := by simp [e.inputType, one, named]
    have mem : x ∈ s.fields := by simpa [Model.inputFields, one, known] using mem
    exact .inputMember here taken (members x mem)

theorem declares_output {x : Field} (e : Exchanges t m stage f source inputs outputs)
    (parts : SourceParts t input source) (structures : input.structures = m.dependencyOrder)
    (known : m.outputStructure? f = some s) (mem : x ∈ s.fields) :
    Declares source (.outputMember (identifier x.name)) (t.memberType x) := by
  have value : ¬f.returnType.isVoid := fun void => by
    simp [Model.outputStructure?_of_isVoid void] at known
  rw [Model.outputStructure?] at known
  split at known
  case isFalse => cases known
  case isTrue struct =>
    obtain ⟨d, here, named, members⟩ := exists_structDecl parts structures struct known
    have given : source.main.outputType = some d.name := by rw [e.outputType, if_neg value, named]
    exact .outputMember here given (members x mem)

theorem forall₂_before (e : Exchanges t m stage f source inputs outputs)
    (admits : m.Admits stage f) (parts : SourceParts t input source)
    (structures : input.structures = m.dependencyOrder) :
    source.main.before.Forall₂ (fun step x => ∃ name,
      step = .copy (.inputMember (identifier x.name)) (.global name) ∧
      Compared t source (.global name) (.inputMember (identifier x.name)) x (InputFits t stage x))
      (m.inputFields f) := by
  rw [e.before]
  refine forall₂_carried fun x c mem => ?_
  have ⟨earlier, carrier⟩ := carrier_of_mem_carried mem
  refine ⟨_, rfl, c.type t x, declares_carrier true e.interface fun v declared => ?_,
    e.declares_input admits parts structures (mem_of_mem_carried mem), carrier ▸ type_ofInput⟩
  rw [e.inputs]
  exact List.mem_append_left _ (List.mem_filterMap.mpr ⟨_, mem, declared⟩)

theorem copied_stepsOut (parts : List (Field × Carrier)) :
    (parts.flatMap (stepsOut t stage)).filterMap MainStep.copied? = parts.map fun part =>
      (.global (part.2.name stage part.1), .outputMember (identifier part.1.name)) := by
  induction parts
  case nil => rfl
  case cons part parts hi =>
    rw [List.flatMap_cons, List.filterMap_append, hi, List.map_cons, stepsOut]
    split <;> rfl

theorem forall₂_after (e : Exchanges t m stage f source inputs outputs)
    (graphics : stage ≠ .compute) (parts : SourceParts t input source)
    (structures : input.structures = m.dependencyOrder) (known : m.outputStructure? f = some s) :
    (source.main.after.filterMap MainStep.copied?).Forall₂ (fun copy x => ∃ name,
      copy = (.global name, .outputMember (identifier x.name)) ∧
      Compared t source (.global name) (.outputMember (identifier x.name)) x (OutputFits t stage x))
      s.fields := by
  have ⟨outputs_eq, after⟩ := e.structured s known
  rw [after, copied_stepsOut]
  refine forall₂_carried fun x c mem => ?_
  have ⟨earlier, carrier⟩ := carrier_of_mem_carried mem
  refine ⟨_, rfl, c.type t x, declares_carrier false e.interface fun v declared => ?_,
    e.declares_output parts structures known (mem_of_mem_carried mem),
    carrier ▸ type_ofOutput graphics⟩
  rw [outputs_eq]
  exact List.mem_append_right _ (List.mem_filterMap.mpr ⟨_, mem, declared⟩)

end Exchanges

-- The types of all copies of main. Other results than structures are copied as they are.
structure TypedCopies (t : Target) (m : Model) (stage : Stage) (f : ShaderFunction)
    (source : StageSource) : Prop where
  inputs  : source.main.before.Forall₂ (fun step x => ∃ name,
    step = .copy (.inputMember (identifier x.name)) (.global name) ∧
    Compared t source (.global name) (.inputMember (identifier x.name)) x (InputFits t stage x))
    (m.inputFields f)
  outputs : ∀ s, m.outputStructure? f = some s →
    (source.main.after.filterMap MainStep.copied?).Forall₂ (fun copy x => ∃ name,
      copy = (.global name, .outputMember (identifier x.name)) ∧
      Compared t source (.global name) (.outputMember (identifier x.name)) x
        (OutputFits t stage x)) s.fields
  color   : m.outputStructure? f = none → ¬f.returnType.isVoid →
    source.main.after = [.copy (.global "_outputColor_") .output] ∧
    Declares source (.global "_outputColor_") ("vec4", none) ∧
    Declares source .output (t.spelled f.returnType, none)
  nothing : f.returnType.isVoid → source.main.after = []

theorem Exchanges.typedCopies (e : Exchanges t m stage f source inputs outputs)
    (graphics : stage ≠ .compute) (admits : m.Admits stage f) (parts : SourceParts t input source)
    (structures : input.structures = m.dependencyOrder) : TypedCopies t m stage f source where
  inputs           := e.forall₂_before admits parts structures
  outputs _        := e.forall₂_after graphics parts structures
  color none value := by
    have ⟨outputs_eq, after⟩ := e.color none value
    have declared : colorVariable 0 "_outputColor_" ∈ inputs ++ outputs := by simp [outputs_eq]
    refine ⟨after, .interface e.interface declared, .output ?_⟩
    rw [e.outputType, if_neg value]
  nothing void     := (e.nothing void).right

end Shading.Glsl

namespace Shading

open Glsl Generation

theorem interface_copies_typed (p : Program) (targets : List Target) (l l' : Layouts) (o : Outcome)
    (g : GeneratedSet) (stage : Stage) (entry : StageEntry)
    (h : generate p targets l = .ok o l') (mem : g ∈ o.sets)
    (graphics : stage ≠ .compute) (known : g.model.entry? stage = some entry) :
    ∃ t ∈ targets, ∃ source : StageSource, g.sources.get stage = some source.text ∧
      TypedCopies t g.model stage entry.function source := by
  obtain ⟨t, target, each⟩ := exchanges_of_generate h mem
  obtain ⟨admits, texts, source, inputs, outputs, text, made, e⟩ := each stage entry graphics known
  have parts := Target.sourceParts_of_stageSource made
  exact ⟨t, target, source, text, e.typedCopies graphics admits parts rfl⟩

theorem interface_copies_typed_buoy :
    ∃ o l' g entry source, generate buoy [{}] {} = .ok o l' ∧ g ∈ o.sets ∧
      g.model.entry? .vertex = some entry ∧
      g.sources.get .vertex = some (StageSource.text source) ∧
      TypedCopies {} g.model .vertex entry.function source := by
  obtain ⟨t, target, source, text, typed⟩ := interface_copies_typed buoy [{}] {} _ _ _ .vertex
    (buoyEntry rise) buoy_generated List.mem_cons_self (by simp) rfl
  cases List.mem_singleton.mp target
  exact ⟨_, _, _, _, source, buoy_generated, List.mem_cons_self, rfl, text, typed⟩

-- The variable of a member that is an array is none.
theorem buoy_weights_mistyped :
    ∃ o l' g entry source, generate buoy [{}] {} = .ok o l' ∧ g ∈ o.sets ∧
      g.model.entry? .vertex = some entry ∧
      g.sources.get .vertex = some (StageSource.text source) ∧ source.text = riseSource ∧
      .copy (.global "fsin_0") (.outputMember "weights") ∈ source.main.after ∧
      Declares source (.global "fsin_0") ("float", none) ∧
      Declares source (.outputMember "weights") ("float", some 3) ∧
      ¬∃ ty, Declares source (.global "fsin_0") ty ∧
        Declares source (.outputMember "weights") ty := by
  obtain ⟨t, target, each⟩ := exchanges_of_generate buoy_generated List.mem_cons_self
  obtain ⟨_, texts, source, inputs, outputs, text, made, e⟩ :=
    each .vertex (buoyEntry rise) (by simp) rfl
  cases List.mem_singleton.mp target
  have parts := Target.sourceParts_of_stageSource made
  have known : buoyModel.outputStructure? (buoyEntry rise).function = some crestStructure := rfl
  have ⟨outputs_eq, after⟩ := e.structured crestStructure known
  have declared : ∀ v ∈ inputs ++ outputs, v.name = "fsin_0" →
      (v.ty, v.extent) = ("float", none) := by
    rw [e.inputs, outputs_eq]
    decide +kernel
  have members : ∀ s ∈ [swellStructure, crestStructure], ∀ x ∈ s.fields.map (Target.memberDecl {}),
      x.name = "weights" → (x.ty, x.extent) = ("float", some 3) := by
    decide +kernel
  refine ⟨_, _, _, _, source, buoy_generated, List.mem_cons_self, rfl, text,
    (Option.some.inj text).symm, ?copied, ?outer, ?inner, ?distinct⟩
  case copied =>
    rw [after]
    decide +kernel
  case outer =>
    refine .interface (v := ⟨some 0, false, false, "float", "fsin_0", none⟩) e.interface ?_
    rw [outputs_eq]
    exact List.mem_append_right _ (by decide +kernel)
  case inner =>
    exact e.declares_output parts rfl known (List.mem_cons_of_mem _ List.mem_cons_self)
  case distinct =>
    rintro ⟨ty, outer, inner⟩
    rcases outer.of_global with ⟨_, _, v, exchange, mem, named, rfl⟩ | ⟨stage, named, _⟩
    case inl =>
      cases e.interface.symm.trans exchange
      have ⟨d, here, _, x, member, named', same⟩ := inner.of_outputMember
      have ⟨s, mem', made⟩ := exists_left_of_mem parts.structures here
      have order : Model.dependencyOrder _ = _ := buoy_order
      have typed := members s (order ▸ mem') x (members_of_structDecl made ▸ member) named'
      rw [declared v mem named, typed] at same
      cases same
    case inr => cases stage <;> simp [positionName] at named

end Shading
