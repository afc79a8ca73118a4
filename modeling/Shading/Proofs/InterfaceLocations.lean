import Shading.Proofs.StageInterface
import Mathlib
/-!
The locations of the interface.

A variable occupies as many locations as its type is wide, beginning with the one that it is
declared with. The variables are numbered one by one, so their locations are apart exactly if all
but the last are one location wide.
-/

namespace Shading.Glsl

-- The widths of types that are not one location wide are known by their names.
def typeWidth (known : List (String × Nat)) (ty : String) : Nat :=
  if ty = "mat4" then 4 else ((known.find? (·.1 == ty)).map Prod.snd).getD 1

-- The elements of an array follow each other.
def width (known : List (String × Nat)) (ty : String) (extent : Option Nat) : Nat :=
  typeWidth known ty * extent.getD 1

-- The members of a structure follow each other as well. Each structure comes after those it holds.
def structWidths (decls : List StructDecl) : List (String × Nat) :=
  decls.foldl
    (fun known d => (d.name, (d.members.map fun x => width known x.ty x.extent).sum) :: known) []

def StageSource.widthOf (source : StageSource) (v : InterfaceVariable) : Nat :=
  width (structWidths source.structures) v.ty v.extent

def StageSource.Occupies (source : StageSource) (v : InterfaceVariable) (location : Nat) : Prop :=
  ∃ first, v.location = some first ∧ first ≤ location ∧ location < first + source.widthOf v

def StageSource.Apart (source : StageSource) (v u : InterfaceVariable) : Prop :=
  ∀ location, ¬(source.Occupies v location ∧ source.Occupies u location)

variable {t : Target} {source : StageSource} {v u : InterfaceVariable} {vs : List InterfaceVariable}
  {i j : Nat}

theorem map_fst_structWidths (decls : List StructDecl) :
    (structWidths decls).map Prod.fst = (decls.map StructDecl.name).reverse := by
  have step (known : List (String × Nat)) :
      (decls.foldl (fun known d =>
        (d.name, (d.members.map fun x => width known x.ty x.extent).sum) :: known) known).map
          Prod.fst = (decls.map StructDecl.name).reverse ++ known.map Prod.fst := by
    induction decls generalizing known
    case nil     => rfl
    case cons hi => simp [hi]
  simpa [structWidths] using step []

-- What is neither a matrix nor a structure of the source is one location wide.
theorem typeWidth_eq_one {ty : String} {decls : List StructDecl} (vector : ty ≠ "mat4")
    (other : ty ∉ decls.map StructDecl.name) : typeWidth (structWidths decls) ty = 1 := by
  have none : (structWidths decls).find? (·.1 == ty) = none := by
    rw [List.find?_eq_none]
    intro pair mem same
    have named := List.mem_map_of_mem (f := Prod.fst) mem
    rw [map_fst_structWidths, List.mem_reverse, beq_iff_eq.mp same] at named
    exact other named
  rw [typeWidth, if_neg vector, none]
  rfl

theorem occupies_iff {location : Nat} (first : v.location = some i) :
    source.Occupies v location ↔ i ≤ location ∧ location < i + source.widthOf v := by
  simp [StageSource.Occupies, first]

theorem apart_iff (first : v.location = some i) (second : u.location = some j) (lt : i < j) :
    source.Apart v u ↔ source.widthOf u = 0 ∨ i + source.widthOf v ≤ j := by
  simp only [StageSource.Apart, occupies_iff first, occupies_iff second]
  constructor
  · intro apart
    by_contra both
    exact apart j (by omega)
  · intro either location both
    omega

-- Variables that are located one by one. Where no type is empty, they are apart if they are no
-- wider.
structure Located (source : StageSource) (vs : List InterfaceVariable) : Prop where
  locations : vs.map InterfaceVariable.location = (List.range vs.length).map some
  apart     : vs.Pairwise source.Apart ↔ ∀ i j, ∀ lt : i < j, ∀ bound : j < vs.length,
    source.widthOf vs[j] = 0 ∨ i + source.widthOf vs[i] ≤ j
  narrow    : (∀ v ∈ vs, source.widthOf v ≠ 0) →
    (vs.Pairwise source.Apart ↔ ∀ v ∈ vs.dropLast, source.widthOf v = 1)

theorem located_of_locations
    (locations : vs.map InterfaceVariable.location = (List.range vs.length).map some) :
    Located source vs := by
  have located (i : Nat) (bound : i < vs.length) : vs[i].location = some i := by
    have same := congrArg (·[i]?) locations
    simpa [bound] using same
  have apart : vs.Pairwise source.Apart ↔ ∀ i j, ∀ lt : i < j, ∀ bound : j < vs.length,
      source.widthOf vs[j] = 0 ∨ i + source.widthOf vs[i] ≤ j := by
    rw [List.pairwise_iff_getElem]
    constructor
    · intro apart i j lt bound
      exact (apart_iff (located i _) (located j bound) lt).mp (apart i j _ bound lt)
    · intro each i j _ bound lt
      exact (apart_iff (located i _) (located j bound) lt).mpr (each i j lt bound)
  refine ⟨locations, apart, fun wide => ?_⟩
  rw [apart]
  constructor
  · intro each v mem
    obtain ⟨i, bound, rfl⟩ := List.mem_iff_getElem.mp mem
    rw [List.length_dropLast] at bound
    rw [List.getElem_dropLast]
    have next := each i (i + 1) (by omega) (by omega)
    have := wide vs[i] (List.getElem_mem _)
    have := wide vs[i + 1] (List.getElem_mem _)
    omega
  · intro narrow i j lt bound
    have mem : vs[i] ∈ vs.dropLast :=
      List.mem_iff_getElem.mpr ⟨i, by simp; omega, List.getElem_dropLast ..⟩
    rw [narrow _ mem]
    omega

-- The variables through which a stage exchanges values, if any.
def Interface.inputs : Interface → List InterfaceVariable
  | exchange inputs _ => inputs
  | group _           => []

def Interface.outputs : Interface → List InterfaceVariable
  | exchange _ outputs => outputs
  | group _            => []

-- Those through which the stages exchange values with each other.
def StageSource.varyings (source : StageSource) : Stage → List InterfaceVariable
  | .vertex   => source.interface.outputs
  | .fragment => source.interface.inputs
  | .compute  => []

theorem map_zipIdx_location {as : List α} {g : α × Nat → InterfaceVariable}
    (each : ∀ a k, (g (a, k)).location = some k) :
    (as.zipIdx.map g).map InterfaceVariable.location =
    (List.range (as.zipIdx.map g).length).map some := by
  have numbers : as.zipIdx.map Prod.snd = List.range as.length := by simp [List.range_eq_range']
  rw [List.length_map, List.length_zipIdx, ← numbers, List.map_map, List.map_map]
  exact List.map_congr_left fun part _ => each part.1 part.2

namespace Exchanges

variable {m : Model} {stage : Stage} {f : ShaderFunction} {inputs outputs : List InterfaceVariable}

theorem located_inputs (e : Exchanges t m .vertex f source inputs outputs) :
    Located source source.interface.inputs := by
  rw [e.interface, Interface.inputs, e.inputs, declared_vertexInputs]
  exact located_of_locations (map_zipIdx_location fun _ _ => rfl)

theorem exists_varyings (e : Exchanges t m stage f source inputs outputs)
    (graphics : stage ≠ .compute) (admits : m.Admits stage f) :
    ∃ (fields : List Field) (isInput : Bool), source.varyings stage =
      fields.zipIdx.map fun part => t.varyingVariable isInput part.2 part.1 := by
  cases stage
  case vertex =>
    have ⟨s, known, _⟩ := admits.vertex rfl
    refine ⟨travelling s.fields, false, ?_⟩
    rw [StageSource.varyings, e.interface, Interface.outputs, (e.structured s known).left]
    exact declared_between
  case fragment =>
    refine ⟨travelling (m.inputFields f), true, ?_⟩
    rw [StageSource.varyings, e.interface, Interface.inputs, e.inputs]
    exact declared_between
  case compute => exact absurd rfl graphics

theorem located_varyings (e : Exchanges t m stage f source inputs outputs)
    (graphics : stage ≠ .compute) (admits : m.Admits stage f) :
    if t.version.usesDescriptorSets then Located source (source.varyings stage)
    else ∀ v ∈ source.varyings stage, v.location = none := by
  have ⟨fields, isInput, varyings⟩ := e.exists_varyings graphics admits
  rw [varyings]
  split
  case isTrue sets =>
    exact located_of_locations (map_zipIdx_location fun _ _ => if_pos sets)
  case isFalse sets =>
    intro v mem
    obtain ⟨part, _, rfl⟩ := List.mem_map.mp mem
    exact if_neg sets

end Exchanges
end Shading.Glsl

namespace Shading

open Glsl Generation

theorem interface_locations_in_order (p : Program) (targets : List Target) (l l' : Layouts)
    (o : Outcome) (g : GeneratedSet) (stage : Stage) (entry : StageEntry)
    (h : generate p targets l = .ok o l') (mem : g ∈ o.sets)
    (known : g.model.entry? stage = some entry) :
    ∃ t ∈ targets, ∃ source : StageSource, g.sources.get stage = some source.text ∧
      (stage = .vertex → Located source source.interface.inputs) ∧
      if t.version.usesDescriptorSets then Located source (source.varyings stage)
      else ∀ v ∈ source.varyings stage, v.location = none := by
  by_cases graphics : stage = .compute
  case pos =>
    obtain ⟨t, target, _, source, _, _, text⟩ := compiled_of_generate h mem known
    refine ⟨t, target, source, text, fun vertex => ?_, ?_⟩
    · cases graphics.symm.trans vertex
    · cases graphics
      simp [StageSource.varyings, located_of_locations]
  case neg =>
    obtain ⟨t, target, each⟩ := exchanges_of_generate h mem
    obtain ⟨admits, _, source, _, _, text, _, e⟩ := each stage entry graphics known
    refine ⟨t, target, source, text, ?_, e.located_varyings graphics admits⟩
    rintro rfl
    exact e.located_inputs

theorem interface_locations_in_order_buoy :
    ∃ o l' g entry source, generate buoy [{}] {} = .ok o l' ∧ g ∈ o.sets ∧
      g.model.entry? .vertex = some entry ∧
      g.sources.get .vertex = some (StageSource.text source) ∧
      Located source source.interface.inputs ∧ Located source (source.varyings .vertex) := by
  obtain ⟨t, target, source, text, inputs, varyings⟩ := interface_locations_in_order buoy [{}] {}
    _ _ _ .vertex (buoyEntry rise) buoy_generated List.mem_cons_self rfl
  cases List.mem_singleton.mp target
  exact ⟨_, _, _, _, source, buoy_generated, List.mem_cons_self, rfl, text, inputs rfl, varyings⟩

-- A matrix occupies the location of the vertex input after it.
theorem buoy_locations_overlap :
    ∃ o l' g entry source v u, generate buoy [{}] {} = .ok o l' ∧ g ∈ o.sets ∧
      g.model.entry? .vertex = some entry ∧
      g.sources.get .vertex = some (StageSource.text source) ∧ source.text = riseSource ∧
      v ∈ source.interface.inputs ∧ u ∈ source.interface.inputs ∧
      v.name = "frame" ∧ u.name = "foam" ∧ source.Occupies v 2 ∧ source.Occupies u 2 := by
  obtain ⟨t, target, each⟩ := exchanges_of_generate buoy_generated List.mem_cons_self
  obtain ⟨_, texts, source, inputs, outputs, text, made, e⟩ :=
    each .vertex (buoyEntry rise) (by simp) rfl
  cases List.mem_singleton.mp target
  have parts := Target.sourceParts_of_stageSource made
  have inputs_eq : inputs = [
      ⟨some 0, false, true, "vec4", "_input", none⟩,
      ⟨some 1, false, true, "mat4", "frame", none⟩,
      ⟨some 2, false, true, "vec4", "foam", none⟩] := by
    rw [e.inputs]
    decide +kernel
  have named : source.structures.map StructDecl.name = ["Swell", "Crest"] := by
    have order : Model.dependencyOrder _ = _ := buoy_order
    have same := map_eq_map_of_forall₂ parts.structures fun _ _ => Target.name_of_structDecl
    have spelled :
        [swellStructure, crestStructure].map (identifier ·.short) = ["Swell", "Crest"] := by
      decide +kernel
    rw [same, ← spelled, ← order]
  have foam : typeWidth (structWidths source.structures) "vec4" = 1 :=
    typeWidth_eq_one (by decide) (named ▸ by decide)
  refine ⟨_, _, _, _, source, ⟨some 1, false, true, "mat4", "frame", none⟩,
    ⟨some 2, false, true, "vec4", "foam", none⟩, buoy_generated, List.mem_cons_self, rfl, text,
    (Option.some.inj text).symm, ?_, ?_, rfl, rfl, ?_, ?_⟩
  · simp [e.interface, Interface.inputs, inputs_eq]
  · simp [e.interface, Interface.inputs, inputs_eq]
  · simp [StageSource.Occupies, StageSource.widthOf, width, typeWidth]
  · simp [StageSource.Occupies, StageSource.widthOf, width, foam]

end Shading
