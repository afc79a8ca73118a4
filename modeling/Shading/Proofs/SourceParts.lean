import Shading.Glsl.StageSource
import Shading.Proofs.Packing
import Mathlib
/-!
What the parts of the source of a stage are made from.
-/

namespace Shading.Glsl

-- Without descriptor sets samplers are part of the textures they are used with.
def Target.declares (t : Target) (r : Resource) : Bool :=
  t.version.usesDescriptorSets || (r.kind != .sampler && r.kind != .samplerComparison)

-- Each part of a source, with what it is made from.
structure SourceParts (t : Target) (input : StageInput) (source : StageSource) : Prop where
  header     : source.header = t.headerLines input.entry
  structures : input.structures.Forall₂ (fun s d => t.structDecl s = .ok d) source.structures
  resources  : (input.entry.resources.filter t.declares).Forall₂
    (fun r d => t.resourceDecl? r = .ok (some d)) source.resources
  interface  : t.stageInterface input = .ok source.interface
  functions  : source.functions = input.functions
  main       : t.stageMain input = .ok source.main

namespace Target

variable {t : Target} {input : StageInput} {source : StageSource} {r : Resource} {s : Structure}

theorem name_of_structDecl {d : StructDecl} (h : t.structDecl s = .ok d) :
    d.name = identifier s.short := by
  have ⟨_, _, h⟩ := bind_eq_ok_iff.mp h
  cases h
  rfl

theorem resourceDecl?_eq_ok {decl : Option ResourceDecl} (h : t.resourceDecl? r = .ok decl) :
    decl.map ResourceDecl.name = if t.declares r then some (identifier r.name) else none := by
  simp only [resourceDecl?] at h
  split at h
  case isFalse => cases h
  case isTrue =>
    split at h
    case h_2 | h_3 =>
      split at h
      case isTrue sets =>
        have ⟨_, _, h⟩ := bind_eq_ok_iff.mp h
        cases h
        simp [declares, sets, ResourceDecl.name]
      case isFalse kind sets =>
        cases h
        simp [declares, sets, kind]
    case h_6 kind =>
      cases h
      simp [declares, kind, ResourceDecl.name]
    all_goals
      have ⟨_, _, h⟩ := bind_eq_ok_iff.mp h
      cases h
      simp_all [declares, ResourceDecl.name]

theorem name_of_resourceDecl? {d : ResourceDecl} (h : t.resourceDecl? r = .ok (some d)) :
    d.name = identifier r.name := by
  have named := resourceDecl?_eq_ok h
  split at named
  case isTrue  => exact Option.some.inj named
  case isFalse => cases named

theorem forall₂_resourceDecl? {rs : List Resource} {ds : List (Option ResourceDecl)}
    (h : rs.Forall₂ (fun r d => t.resourceDecl? r = .ok d) ds) :
    (rs.filter t.declares).Forall₂ (fun r d => t.resourceDecl? r = .ok (some d))
      (ds.filterMap id) := by
  induction h
  case nil => exact .nil
  case cons r d rs ds first _ hi =>
    have named := resourceDecl?_eq_ok first
    by_cases declared : t.declares r
    case pos =>
      rw [if_pos declared] at named
      obtain ⟨d, rfl, _⟩ := Option.map_eq_some_iff.mp named
      rw [List.filter_cons_of_pos declared]
      exact .cons first hi
    case neg =>
      rw [if_neg declared] at named
      cases Option.map_eq_none_iff.mp named
      rw [List.filter_cons_of_neg declared]
      exact hi

theorem sourceParts_of_stageSource (h : t.stageSource input = .ok source) :
    SourceParts t input source := by
  simp only [stageSource] at h
  split at h
  case isTrue => cases h
  case isFalse =>
    have ⟨_, structures, h⟩ := bind_eq_ok_iff.mp h
    have ⟨_, resources, h⟩ := bind_eq_ok_iff.mp h
    have ⟨_, interface, h⟩ := bind_eq_ok_iff.mp h
    have ⟨_, main, h⟩ := bind_eq_ok_iff.mp h
    cases h
    exact {
      header     := rfl
      structures := list_mapM_eq_ok_iff.mp structures
      resources  := forall₂_resourceDecl? (list_mapM_eq_ok_iff.mp resources)
      interface  := interface
      functions  := rfl
      main       := main }

end Target

namespace SourceParts

variable {t : Target} {input : StageInput} {source : StageSource}

theorem structureNames (h : SourceParts t input source) :
    source.structures.map StructDecl.name =
    input.structures.map fun s => identifier s.short :=
  map_eq_map_of_forall₂ h.structures fun _ _ => Target.name_of_structDecl

theorem resourceNames (h : SourceParts t input source) :
    source.resources.map ResourceDecl.name =
    (input.entry.resources.filter t.declares).map fun r => identifier r.name :=
  map_eq_map_of_forall₂ h.resources fun _ _ => Target.name_of_resourceDecl?

end SourceParts
end Shading.Glsl
