import Shading.Proofs.StageEntries
import Mathlib
/-!
The slots of resources: how requests are answered, and which slots the resources of a generated set
take up.
-/

namespace Shading

open Binder

-- A set that is generated has had all of its requests granted.
theorem answers_of_generate {p : Program} {targets : List Glsl.Target} {l l' : Layouts}
    {o : Outcome} {g : GeneratedSet} (h : generate p targets l = .ok o l') (mem : g ∈ o.sets) :
    ∃ sets set, ShaderSet.discover p = .ok sets ∧ set ∈ sets ∧ g.name = set.name ∧
      answers {} (set.requests p) = g.model.resources.map .ok ∧
      Resource.Assigned g.model.resources := by
  have ⟨sets, discovered, set, mem, _, _, produced⟩ := Generation.produced_of_generate h mem
  have ⟨_, c, assembled, built, _⟩ := produced.written
  have bound : Generation.bindResources p set = .ok g.model.resources := built ▸ assembled.bound
  exact ⟨sets, set, discovered, mem, produced.name, Generation.bindResources_eq_ok_iff.mp bound,
    Generation.assigned_of_bindResources bound⟩

theorem slots_filled_in_request_order :
    (∀ (earlier later : List Request) (q : Request),
      ∃ (answer : Except Error Resource) (rest : List (Except Error Resource)),
      (answers {} (earlier ++ q :: later) = answers {} earlier ++ answer :: rest) ∧
      ((∃ e, answer = .error e) ↔
        ¬q.Classifies ∨ ∃ r, .ok r ∈ answers {} earlier ∧ r.name = q.field.name) ∧
      ((∃ e, answer = .error e) →
        after {} (earlier ++ [q]) = after {} earlier ∧
        answers {} (earlier ++ later) = answers {} earlier ++ rest) ∧
      ∀ r, answer = .ok r →
        (r.name = q.field.name ∧ r.owner = q.owner) ∧
        (Resource.classify q.field.name q.field.ty = .ok (r.kind, r.valueType)) ∧
        (r.descriptorSet = q.field.resourceSet.getD 0) ∧
        (r.binding = (granted (answers {} earlier)).countP (·.descriptorSet == r.descriptorSet))) ∧
    (∀ qs : List Request,
      ((after {} qs).Records (granted (answers {} qs))) ∧
      (Resource.Assigned (granted (answers {} qs))) ∧
      ((granted (answers {} qs)).map Resource.slot).Nodup ∧
      ∀ r ∈ granted (answers {} qs), r.binding < qs.length) ∧
    ∀ (p : Program) (targets : List Glsl.Target) (l l' : Layouts) (o : Outcome) (g : GeneratedSet),
      generate p targets l = .ok o l' → g ∈ o.sets →
      ∃ sets set, ShaderSet.discover p = .ok sets ∧ set ∈ sets ∧ g.name = set.name ∧
        (answers {} (set.requests p) = g.model.resources.map .ok) ∧
        (Resource.Assigned g.model.resources) ∧ (g.model.resources.map Resource.slot).Nodup := by
  refine ⟨fun earlier later q => ?requests, fun qs => ?runs, ?models⟩
  case requests =>
    let b := after {} earlier
    have recorded : b.Records (granted (answers {} earlier)) := records_after_empty
    refine ⟨outcome (serve q b), (leftover (serve q b)).answers later, answers_append, ?_, ?_, ?_⟩
    · rw [exists_error_iff, recorded.isSome_iff]
      simp only [mem_granted]
    · rintro ⟨e, refused⟩
      have same : leftover (serve q b) = b := leftover_of_error refused
      refine ⟨?_, by rw [same, answers_append]⟩
      calc after {} (earlier ++ [q])
        _ = leftover (serve q b) := List.foldl_append
        _ = b := same
    · intro r answered
      have g := answer_eq_ok_iff.mp answered
      exact ⟨⟨g.name, g.owner⟩, g.classified, g.descriptorSet,
        g.binding.trans (recorded.counters _)⟩
  case runs =>
    refine ⟨records_after_empty, assigned_granted, assigned_granted.nodup_slots, fun r mem => ?_⟩
    calc r.binding
      _ < (granted (answers {} qs)).length := assigned_granted.binding_lt mem
      _ ≤ (answers {} qs).length := List.length_filterMap_le ..
      _ = qs.length := Calls.length_outcomes
  case models =>
    intro p targets l l' o g generated mem
    have ⟨sets, set, discovered, mem, name, answered, assigned⟩ := answers_of_generate generated mem
    exact ⟨sets, set, discovered, mem, name, answered, assigned, assigned.nodup_slots⟩

-- Three fields that are bound, among one of a type that holds references and one with a taken name.
def lampRequests : List Request := [
  ⟨"Lamp", { name := "view", ty := .primitive "Matrix4x4" [] }⟩,
  ⟨"Lamp", { name := "holder", ty := .object "Holder" [] }⟩,
  ⟨"Lamp", { name := "shade", ty := .object "Texture2DResource" [], resourceSet := some 1 }⟩,
  ⟨"Torch", { name := "view", ty := .primitive "Vector4" [], resourceSet := some 1 }⟩,
  ⟨"Torch", { name := "filter", ty := .object "SamplerResource" [] }⟩]

theorem slots_filled_in_request_order_lamps :
    (granted (answers {} lampRequests)).map Resource.slot = [(0, 0), (1, 0), (0, 1)] ∧
    (after {} lampRequests).owners = [("filter", "Torch"), ("shade", "Lamp"), ("view", "Lamp")] ∧
    (after {} lampRequests).Records (granted (answers {} lampRequests)) ∧
    Resource.Assigned (granted (answers {} lampRequests)) ∧
    ∃ o l' g sets set, generate lantern [{}] {} = .ok o l' ∧ g ∈ o.sets ∧
      ShaderSet.discover lantern = .ok sets ∧ set ∈ sets ∧ g.name = set.name ∧
      answers {} (set.requests lantern) = g.model.resources.map .ok ∧
      Resource.Assigned g.model.resources := by
  have ⟨_, runs, models⟩ := slots_filled_in_request_order
  have ⟨_, _, o, l', g, _, _, _, generated, mem, _⟩ := lantern_generated
  have ⟨sets, set, discovered, there, name, answered, assigned, _⟩ :=
    models lantern [{}] {} l' o g generated mem
  exact ⟨by decide, by decide, (runs lampRequests).left, (runs lampRequests).right.left, o, l', g,
    sets, set, generated, mem, discovered, there, name, answered, assigned⟩

end Shading
