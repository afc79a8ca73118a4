import Shading.Proofs.Validation
import Mathlib
/-!
The search for structures that look different from the host and from the device.

It gets to all that the members of structures lead to, whether or not structures hold themselves or
share their names, and the first resource that leads to such a structure is reported.
-/

open Relation

namespace Shading

-- Of checks that are made one after the other, the first that fails counts.
theorem exists_split_of_forM {as : List α} {check : α → Except ε PUnit} {e : ε}
    (h : as.forM check = .error e) :
    ∃ before a after, as = before ++ a :: after ∧ (∀ b ∈ before, check b = .ok ⟨⟩) ∧
      check a = .error e := by
  induction as
  case nil => cases h
  case cons a as hi =>
    change (check a >>= fun _ => as.forM check) = _ at h
    cases first : check a
    case error e' =>
      rw [first] at h
      cases h
      exact ⟨[], a, as, rfl, nofun, first⟩
    case ok =>
      rw [first] at h
      obtain ⟨before, b, after, rfl, passed, failed⟩ := hi h
      exact ⟨a :: before, b, after, rfl, List.forall_mem_cons.mpr ⟨first, passed⟩, failed⟩

namespace Model

variable {m : Model} {r : Resource} {s : Structure} {seen pending : List String} {e : Error}

-- The memory of the resource holds values of a structure that has different layouts on host and
-- device, by itself or within other structures.
structure Diverges (m : Model) (r : Resource) (s : Structure) : Prop where
  memory  : r.kind.hasMemoryLayout
  reach   : ReflTransGen m.Refers r.valueType.elementOrSelf.name s.name
  found   : m.structure? s.name = some s
  differs : s.agrees = false

-- What the search finds is what it is looking for.
theorem of_divergent? (h : m.divergent? seen pending = some s) :
    m.structure? s.name = some s ∧ s.agrees = false ∧
    ∃ name ∈ pending, ReflTransGen m.Refers name s.name := by
  fun_induction divergent? m seen pending
  case case1 => cases h
  case case2 hi | case3 hi =>
    obtain ⟨found, differs, name, mem, reach⟩ := hi h
    exact ⟨found, differs, name, List.mem_cons_of_mem _ mem, reach⟩
  case case4 name pending _ s' found' _ _ hi =>
    obtain ⟨found, differs, inner, mem, reach⟩ := hi h
    refine ⟨found, differs, ?_⟩
    rcases List.mem_append.mp mem with member | mem
    case inl => exact ⟨name, List.mem_cons_self, .head ⟨s', found', member⟩ reach⟩
    case inr => exact ⟨inner, List.mem_cons_of_mem _ mem, reach⟩
  case case5 name pending _ s' found differs =>
    cases h
    have named := name_of_structure? found
    exact ⟨named ▸ found, by simpa using differs, name, List.mem_cons_self, named ▸ .refl⟩

theorem exists_diverges_of_checkResource (h : m.checkResource r = .error e) :
    ∃ s, m.Diverges r s ∧ e = .resource (.layoutMismatch r.name s.name) := by
  simp only [checkResource] at h
  split at h
  case isFalse => cases h
  case isTrue memory =>
    split at h
    case h_2 => cases h
    case h_1 s hit =>
      cases h
      obtain ⟨found, differs, name, mem, reach⟩ := of_divergent? hit
      cases List.mem_singleton.mp mem
      exact ⟨s, ⟨memory, reach, found, differs⟩, rfl⟩

-- The search misses nothing, since what it has seen without a find is closed under members.
theorem checkResource_eq_ok_iff : m.checkResource r = .ok () ↔ ∀ s, ¬m.Diverges r s := by
  constructor
  · intro accepted s d
    obtain ⟨s', found, agrees⟩ := agrees_of_vets accepted d.memory ⟨d.reach, s, d.found⟩
    cases found.symm.trans d.found
    cases agrees.symm.trans d.differs
  · intro none
    cases h : m.checkResource r
    case ok => rfl
    case error e =>
      obtain ⟨s, d, _⟩ := exists_diverges_of_checkResource h
      exact absurd d (none s)

-- With nothing wrong in the stages, validation comes down to the resources.
theorem validate_eq (stages : ∀ stage, m.checkStage stage = .ok ()) :
    m.validate = m.resources.forM m.checkResource := by
  have passed : Stage.all.forM m.checkStage = .ok () :=
    forM_eq_ok_iff.mpr fun stage _ => stages stage
  rw [validate, passed]
  rfl

end Model

open Model

-- A model whose stages pass is refused exactly if a resource leads to a structure with different
-- layouts. The failure names the first such resource, and a structure that this one leads to.
theorem divergence_search_complete (m : Model) (stages : ∀ stage, m.checkStage stage = .ok ()) :
    ((∃ resource name, m.validate = .error (.resource (.layoutMismatch resource name))) ↔
      ∃ r ∈ m.resources, ∃ s, m.Diverges r s) ∧
    (m.validate = .ok () ↔ ∀ r ∈ m.resources, ∀ s, ¬m.Diverges r s) ∧
    ∀ e, m.validate = .error e → ∃ before r after s, m.resources = before ++ r :: after ∧
      (∀ r' ∈ before, ∀ s', ¬m.Diverges r' s') ∧ m.Diverges r s ∧
      e = .resource (.layoutMismatch r.name s.name) := by
  rw [validate_eq stages]
  have accepted : m.resources.forM m.checkResource = .ok () ↔
      ∀ r ∈ m.resources, ∀ s, ¬m.Diverges r s := by
    simp only [forM_eq_ok_iff, checkResource_eq_ok_iff]
  have refused (e : Error) (h : m.resources.forM m.checkResource = .error e) :
      ∃ before r after s, m.resources = before ++ r :: after ∧
        (∀ r' ∈ before, ∀ s', ¬m.Diverges r' s') ∧ m.Diverges r s ∧
        e = .resource (.layoutMismatch r.name s.name) := by
    obtain ⟨before, r, after, split, passed, failed⟩ := exists_split_of_forM h
    obtain ⟨s, d, rfl⟩ := exists_diverges_of_checkResource failed
    exact ⟨before, r, after, s, split,
      fun r' mem => checkResource_eq_ok_iff.mp (passed r' mem), d, rfl⟩
  refine ⟨⟨?_, ?_⟩, accepted, refused⟩
  · rintro ⟨_, _, h⟩
    obtain ⟨before, r, after, s, split, _, d, _⟩ := refused _ h
    exact ⟨r, split ▸ List.mem_append_right _ List.mem_cons_self, s, d⟩
  · rintro ⟨r, mem, s, d⟩
    cases h : m.resources.forM m.checkResource
    case ok => exact absurd d (accepted.mp h r mem s)
    case error e =>
      obtain ⟨_, r, _, s, _, _, _, rfl⟩ := refused e h
      exact ⟨r.name, s.name, rfl⟩

-- Warps and wefts hold each other, the second warps are hidden by the first, and the knots of the
-- wefts look different from the two sides.
def fabric : Model where
  structures := [
    ⟨"Warp", [⟨"weft", .struct "Weft" [], .unspecified, 0, .scalar 4⟩], .scalar 4, true⟩,
    ⟨"Weft", [⟨"warps", .arrayOf (.struct "Warp" []), .unspecified, 2, .scalar 4⟩,
      ⟨"knot", .struct "Knot" [], .unspecified, 0, .scalar 4⟩], .scalar 4, true⟩,
    ⟨"Knot", [⟨"yarn", .struct "Yarn" [], .unspecified, 0, .scalar 4⟩], .scalar 4, false⟩,
    ⟨"Warp", [], .scalar 4, false⟩]
  resources  := [
    ⟨"shade", "Loom", 0, 0, .struct "Knot" [], .texture2D⟩,
    ⟨"tint", "Loom", 0, 1, .struct "Yarn" [], .uniform⟩,
    ⟨"cloth", "Loom", 0, 2, .arrayOf (.struct "Warp" []), .structuredBuffer⟩,
    ⟨"spare", "Loom", 0, 3, .struct "Knot" [], .uniform⟩]
  functions  := []
  entries    := .replicate none

-- Neither a texture nor a value of an unknown structure is in the way of the cloth.
theorem divergence_search_complete_fabric :
    fabric.validate = .error (.resource (.layoutMismatch "cloth" "Knot")) ∧
    ∃ before r after s, fabric.resources = before ++ r :: after ∧
      (∀ r' ∈ before, ∀ s', ¬fabric.Diverges r' s') ∧ fabric.Diverges r s ∧
      r.name = "cloth" ∧ s.name = "Knot" := by
  have refused : fabric.validate = .error (.resource (.layoutMismatch "cloth" "Knot")) := by cbv
  have stages (stage : Stage) : fabric.checkStage stage = .ok () := by cases stage <;> rfl
  obtain ⟨_, _, first⟩ := divergence_search_complete fabric stages
  obtain ⟨before, r, after, s, split, passed, diverges, reported⟩ := first _ refused
  obtain ⟨resource, name⟩ : "cloth" = r.name ∧ "Knot" = s.name := by
    simpa [Error.resource] using reported
  exact ⟨refused, before, r, after, s, split, passed, diverges, resource.symm, name.symm⟩

end Shading
