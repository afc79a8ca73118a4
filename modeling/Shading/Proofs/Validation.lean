import Shading.Model.Validation
import Shading.Proofs.Exclusion
import Shading.Proofs.Packing
import Mathlib
/-!
What validation has seen of a resource that it accepts, and which faults it can report.
-/

open Relation

namespace Shading

theorem forM_eq_ok_iff {as : List α} {check : α → Except ε PUnit} :
    as.forM check = .ok ⟨⟩ ↔ ∀ a ∈ as, check a = .ok ⟨⟩ := by
  induction as
  case nil => exact ⟨fun _ => nofun, fun _ => rfl⟩
  case cons a as hi =>
    change (check a >>= fun _ => as.forM check) = _ ↔ _
    rw [bind_eq_ok_iff, List.forall_mem_cons]
    constructor
    · rintro ⟨_, first, rest⟩
      exact ⟨first, hi.mp rest⟩
    · rintro ⟨first, rest⟩
      exact ⟨⟨⟩, first, hi.mpr rest⟩

namespace Model

variable {m : Model} {r : Resource} {name : String} {seen pending : List String}

def Refers (m : Model) (outer inner : String) : Prop :=
  ∃ s, m.structure? outer = some s ∧ inner ∈ s.memberTypeNames

-- The structures that validation gets to from a resource.
def Vets (m : Model) (r : Resource) (name : String) : Prop :=
  (ReflTransGen m.Refers r.valueType.elementOrSelf.name name) ∧ ∃ s, m.structure? name = some s

-- A search without a find has gone through a set of structures that refer only to each other.
theorem exists_closed_of_divergent? (h : m.divergent? seen pending = none) :
    ∃ closed : List String, (∀ n ∈ seen, n ∈ closed) ∧
      (∀ n ∈ pending, n ∈ closed ∨ m.structure? n = none) ∧
      ∀ n ∈ closed, n ∈ seen ∨ ∃ s, m.structure? n = some s ∧ s.agrees ∧
        ∀ k ∈ s.memberTypeNames, k ∈ closed ∨ m.structure? k = none := by
  fun_induction divergent? m seen pending
  case case1 seen => exact ⟨seen, fun _ => id, nofun, fun _ => .inl⟩
  case case2 name pending visited hi =>
    have ⟨closed, old, new, agree⟩ := hi h
    refine ⟨closed, old, ?_, agree⟩
    rintro n (_ | ⟨_, mem⟩)
    · exact .inl (old _ visited)
    · exact new n mem
  case case3 absent hi =>
    have ⟨closed, old, new, agree⟩ := hi h
    refine ⟨closed, old, ?_, agree⟩
    rintro n (_ | ⟨_, mem⟩)
    · exact .inr absent
    · exact new n mem
  case case4 name pending _ s found agrees _ hi =>
    have ⟨closed, old, new, agree⟩ := hi h
    refine ⟨closed, fun n mem => old n (List.mem_cons_of_mem _ mem), ?_, fun n mem => ?_⟩
    · rintro n (_ | ⟨_, mem⟩)
      · exact .inl (old _ List.mem_cons_self)
      · exact new n (List.mem_append_right _ mem)
    · cases agree n mem
      case inr agrees => exact .inr agrees
      case inl visited =>
        cases visited
        case tail visited => exact .inl visited
        case head =>
          exact .inr ⟨s, found, agrees, fun k hk => new k (List.mem_append_left _ hk)⟩
  case case5 => cases h

theorem agrees_of_vets (h : m.checkResource r = .ok ()) (memory : r.kind.hasMemoryLayout)
    (v : m.Vets r name) : ∃ s, m.structure? name = some s ∧ s.agrees := by
  simp only [checkResource] at h
  rw [if_pos memory] at h
  split at h
  case h_1 => cases h
  case h_2 clean =>
    have ⟨closed, _, start, agree⟩ := exists_closed_of_divergent? clean
    obtain ⟨reach, s, found⟩ := v
    -- Everything on the way is in the closed set.
    have mem : name ∈ closed ∨ m.structure? name = none := by
      clear found
      induction reach
      case refl => exact start _ List.mem_cons_self
      case tail outer inner _ refers hi =>
        have ⟨s', found', member⟩ := refers
        cases hi
        case inr absent => cases absent.symm.trans found'
        case inl mem =>
          rcases agree outer mem with visited | ⟨s'', found'', _, next⟩
          · cases visited
          · cases found'.symm.trans found''
            exact next inner member
    cases mem
    case inr absent => cases absent.symm.trans found
    case inl mem =>
      rcases agree name mem with visited | ⟨s', found', agrees, _⟩
      · cases visited
      · exact ⟨s', found', agrees⟩

theorem checkResource_of_validate (h : m.validate = .ok ()) (mem : r ∈ m.resources) :
    m.checkResource r = .ok () := by
  have ⟨_, _, resources⟩ := bind_eq_ok_iff.mp h
  exact forM_eq_ok_iff.mp resources r mem

section Faults

variable {P : Error → Prop} {f : ShaderFunction} {ty : TypeRef} {role : String} {s : Structure}
  {stage : Stage}

-- Of the faults of stages and resources, no more is excluded than that a builtin is used outside of
-- its stages. Only one of the checks looks for that.
structure AtMostOutside (P : Error → Prop) : Prop where
  stage    : ∀ fault location,
    (∀ name stage allowed, fault ≠ .builtinOutsideStage name stage allowed) →
    ¬P (.stage fault location)
  resource : ∀ fault location, ¬P (.resource fault location)

variable (most : AtMostOutside P)

include most

theorem stageStructure_excludes : Excludes P (m.stageStructure f ty role) := by
  unfold stageStructure
  split
  case isTrue =>
    split
    case h_1 => exact .ok
    case h_2 => exact .error (most.stage _ _ nofun)
  case isFalse => exact .error (most.stage _ _ nofun)

theorem requireSemantics_excludes : Excludes P (requireSemantics f s) := by
  unfold requireSemantics
  split
  case h_1 => exact .error (most.stage _ _ nofun)
  case h_2 => exact .ok

theorem checkInput_excludes : Excludes P (m.checkInput f) := by
  unfold checkInput
  split
  case h_1 => exact .ok
  case h_2 => exact (stageStructure_excludes most).bind fun _ _ => requireSemantics_excludes most
  case h_3 => exact .error (most.stage _ _ nofun)

theorem checkVertex_excludes : Excludes P (m.checkVertex f) := by
  refine (checkInput_excludes most).bind fun _ _ => ?_
  split
  case isTrue => exact .error (most.stage _ _ nofun)
  case isFalse =>
    refine (stageStructure_excludes most).bind fun output _ => ?_
    refine (requireSemantics_excludes most).bind fun _ _ => ?_
    split
    case isTrue  => exact .error (most.stage _ _ nofun)
    case isFalse => exact .ok

theorem checkFragment_excludes : Excludes P (m.checkFragment f) := by
  refine (checkInput_excludes most).bind fun _ _ => ?_
  split
  case isTrue => exact .ok
  case isFalse =>
    refine (stageStructure_excludes most).bind fun output _ => ?_
    refine (requireSemantics_excludes most).bind fun _ _ => ?_
    split
    case h_1 => exact .error (most.stage _ _ nofun)
    case h_2 => exact .ok

theorem checkCompute_excludes : Excludes P (checkCompute f) := by
  have unlessOk {b : Bool} {e : Error} {k : Except Error Unit} (h : ¬P e) (rest : Excludes P k) :
      Excludes P (if b then k else .error e) := by
    split
    case isTrue  => exact rest
    case isFalse => exact .error h
  exact unlessOk (most.stage _ _ nofun) (unlessOk (most.stage _ _ nofun)
    (unlessOk (most.stage _ _ nofun) .ok))

theorem checkResource_excludes : Excludes P (m.checkResource r) := by
  unfold checkResource
  split
  case isTrue =>
    split
    case h_1 => exact .error (most.resource _ _)
    case h_2 => exact .ok
  case isFalse => exact .ok

theorem validate_excludes (builtins : ∀ stage entry, m.entry? stage = some entry →
    Excludes P (checkBuiltins stage entry.function)) : Excludes P m.validate := by
  have stages : Excludes P (Stage.all.forM m.checkStage) := by
    refine .forM fun stage _ => ?_
    unfold checkStage
    split
    case h_1 => exact .ok
    case h_2 entry known =>
      refine (builtins stage entry known).bind fun _ _ => ?_
      cases stage
      case vertex   => exact checkVertex_excludes most
      case fragment => exact checkFragment_excludes most
      case compute  => exact checkCompute_excludes most
  exact stages.bind fun _ _ => .forM fun _ _ => checkResource_excludes most

end Faults

end Model
end Shading
