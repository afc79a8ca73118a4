import Shading.Proofs.Accesses
import Mathlib
/-!
Calls that are made one after the other on a state.

A call that fails leaves a state as well, and the next call is made on what it has left.
-/

namespace Shading.Calls

-- The state that calls leave.
def after (call : α → EStateM ε σ β) (calls : List α) (s : σ) : σ :=
  calls.foldl (fun s a => leftover (call a s)) s

-- What the calls come to, each on what the one before it has left.
def outcomes (call : α → EStateM ε σ β) : List α → σ → List (Except ε β)
  | [], _         => []
  | a :: calls, s => outcome (call a s) :: outcomes call calls (leftover (call a s))

def Succeeds (call : α → EStateM ε σ β) (a : α) (s : σ) : Prop :=
  ∃ b s', call a s = .ok b s'

-- Those of the calls that succeed, in order.
def succeeding (call : α → EStateM ε σ β) : List α → σ → List α
  | [], _ => []
  | a :: calls, s =>
    match call a s with
    | .ok _ s'    => a :: succeeding call calls s'
    | .error _ s' => succeeding call calls s'

variable {call : α → EStateM ε σ β} {calls : List α} {a : α} {s : σ}

theorem mem_succeeding_cons {b : α} : a ∈ succeeding call (b :: calls) s ↔
    a = b ∧ Succeeds call b s ∨ a ∈ succeeding call calls (leftover (call b s)) := by
  rw [succeeding, Succeeds]
  cases call b s <;> simp [leftover]

-- What a call that fails as well as one that succeeds keeps is kept by all calls together.
theorem after_induction {P : σ → Prop} (start : P s)
    (step : ∀ a s, P s → P (leftover (call a s))) : P (after call calls s) := by
  induction calls generalizing s
  case nil             => exact start
  case cons a calls hi => exact hi (step a s start)

theorem length_outcomes : (outcomes call calls s).length = calls.length := by
  induction calls generalizing s
  case nil     => rfl
  case cons hi => exact congrArg (· + 1) hi

theorem outcomes_append {calls' : List α} : outcomes call (calls ++ calls') s =
    outcomes call calls s ++ outcomes call calls' (after call calls s) := by
  induction calls generalizing s
  case nil     => rfl
  case cons hi => exact congrArg (_ :: ·) hi

theorem mem_outcomes {r : Except ε β} :
    r ∈ outcomes call calls s ↔
    ∃ earlier a later, calls = earlier ++ a :: later ∧
      r = outcome (call a (after call earlier s)) := by
  induction calls generalizing s
  case nil => simp [outcomes]
  case cons a calls hi =>
    rw [outcomes, List.mem_cons, hi]
    constructor
    case mp =>
      rintro (rfl | ⟨earlier, b, later, rfl, rfl⟩)
      case inl => exact ⟨[], a, calls, rfl, rfl⟩
      case inr => exact ⟨a :: earlier, b, later, rfl, rfl⟩
    case mpr =>
      rintro ⟨earlier, b, later, split, rfl⟩
      cases earlier
      case nil =>
        cases split
        exact .inl rfl
      case cons =>
        cases split
        exact .inr ⟨_, b, later, rfl, rfl⟩

-- Calls in sequence succeed together if each of them does.
theorem mapM_eq_ok_iff {bs : List β} {s' : σ} : calls.mapM call s = .ok bs s' ↔
    outcomes call calls s = bs.map .ok ∧ s' = after call calls s := by
  induction calls generalizing s bs
  case nil =>
    change EStateM.Result.ok [] s = .ok bs s' ↔ _
    cases bs <;> simp [outcomes, after, eq_comm]
  case cons a calls hi =>
    rw [List.mapM_cons, outcomes, after, List.foldl_cons]
    constructor
    case mp =>
      intro h
      obtain ⟨b, s₁, first, h⟩ := exists_of_bind_eq_ok h
      obtain ⟨bs', s₂, rest, h⟩ := exists_of_bind_eq_ok h
      cases h
      obtain ⟨same, left⟩ := hi.mp rest
      rw [first]
      exact ⟨congrArg (.ok b :: ·) same, left⟩
    case mpr =>
      rintro ⟨same, left⟩
      obtain ⟨b, bs', rfl, first, rest⟩ := List.map_eq_cons_iff.mp same.symm
      cases run : call a s
      case error =>
        rw [run] at first
        cases first
      case ok =>
        rw [run] at first rest left
        cases first
        exact bind_eq_ok_of run (bind_eq_ok_of (hi.mpr ⟨rest.symm, left⟩) rfl)

end Shading.Calls
