import Shading.Proofs.Replay
import Mathlib
/-!
Computations that use the same layouts at the same time.

In whichever order they make their accesses, all of them end, and each with the outcome that it
yields.
-/

open Relation

namespace Shading

-- Computations in progress, and the layouts that they share.
structure Pool (α : Type) where
  layouts : Layouts
  threads : List (Access α)

namespace Pool

variable {P Q : Pool α} {overrides : List (String × Nat)} {fits : String → Footprint → Prop}
  {rs : List (Except Error α)}

-- One of the computations makes its next access.
inductive Step : Pool α → Pool α → Prop
  | access {before after x x' l l'} : (Access.step x l = some (x', l')) →
    Step ⟨l, before ++ x :: after⟩ ⟨l', before ++ x' :: after⟩

-- A pool in which no computation has an access left to make.
def Finished (P : Pool α) : Prop :=
  ∀ Q, ¬Step P Q

-- The layouts fit, and each computation yields its outcome on such layouts.
structure Yields (overrides : List (String × Nat)) (fits : String → Footprint → Prop)
    (rs : List (Except Error α)) (P : Pool α) : Prop where
  layouts : P.layouts.Fit overrides fits
  threads : List.Forall₂ (Access.Yields overrides fits) P.threads rs

theorem forall₂_focus {R S : α → β → Prop} {before after : List α} {x : α} {rs : List β}
    (h : List.Forall₂ R (before ++ x :: after) rs) (weaken : ∀ x r, R x r → S x r) :
    ∃ r, R x r ∧ ∀ x', S x' r → List.Forall₂ S (before ++ x' :: after) rs := by
  induction before generalizing rs
  case nil =>
    cases h
    case cons r _ first rest => exact ⟨r, first, fun _ first' => .cons first' (rest.imp weaken)⟩
  case cons hi =>
    cases h
    case cons first rest =>
      have ⟨r, focus, replace⟩ := hi rest
      exact ⟨r, focus, fun x' h => .cons (weaken _ _ first) (replace x' h)⟩

theorem Yields.step (unique : ∀ name f g, fits name f → fits name g → g = f)
    (y : P.Yields overrides fits rs) (s : Step P Q) : Q.Yields overrides fits rs := by
  obtain ⟨s⟩ := s
  have ⟨r, focus, replace⟩ := forall₂_focus y.threads fun _ _ => id
  have ⟨focus', layouts⟩ := focus.step unique y.layouts s
  exact ⟨layouts, replace _ focus'⟩

theorem Yields.steps (unique : ∀ name f g, fits name f → fits name g → g = f)
    (y : P.Yields overrides fits rs) (s : ReflTransGen Step P Q) : Q.Yields overrides fits rs := by
  induction s
  case refl         => exact y
  case tail step hi => exact hi.step unique step

theorem Finished.exists_outcome {x : Access α} (f : P.Finished) (mem : x ∈ P.threads) :
    ∃ r, x = .done r := by
  obtain ⟨l, threads⟩ := P
  obtain ⟨before, after, rfl⟩ := List.append_of_mem mem
  refine Access.step_eq_none (l := l) (Option.eq_none_iff_forall_ne_some.mpr ?_)
  intro (x', l') s
  exact f _ (.access s)

theorem Finished.exists_outcomes (f : P.Finished) :
    ∃ rs : List (Except Error α), P.threads = rs.map .done := by
  have done : ∀ x ∈ P.threads, ∃ r, x = .done r := fun x => f.exists_outcome
  generalize P.threads = threads at done
  induction threads
  case nil => exact ⟨[], rfl⟩
  case cons hi =>
    obtain ⟨⟨r, rfl⟩, rest⟩ := List.forall_mem_cons.mp done
    obtain ⟨rs, rfl⟩ := hi rest
    exact ⟨r :: rs, rfl⟩

-- If there is nothing left to do, all computations have come to their outcomes.
theorem Yields.threads_of_finished (y : P.Yields overrides fits rs) (f : P.Finished) :
    P.threads = rs.map .done := by
  obtain ⟨outcomes, done⟩ := f.exists_outcomes
  have yields := y.threads
  rw [done, List.forall₂_map_left_iff] at yields
  have same : outcomes.Forall₂ Eq rs := yields
  rw [List.forall₂_eq_eq_eq] at same
  rw [done, same]

-- Whatever the pool does, each computation ends as one among others.
theorem ends_of_steps (s : ReflTransGen Step P Q) (done : Q.threads = rs.map .done) :
    P.threads.Forall₂ (fun x r => x.Ends P.layouts r Q.layouts) rs := by
  induction s using ReflTransGen.head_induction_on
  case refl =>
    rw [done]
    refine List.forall₂_map_left_iff.mpr (List.forall₂_same.mpr fun r _ => ?_)
    exact .done (.refl _)
  case head s _ hi =>
    obtain ⟨s⟩ := s
    obtain ⟨r, focus, replace⟩ := forall₂_focus hi fun _ _ =>
      Access.Ends.of_grows (Access.step_grows s)
    exact replace _ (.access (.refl _) s focus)

section Termination

-- What a computation may become by its next access, whatever the layouts are.
def Next (x' x : Access α) : Prop :=
  ∃ l l', x.step l = some (x', l')

theorem wellFounded_next : WellFounded (Next (α := α)) := by
  refine ⟨fun x => ?_⟩
  induction x
  all_goals
    refine .intro _ ?_
    rintro x' ⟨l, l', s⟩
    cases s
  case consult hi | remember hi | adjust hi => exact hi _

-- Each access makes one of the computations shorter and leaves the others as they are.
theorem wellFounded_step : WellFounded (flip (Step (α := α))) := by
  refine Subrelation.wf ?_ (InvImage.wf (fun P : Pool α => (P.threads : Multiset (Access α)))
    wellFounded_next.cutExpand)
  rintro _ _ ⟨s⟩
  simp only [InvImage, ← Multiset.coe_add, ← Multiset.cons_coe, ← Multiset.singleton_add]
  rw [cutExpand_add_left]
  exact cutExpand_single_add ⟨_, _, s⟩ _

end Termination

end Pool
end Shading
