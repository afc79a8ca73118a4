import Shading.Proofs.Replay
import Mathlib
/-!
Errors that a computation never ends with, whatever it is run on.
-/

namespace Shading

-- No failure of the computation is one that is excluded.
def Excludes (P : ε → Prop) (x : Except ε α) : Prop :=
  ∀ e, x = .error e → ¬P e

namespace Excludes

variable {P : ε → Prop} {x : Except ε α} {k : α → Except ε β} {as : List α}

theorem ok {a : α} : Excludes P (.ok a) := nofun

theorem error {e : ε} (h : ¬P e) : Excludes P (.error e : Except ε α) := by
  rintro _ ⟨⟩
  exact h

theorem bind (first : Excludes P x) (second : ∀ a, x = .ok a → Excludes P (k a)) :
    Excludes P (x >>= k) := by
  cases x
  case ok a    => exact second a rfl
  case error e => exact .error (first e rfl)

theorem forM {k : α → Except ε PUnit} (each : ∀ a ∈ as, Excludes P (k a)) :
    Excludes P (as.forM k) := by
  induction as
  case nil => exact .ok
  case cons a as hi =>
    have ⟨first, rest⟩ := List.forall_mem_cons.mp each
    exact first.bind fun _ _ => hi rest

theorem mapM (each : ∀ a ∈ as, Excludes P (k a)) : Excludes P (as.mapM k) := by
  induction as
  case nil => exact .ok
  case cons a as hi =>
    have ⟨first, rest⟩ := List.forall_mem_cons.mp each
    rw [List.mapM_cons]
    exact first.bind fun _ _ => (hi rest).bind fun _ _ => .ok

theorem foldlM {s : σ} {k : σ → α → Except ε σ} (each : ∀ s, ∀ a ∈ as, Excludes P (k s a)) :
    Excludes P (as.foldlM k s) := by
  induction as generalizing s
  case nil => exact .ok
  case cons a as hi =>
    rw [List.foldlM_cons]
    refine (each s a List.mem_cons_self).bind fun s' _ => ?_
    exact hi fun s a mem => each s a (List.mem_cons_of_mem _ mem)

end Excludes

variable {P : Error → Prop} {e : Error}

-- Nor is any failure of a computation on a state, whatever state it starts in.
def RunExcludes (P : Error → Prop) (x : EStateM Error σ α) : Prop :=
  ∀ s, Excludes P (outcome (x s))

namespace RunExcludes

variable {x : EStateM Error σ α} {k : α → EStateM Error σ β} {as : List α}

theorem pure (a : α) : RunExcludes P (Pure.pure a : EStateM Error σ α) :=
  fun _ => .ok

theorem throw (h : ¬P e) : RunExcludes P (throw e : EStateM Error σ α) :=
  fun _ => .error h

theorem liftExcept {r : Except Error α} (h : Excludes P r) :
    RunExcludes P (liftExcept r : EStateM Error σ α) := by
  intro s
  cases r
  case ok      => exact .ok
  case error e => exact .error (h e rfl)

theorem get : RunExcludes P (get : EStateM Error σ σ) :=
  fun _ => .ok

theorem set (s : σ) : RunExcludes P (set s : EStateM Error σ PUnit) :=
  fun _ => .ok

theorem modifyGet (f : σ → α × σ) : RunExcludes P (modifyGet f : EStateM Error σ α) :=
  fun _ => .ok

theorem bind (first : RunExcludes P x) (second : ∀ a, RunExcludes P (k a)) :
    RunExcludes P (x >>= k) := by
  intro s
  have h := first s
  change Excludes P (outcome (EStateM.bind x k s))
  simp only [EStateM.bind]
  cases run : x s
  case ok a s' => exact second a s'
  case error e s' =>
    rw [run] at h
    exact .error (h e rfl)

theorem mapM (each : ∀ a ∈ as, RunExcludes P (k a)) : RunExcludes P (as.mapM k) := by
  induction as
  case nil => exact .pure _
  case cons a as hi =>
    have ⟨first, rest⟩ := List.forall_mem_cons.mp each
    rw [List.mapM_cons]
    exact first.bind fun _ => (hi rest).bind fun _ => .pure _

end RunExcludes

namespace Access

-- Nor is any failure of accesses to layouts, whatever they are told.
def Excludes (P : Error → Prop) : Access α → Prop
  | .done outcome      => Shading.Excludes P outcome
  | .consult _ next    => ∀ f, (next f).Excludes P
  | .remember _ _ next => ∀ f, (next f).Excludes P
  | .adjust _ _ next   => ∀ f, (next f).Excludes P

namespace Excludes

variable {x : Access α} {k : α → Access β} {l : Layouts} {overrides : List (String × Nat)}

theorem pure (a : α) : (Pure.pure a : Access α).Excludes P :=
  Shading.Excludes.ok

theorem throw (h : ¬P e) : (throw e : Access α).Excludes P :=
  Shading.Excludes.error h

theorem liftExcept {r : Except Error α} (h : Shading.Excludes P r) :
    (liftExcept r : Access α).Excludes P := by
  cases r
  case ok      => exact .pure _
  case error e => exact .throw (h e rfl)

-- Computations after a first one are only reached with what the first one can return.
theorem bind_ensured {Q : α → Prop} (first : x.Excludes P) (ensured : x.Ensures Q)
    (second : ∀ a, Q a → (k a).Excludes P) : (x >>= k).Excludes P := by
  change (x.bind k).Excludes P
  induction x
  case done r =>
    cases r
    case ok a    => exact second a ensured
    case error e => exact Shading.Excludes.error (first e rfl)
  case consult hi | remember hi | adjust hi => exact fun f => hi f (first f) (ensured f)

theorem bind (first : x.Excludes P) (second : ∀ a, (k a).Excludes P) : (x >>= k).Excludes P :=
  first.bind_ensured (.intro fun _ => trivial) fun a (_ : True) => second a

theorem locating (location : Option Location)
    (unplaced : ∀ e : Error, P (e.locate location) → P e) (h : x.Excludes P) :
    (locating location x).Excludes P := by
  change (x.attempt >>= _).Excludes P
  induction x
  case done r =>
    cases r
    case ok      => exact .pure _
    case error e => exact Shading.Excludes.error fun excluded => h e rfl (unplaced e excluded)
  case consult hi | remember hi | adjust hi => exact fun f => hi f (h f)

theorem attempt (h : x.Excludes P) : x.attempt.Ensures (Shading.Excludes P) := by
  induction x
  case done                                 => exact h
  case consult hi | remember hi | adjust hi => exact fun f => hi f (h f)

theorem attempt_excludes : x.attempt.Excludes P := by
  induction x
  case done                                 => exact .pure _
  case consult hi | remember hi | adjust hi => exact hi

theorem compositional (quiet : ∀ fault location, (∀ name, fault ≠ .recursiveStructure name) →
    ¬P (.layout fault location)) (unplaced : ∀ location (e : Error), P (e.locate location) → P e) :
    Compositional (Excludes P) where
  pure          := pure
  uncounted _ _ := throw (quiet _ _ nofun)
  oversized _   := throw (quiet _ _ nofun)
  bind          := bind
  locating loc  := locating loc (unplaced loc)

theorem of_alone (h : x.Excludes P) : Shading.Excludes P (x.alone overrides) := by
  induction x
  case done                                 => exact h
  case consult hi | remember hi | adjust hi => exact hi _ (h _)

theorem of_run (h : x.Excludes P) : Shading.Excludes P (outcome (x.run l)) := by
  induction x generalizing l
  case done r                               => cases r <;> exact h
  case consult hi | remember hi | adjust hi => exact hi _ (h _)

theorem of_ends {r : Except Error α} {l' : Layouts} (h : x.Excludes P) (ends : x.Ends l r l') :
    Shading.Excludes P r := by
  induction x generalizing l
  case done =>
    cases ends.of_done
    exact h
  case consult hi | remember hi | adjust hi =>
    rcases ends with _ | ⟨_, ⟨⟩, rest⟩
    exact hi _ (h _) rest

end Excludes
end Access
end Shading
