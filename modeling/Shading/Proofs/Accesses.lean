import Shading.Layouts
import Mathlib
/-!
What a computation returns does not depend on the layouts that it finds, as long as it and all
others only ever remember what fits.
-/

namespace Shading

-- The two halves of a result: what was returned, and the state that was left behind.
def outcome : EStateM.Result ε σ α → Except ε α
  | .ok a _    => .ok a
  | .error e _ => .error e

def leftover : EStateM.Result ε σ α → σ
  | .ok _ s | .error _ s => s

theorem eq_ok_of_outcome {r : EStateM.Result ε σ α} {a : α} (h : outcome r = .ok a) :
    r = .ok a (leftover r) := by
  cases r <;> cases h
  rfl

theorem exists_of_bind_eq_ok {x : EStateM ε σ α} {f : α → EStateM ε σ β} {s s'' : σ} {b : β}
    (h : (x >>= f) s = .ok b s'') : ∃ a s', x s = .ok a s' ∧ f a s' = .ok b s'' := by
  change EStateM.bind x f s = _ at h
  simp only [EStateM.bind] at h
  split at h
  case h_1 a s' known => exact ⟨a, s', known, h⟩
  case h_2 => cases h

theorem bind_eq_of_eq_ok {x : EStateM ε σ α} {f : α → EStateM ε σ β} {s s' : σ} {a : α}
    (h : x s = .ok a s') : (x >>= f) s = f a s' := by
  change EStateM.bind x f s = _
  simp [EStateM.bind, h]

theorem bind_eq_ok_of {x : EStateM ε σ α} {f : α → EStateM ε σ β} {s s' s'' : σ} {a : α} {b : β}
    (h : x s = .ok a s') (h' : f a s' = .ok b s'') : (x >>= f) s = .ok b s'' :=
  (bind_eq_of_eq_ok h).trans h'

namespace Access

variable {overrides : List (String × Nat)} {fits : String → Footprint → Prop}

-- The outcome of a computation that is never told of a known footprint.
def alone (overrides : List (String × Nat)) : Access α → Except Error α
  | .done outcome       => outcome
  | .consult _ next     => (next none).alone overrides
  | .remember _ f next  => (next f).alone overrides
  | .adjust name f next => (next (Layouts.adjust { overrides } name f)).alone overrides

@[simp]
theorem alone_pure (a : α) : (pure a : Access α).alone overrides = .ok a :=
  rfl

@[simp]
theorem alone_throw (e : Error) : (throw e : Access α).alone overrides = .error e :=
  rfl

theorem alone_bind (x : Access α) (k : α → Access β) :
    (x >>= k).alone overrides = (x.alone overrides >>= fun a => (k a).alone overrides) := by
  change (x.bind k).alone overrides = _
  induction x
  case done outcome    => cases outcome <;> rfl
  case consult next hi => exact hi none
  case remember f _ hi => exact hi f
  case adjust n f _ hi => exact hi (Layouts.adjust { overrides } n f)

theorem alone_attempt (x : Access α) : x.attempt.alone overrides = .ok (x.alone overrides) := by
  induction x
  case done            => rfl
  case consult next hi => exact hi none
  case remember f _ hi => exact hi f
  case adjust n f _ hi => exact hi (Layouts.adjust { overrides } n f)

theorem alone_liftExcept (r : Except Error α) : (liftExcept r : Access α).alone overrides = r := by
  cases r <;> rfl

theorem alone_locating (location : Option Location) (x : Access α) :
    (locating location x).alone overrides = locating location (x.alone overrides) := by
  change (x.attempt >>= _).alone overrides = _
  rw [alone_bind, alone_attempt]
  cases x.alone overrides <;> rfl

-- Whatever the computation is told, it fails or returns a value with the property.
def Ensures (Q : α → Prop) : Access α → Prop
  | .done (.ok a)      => Q a
  | .done (.error _)   => True
  | .consult _ next    => ∀ f, (next f).Ensures Q
  | .remember _ _ next => ∀ f, (next f).Ensures Q
  | .adjust _ _ next   => ∀ f, (next f).Ensures Q

namespace Ensures

variable {Q : α → Prop} {R : β → Prop} {x : Access α} {k : α → Access β} {a : α}

theorem intro (h : ∀ a, Q a) : x.Ensures Q := by
  induction x
  case done r =>
    cases r
    case ok a  => exact h a
    case error => trivial
  case consult hi | remember hi | adjust hi => exact hi

theorem mono {Q' : α → Prop} (e : x.Ensures Q) (h : ∀ a, Q a → Q' a) : x.Ensures Q' := by
  induction x
  case done r =>
    cases r
    case ok a  => exact h a e
    case error => trivial
  case consult hi | remember hi | adjust hi => exact fun f => hi f (e f)

theorem liftExcept {r : Except Error α} (h : ∀ a, r = .ok a → Q a) :
    (liftExcept r : Access α).Ensures Q := by
  cases r
  case ok    => exact h _ rfl
  case error => trivial

theorem attempt (h : x.Ensures Q) : x.attempt.Ensures fun r => ∀ a, r = .ok a → Q a := by
  induction x
  case done r =>
    cases r
    case ok    => rintro _ ⟨⟩; exact h
    case error => exact nofun
  case consult hi | remember hi | adjust hi => exact fun f => hi f (h f)

theorem bind (e : x.Ensures Q) (h : ∀ a, Q a → (k a).Ensures R) : (x >>= k).Ensures R := by
  change (x.bind k).Ensures R
  induction x
  case done r =>
    cases r
    case ok a  => exact h a e
    case error => trivial
  case consult hi | remember hi | adjust hi => exact fun f => hi f (e f)

theorem of_run {l l' : Layouts} (e : x.Ensures Q) (h : x.run l = .ok a l') : Q a := by
  induction x generalizing l
  case done r                               => cases r <;> cases h; exact e
  case consult hi | remember hi | adjust hi => exact hi _ (e _) h

theorem of_alone (e : x.Ensures Q) (h : x.alone overrides = .ok a) : Q a := by
  induction x
  case done r                               => cases h; exact e
  case consult hi | remember hi | adjust hi => exact hi _ (e _) h

end Ensures

-- A property that computations have if their parts do. Packing adds two failures of its own to
-- those of its parts.
structure Compositional (P : {α : Type} → Access α → Prop) : Prop where
  pure      : ∀ {α} (a : α), P (Pure.pure a)
  uncounted : ∀ {α} owner field, P (throw (.layout (.missingArraySize owner field)) : Access α)
  oversized : ∀ {α} type, P (throw (.layout (.sizeOverflow type)) : Access α)
  bind      : ∀ {α β} {x : Access α} {k : α → Access β}, P x → (∀ a, P (k a)) → P (x >>= k)
  locating  : ∀ {α} {x : Access α} (location), P x → P (locating location x)

-- A computation yields an outcome if it ends with it whatever fitting footprints it is told of,
-- and if it remembers only what fits.
def Yields (overrides : List (String × Nat)) (fits : String → Footprint → Prop) :
    Access α → Except Error α → Prop
  | .done outcome, r => outcome = r
  | .consult name next, r =>
    ((next none).Yields overrides fits r) ∧
    (∀ f, fits name f → (next (some f)).Yields overrides fits r)
  | .remember name f next, r => (fits name f) ∧ (next f).Yields overrides fits r
  | .adjust name f next, r =>
    (next (Layouts.adjust { overrides } name f)).Yields overrides fits r

-- A computation that yields the outcome that it has by itself.
def Steady (overrides : List (String × Nat)) (fits : String → Footprint → Prop) (x : Access α) :
    Prop :=
  x.Yields overrides fits (x.alone overrides)

namespace Steady

theorem pure (a : α) : Steady overrides fits (Pure.pure a : Access α) :=
  rfl

theorem throw (e : Error) : Steady overrides fits (throw e : Access α) :=
  rfl

theorem liftExcept (r : Except Error α) : Steady overrides fits (Shading.liftExcept r) := by
  cases r <;> rfl

theorem bind {x : Access α} {k : α → Access β} (s : Steady overrides fits x)
    (h : ∀ a, x.alone overrides = .ok a → Steady overrides fits (k a)) :
    Steady overrides fits (x >>= k) := by
  simp only [Steady]
  rw [alone_bind]
  simp only [Steady] at s
  generalize x.alone overrides = r at s h
  change (x.bind k).Yields overrides fits _
  induction x
  case done =>
    cases s
    cases r
    case ok a    => exact h a rfl
    case error e => exact rfl
  case consult next hi => exact ⟨hi none s.left, fun f fit => hi (some f) (s.right f fit)⟩
  case remember f _ hi => exact ⟨s.left, hi f s.right⟩
  case adjust hi       => exact hi _ s

theorem attempt {x : Access α} (s : Steady overrides fits x) :
    Steady overrides fits x.attempt := by
  simp only [Steady]
  rw [alone_attempt]
  simp only [Steady] at s
  generalize x.alone overrides = r at s
  induction x
  case done            => exact congrArg _ s
  case consult next hi => exact ⟨hi none s.left, fun f fit => hi (some f) (s.right f fit)⟩
  case remember f _ hi => exact ⟨s.left, hi f s.right⟩
  case adjust hi       => exact hi _ s

theorem locating {x : Access α} (location : Option Location) (s : Steady overrides fits x) :
    Steady overrides fits (locating location x) :=
  s.attempt.bind fun
    | .ok _, _    => rfl
    | .error _, _ => rfl

theorem compositional : Compositional (Steady overrides fits) where
  pure           := pure
  uncounted _ _  := throw _
  oversized _    := throw _
  bind s h       := s.bind fun a _ => h a
  locating loc s := s.locating loc

end Steady

-- The next access of a computation, and what it does to the layouts.
def step : Access α → Layouts → Option (Access α × Layouts)
  | .done _, _               => none
  | .consult name next, l    => some (next (l.known? name), l)
  | .remember name f next, l => some (next (l.remember name f).1, (l.remember name f).2)
  | .adjust name f next, l   => some (next (l.adjust name f), l)

theorem step_eq_none {x : Access α} {l : Layouts} (h : x.step l = none) : ∃ r, x = .done r := by
  cases x
  case done r => exact ⟨r, rfl⟩
  all_goals cases h

end Access

-- Layouts with the given overrides that know only what fits.
structure Layouts.Fit (overrides : List (String × Nat)) (fits : String → Footprint → Prop)
    (l : Layouts) : Prop where
  overrides_eq : l.overrides = overrides
  known        : ∀ entry ∈ l.known, fits entry.1 entry.2

namespace Layouts.Fit

variable {overrides : List (String × Nat)} {fits : String → Footprint → Prop} {l : Layouts}
  {name : String} {f : Footprint}

theorem empty (overrides : List (String × Nat)) : Fit overrides fits { overrides } where
  overrides_eq := rfl
  known        := nofun

theorem of_known? (h : Fit overrides fits l) (k : l.known? name = some f) : fits name f := by
  have ⟨before, after, split, _⟩ := List.lookup_eq_some_iff.mp k
  exact h.known (name, f) (split ▸ List.mem_append_right _ List.mem_cons_self)

theorem adjust_eq (h : Fit overrides fits l) : l.adjust = adjust { overrides } := by
  cases h.overrides_eq
  rfl

-- A footprint that is known already is the one that is offered.
theorem remember (h : Fit overrides fits l) (fit : fits name f)
    (unique : ∀ g, fits name g → g = f) :
    (l.remember name f).1 = f ∧ Fit overrides fits (l.remember name f).2 := by
  simp only [Layouts.remember]
  split
  case h_1 g known => exact ⟨unique g (h.of_known? known), h⟩
  case h_2 =>
    refine ⟨rfl, h.overrides_eq, ?_⟩
    intro entry mem
    cases mem
    case head     => exact fit
    case tail mem => exact h.known entry mem

end Layouts.Fit

namespace Access

variable {overrides : List (String × Nat)} {fits : String → Footprint → Prop} {l l' : Layouts}
  {x x' : Access α} {r : Except Error α}

theorem Yields.step (unique : ∀ name f g, fits name f → fits name g → g = f)
    (y : x.Yields overrides fits r) (h : l.Fit overrides fits) (s : x.step l = some (x', l')) :
    (x'.Yields overrides fits r) ∧ l'.Fit overrides fits := by
  cases x <;> cases s
  case consult name next =>
    refine ⟨?_, h⟩
    cases k : l.known? name
    case none   => exact y.left
    case some f => exact y.right f (h.of_known? k)
  case remember name f next =>
    have ⟨same, h'⟩ := h.remember y.left (unique name f · y.left)
    exact ⟨same.symm ▸ y.right, h'⟩
  case adjust name f next => exact ⟨h.adjust_eq ▸ y, h⟩

theorem run_bind (x : Access α) (k : α → Access β) :
    (x >>= k).run = (x.run >>= fun a => (k a).run) := by
  funext l
  change (x.bind k).run l = _
  induction x generalizing l
  case done r                               => cases r <;> rfl
  case consult hi | remember hi | adjust hi => exact hi ..

theorem run_map (x : Access α) (g : α → β) : (g <$> x).run = g <$> x.run := by
  change (x >>= fun a => pure (g a)).run = _
  rw [run_bind]
  funext l
  change EStateM.bind x.run _ l = EStateM.map g x.run l
  simp only [EStateM.bind, EStateM.map]
  cases x.run l <;> rfl

theorem run_attempt (x : Access α) (l : Layouts) :
    x.attempt.run l = .ok (outcome (x.run l)) (leftover (x.run l)) := by
  induction x generalizing l
  case done r                               => cases r <;> rfl
  case consult hi | remember hi | adjust hi => exact hi ..

theorem run_step (s : x.step l = some (x', l')) : x.run l = x'.run l' := by
  cases x <;> cases s <;> rfl

theorem Yields.run (unique : ∀ name f g, fits name f → fits name g → g = f)
    (y : x.Yields overrides fits r) (h : l.Fit overrides fits) :
    outcome (x.run l) = r ∧ (leftover (x.run l)).Fit overrides fits := by
  induction x generalizing l
  case done o =>
    cases y
    cases r <;> exact ⟨rfl, h⟩
  case consult hi | remember hi | adjust hi =>
    have ⟨y', h'⟩ := y.step unique h rfl
    rw [run_step rfl]
    exact hi _ y' h'

-- Computations in sequence return what they do by themselves, if each of them does.
theorem outcome_run_bind {k : α → Access β} (first : outcome (x.run l) = x.alone overrides)
    (next : ∀ a, x.alone overrides = .ok a →
      outcome ((k a).run (leftover (x.run l))) = (k a).alone overrides) :
    outcome ((x >>= k).run l) = (x >>= k).alone overrides := by
  rw [run_bind, alone_bind, ← first]
  rw [← first] at next
  change outcome (EStateM.bind x.run _ l) = _
  simp only [EStateM.bind]
  cases r : x.run l
  case ok a l' => rw [r] at next; exact next a rfl
  case error   => rfl

end Access
end Shading
