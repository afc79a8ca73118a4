import Shading.Proofs.Packing
import Mathlib
/-!
Footprints that have been found once are found again, however the layouts have grown since.

Others may use the layouts at the same time. Whatever they add between the accesses of a
computation, its result is the one that the final layouts give.
-/

namespace Shading

namespace Layouts

variable {l l₁ l₂ l₃ : Layouts} {name : String} {f : Footprint}

-- Layouts that have come to know more.
structure Grows (l₁ l₂ : Layouts) : Prop where
  overrides_eq : l₂.overrides = l₁.overrides
  known        : ∀ {name f}, l₁.known? name = some f → l₂.known? name = some f

theorem Grows.refl (l : Layouts) : Grows l l where
  overrides_eq := rfl
  known        := id

theorem Grows.trans (g₁ : Grows l₁ l₂) (g₂ : Grows l₂ l₃) : Grows l₁ l₃ where
  overrides_eq := g₂.overrides_eq.trans g₁.overrides_eq
  known        := g₂.known ∘ g₁.known

theorem known?_remember (l : Layouts) (name : String) (f : Footprint) :
    (l.remember name f).2.known? name = some (l.remember name f).1 := by
  simp only [remember]
  split
  case h_1 known => exact known
  case h_2       => simp [known?]

theorem grows_remember (l : Layouts) (name : String) (f : Footprint) :
    Grows l (l.remember name f).2 := by
  simp only [remember]
  split
  case h_1 => exact .refl l
  case h_2 unknown =>
    refine ⟨rfl, fun {other g} known => ?_⟩
    -- The new entry hides nothing, since its name was not known.
    have ne : other ≠ name := by
      rintro rfl
      cases known.symm.trans unknown
    simpa [known?, List.lookup_cons, beq_eq_false_iff_ne.mpr ne] using known

end Layouts

namespace Access

variable {x : Access α} {a : α} {b : β} {l l₁ l₂ : Layouts}

theorem run_grows (x : Access α) (l : Layouts) : l.Grows (leftover (x.run l)) := by
  induction x generalizing l
  case done r               => cases r <;> exact .refl l
  case consult hi           => exact hi _ l
  case remember name f _ hi => exact (l.grows_remember name f).trans (hi _ _)
  case adjust hi            => exact hi _ l

theorem grows_of_run (h : x.run l₁ = .ok a l₂) : l₁.Grows l₂ := by
  simpa [h, leftover] using run_grows x l₁

theorem run_bind_eq_ok {k : α → Access β} (h : (x >>= k).run l = .ok b l₂) :
    ∃ a l₁, x.run l = .ok a l₁ ∧ (k a).run l₁ = .ok b l₂ := by
  rw [run_bind] at h
  change EStateM.bind _ _ l = _ at h
  simp only [EStateM.bind] at h
  split at h
  case h_1 a l₁ first => exact ⟨a, l₁, first, h⟩
  case h_2            => cases h

theorem run_bind_of_ok {k : α → Access β} (h : x.run l = .ok a l₁) :
    (x >>= k).run l = (k a).run l₁ := by
  rw [run_bind]
  change EStateM.bind _ _ l = _
  simp [EStateM.bind, h]

theorem run_bind_of_error {k : α → Access β} {e : Error} (h : x.run l = .error e l₁) :
    (x >>= k).run l = .error e l₁ := by
  rw [run_bind]
  change EStateM.bind _ _ l = _
  simp [EStateM.bind, h]

theorem run_locating_eq_ok_iff {location : Option Location} :
    (locating location x).run l₁ = .ok a l₂ ↔ x.run l₁ = .ok a l₂ := by
  change (x.attempt.bind _).run l₁ = _ ↔ _
  induction x generalizing l₁
  case done r =>
    cases r
    case ok    => rfl
    case error => exact ⟨nofun, nofun⟩
  case consult hi | remember hi | adjust hi => exact hi _

theorem step_grows {x' : Access α} (s : x.step l₁ = some (x', l₂)) : l₁.Grows l₂ := by
  cases x <;> cases s
  case consult | adjust => exact .refl _
  case remember         => exact l₁.grows_remember _ _

-- A computation that ends with the outcome, on layouts to which others may add before each of its
-- accesses, and at the end.
inductive Ends : Access α → Layouts → Except Error α → Layouts → Prop
  | done {r l l'} : (l.Grows l') → Ends (.done r) l r l'
  | access {x x' r l l₁ l₂ l'} : (l.Grows l₁) → (Access.step x l₁ = some (x', l₂)) →
    (Ends x' l₂ r l') → Ends x l r l'

namespace Ends

variable {r : Except Error α} {k : α → Access β} {l' : Layouts}

theorem of_grows (g : l.Grows l₁) (h : x.Ends l₁ r l') : x.Ends l r l' := by
  rcases h with g' | ⟨g', s, rest⟩
  case done   => exact .done (g.trans g')
  case access => exact .access (g.trans g') s rest

theorem and_grows (h : x.Ends l r l₁) (g : l₁.Grows l') : x.Ends l r l' := by
  induction h
  case done g'          => exact .done (g'.trans g)
  case access g' s _ hi => exact .access g' s (hi g)

theorem grows (h : x.Ends l r l') : l.Grows l' := by
  induction h
  case done g          => exact g
  case access g s _ hi => exact (g.trans (step_grows s)).trans hi

-- Nothing need happen in between.
theorem of_run {result : EStateM.Result Error Layouts α} (h : x.run l = result) :
    x.Ends l (outcome result) (leftover result) := by
  induction x generalizing l
  case done r =>
    cases r <;> cases h
    all_goals exact .done (.refl l)
  case consult hi | remember hi | adjust hi => exact .access (.refl l) rfl (hi _ h)

theorem of_done {o : Except Error α} (h : (Access.done o).Ends l r l') : r = o := by
  rcases h with _ | ⟨_, s, _⟩
  case done   => rfl
  case access => cases s

theorem of_liftExcept {o : Except Error α} (h : (liftExcept o : Access α).Ends l r l') :
    r = o := by
  cases o <;> exact of_done h

theorem of_bind {r : Except Error β} (h : (x >>= k).Ends l r l') :
    (∃ e l₁, r = .error e ∧ x.Ends l (.error e) l₁) ∨
    ∃ a l₁, x.Ends l (.ok a) l₁ ∧ (k a).Ends l₁ r l' := by
  change (x.bind k).Ends l r l' at h
  induction x generalizing l
  case done o =>
    cases o
    case ok a    => exact .inr ⟨a, l, .done (.refl l), h⟩
    case error e => exact .inl ⟨e, l, of_done h, .done (.refl l)⟩
  case consult hi | remember hi | adjust hi =>
    rcases h with _ | ⟨g, ⟨⟩, rest⟩
    rcases hi _ rest with ⟨e, l₁, failed, first⟩ | ⟨a, l₁, first, rest⟩
    case inl => exact .inl ⟨e, l₁, failed, .access g rfl first⟩
    case inr => exact .inr ⟨a, l₁, .access g rfl first, rest⟩

theorem of_bind_ok {b : β} (h : (x >>= k).Ends l (.ok b) l') :
    ∃ a l₁, x.Ends l (.ok a) l₁ ∧ (k a).Ends l₁ (.ok b) l' := by
  rcases of_bind h with ⟨_, _, failed, _⟩ | made
  case inl => cases failed
  case inr => exact made

theorem of_attempt {r : Except Error (Except Error α)} (h : x.attempt.Ends l r l') :
    ∃ o, r = .ok o ∧ x.Ends l o l' := by
  induction x generalizing l
  case done o =>
    cases of_done h
    exact ⟨o, rfl, .done h.grows⟩
  case consult hi | remember hi | adjust hi =>
    rcases h with _ | ⟨g, ⟨⟩, rest⟩
    obtain ⟨o, same, rest⟩ := hi _ rest
    exact ⟨o, same, .access g rfl rest⟩

theorem of_locating {location : Option Location} (h : (locating location x).Ends l (.ok a) l') :
    x.Ends l (.ok a) l' := by
  obtain ⟨o, l₁, attempted, rest⟩ := of_bind_ok h
  obtain ⟨_, ⟨⟩, first⟩ := of_attempt attempted
  cases o
  case error => cases of_done rest
  case ok =>
    cases of_done rest
    exact first.and_grows rest.grows

end Ends

theorem Ensures.of_ends {Q : α → Prop} {l' : Layouts} (e : x.Ensures Q) (h : x.Ends l (.ok a) l') :
    Q a := by
  induction x generalizing l
  case done =>
    cases h.of_done
    exact e
  case consult hi | remember hi | adjust hi =>
    rcases h with _ | ⟨_, ⟨⟩, rest⟩
    exact hi _ (e _) rest

-- A computation that returns the value on all layouts that know as much, and adds nothing to them.
def Replays (x : Access α) (a : α) (l : Layouts) : Prop :=
  ∀ l', l.Grows l' → x.run l' = .ok a l'

theorem Replays.mono (r : x.Replays a l₁) (g : l₁.Grows l₂) : x.Replays a l₂ :=
  fun l' g' => r l' (g.trans g')

theorem Replays.map (r : x.Replays a l) (g : α → β) : (g <$> x).Replays (g a) l := by
  intro l' grows
  rw [run_map]
  change EStateM.map g x.run l' = _
  simp [EStateM.map, r l' grows]

-- A computation that replays each success on what the success has left.
def Replayable (x : Access α) : Prop :=
  ∀ l a l', x.Ends l (.ok a) l' → x.Replays a l'

theorem Replayable.of_run (h : x.Replayable) (run : x.run l = .ok a l₁) : x.Replays a l₁ :=
  h l a l₁ (.of_run run)

theorem Replayable.compositional : Compositional Replayable where
  pure a := by
    intro l b l₁ h l' _
    cases h.of_done
    rfl
  uncounted _ _ := fun _ _ _ h => nomatch h.of_done
  oversized _   := fun _ _ _ h => nomatch h.of_done
  bind := by
    intro α β x k first next l b l₂ h l' g
    obtain ⟨a, l₁, h₁, h₂⟩ := Ends.of_bind_ok h
    have r₁ := (first l a l₁ h₁).mono h₂.grows
    rw [run_bind_of_ok (r₁ l' g)]
    exact next a l₁ b l₂ h₂ l' g
  locating location r l a l₁ h l' g :=
    run_locating_eq_ok_iff.mpr (r l a l₁ h.of_locating l' g)

end Access

variable {p : Program} {V : List String} {ty : TypeRef} {t : TypeDecl}

-- All that has been computed is known.
theorem known?_of_compute_ends {l l' : Layouts} {f : Footprint}
    (h : (Layouts.compute p V ty).Ends l (.ok f) l') : l'.known? ty.name = some f := by
  rw [Layouts.compute] at h
  rcases h with _ | @⟨_, _, _, _, l₁, _, _, _, ⟨⟩, rest⟩
  dsimp only at rest
  split at rest
  case h_1 g known =>
    cases rest.of_done
    exact rest.grows.known known
  case h_2 =>
    obtain ⟨f', l₂, _, rest⟩ := Access.Ends.of_bind_ok rest
    rcases rest with _ | @⟨_, _, _, _, l₃, _, _, _, ⟨⟩, rest⟩
    cases rest.of_done
    exact rest.grows.known (l₃.known?_remember ty.name f')

theorem known?_of_run_compute {l l' : Layouts} {f : Footprint}
    (h : (Layouts.compute p V ty).run l = .ok f l') : l'.known? ty.name = some f :=
  known?_of_compute_ends (.of_run h)

theorem compute_replayable : (Layouts.compute p V ty).Replayable := by
  intro l f l₁ h l' g
  rw [Layouts.compute, Access.run, g.known (known?_of_compute_ends h)]
  rfl

theorem describe_replayable : (Structure.describe p t).Replayable :=
  describe_of_parts Access.Replayable.compositional (fun _ _ => compute_replayable)
    compute_replayable

end Shading
