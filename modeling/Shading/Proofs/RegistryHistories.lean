import Shading.Proofs.CallSequences
import Shading.Proofs.ContextGrowth
import Mathlib
/-!
Registries after any history of operations on them, whichever of these have failed.

Each pair of a backend and a set is initialized once, nothing is done to a context but by operations
on its own pair, and what is done to it there only makes it grow.
-/

namespace Shading

open Calls

namespace Registry

-- What is done with a registry. A change is made to the context that is there.
inductive Operation where
  | init (backend set : String)
  | get (backend set : String)
  | update (backend set : String) (change : Context.Change)

namespace Operation

-- The backend and the set of the operation.
def key : Operation → String × String
  | init backend set | get backend set | update backend set _ => (backend, set)

def call : Operation → EStateM Error Registry Unit
  | init backend set, r =>
    match r.init backend set with
    | .ok r'   => .ok () r'
    | .error e => .error e r
  | get backend set, r =>
    match r.get backend set with
    | .ok _    => .ok () r
    | .error e => .error e r
  | update backend set change, r =>
    match r.get backend set with
    | .error e => .error e r
    | .ok c =>
      match change.make c with
      | .ok _ c'    => .ok () (r.update backend set fun _ => c')
      | .error e c' => .error e (r.update backend set fun _ => c')

-- What becomes of the context of its key.
def effect : Operation → Option Context → Option Context
  | init backend set, found    => found.or (some { backend, set })
  | get _ _, found             => found
  | update _ _ change, found   => found.map fun c => leftover (change.make c)

-- The resource that the operation records in the context of a key.
def resource? (key : String × String) : Operation → Option Resource
  | update backend set change => if (backend, set) = key then change.resource? else none
  | _                         => none

end Operation

variable {r r' : Registry} {backend set : String} {k : String × String} {c : Context}
  {op : Operation} {ops : List Operation} {id : MethodId} {f : ShaderFunction}

theorem isFor_iff : isFor backend set c ↔ (c.backend, c.set) = (backend, set) := by
  simp [isFor]

theorem key_of_find? (known : r.find? backend set = some c) :
    (c.backend, c.set) = (backend, set) :=
  isFor_iff.mp (List.find?_some known)

theorem get_eq_ok_iff : r.get backend set = .ok c ↔ r.find? backend set = some c := by
  rw [get]
  cases r.find? backend set <;> simp

theorem find?_update (f : Context → Context) : (r.update backend set f).find? k.1 k.2 =
    if (backend, set) = k then (r.find? backend set).map fun c => { f c with backend, set }
    else r.find? k.1 k.2 := by
  obtain ⟨backend', set'⟩ := k
  -- A change keeps the names, so that it has no influence on what is found.
  have same : isFor backend' set' ∘ (fun c => if isFor backend set c then
      { f c with backend, set } else c) = isFor backend' set' := by
    funext c
    by_cases here : isFor backend set c
    case pos =>
      have names := isFor_iff.mp here
      simp_all [isFor]
    case neg => simp [here]
  rw [find?, update, List.find?_map, same]
  split
  case isTrue own =>
    cases own
    refine Option.map_congr fun c found => ?_
    rw [if_pos (List.find?_some found)]
  case isFalse other =>
    refine (Option.map_congr fun c found => if_neg fun here => ?_).trans Option.map_id_apply
    have there := isFor_iff.mp (List.find?_some found)
    exact other ((isFor_iff.mp here).symm.trans there)

theorem find?_add (absent : r.find? backend set = none) :
    find? ⟨r.contexts ++ [({ backend, set } : Context)]⟩ k.1 k.2 =
    if (backend, set) = k then some { backend, set } else r.find? k.1 k.2 := by
  simp only [find?, List.find?_append]
  split
  case isTrue own =>
    subst own
    rw [find?] at absent
    simp [absent, isFor]
  case isFalse other =>
    have skipped : ¬isFor k.1 k.2 { backend, set } := fun here => other (isFor_iff.mp here)
    rw [List.find?_singleton, if_neg skipped, Option.or_none]

namespace Operation

theorem leftover_update (known : r.find? backend set = some c) (change : Context.Change) :
    leftover (call (.update backend set change) r) =
    r.update backend set fun _ => leftover (change.make c) := by
  simp only [call, Registry.get, known]
  cases change.make c <;> rfl

-- What an operation does to the context of its own key.
theorem find?_call_self (op : Operation) (r : Registry) :
    (leftover (op.call r)).find? op.key.1 op.key.2 = op.effect (r.find? op.key.1 op.key.2) := by
  cases op
  case init backend set =>
    simp only [call, Registry.init, key]
    cases known : r.find? backend set
    case none   => exact (find?_add known).trans (if_pos rfl)
    case some c => exact known
  case get backend set =>
    simp only [call, key, effect]
    cases r.get backend set <;> rfl
  case update backend set change =>
    cases known : r.find? backend set
    case none =>
      simp only [call, Registry.get, key, known]
      exact known
    case some c =>
      obtain ⟨rfl, rfl⟩ := Prod.mk.inj (key_of_find? known)
      have grows := (change.make_preserves c).grows
      rw [leftover_update known, key, find?_update, if_pos rfl, known, effect, Option.map_some,
        Option.map_some, ← grows.backend, ← grows.set]

-- It does nothing to any other.
theorem find?_call_of_ne (other : op.key ≠ k) :
    (leftover (op.call r)).find? k.1 k.2 = r.find? k.1 k.2 := by
  cases op
  case init backend set =>
    simp only [call, Registry.init]
    cases known : r.find? backend set
    case none   => exact (find?_add known).trans (if_neg other)
    case some c => rfl
  case get backend set =>
    simp only [call]
    cases r.get backend set <;> rfl
  case update backend set change =>
    cases known : r.find? backend set
    case none =>
      simp only [call, Registry.get, known]
      rfl
    case some c =>
      rw [leftover_update known, find?_update]
      exact if_neg other

-- A context is there if it was, or if it has just been started.
theorem isSome_find?_call (op : Operation) (r : Registry) :
    ((leftover (op.call r)).find? k.1 k.2).isSome ↔
    (r.find? k.1 k.2).isSome ∨ .init k.1 k.2 = op ∧ r.find? k.1 k.2 = none := by
  by_cases own : op.key = k
  case neg =>
    have apart : .init k.1 k.2 ≠ op := fun same => own (same ▸ rfl)
    simp [find?_call_of_ne own, apart]
  case pos =>
    subst own
    rw [find?_call_self]
    cases op
    case init backend set => cases known : r.find? backend set <;> simp [effect, key, known]
    case get | update     => simp [effect]

theorem succeeds_init_iff : Succeeds call (.init backend set) r ↔ r.find? backend set = none := by
  simp only [Succeeds, call, Registry.init]
  cases r.find? backend set <;> simp

theorem succeeds_get_iff : Succeeds call (.get backend set) r ↔
    (r.find? backend set).isSome := by
  simp only [Succeeds, call, Registry.get]
  cases r.find? backend set <;> simp

end Operation

theorem isSome_find?_after : ((after Operation.call ops r).find? k.1 k.2).isSome ↔
    (r.find? k.1 k.2).isSome ∨
      .init k.1 k.2 ∈ succeeding Operation.call ops r := by
  induction ops generalizing r
  case nil => simp [after, succeeding]
  case cons op ops hi =>
    rw [mem_succeeding_cons, ← or_assoc, after, List.foldl_cons]
    refine hi.trans (or_congr_left ((op.isSome_find?_call r).trans (or_congr_right ?_)))
    refine and_congr_right ?_
    rintro rfl
    exact Operation.succeeds_init_iff.symm

-- What operations have done to the context of a key that was there before them.
structure Since (k : String × String) (ops : List Operation) (c c' : Context) : Prop where
  grows     : c.Extends c'
  distinct  : c.Distinct → c'.Distinct
  resources : c'.resources = c.resources ++ ops.filterMap (Operation.resource? k)

theorem since_call (known : r.find? k.1 k.2 = some c) (op : Operation) :
    ∃ c', (leftover (op.call r)).find? k.1 k.2 = some c' ∧ Since k [op] c c' := by
  have kept (silent : op.resource? k = none) : Since k [op] c c :=
    ⟨.refl c, id, by simp [silent]⟩
  by_cases own : op.key = k
  case neg =>
    refine ⟨c, (Operation.find?_call_of_ne own).trans known, kept ?_⟩
    cases op
    case update => exact if_neg own
    all_goals rfl
  case pos =>
    subst own
    rw [Operation.find?_call_self, known]
    cases op
    case init | get => exact ⟨c, rfl, kept rfl⟩
    case update backend set change =>
      have ⟨grows, distinct, resources⟩ := change.make_preserves c
      refine ⟨_, rfl, grows, distinct, resources.trans (congrArg _ ?_)⟩
      have recorded : Operation.resource? (backend, set) (.update backend set change) =
          change.resource? :=
        if_pos rfl
      rw [Operation.key, List.filterMap_cons, recorded]
      cases change.resource? <;> rfl

theorem since_after (known : r.find? k.1 k.2 = some c) :
    ∃ c', (after Operation.call ops r).find? k.1 k.2 = some c' ∧ Since k ops c c' := by
  induction ops generalizing r c
  case nil => exact ⟨c, known, .refl c, id, (List.append_nil _).symm⟩
  case cons op ops hi =>
    obtain ⟨c₁, known, first⟩ := since_call known op
    obtain ⟨c₂, known, rest⟩ := hi known
    refine ⟨c₂, known, first.grows.trans rest.grows, rest.distinct ∘ first.distinct, ?_⟩
    rw [rest.resources, first.resources, List.append_assoc, ← List.filterMap_append]
    rfl

-- The pairs that have contexts.
def keys (r : Registry) : List (String × String) :=
  r.contexts.map fun c => (c.backend, c.set)

theorem keys_update (f : Context → Context) : (r.update backend set f).keys = r.keys := by
  rw [keys, keys, update, List.map_map]
  refine List.map_congr_left fun c _ => ?_
  rw [Function.comp_apply]
  split
  case isTrue here => exact (isFor_iff.mp here).symm
  case isFalse     => rfl

theorem nodup_keys_call (once : r.keys.Nodup) (op : Operation) :
    (leftover (op.call r)).keys.Nodup := by
  cases op
  case init backend set =>
    simp only [Operation.call, init]
    cases known : r.find? backend set
    case none =>
      have fresh : (backend, set) ∉ r.keys := by
        rw [find?, List.find?_eq_none] at known
        simpa [keys, isFor] using known
      simp only [keys, leftover, List.map_append]
      exact List.nodup_append_comm.mp (List.nodup_cons.mpr ⟨fresh, once⟩)
    case some => exact once
  case get backend set =>
    simp only [Operation.call]
    cases r.get backend set <;> exact once
  case update backend set change =>
    cases known : r.find? backend set
    case none =>
      simp only [Operation.call, get, known]
      exact once
    case some c =>
      rw [Operation.leftover_update known, keys_update]
      exact once

theorem find?_of_mem (once : r.keys.Nodup) (mem : c ∈ r.contexts) :
    r.find? c.backend c.set = some c := by
  have found := Program.find?_key_of_mem once mem
  rw [find?, ← found]
  rfl

theorem find?_changed (known : r.find? backend set = some c) (change : Context.Change) :
    (leftover (Operation.call (.update backend set change) r)).find? backend set =
    some (leftover (change.make c)) := by
  have changed := Operation.find?_call_self (.update backend set change) r
  rw [Operation.key, known] at changed
  exact changed

-- What has become of a context that was changed.
theorem since_update (known : r.find? backend set = some c) (change : Context.Change)
    (more : List Operation) : ∃ c',
    (after Operation.call (.update backend set change :: more) r).find? backend set = some c' ∧
      Since (backend, set) more (leftover (change.make c)) c' :=
  since_after (k := (backend, set)) (find?_changed known change)

-- All contexts have distinct names in them.
def Distinct (r : Registry) : Prop :=
  ∀ backend set c, r.find? backend set = some c → c.Distinct

-- A context starts with nothing in it, and no change repeats a name.
theorem Distinct.call (distinct : r.Distinct) (op : Operation) :
    (leftover (op.call r)).Distinct := by
  intro backend set c found
  cases known : r.find? backend set
  case some c₀ =>
    obtain ⟨c', found', since⟩ := since_call (k := (backend, set)) known op
    cases found.symm.trans found'
    exact since.distinct (distinct backend set c₀ known)
  case none =>
    have started := (op.isSome_find?_call (k := (backend, set)) r).mp
      (Option.isSome_of_eq_some found)
    rw [known] at started
    obtain ⟨rfl, _⟩ := started.resolve_left nofun
    have empty := Operation.find?_call_self (.init backend set) r
    rw [Operation.key, known] at empty
    cases found.symm.trans empty
    exact ⟨List.nodup_nil, List.nodup_nil⟩

-- A function that is there is there for good, and it never loses a flag.
theorem gains_after (distinct : r.Distinct) (known : r.find? backend set = some c)
    (recorded : c.function? id = some f) (more : List Operation) : ∃ c' g,
    (after Operation.call more r).get backend set = .ok c' ∧ c'.function? id = some g ∧
      f.Gains g := by
  obtain ⟨c', known', since⟩ : ∃ c', (after Operation.call more r).find? backend set = some c' ∧
      Since (backend, set) more c c' := since_after (k := (backend, set)) known
  have apart := since.distinct (distinct backend set c known)
  obtain ⟨g, recorded, gains⟩ := since.grows.function?_gains apart recorded
  exact ⟨c', g, get_eq_ok_iff.mpr known', recorded, gains⟩

theorem gains_update (distinct : r.Distinct) (got : r.get backend set = .ok c)
    (change : Context.Change) (more : List Operation)
    (recorded : (leftover (change.make c)).function? id = some f) : ∃ c' g,
    (after Operation.call (.update backend set change :: more) r).get backend set = .ok c' ∧
      c'.function? id = some g ∧ f.Gains g :=
  gains_after (distinct.call (.update backend set change))
    (find?_changed (get_eq_ok_iff.mp got) change) recorded more

-- A registry after operations, at first empty.
structure Keeps (ops : List Operation) (r : Registry) : Prop where
  init_iff   : ∀ backend set, Succeeds Operation.call (.init backend set) r ↔
    .init backend set ∉ succeeding Operation.call ops {}
  get_iff    : ∀ backend set, Succeeds Operation.call (.get backend set) r ↔
    .init backend set ∈ succeeding Operation.call ops {}
  -- A change is made to what `get` finds, and it is there afterwards.
  updates    : ∀ backend set (change : Context.Change),
    match r.get backend set with
    | .ok c =>
      outcome (Operation.call (.update backend set change) r) = outcome (change.make c) ∧
      (leftover (Operation.call (.update backend set change) r)).get backend set =
        .ok (leftover (change.make c))
    | .error e => Operation.call (.update backend set change) r = .error e r
  apart      : ∀ (op : Operation) backend set, op.key ≠ (backend, set) →
    (leftover (op.call r)).get backend set = r.get backend set
  once       : r.keys.Nodup
  distinct   : ∀ c ∈ r.contexts, r.get c.backend c.set = .ok c ∧
    (c.structures.map Structure.name).Nodup ∧ (c.functions.map ShaderFunction.id).Nodup
  grows      : ∀ more backend set c, r.get backend set = .ok c → ∃ c',
    (after Operation.call more r).get backend set = .ok c' ∧ c.Extends c' ∧
    c'.resources = c.resources ++ more.filterMap (Operation.resource? (backend, set))
  -- Of two structures or functions that bear one name, the first is recorded.
  structure? : ∀ more backend set c s, r.get backend set = .ok c → ∃ c',
    (after Operation.call (.update backend set (.addStructure s) :: more) r).get backend set =
      .ok c' ∧ c'.recorded? s.name = some ((c.recorded? s.name).getD s)
  function?  : ∀ more backend set c f, r.get backend set = .ok c → ∃ c' g,
    (after Operation.call (.update backend set (.addFunction f) :: more) r).get backend set =
      .ok c' ∧ c'.function? f.id = some g ∧ ((c.function? f.id).getD f).Gains g
  marked     : ∀ more backend set c id f usage, r.get backend set = .ok c →
    c.function? id = some f → ∃ c' g,
    (after Operation.call (.update backend set (.mark id usage) :: more) r).get backend set =
      .ok c' ∧ c'.function? id = some g ∧ (f.mark usage).Gains g
  flags      : ∀ more backend set c id f flag, r.get backend set = .ok c →
    c.function? id = some f → f.usage.has flag → ∃ c' g,
    (after Operation.call more r).get backend set = .ok c' ∧ c'.function? id = some g ∧
      g.usage.has flag

theorem keeps_after (ops : List Operation) : Keeps ops (after Operation.call ops {}) := by
  have there (backend set : String) :
      ((after Operation.call ops {}).find? backend set).isSome ↔
      .init backend set ∈ succeeding Operation.call ops {} :=
    (isSome_find?_after (k := (backend, set))).trans (or_iff_right nofun)
  have once : (after Operation.call ops {}).keys.Nodup :=
    after_induction (P := fun (r : Registry) => r.keys.Nodup) List.nodup_nil
      fun op _ once => nodup_keys_call once op
  have distinct : (after Operation.call ops {}).Distinct :=
    after_induction nofun fun op _ distinct => distinct.call op
  generalize after Operation.call ops {} = r at there once distinct
  exact {
    init_iff backend set := by
      rw [Operation.succeeds_init_iff, ← there, Option.not_isSome_iff_eq_none]
    get_iff backend set := Operation.succeeds_get_iff.trans (there backend set)
    updates backend set change := by
      split
      case h_1 c got =>
        refine ⟨?_, get_eq_ok_iff.mpr (find?_changed (get_eq_ok_iff.mp got) change)⟩
        simp only [Operation.call, got]
        cases change.make c <;> rfl
      case h_2 e got => simp only [Operation.call, got]
    apart op backend set other := by
      rw [get, get, Operation.find?_call_of_ne (k := (backend, set)) other]
    once := once
    distinct c mem := by
      have known := find?_of_mem once mem
      have ⟨structures, functions⟩ := distinct _ _ c known
      exact ⟨get_eq_ok_iff.mpr known, structures, functions⟩
    grows more backend set c got := by
      obtain ⟨c', known, since⟩ := since_after (k := (backend, set)) (get_eq_ok_iff.mp got)
      exact ⟨c', get_eq_ok_iff.mpr known, since.grows, since.resources⟩
    structure? more backend set c s got := by
      obtain ⟨c', known, since⟩ := since_update (get_eq_ok_iff.mp got) (.addStructure s) more
      exact ⟨c', get_eq_ok_iff.mpr known, since.grows.recorded?_eq (c.recorded?_addStructure s)⟩
    function? more backend set c f got := by
      refine gains_update distinct got (.addFunction f) more ?_
      change (c.addFunction f).function? f.id = _
      rw [Context.function?_addFunction, if_pos rfl]
      cases c.function? f.id <;> rfl
    marked more backend set c id f usage got recorded := by
      refine gains_update distinct got (.mark id usage) more ?_
      change (c.mark id usage).function? id = _
      rw [Context.function?_mark, recorded, Option.map_some, if_pos rfl]
    flags more backend set c id f flag got recorded raised := by
      obtain ⟨c', g, kept, recorded, gains⟩ :=
        gains_after distinct (get_eq_ok_iff.mp got) recorded more
      exact ⟨c', g, kept, recorded, gains.has raised⟩ }

example : (succeeding Operation.call [
    .get "glsl450" "Lamp", .init "glsl450" "Lamp", .init "glsl450" "Lamp",
    .update "glsl330" "Lamp" (.mark ⟨"Lamp", "glow"⟩ .empty), .init "glsl330" "Lamp",
    .update "glsl330" "Lamp" (.mark ⟨"Lamp", "glow"⟩ .empty)] {}).map Operation.key =
    [("glsl450", "Lamp"), ("glsl330", "Lamp"), ("glsl330", "Lamp")] := by
  decide

end Registry
end Shading
