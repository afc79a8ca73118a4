import Shading.Proofs.Independence
import Shading.Proofs.StageCoverage
import Mathlib
/-!
What becomes of each shader set for each target.

A run ends with one result for each set and each position in the list of targets, whether sets are
generated one after the other or at the same time, unless a default value has no end. A target whose
name another one has had before is refused, so a generated set is found by the names of its target
and its set.
-/

open Relation

namespace Shading

open Glsl

namespace Access

variable {x x' : Access α} {k : α → Access β} {Q Q' : α → Prop} {R : β → Prop} {E E' : Error → Prop}
  {l l' : Layouts}

-- An outcome that the computation comes to on some layouts, while others may add to them.
def Attains (x : Access α) (r : Except Error α) : Prop :=
  ∃ l l', x.Ends l r l'

-- Each value that the computation comes to has the one property, and each error the other.
structure Returns (Q : α → Prop) (E : Error → Prop) (x : Access α) : Prop where
  ok    : ∀ a, x.Attains (.ok a) → Q a
  error : ∀ e, x.Attains (.error e) → E e

namespace Returns

theorem mono (h : x.Returns Q E) (more : ∀ a, Q a → Q' a) (worse : ∀ e, E e → E' e) :
    x.Returns Q' E' where
  ok a attained    := more a (h.ok a attained)
  error e attained := worse e (h.error e attained)

theorem pure {a : α} (h : Q a) : (Pure.pure a : Access α).Returns Q E where
  ok := by
    rintro _ ⟨_, _, ends⟩
    cases ends.of_done
    exact h
  error := by
    rintro _ ⟨_, _, ends⟩
    cases ends.of_done

theorem throw {e : Error} (h : E e) : (throw e : Access α).Returns Q E where
  ok := by
    rintro _ ⟨_, _, ends⟩
    cases ends.of_done
  error := by
    rintro _ ⟨_, _, ends⟩
    cases ends.of_done
    exact h

theorem bind (h : x.Returns Q E) (next : ∀ a, Q a → (k a).Returns R E) :
    (x >>= k).Returns R E where
  ok := by
    rintro b ⟨l, l', ends⟩
    obtain ⟨a, l₁, first, rest⟩ := ends.of_bind_ok
    exact (next a (h.ok a ⟨l, l₁, first⟩)).ok b ⟨l₁, l', rest⟩
  error := by
    rintro e ⟨l, l', ends⟩
    rcases ends.of_bind with ⟨_, l₁, ⟨⟩, failed⟩ | ⟨a, l₁, first, rest⟩
    case inl => exact h.error e ⟨l, l₁, failed⟩
    case inr => exact (next a (h.ok a ⟨l, l₁, first⟩)).error e ⟨l₁, l', rest⟩

theorem run (h : x.Returns Q E) (l : Layouts) :
    (∃ a l', x.run l = .ok a l' ∧ Q a) ∨ ∃ e l', x.run l = .error e l' ∧ E e := by
  cases run : x.run l
  case ok a l'    => exact .inl ⟨a, l', rfl, h.ok a ⟨l, l', .of_run run⟩⟩
  case error e l' => exact .inr ⟨e, l', rfl, h.error e ⟨l, l', .of_run run⟩⟩

end Returns

-- A failure that is an answer is one that the computation comes to.
theorem attempt_returns (x : Access α) : x.attempt.Returns x.Attains E where
  ok := by
    rintro r ⟨l, l', ends⟩
    obtain ⟨_, ⟨⟩, ends⟩ := ends.of_attempt
    exact ⟨l, l', ends⟩
  error := by
    rintro e ⟨l, l', ends⟩
    obtain ⟨_, ⟨⟩, _⟩ := ends.of_attempt

end Access

namespace Generation

-- The names of the targets before a position.
def namesBefore (targets : List Target) (m : Nat) : List String :=
  (targets.take m).map Target.name

-- What becomes of a set for the target at a position. The first target of a name is tried, and all
-- others of the name are refused, whatever became of the first one.
inductive Settled (p : Program) (targets : List Target) :
    ShaderSet × Fin targets.length → Result → Prop
  | generated {set} {i : Fin targets.length} {g} : (targets[i].name ∉ namesBefore targets i) →
    ((generateFor p set targets[i]).Attains (.ok g)) → Settled p targets (set, i) (.ok g)
  | failed {set} {i : Fin targets.length} {e} : (targets[i].name ∉ namesBefore targets i) →
    ((generateFor p set targets[i]).Attains (.error e)) → (e.isEndless = false) →
    Settled p targets (set, i) (.error ⟨set.name, targets[i].name, e⟩)
  | refused {set} {i : Fin targets.length} : (targets[i].name ∈ namesBefore targets i) →
    Settled p targets (set, i) (.error ⟨set.name, targets[i].name,
      .configuration (.contextAlreadyInitialized targets[i].name set.name)⟩)

-- What a run may be lost to: for the first target of a name, a set takes the default value of a
-- structure that is embedded in itself.
def Lost (p : Program) (targets : List Target) (sets : List ShaderSet) (e : Error) : Prop :=
  ∃ set ∈ sets, ∃ i : Fin targets.length, targets[i].name ∉ namesBefore targets i ∧
    (generateFor p set targets[i]).Attains (.error e) ∧
    ∃ name, e.cause = .endless name ∧ TransGen (Embeds p) name name

variable {p : Program} {targets : List Target} {sets : List ShaderSet} {set : ShaderSet}
  {r r' : Registry} {results : List Result}

theorem Lost.mono {sets' : List ShaderSet} {e : Error} (h : Lost p targets sets e)
    (sub : sets ⊆ sets') : Lost p targets sets' e :=
  have ⟨set, mem, rest⟩ := h
  ⟨set, sub mem, rest⟩

theorem exists_endless {e : Error} (h : e.isEndless) : ∃ name, e.cause = .endless name := by
  obtain ⟨cause, _⟩ := e
  cases cause <;> cases h
  exact ⟨_, rfl⟩

-- The outcome of a set for the first target of a name is reported, unless it has no end.
theorem settle_returns {i : Fin targets.length} {made : Except Error GeneratedSet}
    (first : targets[i].name ∉ namesBefore targets i)
    (attained : (generateFor p set targets[i]).Attains made) :
    (settle set targets[i] made).Returns (Settled p targets (set, i)) (Lost p targets [set]) := by
  cases made
  case ok => exact .pure (.generated first attained)
  case error e =>
    rw [settle]
    split
    case isFalse ends => exact .pure (.failed first attained (by simpa using ends))
    case isTrue endless =>
      obtain ⟨name, cause⟩ := exists_endless endless
      obtain ⟨l, l', ends⟩ := attained
      have cyclic := embedded_of_endless.of_ends ends e rfl
      refine .throw ⟨set, List.mem_singleton_self set, i, first, ⟨l, l', ends⟩, name, cause, ?_⟩
      by_contra acyclic
      exact cyclic ⟨name, cause, acyclic⟩

theorem mem_namesBefore_succ {m : Nat} {name : String} (bound : m < targets.length) :
    name ∈ namesBefore targets (m + 1) ↔
    name ∈ namesBefore targets m ∨ targets[m].name = name := by
  rw [namesBefore, List.take_succ_eq_append_getElem bound, List.map_append, List.mem_append,
    List.map_singleton, List.mem_singleton]
  exact or_congr_right eq_comm

theorem isSome_find?_of_init {backend other name : String} (h : r.init backend name = .ok r') :
    (r'.find? other name).isSome ↔ (r.find? other name).isSome ∨ backend = other := by
  simp only [Registry.init] at h
  split at h <;> cases h
  simp [Registry.find?, Registry.isFor, List.find?_append, Option.isSome_or]

theorem fresh_of_init {backend name : String} (h : r.init backend name = .ok r') :
    ¬(r.find? backend name).isSome := by
  simp only [Registry.init] at h
  split at h <;> cases h
  case _ none => simp [none]

theorem refused_of_init {backend name : String} {e : Error} (h : r.init backend name = .error e) :
    (r.find? backend name).isSome ∧
    e = .configuration (.contextAlreadyInitialized backend name) := by
  simp only [Registry.init] at h
  split at h <;> cases h
  case _ known => exact ⟨Option.isSome_of_eq_some known, rfl⟩

-- The names that have had a context are those of the targets before the position.
theorem generateSet_returns {m : Nat} {rest : List Target} (split : targets.drop m = rest)
    (taken : ∀ name, (r.find? name set.name).isSome ↔ name ∈ namesBefore targets m) :
    (generateSet p set r rest).Returns
      (((List.finRange targets.length).drop m).Forall₂ fun i => Settled p targets (set, i))
      (Lost p targets [set]) := by
  induction rest generalizing m r
  case nil =>
    have past := List.drop_eq_nil_iff.mp split
    rw [List.drop_eq_nil_iff.mpr (by simpa using past)]
    exact .pure .nil
  case cons t rest hi =>
    have bound : m < targets.length := by
      by_contra past
      rw [List.drop_eq_nil_iff.mpr (not_lt.mp past)] at split
      cases split
    obtain ⟨rfl, later⟩ := List.cons.inj ((List.drop_eq_getElem_cons bound).symm.trans split)
    have position : (List.finRange targets.length).drop m =
        ⟨m, bound⟩ :: (List.finRange targets.length).drop (m + 1) := by
      rw [List.drop_eq_getElem_cons (by simpa using bound)]
      simp
    rw [position, generateSet]
    split
    case h_1 e refused =>
      obtain ⟨known, rfl⟩ := refused_of_init refused
      have before := (taken _).mp known
      have taken (name : String) : (r.find? name set.name).isSome ↔
          name ∈ namesBefore targets (m + 1) := by
        rw [mem_namesBefore_succ bound, ← taken, or_iff_left_of_imp]
        rintro rfl
        exact known
      exact (hi later taken).bind fun results row => .pure (.cons (.refused before) row)
    case h_2 r' started =>
      have fresh := mt (taken _).mpr (fresh_of_init started)
      have taken (name : String) : (r'.find? name set.name).isSome ↔
          name ∈ namesBefore targets (m + 1) := by
        rw [mem_namesBefore_succ bound, ← taken, isSome_find?_of_init started]
      refine (Access.attempt_returns _).bind fun made attained => ?_
      refine (settle_returns (i := ⟨m, bound⟩) fresh attained).bind fun result settled => ?_
      exact (hi later taken).bind fun results row => .pure (.cons settled row)

-- A set starts with no context.
theorem generateSet_settles : (generateSet p set {} targets).Returns
    ((List.finRange targets.length).Forall₂ fun i => Settled p targets (set, i))
    (Lost p targets [set]) :=
  generateSet_returns (m := 0) List.drop_zero fun name => by simp [namesBefore, Registry.find?]

theorem forall₂_product {R : α × β → γ → Prop} {as : List α} {bs : List β} {rows : List (List γ)}
    (h : as.Forall₂ (fun a row => bs.Forall₂ (fun b => R (a, b)) row) rows) :
    (as ×ˢ bs).Forall₂ R rows.flatten := by
  induction h
  case nil => exact .nil
  case cons first _ hi =>
    exact List.product_cons .. ▸ List.rel_append (List.forall₂_map_left_iff.mpr first) hi

theorem generateSets_returns : (generateSets p targets sets).Returns (fun results =>
    ∃ rows, results = rows.flatten ∧ sets.Forall₂ (fun set row =>
      (List.finRange targets.length).Forall₂ (fun i => Settled p targets (set, i)) row) rows)
    (Lost p targets sets) := by
  induction sets
  case nil => exact .pure ⟨[], rfl, .nil⟩
  case cons set sets hi =>
    have first : (generateSet p set {} targets).Returns _ (Lost p targets (set :: sets)) :=
      generateSet_settles.mono (fun _ => id) fun _ lost => lost.mono (by simp)
    have others : (generateSets p targets sets).Returns _ (Lost p targets (set :: sets)) :=
      hi.mono (fun _ => id) fun _ lost => lost.mono (by simp)
    refine first.bind fun row settled => others.bind ?_
    rintro _ ⟨rows, rfl, rest⟩
    exact .pure ⟨row :: rows, rfl, .cons settled rest⟩

-- Each result is either a generated set or a failure, and both are listed in the order of results.
theorem map_ok_sets (results : List Result) :
    (Outcome.ofResults results).sets.map .ok = results.filter Except.isOk := by
  rw [Outcome.ofResults_eq]
  induction results
  case nil => rfl
  case cons r results hi =>
    cases r
    case ok g  => exact congrArg (.ok g :: ·) hi
    case error => exact hi

theorem map_error_failures (results : List Result) :
    (Outcome.ofResults results).failures.map .error = results.filter (!·.isOk) := by
  rw [Outcome.ofResults_eq]
  induction results
  case nil => rfl
  case cons r results hi =>
    cases r
    case ok      => exact hi
    case error e => exact congrArg (.error e :: ·) hi

-- What is known about a set that has been generated for the target at a position.
theorem Settled.of_ok {i : Fin targets.length} {g : GeneratedSet}
    (h : Settled p targets (set, i) (.ok g)) :
    (targets[i].name ∉ namesBefore targets i) ∧ g.name = set.name ∧ g.backend = targets[i].name ∧
      Complete p set g := by
  cases h
  case generated first attained =>
    obtain ⟨_, _, ends⟩ := attained
    exact ⟨first, (generateFor_complete p set targets[i]).of_ends ends⟩

theorem mem_namesBefore {i j : Fin targets.length} (h : i < j) :
    targets[i].name ∈ namesBefore targets j := by
  refine List.mem_map_of_mem (List.mem_take_iff_getElem.mpr ⟨i, ?_, rfl⟩)
  exact Nat.lt_min.mpr ⟨h, i.isLt⟩

-- Pairs are in the order of the sets and, for one set, of the positions.
theorem pairwise_pairs (names : (sets.map ShaderSet.name).Nodup) (n : Nat) :
    (sets ×ˢ List.finRange n).Pairwise fun a b => a.1.name ≠ b.1.name ∨ a.2 < b.2 := by
  refine List.pairwise_flatMap.mpr ⟨fun set _ => ?_, ?_⟩
  · refine List.pairwise_map.mpr ((List.pairwise_lt_finRange n).imp fun h => .inr h)
  · refine (List.pairwise_map.mp names).imp fun {set set'} ne a mem b mem' => .inl ?_
    obtain ⟨_, _, rfl⟩ := List.mem_map.mp mem
    obtain ⟨_, _, rfl⟩ := List.mem_map.mp mem'
    exact ne

theorem pairwise_of_forall₂ {R : α → β → Prop} {S : α → α → Prop} {T : β → β → Prop} {as : List α}
    {bs : List β} (related : as.Forall₂ R bs) (ordered : as.Pairwise S)
    (step : ∀ a a' b b', S a a' → R a b → R a' b' → T b b') : bs.Pairwise T := by
  induction related
  case nil => exact .nil
  case cons a b as bs first rest hi =>
    have ⟨before, ordered⟩ := List.pairwise_cons.mp ordered
    refine .cons (fun b' mem => ?_) (hi ordered)
    have ⟨a', mem, h⟩ := exists_left_of_mem rest mem
    exact step a a' b b' (before a' mem) first h

theorem nodup_keys (names : (sets.map ShaderSet.name).Nodup)
    (settled : (sets ×ˢ List.finRange targets.length).Forall₂ (Settled p targets) results) :
    ((Outcome.ofResults results).sets.map fun g => (g.backend, g.name)).Nodup := by
  have ordered : (results.filter Except.isOk).Pairwise fun r r' =>
      ∀ g g', r = .ok g → r' = .ok g' → (g.backend, g.name) ≠ (g'.backend, g'.name) := by
    refine (pairwise_of_forall₂ settled (pairwise_pairs names _) ?_).filter _
    rintro ⟨set, i⟩ ⟨set', i'⟩ _ _ order h h' g g' rfl rfl same
    have ⟨_, name, backend, _⟩ := h.of_ok
    have ⟨first, name', backend', _⟩ := h'.of_ok
    have ⟨sameBackend, sameName⟩ := Prod.mk.inj same
    rcases order with apart | before
    · exact apart (name.symm.trans (sameName.trans name'))
    · refine first ?_
      rw [← backend', ← sameBackend, backend]
      exact mem_namesBefore before
  rw [← map_ok_sets, List.pairwise_map] at ordered
  exact List.pairwise_map.mpr (ordered.imp fun apart => apart _ _ rfl rfl)

-- All that a run has to account for: a result for each set and each position, listed in order;
-- names that tell generated sets apart; complete stages.
structure Accounts (p : Program) (targets : List Target) (sets : List ShaderSet) (o : Outcome) :
    Prop where
  settled  : ∃ results,
    (sets ×ˢ List.finRange targets.length).Forall₂ (Settled p targets) results ∧
    o.sets.map .ok = results.filter Except.isOk ∧ o.failures.map .error = results.filter (!·.isOk)
  distinct : (o.sets.map fun g => (g.backend, g.name)).Nodup
  found    : ∀ backend name g,
    o.find? backend name = some g ↔ g ∈ o.sets ∧ g.backend = backend ∧ g.name = name
  complete : ∀ g ∈ o.sets, ∃ set ∈ sets, g.name = set.name ∧ Complete p set g

theorem find?_eq_some_iff {o : Outcome} {backend name : String} {g : GeneratedSet}
    (distinct : (o.sets.map fun g => (g.backend, g.name)).Nodup) :
    o.find? backend name = some g ↔ g ∈ o.sets ∧ g.backend = backend ∧ g.name = name := by
  constructor
  · intro found
    have keys := List.find?_some found
    exact ⟨List.mem_of_find?_eq_some found, by simpa using keys⟩
  · rintro ⟨mem, rfl, rfl⟩
    have some : (o.find? g.backend g.name).isSome := List.find?_isSome.mpr ⟨g, mem, by simp⟩
    have ⟨g', found⟩ := Option.isSome_iff_exists.mp some
    have keys : g'.backend = g.backend ∧ g'.name = g.name := by simpa using List.find?_some found
    have same := List.inj_on_of_nodup_map distinct (List.mem_of_find?_eq_some found) mem
      (Prod.ext keys.left keys.right)
    exact same ▸ found

theorem accounts_of_settled (names : (sets.map ShaderSet.name).Nodup)
    (settled : (sets ×ˢ List.finRange targets.length).Forall₂ (Settled p targets) results) :
    Accounts p targets sets (.ofResults results) where
  settled        := ⟨results, settled, map_ok_sets results, map_error_failures results⟩
  distinct       := nodup_keys names settled
  found _ _ _    := find?_eq_some_iff (nodup_keys names settled)
  complete g mem := by
    have ⟨(set, i), pair, h⟩ := exists_left_of_mem settled (Outcome.mem_sets.mp mem)
    have ⟨_, name, _, complete⟩ := h.of_ok
    exact ⟨set, (List.mem_product.mp pair).left, name, complete⟩

end Generation

namespace Pool

variable {P P' : Pool α} {Qs : List ((α → Prop) × (Error → Prop))}

-- Computations come to what they return next to each other.
theorem returns_of_steps (h : P.threads.Forall₂ (fun x Q => x.Returns Q.1 Q.2) Qs)
    (steps : ReflTransGen Step P P') (finished : P'.Finished) :
    (∃ values, P'.threads = values.map (fun a => .done (.ok a)) ∧
      Qs.Forall₂ (fun Q a => Q.1 a) values) ∨
    ∃ e, .done (.error e) ∈ P'.threads ∧ ∃ Q ∈ Qs, Q.2 e := by
  obtain ⟨rs, done⟩ := finished.exists_outcomes
  have ends := ends_of_steps steps done
  rw [done]
  generalize P.threads = threads at h ends
  clear done
  induction h generalizing rs
  case nil =>
    cases ends
    exact .inl ⟨[], rfl, .nil⟩
  case cons first _ hi =>
    cases ends
    case cons r rs ended others =>
      cases r
      case error e =>
        exact .inr ⟨e, List.mem_cons_self, _, List.mem_cons_self, first.error e ⟨_, _, ended⟩⟩
      case ok a =>
        rcases hi rs others with ⟨values, same, all⟩ | ⟨e, mem, Q, known, holds⟩
        case inl => exact .inl ⟨a :: values, congrArg _ same, .cons (first.ok a ⟨_, _, ended⟩) all⟩
        case inr =>
          exact .inr ⟨e, List.mem_cons_of_mem _ mem, Q, List.mem_cons_of_mem _ known, holds⟩

end Pool

section Runs

open Generation

variable {p : Program} {targets : List Target} {sets : List ShaderSet} {l : Layouts}

theorem Generation.generateWith_accounts (filled : targets ≠ [])
    (discovered : ShaderSet.discover p = .ok sets) (processors : List (Processor σ)) (s : σ) :
    (∃ o l', generateWith processors p targets s l =
      .ok (o, (o.sets ×ˢ processors).foldl Outcome.call s) l' ∧ Accounts p targets sets o) ∨
    ∃ e l', generateWith processors p targets s l = .error e l' ∧ Lost p targets sets e := by
  have names := (ShaderSet.discover_eq_ok_iff.mp discovered).left
  have all : (generateSets p targets sets).Returns _ _ := generateSets_returns
  rw [generateWith_eq filled discovered]
  change (∃ o l', EStateM.map _ (generateSets p targets sets).run l = _ ∧ _) ∨
    ∃ e l', EStateM.map _ (generateSets p targets sets).run l = _ ∧ _
  simp only [EStateM.map]
  rcases all.run l with ⟨results, l', run, rows, rfl, settled⟩ | ⟨e, l', run, lost⟩
  case inl =>
    have accounts := accounts_of_settled names (forall₂_product settled)
    refine .inl ⟨.ofResults rows.flatten, l', ?_, accounts⟩
    rw [run]
    exact congrArg (EStateM.Result.ok · l') (Outcome.collect_eq ..)
  case inr => exact .inr ⟨e, l', by rw [run], lost⟩

theorem Generation.pool_accounts (discovered : ShaderSet.discover p = .ok sets)
    {P : Pool (List Result)} (steps : ReflTransGen Pool.Step (pool p targets sets l) P)
    (finished : P.Finished) :
    (∃ rows : List (List Result), P.threads = rows.map (fun row => .done (.ok row)) ∧
      Accounts p targets sets (.ofResults rows.flatten)) ∨
    ∃ e, .done (.error e) ∈ P.threads ∧ Lost p targets sets e := by
  have names := (ShaderSet.discover_eq_ok_iff.mp discovered).left
  have start : (pool p targets sets l).threads.Forall₂ (fun x Q => x.Returns Q.1 Q.2)
      (sets.map fun set => ((List.finRange targets.length).Forall₂
        (fun i => Settled p targets (set, i)), Lost p targets [set])) := by
    refine List.forall₂_map_left_iff.mpr (List.forall₂_map_right_iff.mpr ?_)
    exact List.forall₂_same.mpr fun set _ => generateSet_settles
  rcases Pool.returns_of_steps start steps finished with
    ⟨rows, threads, settled⟩ | ⟨e, failed, _, known, lost⟩
  case inl =>
    rw [List.forall₂_map_left_iff] at settled
    exact .inl ⟨rows, threads, accounts_of_settled names (forall₂_product settled)⟩
  case inr =>
    obtain ⟨set, mem, rfl⟩ := List.mem_map.mp known
    exact .inr ⟨e, failed, lost.mono (List.cons_subset.mpr ⟨mem, List.nil_subset _⟩)⟩

-- For targets of any names, generation succeeds and everything is accounted for: if sets follow
-- each other, and in whichever order sets that are generated at the same time make their accesses.
-- All processors see each generated set once, in order. It is otherwise if a default value has no
-- end, which is not the case among canonical names.
theorem every_pair_accounted (p : Program) (targets : List Target) (filled : targets ≠ [])
    (sets : List ShaderSet) (discovered : ShaderSet.discover p = .ok sets) (l : Layouts) :
    (∀ {σ : Type} (processors : List (Processor σ)) (s : σ),
      (∃ o l', generateWith processors p targets s l =
        .ok (o, (o.sets ×ˢ processors).foldl Outcome.call s) l' ∧ Accounts p targets sets o) ∨
      ∃ e l', generateWith processors p targets s l = .error e l' ∧ Lost p targets sets e) ∧
    (Acc (flip Pool.Step) (pool p targets sets l)) ∧
    (∀ P, ReflTransGen Pool.Step (pool p targets sets l) P → P.Finished →
      (∃ rows : List (List Result), P.threads = rows.map (fun row => .done (.ok row)) ∧
        Accounts p targets sets (.ofResults rows.flatten)) ∨
      ∃ e, .done (.error e) ∈ P.threads ∧ Lost p targets sets e) ∧
    (Canonical p.mentionedTypes → l.Faithful p p.mentionedTypes →
      (∀ {σ : Type} (processors : List (Processor σ)) (s : σ) e l',
        generateWith processors p targets s l ≠ .error e l') ∧
      ∀ P, ReflTransGen Pool.Step (pool p targets sets l) P → P.Finished →
        ∀ e, .done (.error e) ∉ P.threads) := by
  refine ⟨fun processors s => generateWith_accounts filled discovered processors s,
    Pool.wellFounded_step.apply _, fun P => pool_accounts discovered, fun canonical faithful => ?_⟩
  have u : Universe p p.mentionedTypes := .of_canonical canonical
  have fit := faithful.fit u
  refine ⟨fun processors s e l' failed => ?_, fun P steps finished e failed => ?_⟩
  case refine_1 =>
    rw [generateWith_eq filled discovered] at failed
    change EStateM.map _ (generateSets p targets sets).run l = _ at failed
    simp only [EStateM.map] at failed
    split at failed <;> cases failed
    case h_2.refl same => exact run_generateSets_ne_error u fit same
  case refine_2 => exact error_notMem_threads u fit steps finished failed

-- Two processors that keep a list of what they are told.
def recorders : List (Processor (List String)) :=
  [fun input told => told ++ [input.set], fun input told => told ++ [input.backend]]

-- The candle is generated for the first target. The second one has the name of the first.
theorem every_pair_accounted_candle :
    (∃ o l', generateWith recorders candle [{}, {}] [] {} =
        .ok (o, ["Candle", Target.name {}]) l' ∧ Accounts candle [{}, {}] [candleSet] o ∧
      o.sets.map GeneratedSet.name = ["Candle"] ∧ o.failures = [⟨"Candle", Target.name {},
        .configuration (.contextAlreadyInitialized (Target.name {}) "Candle")⟩]) ∧
    (∀ P, ReflTransGen Pool.Step (pool candle [{}, {}] [candleSet] {}) P → P.Finished →
      ∀ e, .done (.error e) ∉ P.threads) := by
  have made := run_attempt_of_ok (run_generateFor (candle_assembled {} rfl) (candle_valid {})
    (writeStages_eq_ok rfl (candle_order {}) rfl))
  have one : (generateSet candle candleSet {} [{}, {}]).run {} = .ok _ candleLayouts :=
    (Access.run_bind_of_ok made).trans (Access.run_bind_of_ok rfl)
  have all : (generateSets candle [{}, {}] [candleSet]).run {} = .ok _ candleLayouts :=
    Access.run_bind_of_ok one
  obtain ⟨runs, _, _, canonical⟩ := every_pair_accounted candle [{}, {}] (List.cons_ne_nil _ _)
    [candleSet] candle_discovered {}
  obtain ⟨_, finished⟩ := canonical (by decide) (by simp [Layouts.Faithful])
  refine ⟨?_, finished⟩
  have run : generateWith recorders candle [{}, {}] [] {} = _ :=
    (generateWith_eq (List.cons_ne_nil _ _) candle_discovered).trans
      (by change EStateM.map _ (generateSets candle [{}, {}] [candleSet]).run {} = _
          rw [EStateM.map, all])
  rcases runs recorders [] with ⟨o, l', same, accounts⟩ | ⟨e, l', failed, _⟩
  case inr => cases run.symm.trans failed
  case inl =>
    cases run.symm.trans same
    exact ⟨_, _, run, accounts, rfl, rfl⟩

-- One set and one target, of which nothing is reported.
theorem trellis_unaccounted :
    ShaderSet.discover trellis = .ok [trellisSet] ∧
    generate trellis [{}] {} = .error ⟨.endless "Vine", none⟩ trellisLayouts ∧
    Lost trellis [{}] [trellisSet] ⟨.endless "Vine", none⟩ ∧
    ∀ n, (expand {} trellis n (.struct "Vine" [])).run = none := by
  have attempted : (generateFor trellis trellisSet {}).attempt.run {} =
      .ok (.error ⟨.endless "Vine", none⟩) trellisLayouts := by
    rw [Access.run_attempt, trellis_run]
    rfl
  have one : (generateSet trellis trellisSet {} [{}]).run {} =
      .error ⟨.endless "Vine", none⟩ trellisLayouts :=
    (Access.run_bind_of_ok attempted).trans (Access.run_bind_of_error rfl)
  have all : (generateSets trellis [{}] [trellisSet]).run {} =
      .error ⟨.endless "Vine", none⟩ trellisLayouts :=
    Access.run_bind_of_error one
  have run : generateWith [] trellis [{}] () {} =
      .error ⟨.endless "Vine", none⟩ trellisLayouts := by
    rw [generateWith_eq (List.cons_ne_nil _ _) trellis_discovered]
    change EStateM.map _ (generateSets trellis [{}] [trellisSet]).run {} = _
    rw [EStateM.map, all]
  refine ⟨trellis_discovered, ?_, ?_, expand_eq_none (e := ⟨.endless "Vine", none⟩) (by cbv) rfl⟩
  case refine_1 =>
    change EStateM.map Prod.fst (generateWith [] trellis [{}] ()) {} = _
    rw [EStateM.map, run]
  case refine_2 =>
    rcases generateWith_accounts (List.cons_ne_nil _ _) trellis_discovered [] () with
      ⟨o, l', made, _⟩ | ⟨e, l', failed, lost⟩
    case inl => cases run.symm.trans made
    case inr =>
      cases run.symm.trans failed
      exact lost

end Runs

end Shading
