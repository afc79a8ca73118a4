import Shading.Proofs.GenerationFaults
import Shading.Proofs.Interleaving
import Mathlib
/-!
Generation of shader sets side by side.

The sets of a program share nothing but its layouts. Among canonical names each of them comes to the
same for each target as if it had been generated alone, in sequence or in any interleaving.
-/

open Relation

namespace Shading
namespace Generation

open Glsl

variable {p : Program} {overrides : List (String × Nat)} {set : ShaderSet} {t : Target}
  {targets : List Target} {sets : List ShaderSet} {r : Registry}

-- What becomes of a set for a target if it is generated alone, on layouts that know nothing.
def solo (p : Program) (overrides : List (String × Nat)) (set : ShaderSet) (t : Target) : Result :=
  (outcome ((generateFor p set t).run { overrides })).mapError (⟨set.name, t.name, ·⟩)

theorem solo_eq_alone (u : Universe p p.mentionedTypes) :
    solo p overrides set t =
    ((generateFor p set t).alone overrides).mapError (⟨set.name, t.name, ·⟩) :=
  congrArg _ (u.run_steady (generateFor_steady u) (.empty overrides)).left

-- A context that has been started takes no name but its own.
theorem find?_of_init {r' : Registry} {backend other : String}
    (h : r.init backend set.name = .ok r') (ne : backend ≠ other)
    (fresh : r.find? other set.name = none) : r'.find? other set.name = none := by
  simp only [Registry.init] at h
  split at h <;> cases h
  simpa [Registry.find?, Registry.isFor, List.find?_append, ne] using fresh

theorem alone_settle {made : Except Error GeneratedSet} (ends : Excludes (·.isEndless) made) :
    (settle set t made).alone overrides = .ok (made.mapError (⟨set.name, t.name, ·⟩)) := by
  cases made
  case ok      => rfl
  case error e =>
    rw [settle, if_neg (ends e rfl)]
    rfl

-- Targets of distinct names do not meet in the registry.
theorem alone_generateSet (u : Universe p p.mentionedTypes)
    (distinct : (targets.map Target.name).Nodup)
    (fresh : ∀ t ∈ targets, r.find? t.name set.name = none) :
    (generateSet p set r targets).alone overrides = .ok (targets.map (solo p overrides set)) := by
  induction targets generalizing r
  case nil => rfl
  case cons t targets hi =>
    have ⟨apart, distinct⟩ := List.nodup_cons.mp distinct
    simp only [generateSet]
    split
    case h_1 refused =>
      simp [Registry.init, fresh t List.mem_cons_self] at refused
    case h_2 r' started =>
      have fresh' : ∀ t' ∈ targets, r'.find? t'.name set.name = none := by
        intro t' mem
        refine find?_of_init started ?_ (fresh t' (List.mem_cons_of_mem _ mem))
        intro same
        exact apart (same ▸ List.mem_map_of_mem mem)
      simp only [Access.alone_bind, Access.alone_attempt, List.map_cons, solo_eq_alone u]
      refine bind_eq_ok_iff.mpr ⟨_, rfl, ?_⟩
      refine bind_eq_ok_iff.mpr ⟨_, alone_settle (alone_generateFor_excludes u), ?_⟩
      exact bind_eq_ok_iff.mpr ⟨_, hi distinct fresh', rfl⟩

theorem alone_generateSets (u : Universe p p.mentionedTypes)
    (distinct : (targets.map Target.name).Nodup) :
    (generateSets p targets sets).alone overrides =
    .ok (sets.flatMap fun set => targets.map (solo p overrides set)) := by
  induction sets
  case nil => rfl
  case cons set sets hi =>
    rw [generateSets, Access.alone_bind, alone_generateSet u distinct fun _ _ => rfl]
    change (generateSets p targets sets >>= _).alone overrides = _
    rw [Access.alone_bind, hi]
    rfl

-- Where names meet, the set is refused, so that there are results for targets of any names.
theorem alone_generateSet_excludes (u : Universe p p.mentionedTypes) :
    Excludes (fun _ => True) ((generateSet p set r targets).alone overrides) := by
  induction targets generalizing r
  case nil => exact .ok
  case cons t targets hi =>
    rw [generateSet]
    split
    case h_1 =>
      rw [Access.alone_bind]
      exact hi.bind fun _ _ => .ok
    case h_2 =>
      simp only [Access.alone_bind, Access.alone_attempt]
      change Excludes _ ((settle set t _).alone overrides >>= _)
      rw [alone_settle (alone_generateFor_excludes u)]
      exact hi.bind fun _ _ => .ok

theorem alone_generateSets_excludes (u : Universe p p.mentionedTypes) :
    Excludes (fun _ => True) ((generateSets p targets sets).alone overrides) := by
  induction sets
  case nil => exact .ok
  case cons set sets hi =>
    rw [generateSets, Access.alone_bind]
    refine (alone_generateSet_excludes u).bind fun _ _ => ?_
    rw [Access.alone_bind]
    exact hi.bind fun _ _ => .ok

-- One computation for each set, before any of them has made an access.
def pool (p : Program) (targets : List Target) (sets : List ShaderSet) (l : Layouts) :
    Pool (List Result) :=
  ⟨l, sets.map fun set => generateSet p set {} targets⟩

theorem pool_yields {l : Layouts} (u : Universe p p.mentionedTypes)
    (fit : l.Fit overrides (Fitting p overrides p.mentionedTypes)) :
    (pool p targets sets l).Yields overrides (Fitting p overrides p.mentionedTypes)
      (sets.map fun set => (generateSet p set {} targets).alone overrides) where
  layouts := fit
  threads := by
    refine List.forall₂_map_left_iff.mpr (List.forall₂_map_right_iff.mpr (List.forall₂_same.mpr ?_))
    exact fun set _ => generateSet_steady u

-- So nothing is lost: sets that follow each other have results, and so have sets side by side.
theorem run_generateSets_ne_error {l l' : Layouts} {e : Error} (u : Universe p p.mentionedTypes)
    (fit : l.Fit overrides (Fitting p overrides p.mentionedTypes)) :
    (generateSets p targets sets).run l ≠ .error e l' := by
  intro failed
  have run : outcome ((generateSets p targets sets).run l) = _ :=
    (u.run_steady (generateSets_steady u) fit).left
  rw [failed] at run
  exact alone_generateSets_excludes u e run.symm trivial

theorem error_notMem_threads {l : Layouts} {P : Pool (List Result)} {e : Error}
    (u : Universe p p.mentionedTypes)
    (fit : l.Fit overrides (Fitting p overrides p.mentionedTypes))
    (steps : ReflTransGen Pool.Step (pool p targets sets l) P) (finished : P.Finished) :
    .done (.error e) ∉ P.threads := by
  have y := (pool_yields u fit).steps u.fitting_unique steps
  rw [y.threads_of_finished finished, List.map_map, List.mem_map]
  rintro ⟨set, _, same⟩
  injection same with same
  exact alone_generateSet_excludes u e same trivial

theorem outcome_generate {l : Layouts} {result : List ShaderSet → List Result}
    (h : ∀ sets, outcome ((generateSets p targets sets).run l) = .ok (result sets)) :
    outcome (generate p targets l) = (do
      if targets.isEmpty then throw (.configuration .noBackends)
      let sets ← ShaderSet.discover p
      return .ofResults (result sets)) := by
  simp only [generate, generateWith]
  by_cases none : targets.isEmpty
  case pos =>
    simp only [none, if_true]
    rfl
  case neg =>
    simp only [none, Bool.false_eq_true, if_false]
    cases ShaderSet.discover p
    case error => rfl
    case ok sets =>
      have run := eq_ok_of_outcome (h sets)
      change outcome (EStateM.map _ (EStateM.bind (generateSets p targets sets).run _) l) = _
      rw [EStateM.map, EStateM.bind, run]
      rfl

end Generation

open Generation in
theorem shader_sets_independent (p : Program) (targets : List Glsl.Target) (l : Layouts)
    (canonical : Canonical p.mentionedTypes) (distinct : (targets.map Glsl.Target.name).Nodup)
    (faithful : l.Faithful p p.mentionedTypes) :
    outcome (generate p targets l) = (do
      if targets.isEmpty then throw (.configuration .noBackends)
      let sets ← ShaderSet.discover p
      return .ofResults (sets.flatMap fun set => targets.map (solo p l.overrides set))) ∧
    ∀ sets : List ShaderSet,
      (outcome ((generateSets p targets sets).run l) =
        .ok (sets.flatMap fun set => targets.map (solo p l.overrides set))) ∧
      (Acc (flip Pool.Step) (pool p targets sets l)) ∧
      ∀ P, ReflTransGen Pool.Step (pool p targets sets l) P → P.Finished →
        P.threads = sets.map fun set => .done (.ok (targets.map (solo p l.overrides set))) := by
  have u : Universe p p.mentionedTypes := .of_canonical canonical
  have fit := faithful.fit u
  have sequential sets : outcome ((generateSets p targets sets).run l) =
      .ok (sets.flatMap fun set => targets.map (solo p l.overrides set)) :=
    (u.run_steady (generateSets_steady u) fit).left.trans (alone_generateSets u distinct)
  refine ⟨outcome_generate sequential, fun sets => ⟨sequential sets, ?_, ?_⟩⟩
  · exact Pool.wellFounded_step.apply _
  · intro P steps finished
    have y := (pool_yields u fit).steps u.fitting_unique steps
    rw [y.threads_of_finished finished, List.map_map]
    refine List.map_congr_left fun set _ => congrArg Access.done ?_
    exact alone_generateSet u distinct fun _ _ => rfl

def shade : MethodDecl where
  name       := "shade"
  returnType := .unit
  stage      := some .fragment
  body       := some [.declare "nearest" (.struct "Light" []) none]

-- Two sets that share the structure of their lights. The second one has a resource that cannot be
-- bound.
def lamps : Program where
  types         := [
    { name := "Light", kind := .struct, fields := [
      { name := "color", ty := .primitive "Vector4" [] }] },
    { name := "Lamp", kind := .object, fields := [{ name := "light", ty := .struct "Light" [] }],
      methods := [shade] },
    { name := "Torch", kind := .object, methods := [shade], fields := [
      { name := "lights", ty := .object "StructuredBuffer" [.struct "Light" []] },
      { name := "holder", ty := .object "Holder" [] }] }]
  sets          := []
  types_nodup   := by decide
  methods_nodup := by decide

open Generation in
theorem shader_sets_independent_lamps :
    Canonical lamps.mentionedTypes ∧
    outcome (generate lamps [{}, { version := .core330 }] {}) = (do
      let sets ← ShaderSet.discover lamps
      return .ofResults (sets.flatMap fun set => [solo lamps [] set {},
        solo lamps [] set { version := .core330 }])) :=
  ⟨by decide, (shader_sets_independent lamps [{}, { version := .core330 }] {} (by decide)
    (by decide) nofun).left⟩

end Shading
