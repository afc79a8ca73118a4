import Shading.Proofs.Accounting
import Shading.Proofs.StructurePacking
import Mathlib
/-!
Emission comes to an end, if it does not come to a structure that is embedded in itself.

Default values are taken of structures that discovery has gone through before. Their footprints are
known by then. Among canonical names no such structure lies inside itself, and the expansion of its
members stops. Otherwise the name of a structure may be known for something else.
-/

open Relation

namespace Shading

open Glsl Context

section Footprints

variable {p : Program} {types : List TypeRef} {l : Layouts} {name inner : String}
  {args args' : List TypeRef} {f : Footprint}

namespace Universe

-- All that a structure is expanded to is known with it.
theorem exists_known?_of_path (u : Universe p types) (coherent : l.Coherent p types)
    (mem : .struct name args ∈ TypeRef.refsAll types) (known : l.known? name = some f)
    (path : ReflTransGen (ExpandsTo p) (.struct name args) (.struct inner args')) :
    (.struct inner args' ∈ TypeRef.refsAll types) ∧ ∃ g, l.known? inner = some g := by
  generalize last : TypeRef.struct inner args' = part at path
  induction path generalizing inner args'
  case refl =>
    cases last
    exact ⟨mem, f, known⟩
  case tail step hi =>
    obtain ⟨declared, member⟩ := step
    obtain ⟨inside, g, known⟩ := hi rfl
    have composes := coherent _ g (u.canonical.structural inside rfl) known
    obtain ⟨_, members⟩ := composes.exists_describe known declared
    obtain ⟨one, found⟩ := members _ member
    rw [← last] at found ⊢
    have inside := u.member_mem (Program.mem_of_type? declared) member
    exact ⟨last ▸ inside, one, found⟩

theorem countable_of_known? (u : Universe p types) (coherent : l.Coherent p types)
    (mem : .struct name args ∈ TypeRef.refsAll types) (known : l.known? name = some f) :
    Countable p name := by
  obtain ⟨⟨t, fields, k, declared, _, _, packed, _⟩, founded⟩ :=
    coherent name f (u.canonical.structural mem rfl) known
  refine ⟨⟨t, declared, fun member here element array => ?_⟩, not_cyclic_of_acc founded⟩
  obtain ⟨all, count, occupies⟩ := exists_occupies_of_packFields packed here
  rcases occupies with ⟨single, _⟩ | ⟨_, size, positive, _, _⟩
  case single => cases array.symm.trans single
  case array  => exact ⟨count, size, positive⟩

end Universe
end Footprints

namespace Generation

variable {p : Program} {set : ShaderSet} {t : Target} {c : Context} {l l' : Layouts} {e : Error}
  {targets : List Target} {sets : List ShaderSet}

-- Emission for a set and a target has come to a structure that is embedded in itself.
def Entangled (p : Program) (targets : List Target) (sets : List ShaderSet) (e : Error) : Prop :=
  ∃ set ∈ sets, ∃ t ∈ targets, ∃ l c l' stages, Starts p set t l c l' ∧
    emitStages p t stages c = .error e ∧
    ∃ name, e.cause = .endless name ∧ TransGen (Embeds p) name name

-- Where generation has no end, emission has none.
theorem exists_starts_of_assemble (h : (assemble p set t).Ends l (.error e) l')
    (endless : e.isEndless) :
    ∃ c l₁, Starts p set t l c l₁ ∧
      emitStages p t (set.entryPoints.map Prod.fst) c = .error e := by
  have only := onlyEndless
  rcases h.of_bind with ⟨_, _, ⟨⟩, failed⟩ | ⟨resources, l₁, bound, h⟩
  case inl => exact absurd endless (bindResources_excludes only e failed.of_liftExcept.symm)
  rcases h.of_bind with ⟨_, _, ⟨⟩, failed⟩ | ⟨collected, l₂, collection, h⟩
  case inl => exact absurd endless (collectFunctions_excludes only e failed.of_liftExcept.symm)
  rcases h.of_bind with ⟨_, _, ⟨⟩, failed⟩ | ⟨⟨r, c⟩, l₃, discovered, h⟩
  case inl =>
    have quiet : (discoverAll p collected (collected.touchedTypes p)).Excludes (·.isEndless) :=
      discoverAll_excludes _ _
    exact absurd endless (quiet.of_ends failed e rfl)
  rcases h.of_bind with ⟨_, _, ⟨⟩, failed⟩ | ⟨_, l₄, succeeded, h⟩
  case inl =>
    have handed := (discoverAll_hands_on only _ _).of_ends discovered
    exact absurd endless (handed e failed.of_liftExcept.symm)
  cases succeeded.of_liftExcept
  have ends := discovered.of_grows (bound.grows.trans collection.grows)
  have starts : Starts p set t l c l₃ :=
    ⟨resources, collected, bound.of_liftExcept.symm, collection.of_liftExcept.symm, ends⟩
  exact ⟨c, l₃, starts, h.of_liftExcept.symm⟩

theorem exists_starts_of_generateFor (h : (generateFor p set t).Ends l (.error e) l')
    (endless : e.isEndless) : ∃ c l₁, Starts p set t l c l₁ ∧
      emitStages p t (set.entryPoints.map Prod.fst) c = .error e := by
  have only := onlyEndless
  rcases h.of_bind with ⟨_, _, ⟨⟩, failed⟩ | ⟨⟨fs, c⟩, l₁, _, h⟩
  case inl => exact exists_starts_of_assemble failed endless
  rcases h.of_bind with ⟨_, _, ⟨⟩, failed⟩ | ⟨_, l₂, _, h⟩
  case inl => exact absurd endless (c.build.validate_ends only e failed.of_liftExcept.symm)
  rcases h.of_bind with ⟨_, _, ⟨⟩, failed⟩ | ⟨_, l₃, _, h⟩
  case inl => exact absurd endless (writeStages_excludes only fs e failed.of_liftExcept.symm)
  cases h.of_done

theorem Lost.entangled (lost : Lost p targets sets e) : Entangled p targets sets e := by
  obtain ⟨set, mem, i, _, ⟨l, _, ends⟩, name, cause, cyclic⟩ := lost
  have endless : e.isEndless := by simp [Error.isEndless, cause]
  obtain ⟨c, l', starts, emission⟩ := exists_starts_of_generateFor ends endless
  exact ⟨set, mem, targets[i], List.getElem_mem _, l, c, l', _, starts, emission, name, cause,
    cyclic⟩

-- Each of the sets that are generated side by side has its results, or has come to that.
theorem entangled_of_steps {P : Pool (List Result)} {x : Access (List Result)}
    (steps : ReflTransGen Pool.Step (pool p targets sets l) P) (finished : P.Finished)
    (mem : x ∈ P.threads) :
    (∃ results, x = .done (.ok results)) ∨
    ∃ e, x = .done (.error e) ∧ Entangled p targets sets e := by
  obtain ⟨rs, done⟩ := finished.exists_outcomes
  rw [done] at mem
  obtain ⟨r, outcome, rfl⟩ := List.mem_map.mp mem
  obtain ⟨_, thread, ends⟩ := exists_left_of_mem (Pool.ends_of_steps steps done) outcome
  obtain ⟨set, known, rfl⟩ := List.mem_map.mp thread
  cases r
  case ok results => exact .inl ⟨results, rfl⟩
  case error e =>
    have lost := generateSet_settles.error e ⟨_, _, ends⟩
    exact .inr ⟨e, rfl, (lost.mono (List.cons_subset.mpr ⟨known, List.nil_subset _⟩)).entangled⟩

end Generation

open Generation

-- A structure that has a footprint is expanded to a value in finitely many steps, and to all of it
-- where its parts can be written. Generation takes default values only of structures whose
-- footprints are known by then, whatever other sets do meanwhile. It has an end for all sets unless
-- one of them comes to a structure that is embedded in itself, and this does not happen among
-- canonical names.
theorem default_values_finite (p : Program) :
    (∀ (settings : List (String × Nat)) (qs : List Query) (name : String) (args : List TypeRef)
      (f : Footprint),
      Canonical (p.fieldTypes ++ (.type (.struct name args) :: qs).flatMap Query.types) →
      outcome (Layouts.footprintOf p (.struct name args)
        (Query.leave p qs (.configured settings))) = .ok f →
      ∀ t, Expands t p (.struct name args) (defaultValue t p [] (.struct name args)) ∧
        (Expandable t p (.struct name args) → ∃ value,
          defaultValue t p [] (.struct name args) = .ok value ∧
          IsDefault t p (.struct name args) value)) ∧
    (∀ set t l c l', Starts p set t l c l' → ∀ ty name args d, c.Constructs p ty →
      ReflTransGen (ExpandsTo p) ty (.struct name args) → p.type? name = some d →
      c.hasStructure name ∧ ∃ f, l'.known? name = some f) ∧
    ∀ targets sets l,
      (∀ e l', (generateSets p targets sets).run l = .error e l' → Entangled p targets sets e) ∧
      (Acc (flip Pool.Step) (pool p targets sets l)) ∧
      (∀ P, ReflTransGen Pool.Step (pool p targets sets l) P → P.Finished → ∀ x ∈ P.threads,
        (∃ results, x = .done (.ok results)) ∨
        ∃ e, x = .done (.error e) ∧ Entangled p targets sets e) ∧
      (Canonical p.mentionedTypes → l.Faithful p p.mentionedTypes →
        (∀ e l', (generateSets p targets sets).run l ≠ .error e l') ∧
        ∀ P, ReflTransGen Pool.Step (pool p targets sets l) P →
          (P.Finished → ∀ e, .done (.error e) ∉ P.threads) ∧
          ∀ set t l₁ c, Starts p set t l₁ c P.layouts →
            (∀ ty part, c.Constructs p ty → ReflTransGen (ExpandsTo p) ty part →
              Expands t p part (defaultValue t p [] part)) ∧
            ∀ stages e, emitStages p t stages c = .error e → ¬e.isEndless) := by
  refine ⟨?alone, ?computed, fun targets sets l =>
    ⟨fun e l' failed => ?sequence, Pool.wellFounded_step.apply _,
      fun P steps finished x => entangled_of_steps steps finished,
      fun canonical faithful => ?canonical⟩⟩
  case alone =>
    intro settings qs name args f canonical found t
    have u := Universe.of_canonical canonical
    have asked : ∀ q ∈ .type (.struct name args) :: qs, ∀ ty ∈ q.types, ty ∈ TypeRef.refsAll
        (p.fieldTypes ++ (.type (.struct name args) :: qs).flatMap Query.types) :=
      Query.types_mem
    obtain ⟨this, earlier⟩ := List.forall_mem_cons.mp asked
    have mem := this _ List.mem_cons_self
    have left := Query.leave_coherent u settings earlier
    have coherent := u.compute_coherent (V := []) (.inl mem) _ left
    have known := known?_of_run_compute (eq_ok_of_outcome found)
    have countable (inner : String) (args' : List TypeRef)
        (path : ReflTransGen (ExpandsTo p) (.struct name args) (.struct inner args')) :
        Countable p inner := by
      obtain ⟨inside, _, known⟩ := u.exists_known?_of_path coherent mem known path
      exact u.countable_of_known? coherent inside known
    refine ⟨expands_iff.mpr ⟨rfl, ?_⟩, exists_isDefault (by simp) countable⟩
    exact defaultValue_excludes onlyEndless (by simp) fun inner args' path cyclic =>
      absurd cyclic (countable inner args' path).acyclic
  case computed =>
    intro set t l c l' starts ty name args d made path declared
    have has := starts.hasStructure made path declared
    exact ⟨has, starts.exists_known? has⟩
  case sequence =>
    exact (generateSets_returns.error e ⟨l, l', .of_run failed⟩).entangled
  case canonical =>
    have u : Universe p p.mentionedTypes := .of_canonical canonical
    have fit := faithful.fit u
    refine ⟨fun e l' => run_generateSets_ne_error u fit, fun P steps => ⟨fun finished e => ?_,
      fun set t l₁ c starts => ?_⟩⟩
    case refine_1 => exact error_notMem_threads u fit steps finished
    case refine_2 =>
      have fit := ((pool_yields u fit).steps u.fitting_unique steps).layouts
      have ends (ty part : TypeRef) (made : c.Constructs p ty)
          (path : ReflTransGen (ExpandsTo p) ty part) := starts.excludes u fit made path t
      refine ⟨fun ty part made path => expands_iff.mpr ⟨rfl, ends ty part made path⟩, ?_⟩
      exact fun stages => emitStages_excludes onlyEndless fun ty made => ends ty ty made .refl

def bloom : MethodDecl where
  name       := "bloom"
  returnType := .unit
  stage      := some .fragment
  body       := some [.eval (.construct ⟨.struct "Flower" [], none⟩ [])]

def tint : FieldDecl where
  name := "tint"
  ty   := .primitive "Vector4" []

def leaves : FieldDecl where
  name      := "leaves"
  ty        := .arrayOf (.struct "Leaf" [])
  arraySize := some 2

def flowerKind : FieldDecl where
  name := "kind"
  ty   := .enum "Kind" (.primitive "int" []) []

-- A garden with flowers, and with a vine that has no end and that is not grown.
def garden : Program where
  types         := [
    { name := "Leaf", kind := .struct, fields := [tint] },
    { name := "Flower", kind := .struct, fields := [leaves, flowerKind] },
    { name := "Vine", kind := .struct, fields := [{ name := "next", ty := .struct "Vine" [] }] },
    { name := "Garden", kind := .object, methods := [bloom] }]
  sets          := []
  types_nodup   := by decide
  methods_nodup := by decide

def gardenSet : ShaderSet where
  name    := "Garden"
  entries := ⟨none, some ⟨"Garden", "bloom"⟩, none⟩

def gardenContext (structures : List Structure) : Context where
  backend    := Target.name {}
  set        := "Garden"
  structures := structures
  functions  := [.ofDecl "Garden" bloom]
  stages     := ⟨none, some ⟨⟨"Garden", "bloom"⟩, [⟨"Garden", "bloom"⟩], []⟩, none⟩

theorem garden_collected : collectFunctions garden gardenSet
    { backend := Target.name {}, set := "Garden", resources := [] } = .ok (gardenContext []) := by
  cbv

def leafStructure : Structure where
  name      := "Leaf"
  fields    := [⟨"tint", .primitive "Vector4" [], .unspecified, 0, ⟨16, 16, 4, 16⟩⟩]
  footprint := ⟨16, 16, 4, 16⟩
  agrees    := true

def flowerStructure : Structure where
  name      := "Flower"
  fields    := [
    ⟨"leaves", .arrayOf (.struct "Leaf" []), .unspecified, 2, ⟨32, 32, 4, 16⟩⟩,
    ⟨"kind", .enum "Kind" (.primitive "int" []) [], .unspecified, 0, ⟨4, 4, 4, 4⟩⟩]
  footprint := ⟨36, 36, 4, 16⟩
  agrees    := true

def gardenLayouts : Layouts where
  known := [("Flower", ⟨36, 36, 4, 16⟩), ("Kind", ⟨4, 4, 4, 4⟩), ("Leaf", ⟨16, 16, 4, 16⟩),
    ("Vector4", ⟨16, 16, 4, 16⟩)]

theorem garden_structures :
    (discoverAll garden (gardenContext []) ((gardenContext []).touchedTypes garden)).run {} =
    .ok (.ok (), gardenContext [flowerStructure, leafStructure]) gardenLayouts := by
  cbv

theorem garden_starts : Starts garden gardenSet {} {}
    (gardenContext [flowerStructure, leafStructure]) gardenLayouts :=
  ⟨[], gardenContext [], rfl, garden_collected, .of_run garden_structures⟩

theorem gardenLayouts_faithful : gardenLayouts.Faithful garden garden.mentionedTypes := by
  have u : Universe garden garden.mentionedTypes := .of_canonical (by decide)
  have known : ∀ ty ∈ (gardenContext []).touchedTypes garden,
      ty ∈ TypeRef.refsAll garden.mentionedTypes := by
    decide
  have left := (u.run_steady (u.discoverAll_steady (gardenContext []) known) (.empty [])).right
  rw [garden_structures] at left
  exact left.faithful u

theorem flower_part (h : ReflTransGen (ExpandsTo garden) (.struct "Flower" []) part) :
    part ∈ [.struct "Flower" [], .struct "Leaf" [], flowerKind.ty, tint.ty] := by
  induction h
  case refl => exact List.mem_cons_self
  case tail step hi =>
    obtain ⟨known, mem⟩ := step
    simp only [List.mem_cons, TypeRef.struct.injEq, List.not_mem_nil, or_false, flowerKind, tint,
      reduceCtorEq] at hi
    rcases hi with ⟨rfl, rfl⟩ | ⟨rfl, rfl⟩ <;> cases known
    case inl =>
      rcases List.mem_pair.mp mem with rfl | rfl <;> decide
    case inr =>
      cases List.mem_singleton.mp mem
      decide

theorem flower_expandable : Expandable {} garden (.struct "Flower" []) := by
  intro part path
  have mem := flower_part path
  simp only [List.mem_cons, List.not_mem_nil, or_false] at mem
  rcases mem with rfl | rfl | rfl | rfl
  · exact ⟨rfl, by simp [TypeRef.isStruct]⟩
  · exact ⟨rfl, by simp [TypeRef.isStruct]⟩
  · exact ⟨rfl, fun _ => maps_enum (maps_primitive rfl)⟩
  · exact ⟨rfl, fun _ => maps_primitive rfl⟩

theorem default_values_finite_garden :
    outcome (Layouts.footprintOf garden (.struct "Flower" []) (.configured [])) =
      .ok ⟨36, 36, 4, 16⟩ ∧
    (∃ value, defaultValue {} garden [] (.struct "Flower" []) = .ok value ∧
      IsDefault {} garden (.struct "Flower" []) value ∧
      Expands {} garden (.struct "Flower" []) (.ok value)) ∧
    (∃ c l', Starts garden gardenSet {} {} c l' ∧ (∃ f, l'.known? "Leaf" = some f) ∧
      Expands {} garden (.struct "Leaf" []) (defaultValue {} garden [] (.struct "Leaf" [])) ∧
      ∀ stages e, emitStages garden {} stages c = .error e → ¬e.isEndless) ∧
    (∀ e l', (generateSets garden [{}] [gardenSet]).run gardenLayouts ≠ .error e l') ∧
    TransGen (Embeds garden) "Vine" "Vine" := by
  have found : outcome (Layouts.footprintOf garden (.struct "Flower" []) (.configured [])) =
      .ok ⟨36, 36, 4, 16⟩ := by
    cbv
  have made : (gardenContext [flowerStructure, leafStructure]).Constructs garden
      (.struct "Flower" []) :=
    ⟨.fragment, _, rfl, _, List.mem_cons_self, bloom, _, rfl, rfl, ⟨.struct "Flower" [], none⟩, [],
      List.mem_cons_self, rfl⟩
  have path : ReflTransGen (ExpandsTo garden) (.struct "Flower" []) (.struct "Leaf" []) :=
    .single (.member (f := leaves) rfl List.mem_cons_self)
  have cycle : Embeds garden "Vine" "Vine" := ⟨_, rfl, _, List.mem_cons_self, [], rfl⟩
  obtain ⟨alone, computed, generated⟩ := default_values_finite garden
  obtain ⟨finite, complete⟩ := alone [] [] "Flower" [] _ (by decide) found {}
  obtain ⟨value, valued, default⟩ := complete flower_expandable
  obtain ⟨_, known⟩ := computed _ _ _ _ _ garden_starts _ _ _ _ made path rfl
  obtain ⟨_, _, _, ends⟩ := generated [{}] [gardenSet] gardenLayouts
  obtain ⟨sequence, side⟩ := ends (by decide) gardenLayouts_faithful
  obtain ⟨_, starts⟩ := side _ .refl
  obtain ⟨parts, emitted⟩ := starts _ _ _ _ garden_starts
  exact ⟨found, ⟨value, valued, default, valued ▸ finite⟩,
    ⟨_, _, garden_starts, known, parts _ _ made path, emitted⟩, sequence, .single cycle⟩

def badgeRank : FieldDecl where
  name := "rank"
  ty   := .enum "Rank" (.struct "short" []) []

-- A badge with a rank that is numbered by a structure.
def badges : Program where
  types         := [{ name := "Badge", kind := .struct, fields := [badgeRank] }]
  sets          := []
  types_nodup   := by decide
  methods_nodup := by decide

theorem badge_default : defaultValue {} badges [] (.struct "Badge" []) =
    .error (.layout (.unmappedType "short" "glsl450")) := by
  have zero : Target.zero {} (.struct "short" []) =
      .error (.layout (.unmappedType "short" "glsl450")) := rfl
  have rank : defaultValue {} badges ["Badge"] badgeRank.ty =
      .error (.layout (.unmappedType "short" "glsl450")) := by
    rw [badgeRank, defaultValue, zero]
  rw [defaultValue_struct, memberValues]
  change ([badgeRank].mapM _ >>= _) = _
  rw [List.mapM_cons]
  change ((defaultValue {} badges ["Badge"] badgeRank.ty >>= _) >>= _) = _
  rw [rank]
  rfl

-- The structure has the name of a builtin type, and so a footprint. All parts of the badge can be
-- written, but there is no zero to write.
theorem badge_unwritten :
    Canonical (badges.fieldTypes ++ [.struct "Badge" []]) ∧
    outcome (Layouts.footprintOf badges (.struct "Badge" []) {}) = .ok ⟨2, 2, 2, 2⟩ ∧
    (∀ part, ReflTransGen (ExpandsTo badges) (.struct "Badge" []) part →
      part.element? = none ∧ ∃ mapped, Target.typeName {} part = .ok mapped) ∧
    defaultValue {} badges [] (.struct "Badge" []) =
      .error (.layout (.unmappedType "short" "glsl450")) := by
  refine ⟨by decide, by cbv, fun part path => ?_, badge_default⟩
  have mem : part ∈ [.struct "Badge" [], badgeRank.ty] := by
    induction path
    case refl => exact List.mem_cons_self
    case tail step hi =>
      obtain ⟨known, mem⟩ := step
      simp only [List.mem_pair, TypeRef.struct.injEq, badgeRank, reduceCtorEq, or_false] at hi
      obtain ⟨rfl, rfl⟩ := hi
      cases known
      cases List.mem_singleton.mp mem
      decide
  rcases List.mem_pair.mp mem with rfl | rfl <;> exact ⟨rfl, _, rfl⟩

-- The footprint of the vine is known when its default value is taken, but it is not its own.
theorem vine_unending :
    (∃ c l', Starts trellis trellisSet {} {} c l' ∧ c.Constructs trellis (.struct "Vine" []) ∧
      ∃ f, l'.known? "Vine" = some f) ∧
    ∀ n, (expand {} trellis n (.struct "Vine" [])).run = none := by
  refine ⟨⟨_, _, ⟨[], _, rfl, trellis_collected, .of_run trellis_structures⟩, ?_, _, rfl⟩, ?_⟩
  case refine_1 =>
    exact ⟨.fragment, _, rfl, _, List.mem_cons_self, grow, _, rfl, rfl,
      ⟨.struct "Vine" [], none⟩, [], List.mem_cons_of_mem _ List.mem_cons_self, rfl⟩
  case refine_2 => exact expand_eq_none (e := ⟨.endless "Vine", none⟩) (by cbv) rfl

end Shading
