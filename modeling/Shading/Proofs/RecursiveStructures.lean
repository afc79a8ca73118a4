import Shading.Proofs.Coherence
import Shading.Proofs.LayoutFaults
import Shading.Proofs.StructurePacking
import Mathlib
/-!
Structures that contain themselves are refused, and only they are refused for that reason.

How many look-ups a computation makes is bounded by the program: a structure that has been left is
known, and one that fails is not entered a second time, since everything around it fails with it.
-/

open Relation

namespace Shading

variable {p : Program} {overrides : List (String × Nat)} {V W : List String} {ty : TypeRef}
  {l l' : Layouts} {n m : Nat}

section Lookups

-- The number of look-ups on the way to the outcome. Computing a footprint starts with one.
def Access.lookups : Access α → Layouts → Nat
  | .done _, _               => 0
  | .consult name next, l    => (next (l.known? name)).lookups l + 1
  | .remember name f next, l => (next (l.remember name f).1).lookups (l.remember name f).2
  | .adjust name f next, l   => (next (l.adjust name f)).lookups l

theorem Access.lookups_bind (x : Access α) (k : α → Access β) (l : Layouts) :
    (x >>= k).lookups l = x.lookups l +
      match x.run l with
      | .ok a l'   => (k a).lookups l'
      | .error _ _ => 0 := by
  change (x.bind k).lookups l = _
  induction x generalizing l
  case done r => cases r <;> simp [bind, lookups, run]
  case consult name next hi =>
    change ((next _).bind k).lookups l + 1 = (next _).lookups l + 1 + _
    rw [hi, Nat.add_right_comm]
    rfl
  case remember hi | adjust hi => exact hi ..

theorem Access.lookups_locating (location : Option Location) (x : Access α) (l : Layouts) :
    (locating location x).lookups l = x.lookups l := by
  change (x.attempt.bind _).lookups l = _
  induction x generalizing l
  case done r                  => cases r <;> rfl
  case consult hi              => exact congrArg (· + 1) (hi ..)
  case remember hi | adjust hi => exact hi ..

-- How many arrays lie within each other up to what they consist of, which counts as well.
def TypeRef.levels : TypeRef → Nat
  | .array _ element _ => element.levels + 1
  | _                  => 1

def TypeDecl.levels (t : TypeDecl) : Nat :=
  (t.instanceFields.map fun f => f.ty.elementOrSelf.levels).sum

def Program.levels (p : Program) : Nat :=
  (p.types.map TypeDecl.levels).sum

-- What there is left to look up in a structure, unless it is entered or known.
def outstanding (V : List String) (l : Layouts) (t : TypeDecl) : Nat :=
  if t.name ∉ V ∧ l.known? t.name = none then t.levels else 0

def unexplored (p : Program) (V : List String) (l : Layouts) : Nat :=
  (p.types.map (outstanding V l)).sum

theorem outstanding_mono
    (h : ∀ name, name ∉ W → l'.known? name = none → name ∉ V ∧ l.known? name = none)
    (t : TypeDecl) : outstanding W l' t ≤ outstanding V l t := by
  simp only [outstanding]
  split
  case isTrue left => rw [if_pos (h t.name left.left left.right)]
  case isFalse     => exact Nat.zero_le _

theorem unexplored_mono
    (h : ∀ name, name ∉ W → l'.known? name = none → name ∉ V ∧ l.known? name = none) :
    unexplored p W l' ≤ unexplored p V l :=
  List.sum_le_sum fun t _ => outstanding_mono h t

theorem unexplored_le : unexplored p V l ≤ p.levels := by
  refine List.sum_le_sum fun t _ => ?_
  simp only [outstanding]
  split
  case isTrue  => exact le_rfl
  case isFalse => exact Nat.zero_le _

-- Entering a structure takes up what is to be looked up in its members.
theorem unexplored_enter {name : String} {t : TypeDecl} (found : p.type? name = some t)
    (fresh : name ∉ V) (unknown : l.known? name = none) :
    t.levels + unexplored p (name :: V) l ≤ unexplored p V l := by
  obtain ⟨declared, rfl⟩ := Program.type?_eq_some_iff.mp found
  obtain ⟨before, after, split⟩ := List.append_of_mem declared
  have others (ts : List TypeDecl) :
      (ts.map (outstanding (t.name :: V) l)).sum ≤ (ts.map (outstanding V l)).sum :=
    List.sum_le_sum fun t' _ => outstanding_mono
      (fun name closed unknown => ⟨fun mem => closed (.tail _ mem), unknown⟩) t'
  have entered : outstanding (t.name :: V) l t = 0 := by simp [outstanding]
  have whole : outstanding V l t = t.levels := if_pos ⟨fresh, unknown⟩
  have first := others before
  have last := others after
  simp only [unexplored, split, List.map_append, List.map_cons, List.sum_append, List.sum_cons]
  omega

theorem known?_remember_eq_none {name other : String} {f : Footprint}
    (h : (l.remember name f).2.known? other = none) : other ≠ name ∧ l.known? other = none := by
  simp only [Layouts.remember] at h
  split at h
  case h_1 known =>
    refine ⟨?_, h⟩
    rintro rfl
    cases known.symm.trans h
  case h_2 =>
    by_cases same : other = name
    case pos => simp [Layouts.known?, same] at h
    case neg =>
      refine ⟨same, ?_⟩
      simpa [Layouts.known?, List.lookup, beq_eq_false_iff_ne.mpr same] using h

-- What is left after a success. Nothing is looked up after a failure.
def remaining (p : Program) (V : List String) : EStateM.Result Error Layouts α → Nat
  | .ok _ l    => unexplored p V l
  | .error _ _ => 0

@[simp]
theorem remaining_ok (a : α) : remaining p V (.ok a l) = unexplored p V l :=
  rfl

@[simp]
theorem remaining_error (e : Error) :
    remaining p V (.error e l : EStateM.Result Error Layouts α) = 0 :=
  rfl

-- A computation that pays for its look-ups with what it explores, all but `n` of them.
def Spends (p : Program) (V : List String) (n : Nat) (x : Access α) : Prop :=
  ∀ l, x.lookups l + remaining p V (x.run l) ≤ n + unexplored p V l

namespace Spends

theorem pure (a : α) : Spends p V 0 (Pure.pure a : Access α) :=
  fun _ => le_rfl

theorem throw (e : Error) : Spends p V n (throw e : Access α) :=
  fun _ => Nat.zero_le _

theorem adjust {name : String} {f : Footprint} {next : Footprint → Access α}
    (h : ∀ f, Spends p V n (next f)) : Spends p V n (.adjust name f next) :=
  fun l => h _ l

theorem bind {x : Access α} {k : α → Access β} (first : Spends p V n x)
    (next : ∀ a, Spends p V m (k a)) : Spends p V (n + m) (x >>= k) := by
  intro l
  have first := first l
  rw [Access.lookups_bind, Access.run_bind]
  change _ + remaining p V (EStateM.bind x.run _ l) ≤ _
  simp only [EStateM.bind]
  cases r : x.run l
  case ok a l' =>
    have next := next a l'
    simp only [r, remaining_ok] at first ⊢
    omega
  case error =>
    simp only [remaining_error]
    omega

theorem locating {x : Access α} (location : Option Location) (h : Spends p V n x) :
    Spends p V n (locating location x) := by
  intro l
  have same : remaining p V ((Shading.locating location x).run l) = remaining p V (x.run l) := by
    change remaining p V ((x.attempt.bind _).run l) = _
    clear h
    induction x generalizing l
    case done r                               => cases r <;> rfl
    case consult hi | remember hi | adjust hi => exact hi ..
  rw [Access.lookups_locating, same]
  exact h l

theorem fieldFootprint {footprintOf : TypeRef → Access Footprint} {owner : String} {f : FieldDecl}
    (h : Spends p V n (footprintOf f.ty.elementOrSelf)) :
    Spends p V n (fieldFootprint footprintOf owner f) := by
  simp only [Shading.fieldFootprint]
  simp only [TypeRef.elementOrSelf] at h
  split
  case h_1 none => rw [none] at h; exact h.bind fun _ => pure _
  case h_2 some =>
    rw [some] at h
    split
    case h_1 | h_2 => exact throw _
    case h_3 =>
      refine h.bind fun one => (?_ : Spends p V 0 _)
      split
      case h_1 => exact throw _
      case h_2 => exact pure _

theorem packFields {footprintOf : TypeRef → Access Footprint} {owner : String}
    {fs : List FieldDecl} {k : Packer}
    (h : ∀ f ∈ fs, Spends p V f.ty.elementOrSelf.levels (footprintOf f.ty.elementOrSelf)) :
    Spends p V (fs.map fun f => f.ty.elementOrSelf.levels).sum
      (packFields footprintOf owner fs k) := by
  induction fs generalizing k
  case nil => exact pure _
  case cons f fs hi =>
    have ⟨first, others⟩ := List.forall_mem_cons.mp h
    rw [List.map_cons, List.sum_cons]
    refine (fieldFootprint first).locating f.location |>.bind fun (all, count) => ?_
    dsimp only
    split
    case h_1 => exact throw _
    case h_2 => exact (hi others).bind fun _ => pure _

-- A footprint that is not known is derived, and known from then on.
theorem compute (h : ∀ l, l.known? ty.name = none →
      (Layouts.derive p V ty).lookups l +
        (match (Layouts.derive p V ty).run l with
        | .ok f l'   => unexplored p V (l'.remember ty.name f).2
        | .error _ _ => 0) ≤ n + unexplored p V l) :
    Spends p V (n + 1) (Layouts.compute p V ty) := by
  intro l
  rw [Layouts.compute, Access.lookups, Access.run]
  cases known : l.known? ty.name
  case some f =>
    change 0 + 1 + unexplored p V l ≤ _
    omega
  case none =>
    have h := h l known
    dsimp only
    rw [Access.lookups_bind, Access.run_bind]
    change _ + remaining p V (EStateM.bind (Layouts.derive p V ty).run _ l) ≤ _
    simp only [EStateM.bind]
    cases r : (Layouts.derive p V ty).run l
    case ok f l' =>
      rw [r] at h
      dsimp only at h ⊢
      change (Layouts.derive p V ty).lookups l + 0 + 1 +
        unexplored p V (l'.remember ty.name f).2 ≤ _
      omega
    case error =>
      rw [r] at h
      simp only [remaining_error] at h ⊢
      omega

end Spends

-- A type that is no structure adds nothing to look up when it becomes known.
theorem spends_of_derive (h : Spends p V n (Layouts.derive p V ty)) :
    Spends p V (n + 1) (Layouts.compute p V ty) := by
  refine Spends.compute fun l _ => ?_
  have h := h l
  cases r : (Layouts.derive p V ty).run l
  case ok f l' =>
    have less : unexplored p V (l'.remember ty.name f).2 ≤ unexplored p V l' :=
      unexplored_mono fun name closed unknown => ⟨closed, (known?_remember_eq_none unknown).right⟩
    simp only [r, remaining_ok] at h ⊢
    omega
  case error => simpa only [r, remaining_error] using h

-- Inside a structure its own members are paid for, and it need not be explored again.
theorem deriveStruct_spends {name : String} {t : TypeDecl}
    (h : ∀ f ∈ t.instanceFields, Spends p (name :: V) f.ty.elementOrSelf.levels
      (Layouts.compute p (name :: V) f.ty.elementOrSelf)) :
    Spends p (name :: V) (t.levels + 0) (deriveStruct p V name t) := by
  have packed : Spends p (name :: V) t.levels
      (packFields (Layouts.compute p (name :: V)) name t.instanceFields {}) := .packFields h
  refine packed.bind fun _ => ?_
  dsimp only
  split
  case isTrue  => exact .throw _
  case isFalse => exact .adjust .pure

theorem spends_struct {name : String} {args : List TypeRef}
    (members : ∀ t, p.type? name = some t → name ∉ V →
      Spends p (name :: V) (t.levels + 0) (deriveStruct p V name t)) :
    Spends p V 1 (Layouts.compute p V (.struct name args)) := by
  refine Spends.compute (n := 0) fun l unknown => ?_
  rw [derive_struct]
  cases found : p.type? name
  case none => exact Nat.zero_le _
  case some t =>
    dsimp only
    split
    case isTrue  => exact Nat.zero_le _
    case isFalse =>
      split
      case isTrue        => exact Nat.zero_le _
      case isFalse fresh =>
        have enter := unexplored_enter found fresh unknown
        have members := members t found fresh l
        cases r : (deriveStruct p V name t).run l
        case ok f l' =>
          have less : unexplored p V (l'.remember name f).2 ≤ unexplored p (name :: V) l' :=
            unexplored_mono fun other closed unknown => by
              have ⟨ne, unknown⟩ := known?_remember_eq_none unknown
              exact ⟨by simp [ne, closed], unknown⟩
          simp only [r, remaining_ok] at members
          change _ + unexplored p V (l'.remember name f).2 ≤ _
          omega
        case error =>
          simp only [r, remaining_error] at members
          dsimp only
          omega

theorem compute_spends : Spends p V ty.levels (Layouts.compute p V ty) := by
  induction V, ty using layout_induction p
  case leaf V ty element struct =>
    have levels : ty.levels = 0 + 1 := by
      cases ty
      case array => cases element
      all_goals rfl
    rw [levels]
    refine spends_of_derive ?_
    cases ty
    case array  => cases element
    case struct => cases struct
    case void | object =>
      rw [Layouts.derive]
      exact .throw _
    case primitive | enum =>
      rw [Layouts.derive]
      split
      · exact .pure _
      · exact .throw _
  case array hi =>
    refine spends_of_derive ?_
    rw [Layouts.derive]
    exact hi
  case struct hi =>
    exact spends_struct fun t found fresh => deriveStruct_spends fun f _ => hi t found fresh _

theorem lookups_le : (Layouts.compute p V ty).lookups l ≤ ty.levels + p.levels := by
  have spent : _ ≤ ty.levels + unexplored p V l := compute_spends l
  have most : unexplored p V l ≤ p.levels := unexplored_le
  omega

end Lookups

-- The structures that a type consists of or contains, under any number of arrays.
def Within (p : Program) (ty : TypeRef) (name : String) : Prop :=
  ∃ base, ty.base? = some base ∧ ReflTransGen (Holds p) base name

section Founded

variable {types : List TypeRef} {name : String} {f : Footprint} {t : TypeDecl} {qs : List Query}

-- None of the types in question that have the name is an array.
def Apart (types : List TypeRef) (name : String) : Prop :=
  ∀ ty ∈ TypeRef.refsAll types, ty.name = name → ty.element? = none

instance (types : List TypeRef) (name : String) : Decidable (Apart types name) :=
  inferInstanceAs (Decidable (∀ ty ∈ _, _ → _))

-- Containment is well-founded below all types in question that are known.
def Layouts.Founded (p : Program) (types : List TypeRef) (l : Layouts) : Prop :=
  ∀ ty ∈ TypeRef.refsAll types, ∀ base f, ty.base? = some base → l.known? ty.name = some f →
    Acc (flip (Holds p)) base

theorem Layouts.Founded.remember (h : l.Founded p types)
    (new : ∀ ty ∈ TypeRef.refsAll types, ty.name = name → ∀ base, ty.base? = some base →
      Acc (flip (Holds p)) base) : (l.remember name f).2.Founded p types := by
  intro ty mem base g consists known
  rw [Layouts.remember] at known
  split at known
  case h_1 => exact h ty mem base g consists known
  case h_2 =>
    rw [Layouts.known?, List.lookup_cons] at known
    split at known
    case h_1 same => exact new ty mem (eq_of_beq same) base consists
    case h_2      => exact h ty mem base g consists known

namespace Universe

variable (u : Universe p types)

include u

theorem acc_of_run {args : List TypeRef}
    (h : (Layouts.derive p V (.struct name args)).run l = .ok f l')
    (founded : l'.Founded p types) : Acc (flip (Holds p)) name := by
  obtain ⟨t, found, _, _, h⟩ := run_derive_struct_eq_ok h
  obtain ⟨_, fields, k, packed, _⟩ := run_deriveStruct_eq_ok h
  refine .intro name fun inner holds => ?_
  obtain ⟨t', found', member, mem, base⟩ := holds
  cases found.symm.trans found'
  obtain ⟨g, one⟩ := exists_footprint_of_packFields packed mem
  exact founded _ (u.member_mem (Program.mem_of_type? found) mem) inner g
    (TypeRef.base?_elementOrSelf.trans base) (Layouts.retrieve_eq_ok_iff.mp one)

-- What becomes known under the name of an array has to be the footprint of its element.
theorem compute_founded (mem : ty ∈ TypeRef.refsAll types ∨ ty.isStruct ∧ Apart types ty.name) :
    (Layouts.compute p V ty).Keeps (Layouts.Founded p types) := by
  induction V, ty using layout_induction p
  case leaf V ty element struct =>
    have inside := mem.resolve_right (by simp [struct])
    refine compute_keeps (derive_leaf_keeps element struct) fun l f l' _ founded => ?_
    refine founded.remember fun ty' mem' same base consists => ?_
    have shape := u.canonical ty' mem' ty inside same
    rw [← TypeRef.base?_shape, shape, TypeRef.base?_shape,
      TypeRef.base?_eq_none element struct] at consists
    cases consists
  case array V name element args hi =>
    have inside := mem.resolve_right (by simp [TypeRef.isStruct])
    refine compute_keeps ?_ fun l f l' run founded => ?_
    case refine_1 =>
      rw [Layouts.derive]
      exact hi (.inl (element_mem inside))
    case refine_2 =>
      rw [Layouts.derive] at run
      refine founded.remember fun ty' mem' same base consists => ?_
      have shape := u.canonical ty' mem' _ inside same
      rw [← TypeRef.base?_shape, shape, TypeRef.base?_shape] at consists
      exact founded element (element_mem inside) base f consists (known?_of_run_compute run)
  case struct V name args hi =>
    refine compute_keeps ?_ fun l f l' run founded => ?_
    case refine_1 =>
      refine derive_struct_keeps fun t found fresh member mem => ?_
      exact hi t found fresh _ (.inl (u.member_mem (Program.mem_of_type? found) mem))
    case refine_2 =>
      refine founded.remember fun ty' mem' same base consists => ?_
      have acc := u.acc_of_run run founded
      rcases mem with inside | ⟨_, apart⟩
      case inl =>
        have shape := u.canonical ty' mem' _ inside same
        rw [← TypeRef.base?_shape, shape] at consists
        cases consists
        exact acc
      case inr =>
        have single := apart ty' mem' same
        cases ty'
        case array => cases single
        case struct =>
          cases consists
          cases same
          exact acc
        all_goals cases consists

theorem leave_founded (mem : ∀ q ∈ qs, ∀ ty ∈ q.types, ty ∈ TypeRef.refsAll types)
    (apart : ∀ t ∈ qs.filterMap Query.described?, Apart types t.name) (start : l.Founded p types) :
    (Query.leave p qs l).Founded p types := by
  refine Query.leave_keeps (fun q hq => ?_) start
  refine Query.accesses_of_parts (Access.Keeps.compositional _) (fun ty hty => ?_) fun t known => ?_
  · have inside := mem q hq ty hty
    exact ⟨u.compute_founded (.inl inside), u.compute_founded (.inl (elementOrSelf_mem inside))⟩
  · exact u.compute_founded (.inr ⟨rfl, apart t (List.mem_filterMap.mpr ⟨q, hq, known⟩)⟩)

end Universe

theorem not_cyclic_of_founded {types : List TypeRef} (founded : l.Founded p types)
    (mem : ty ∈ TypeRef.refsAll types) {f : Footprint} (known : l.known? ty.name = some f)
    (within : Within p ty name) : ¬TransGen (Holds p) name name := by
  obtain ⟨base, consists, reach⟩ := within
  have acc : Acc (flip (Holds p)) name := by
    induction reach
    case refl         => exact founded ty mem base f consists known
    case tail step hi => exact hi.inv step
  exact not_cyclic_of_acc acc

end Founded

-- A structure that is called recursive is entered inside itself.
theorem compute_recursive (name : String) : (Layouts.compute p [] ty).Excludes fun e =>
    e.cause = .layout (.recursiveStructure name) ∧
    ¬(Within p ty name ∧ TransGen (Holds p) name name) := by
  refine compute_excludes ⟨?_, fun _ _ => id, ?_⟩ (by simp)
  case refine_1 =>
    rintro fault location other ⟨cause, _⟩
    injection cause with same
    exact other name same
  case refine_2 =>
    rintro n m base reach cycle ⟨cause, not⟩
    injection cause with same
    injection same with same
    cases same
    exact not ⟨⟨n, base, reach⟩, cycle⟩

-- Whatever has been asked before, the footprint of a type is found or refused after at most as
-- many look-ups as there are levels in the type and in the members of all structures. A structure
-- that is called recursive contains itself within the type. If there is one then the type is
-- refused, unless a declaration has been described that has the name of an array.
theorem recursive_structures_caught (p : Program) (settings : List (String × Nat))
    (qs : List Query) (ty : TypeRef) :
    let l := Query.leave p qs (.configured settings)
    let types := p.fieldTypes ++ (.type ty :: qs).flatMap Query.types
    ((Layouts.compute p [] ty).lookups l ≤ ty.levels + p.levels) ∧
    (Canonical types → (∀ t ∈ qs.filterMap Query.described?, Apart types t.name) →
      ∀ name, Within p ty name → TransGen (Holds p) name name →
        ∀ f, outcome (Layouts.footprintOf p ty l) ≠ .ok f) ∧
    ∀ e name, outcome (Layouts.footprintOf p ty l) = .error e →
      e.cause = .layout (.recursiveStructure name) →
      Within p ty name ∧ TransGen (Holds p) name name := by
  intro l types
  refine ⟨lookups_le, fun canonical apart name within cycle f h => ?_, fun e name h cause => ?_⟩
  case refine_1 =>
    have u : Universe p types := .of_canonical canonical
    have asked : ∀ q ∈ .type ty :: qs, ∀ ty' ∈ q.types, ty' ∈ TypeRef.refsAll types :=
      Query.types_mem
    obtain ⟨this, earlier⟩ := List.forall_mem_cons.mp asked
    have inside := this ty List.mem_cons_self
    have start : (Layouts.configured settings).Founded p types := by
      rw [Layouts.configured_eq]
      exact fun _ _ _ _ _ known => nomatch known
    have left := u.leave_founded earlier apart start
    have founded := u.compute_founded (V := []) (.inl inside) l left
    have run := eq_ok_of_outcome h
    rw [Layouts.footprintOf] at run
    rw [run] at founded
    exact not_cyclic_of_founded founded inside (known?_of_run_compute run) within cycle
  case refine_2 =>
    by_contra not
    exact (compute_recursive name).of_run e h ⟨cause, not⟩

def sceneQueries : List Query :=
  [.type (.struct "Scene" []), .type (.struct "Chain" []), .declaration sceneDecl]

-- The links of a chain are chains, as is found out through an array and after the scene is known.
theorem recursive_structures_caught_litScene :
    let l := Query.leave litScene sceneQueries (.configured [("Light", 32)])
    ((Layouts.compute litScene [] (.struct "Chain" [])).lookups l ≤ 1 + litScene.levels) ∧
    outcome (Layouts.footprintOf litScene (.struct "Chain" []) l) =
      .error (.layout (.recursiveStructure "Chain")) ∧
    TransGen (Holds litScene) "Chain" "Chain" ∧
    ∀ f, outcome (Layouts.footprintOf litScene (.arrayOf (.struct "Chain" [])) l) ≠ .ok f := by
  have refused : outcome (Layouts.footprintOf litScene (.struct "Chain" [])
      (Query.leave litScene sceneQueries (.configured [("Light", 32)]))) =
      .error (.layout (.recursiveStructure "Chain")) := by
    cbv
  obtain ⟨few, _, sound⟩ :=
    recursive_structures_caught litScene [("Light", 32)] sceneQueries (.struct "Chain" [])
  obtain ⟨_, caught, _⟩ := recursive_structures_caught litScene [("Light", 32)] sceneQueries
    (.arrayOf (.struct "Chain" []))
  have cycle := (sound _ _ refused rfl).right
  exact ⟨few, refused, cycle,
    caught (by decide) (by decide) "Chain" ⟨"Chain", rfl, .refl⟩ cycle⟩

def twigsDecl : TypeDecl where
  name   := "Twig[]"
  kind   := .struct
  fields := [{ name := "sap", ty := .primitive "float" [] }]

-- A branch has twigs that are branches. One of the structures has the name of an array.
def hedge : Program where
  types         := [
    twigsDecl,
    { name := "Twig", kind := .struct, fields := [
      { name := "branch", ty := .struct "Branch" [] }] },
    { name := "Branch", kind := .struct, fields := [
      { name := "twigs", ty := .arrayOf (.arrayOf (.struct "Twig" [])), arraySize := some 2 }] }]
  sets          := []
  types_nodup   := by decide
  methods_nodup := by decide

-- Once that structure is described, its footprint is taken for the one of the array.
theorem branch_overlooked :
    Canonical (hedge.fieldTypes ++ [.struct "Branch" [], .primitive "float" []]) ∧
    outcome (Layouts.footprintOf hedge (.struct "Branch" [])
      (Query.leave hedge [.declaration twigsDecl] (.configured []))) = .ok ⟨8, 8, 4, 4⟩ ∧
    TransGen (Holds hedge) "Branch" "Branch" := by
  refine ⟨by decide, by cbv, .tail (b := "Twig") (.single ?_) ?_⟩
  · exact ⟨_, rfl, _, List.mem_cons_self, rfl⟩
  · exact ⟨_, rfl, _, List.mem_cons_self, rfl⟩

end Shading
