import Shading.Proofs.Containment
import Shading.Proofs.EmissionParts
import Mathlib
/-!
Default values: expanded member by member, down to the zeros of builtin types.

The expansion stops by itself where no structure contains itself. Otherwise it may go on without an
end, which is found out when one of the structures around a type is come across again.
-/

open Relation

namespace Shading

open Glsl

-- The expansion of a type, without an eye on the structures that it has entered. It is given up
-- below a depth, and has no result then.
def expand (t : Target) (p : Program) : Nat → TypeRef → ExceptT Error Option Term
  | 0, _ => .mk none
  | depth + 1, .struct name args =>
    match p.type? name with
    | none => throw (.layout (.unknownType name))
    | some d => do
      let members ← d.instanceFields.mapM fun f =>
        match f.ty.element?, f.arraySize with
        | some element, some count => do
          let value ← expand t p depth element
          let mapped ← liftExcept (t.typeName element)
          return Term.apply (mapped ++ "[" ++ toString count ++ "]") (List.replicate count value)
        | some _, none => throw (.layout (.missingArraySize name f.name))
        | none, _ => expand t p depth f.ty
      return .apply (← liftExcept (t.typeName (.struct name args))) members
  | _ + 1, .enum _ underlying _ => liftExcept (t.zero underlying)
  | _ + 1, ty => liftExcept (t.zero ty)

-- Without a bound, the expansion ends with the result: the depth is not used up.
def Expands (t : Target) (p : Program) (ty : TypeRef) (r : Except Error Term) : Prop :=
  ∃ depth, ∀ n ≥ depth, (expand t p n ty).run = some r

section Expand

variable {t : Target} {p : Program} {path : List String} {ty : TypeRef}

-- An expansion comes to a result from some depth on, and is given up before, unless the result is
-- that there is no end to it.
def ComesTo (x : Nat → ExceptT Error Option α) (r : Except Error α) : Prop :=
  Excludes (·.isEndless) r →
    (∀ n, (x n).run = none ∨ (x n).run = some r) ∧ ∃ depth, ∀ n ≥ depth, (x n).run = some r

namespace ComesTo

variable {x : Nat → ExceptT Error Option α} {r : Except Error α}
  {k : Nat → α → ExceptT Error Option β} {k' : α → Except Error β}

theorem of_eq (h : ∀ n, (x n).run = some r) : ComesTo x r :=
  fun _ => ⟨fun n => .inr (h n), 0, fun n _ => h n⟩

theorem pure (a : α) : ComesTo (fun _ => Pure.pure a) (.ok a) :=
  of_eq fun _ => rfl

theorem throw (e : Error) : ComesTo (α := α) (fun _ => throw e) (.error e) :=
  of_eq fun _ => rfl

theorem lift (r : Except Error α) : ComesTo (fun _ => liftExcept r) r :=
  of_eq fun _ => by cases r <;> rfl

theorem succ (none : (x 0).run = none) (h : ComesTo (fun n => x (n + 1)) r) : ComesTo x r := by
  intro ends
  obtain ⟨each, depth, known⟩ := h ends
  refine ⟨fun n => ?_, depth + 1, fun n le => ?_⟩
  case refine_1 =>
    cases n
    case zero   => exact .inl none
    case succ n => exact each n
  case refine_2 =>
    obtain ⟨n, rfl⟩ := Nat.exists_eq_add_of_le' (Nat.le_of_add_left_le le)
    exact known n (Nat.le_of_add_le_add_right le)

theorem bind (first : ComesTo x r) (next : ∀ a, ComesTo (k · a) (k' a)) :
    ComesTo (fun n => x n >>= k n) (r >>= k') := by
  intro ends
  cases r
  case error e =>
    obtain ⟨each, depth, known⟩ := first fun _ h => ends _ (by cases h; rfl)
    refine ⟨fun n => ?_, depth, fun n le => ?_⟩ <;> rw [ExceptT.run_bind]
    case refine_1 =>
      rcases each n with h | h <;> rw [h]
      case inl => exact .inl rfl
      case inr => exact .inr rfl
    case refine_2 =>
      rw [known n le]
      rfl
  case ok a =>
    obtain ⟨each, depth, known⟩ := first .ok
    obtain ⟨each', depth', known'⟩ := next a ends
    refine ⟨fun n => ?_, max depth depth', fun n le => ?_⟩ <;> rw [ExceptT.run_bind]
    case refine_1 =>
      rcases each n with h | h <;> rw [h]
      case inl => exact .inl rfl
      case inr => exact each' n
    case refine_2 =>
      rw [known n (le_of_max_le_left le)]
      exact known' n (le_of_max_le_right le)

theorem mapM {f : Nat → α → ExceptT Error Option β} {f' : α → Except Error β}
    (each : ∀ a, ComesTo (f · a) (f' a)) (as : List α) :
    ComesTo (fun n => as.mapM (f n)) (as.mapM f') := by
  induction as
  case nil => exact pure _
  case cons a as hi =>
    simp only [List.mapM_cons]
    exact (each a).bind fun _ => hi.bind fun _ => pure _

end ComesTo

-- The structures around a type are looked at, but have no other part in its default value.
theorem expand_comesTo : ComesTo (expand t p · ty) (defaultValue t p path ty) := by
  fun_induction defaultValue t p path ty
  case case1 unknown =>
    refine .succ rfl ?_
    simp only [expand, unknown]
    exact .throw _
  case case2 => exact fun ends => absurd rfl (ends _ rfl)
  case case3 known _ _ elements members =>
    refine .succ rfl ?_
    simp only [expand, known]
    refine (ComesTo.mapM (fun f => ?_) _).bind fun _ => ?_
    case refine_2 => exact (ComesTo.lift _).bind fun _ => .pure _
    case refine_1 =>
      cases f.ty.element?
      case none => exact members f
      case some element =>
        cases f.arraySize
        case none => exact .throw _
        case some => exact (elements element).bind fun _ => (ComesTo.lift _).bind fun _ => .pure _
  case case4 =>
    refine .succ rfl ?_
    simp only [expand]
    exact .lift _
  case case5 ty struct enum =>
    refine .succ rfl ?_
    cases ty
    case struct => exact absurd rfl (struct _ _)
    case enum   => exact absurd rfl (enum _ _ _)
    all_goals exact .lift _

-- At one depth, an expansion is given up or has a result, and then there is an end to it.
def Tallies (x : ExceptT Error Option α) (r : Except Error α) : Prop :=
  x.run = none ∨ (x.run = some r ∧ Excludes (·.isEndless) r)

namespace Tallies

variable {x : ExceptT Error Option α} {r : Except Error α} {k : α → ExceptT Error Option β}
  {k' : α → Except Error β}

theorem pure (a : α) : Tallies (Pure.pure a) (.ok a) :=
  .inr ⟨rfl, .ok⟩

theorem lift (h : Excludes (·.isEndless) r) : Tallies (liftExcept r) r :=
  .inr ⟨by cases r <;> rfl, h⟩

theorem bind (first : Tallies x r) (next : ∀ a, Tallies (k a) (k' a)) :
    Tallies (x >>= k) (r >>= k') := by
  rcases first with h | ⟨h, ends⟩
  case inl => exact .inl (by rw [ExceptT.run_bind, h]; rfl)
  case inr =>
    rw [Tallies, ExceptT.run_bind, h]
    cases r
    case error e => exact .inr ⟨rfl, .error (ends e rfl)⟩
    case ok a    => exact next a

theorem mapM {f : α → ExceptT Error Option β} {f' : α → Except Error β} {as : List α}
    (each : ∀ a ∈ as, Tallies (f a) (f' a)) : Tallies (as.mapM f) (as.mapM f') := by
  induction as
  case nil => exact pure _
  case cons a as hi =>
    have ⟨first, rest⟩ := List.forall_mem_cons.mp each
    simp only [List.mapM_cons]
    exact first.bind fun _ => (hi rest).bind fun _ => pure _

end Tallies

theorem onlyEndless : Error.OnlyEndless (·.isEndless) where
  endless _    := id
  unplaced _ _ := id

-- The values of the members of a structure, which do not depend on its arguments.
def memberValues (t : Target) (p : Program) (path : List String) (name : String) :
    Except Error (List Term) :=
  match p.type? name with
  | none   => .error (.layout (.unknownType name))
  | some d =>
    if name ∈ path then .error ⟨.endless name, none⟩
    else d.instanceFields.mapM fun f =>
      match f.ty.element?, f.arraySize with
      | some element, some count => do
        let value ← defaultValue t p (name :: path) element
        let mapped ← t.typeName element
        return Term.apply (mapped ++ "[" ++ toString count ++ "]") (List.replicate count value)
      | some _, none => .error (.layout (.missingArraySize name f.name))
      | none, _ => defaultValue t p (name :: path) f.ty

theorem defaultValue_struct {name : String} {args : List TypeRef} :
    defaultValue t p path (.struct name args) = (do
      let members ← memberValues t p path name
      return .apply (← t.typeName (.struct name args)) members) := by
  rw [defaultValue, memberValues]
  split
  case h_1 unknown => simp only [unknown]; rfl
  case h_2 d found =>
    simp only [found]
    split
    case isTrue  => rfl
    case isFalse => rfl

theorem excludes_struct_iff {name : String} {args : List TypeRef} :
    Excludes (·.isEndless) (defaultValue t p path (.struct name args)) ↔
    Excludes (·.isEndless) (memberValues t p path name) := by
  rw [defaultValue_struct]
  cases memberValues t p path name
  case error e => constructor <;> exact fun h => .error (h e rfl)
  case ok      => exact iff_of_true .ok .ok

theorem defaultValue_leaf_excludes {Q : Error → Prop} (only : Error.OnlyEndless Q)
    (leaf : ty.isStruct = false) : Excludes Q (defaultValue t p path ty) := by
  unfold defaultValue
  split
  case h_1 => cases leaf
  case h_2 | h_3 => exact t.zero_excludes only _

theorem expand_struct_tallies {n : Nat} {name : String} {args : List TypeRef}
    (again : name ∈ path → ∀ args, (expand t p (n + 1) (.struct name args)).run = none)
    (inside : ∀ ty, Tallies (expand t p n ty) (defaultValue t p (name :: path) ty)) :
    Tallies (expand t p (n + 1) (.struct name args))
      (defaultValue t p path (.struct name args)) := by
  by_cases mem : name ∈ path
  case pos => exact .inl (again mem args)
  case neg =>
    rw [defaultValue_struct, memberValues, expand]
    cases p.type? name
    case none => exact .inr ⟨rfl, .error onlyEndless.layout⟩
    case some d =>
      simp only [mem, if_false]
      refine (Tallies.mapM fun f _ => ?_).bind fun _ => ?_
      case refine_2 =>
        exact (Tallies.lift (t.typeName_excludes onlyEndless _)).bind fun _ => .pure _
      case refine_1 =>
        cases f.ty.element?
        case none => exact inside f.ty
        case some element =>
          cases f.arraySize
          case none => exact .inr ⟨rfl, .error onlyEndless.layout⟩
          case some count =>
            refine (inside element).bind fun _ => ?_
            exact (Tallies.lift (t.typeName_excludes onlyEndless _)).bind fun _ => .pure _

-- No depth is enough for what has no end.
theorem expand_tallies (n : Nat)
    (around : ∀ k ≤ n, ∀ m ∈ path, ∀ args, (expand t p k (.struct m args)).run = none) :
    Tallies (expand t p n ty) (defaultValue t p path ty) := by
  induction n using Nat.strong_induction_on generalizing path ty
  case h n hi =>
    by_cases ends : Excludes (·.isEndless) (defaultValue t p path ty)
    case pos =>
      rcases (expand_comesTo ends).left n with none | known
      case inl => exact .inl none
      case inr => exact .inr ⟨known, ends⟩
    case neg =>
      cases n
      case zero => exact .inl rfl
      case succ n =>
        cases ty
        case struct name args =>
          have members := mt excludes_struct_iff.mpr ends
          have inside : ∀ k ≤ n, ∀ m ∈ name :: path, ∀ args,
              (expand t p k (.struct m args)).run = none := by
            intro k le m mem args'
            rcases List.mem_cons.mp mem with rfl | mem
            case inr => exact around k (Nat.le_succ_of_le le) m mem args'
            case inl =>
              -- Had the expansion a result here, then so it would at the top.
              have tallies : Tallies _ (defaultValue t p path (.struct m args')) :=
                hi k (Nat.lt_succ_of_le le) fun k' le' =>
                  around k' (le'.trans (Nat.le_succ_of_le le))
              exact tallies.resolve_right fun h => members (excludes_struct_iff.mp h.right)
          exact expand_struct_tallies (around (n + 1) le_rfl name) fun ty =>
            hi n (Nat.lt_succ_self n) inside
        all_goals exact absurd (defaultValue_leaf_excludes onlyEndless rfl) ends

-- The expansion ends with a result exactly if that is the default value.
theorem expands_iff {r : Except Error Term} :
    Expands t p ty r ↔ defaultValue t p [] ty = r ∧ Excludes (·.isEndless) r := by
  constructor
  case mp =>
    rintro ⟨depth, known⟩
    have around : ∀ k ≤ depth, ∀ m ∈ ([] : List String), ∀ args,
        (expand t p k (.struct m args)).run = none := by simp
    rcases expand_tallies depth around with none | ⟨same, ends⟩
    case inl => cases (known depth le_rfl).symm.trans none
    case inr =>
      cases same.symm.trans (known depth le_rfl)
      exact ⟨rfl, ends⟩
  case mpr =>
    rintro ⟨rfl, ends⟩
    exact (expand_comesTo ends).right

-- If it is found to have no end, then it is given up at every depth.
theorem expand_eq_none {e : Error} (h : defaultValue t p [] ty = .error e) (endless : e.isEndless)
    (n : Nat) : (expand t p n ty).run = none := by
  have around : ∀ k ≤ n, ∀ m ∈ ([] : List String), ∀ args,
      (expand t p k (.struct m args)).run = none := by simp
  exact (expand_tallies n around).resolve_right fun ends => ends.right e h endless

-- The types that the members of a structure are expanded to.
inductive ExpandsTo (p : Program) : TypeRef → TypeRef → Prop
  | member {name : String} {args : List TypeRef} {d : TypeDecl} {f : FieldDecl} :
    (p.type? name = some d) → (f ∈ d.instanceFields) →
    ExpandsTo p (.struct name args) f.ty.elementOrSelf

-- The structures around a structure are those around its members, with itself.
theorem leads_member {name : String} {d : TypeDecl} {f : FieldDecl} (known : p.type? name = some d)
    (mem : f ∈ d.instanceFields) (leads : ∀ m ∈ path, TransGen (Embeds p) m name) :
    ∀ inner args, f.ty.elementOrSelf = .struct inner args →
      ∀ m ∈ name :: path, TransGen (Embeds p) m inner := by
  intro inner args same m
  have step : Embeds p name inner := ⟨d, known, f, mem, args, same⟩
  rw [List.mem_cons]
  rintro (rfl | mem)
  case inl => exact .single step
  case inr => exact (leads m mem).tail step

-- There is no end only to structures that are embedded in themselves.
theorem defaultValue_excludes {Q : Error → Prop} (only : Error.OnlyEndless Q)
    (leads : ∀ name args, ty = .struct name args → ∀ m ∈ path, TransGen (Embeds p) m name)
    (cyclic : ∀ name args, ReflTransGen (ExpandsTo p) ty (.struct name args) →
      TransGen (Embeds p) name name → ¬Q ⟨.endless name, none⟩) :
    Excludes Q (defaultValue t p path ty) := by
  fun_induction defaultValue t p path ty
  case case1 => exact .error only.layout
  case case2 again => exact .error (cyclic _ _ .refl (leads _ _ rfl _ again))
  case case4 | case5 => exact t.zero_excludes only _
  case case3 path name args d known _ _ elements members =>
    refine (Excludes.mapM fun f mem => ?_).bind fun _ _ => ?_
    case refine_2 => exact (t.typeName_excludes only _).bind fun _ _ => .ok
    case refine_1 =>
      have around := leads_member known mem (leads _ _ rfl)
      have inside : ∀ inner args', ReflTransGen (ExpandsTo p) f.ty.elementOrSelf
          (.struct inner args') → TransGen (Embeds p) inner inner → ¬Q ⟨.endless inner, none⟩ :=
        fun inner args' path => cyclic inner args' (.head (.member known mem) path)
      rw [TypeRef.elementOrSelf] at around inside
      cases array : f.ty.element?
      case none =>
        rw [array] at around inside
        exact members f around inside
      case some element =>
        rw [array] at around inside
        cases f.arraySize
        case none => exact .error only.layout
        case some =>
          refine (elements element around inside).bind fun _ _ => ?_
          exact (t.typeName_excludes only _).bind fun _ _ => .ok

-- The type is written as a builtin type of the target. If it is a primitive type, or an enumeration
-- over one, this says no more than that it can be written.
def Glsl.Target.Maps (t : Target) (ty : TypeRef) : Prop :=
  ∃ name mapped, t.primitive? name = some mapped ∧ t.typeName ty = .ok mapped

theorem maps_primitive {name mapped : String} {args : List TypeRef}
    (h : t.typeName (.primitive name args) = .ok mapped) : t.Maps (.primitive name args) := by
  rw [Target.typeName] at h
  split at h <;> cases h
  case h_1 known =>
    refine ⟨name, mapped, known, ?_⟩
    rw [Target.typeName, known]

theorem maps_enum {name : String} {args : List TypeRef} (h : t.Maps ty) :
    t.Maps (.enum name ty args) := h

-- What builtin types are written as.
def builtinNames : List String :=
  ["bool", "int", "uint", "float", "double", "vec2", "vec3", "vec4", "ivec2", "ivec3", "ivec4",
    "uvec2", "uvec3", "uvec4", "mat4"]

theorem primitive?_mem {name mapped : String} (h : t.primitive? name = some mapped) :
    mapped ∈ builtinNames := by
  unfold Target.primitive? at h
  split at h
  case h_11 =>
    rw [Option.ite_none_left_eq_some] at h
    cases h.right
    decide
  case h_22 => cases h
  all_goals
    cases h
    decide

theorem opaqueType?_not_mem {kind : ResourceKind} {mapped : String}
    (h : t.opaqueType? kind = some mapped) : mapped ∉ builtinNames := by
  unfold Target.opaqueType? at h
  split at h
  case isTrue => split at h <;> cases h <;> decide
  case isFalse =>
    split at h
    case h_4 =>
      rw [Option.ite_none_left_eq_some] at h
      cases h.right
      decide
    case h_7 =>
      rw [Option.ite_none_right_eq_some] at h
      cases h.right
      decide
    all_goals cases h <;> decide

theorem exists_of_maps (h : t.Maps ty) (element : ty.element? = none)
    (struct : ty.isStruct = false) :
    (∃ name args, ty = .primitive name args) ∨ ∃ name underlying args,
      ty = .enum name underlying args := by
  obtain ⟨name, mapped, known, typed⟩ := h
  cases ty
  case primitive => exact .inl ⟨_, _, rfl⟩
  case enum      => exact .inr ⟨_, _, _, rfl⟩
  case struct    => cases struct
  case array     => cases element
  case void =>
    cases typed
    exact absurd (primitive?_mem known) (by decide)
  case object name' args =>
    rw [Target.typeName] at typed
    split at typed <;> cases typed
    case h_1 found =>
      obtain ⟨kind, _, found⟩ := Option.bind_eq_some_iff.mp found
      exact absurd (primitive?_mem known) (opaqueType?_not_mem found)

theorem exists_zero_of_maps (h : t.Maps ty) : ∃ value, t.zero ty = .ok value := by
  obtain ⟨name, mapped, known, typed⟩ := h
  simp only [Target.zero, typed]
  have builtin := primitive?_mem known
  simp only [builtinNames, List.mem_cons, List.not_mem_nil, or_false] at builtin
  rcases builtin with rfl | rfl | rfl | rfl | rfl | rfl | rfl | rfl | rfl | rfl | rfl | rfl | rfl |
    rfl | rfl <;> exact ⟨_, rfl⟩

end Expand

-- Default values in full: the name of a structure applied to one value for each member in order,
-- and as many values for an array as it declares.
mutual

inductive IsDefault (t : Target) (p : Program) : TypeRef → Term → Prop
  | struct {name : String} {args : List TypeRef} {d : TypeDecl} {mapped : String}
    {members : List Term} :
    (p.type? name = some d) → (t.typeName (.struct name args) = .ok mapped) →
    (List.Forall₂ (IsDefaultMember t p) d.instanceFields members) →
    IsDefault t p (.struct name args) (.apply mapped members)
  | enum {name : String} {underlying : TypeRef} {args : List TypeRef} {value : Term} :
    (t.zero underlying = .ok value) → IsDefault t p (.enum name underlying args) value
  | leaf {name : String} {args : List TypeRef} {value : Term} :
    (t.zero (.primitive name args) = .ok value) → IsDefault t p (.primitive name args) value

inductive IsDefaultMember (t : Target) (p : Program) : FieldDecl → Term → Prop
  | single {f : FieldDecl} {value : Term} : (f.ty.element? = none) → (IsDefault t p f.ty value) →
    IsDefaultMember t p f value
  | array {f : FieldDecl} {element : TypeRef} {count : Nat} {mapped : String} {value : Term} :
    (f.ty.element? = some element) → (f.arraySize = some count) → (0 < count) →
    (t.typeName element = .ok mapped) → (IsDefault t p element value) →
    IsDefaultMember t p f
      (.apply (mapped ++ "[" ++ toString count ++ "]") (List.replicate count value))

end

section Defaults

variable {t : Target} {p : Program} {path : List String} {ty : TypeRef}

-- All that a type is expanded to has a zero: it is a structure or written as a builtin type. Arrays
-- of arrays are expanded to arrays, which have none.
def Expandable (t : Target) (p : Program) (ty : TypeRef) : Prop :=
  ∀ part, ReflTransGen (ExpandsTo p) ty part →
    part.element? = none ∧ (part.isStruct = false → t.Maps part)

theorem Expandable.part {part : TypeRef} (h : Expandable t p ty) (step : ExpandsTo p ty part) :
    Expandable t p part :=
  fun inner path => h inner (.head step path)

theorem Expandable.exists_typeName (h : Expandable t p ty) :
    ∃ mapped, t.typeName ty = .ok mapped := by
  obtain ⟨_, maps⟩ := h ty .refl
  cases ty
  case struct => exact ⟨_, rfl⟩
  all_goals
    obtain ⟨_, mapped, _, typed⟩ := maps rfl
    exact ⟨mapped, typed⟩

theorem exists_of_bind_mapM {F : α → Except ε β} {k : List β → Except ε γ} {R : α → β → Prop}
    {Q : γ → Prop} {as : List α} (each : ∀ a ∈ as, ∃ b, F a = .ok b ∧ R a b)
    (whole : ∀ bs, as.Forall₂ R bs → ∃ c, k bs = .ok c ∧ Q c) :
    ∃ c, (as.mapM F >>= k) = .ok c ∧ Q c := by
  obtain ⟨bs, related⟩ := exists_forall₂_iff.mpr each
  obtain ⟨c, made, holds⟩ := whole bs (related.imp fun _ _ => And.right)
  have mapped := list_mapM_eq_ok_iff.mpr (related.imp fun _ _ => And.left)
  exact ⟨c, bind_eq_ok_iff.mpr ⟨bs, mapped, made⟩, holds⟩

-- A structure that is declared, with a count for each array member, and not embedded in itself.
structure Countable (p : Program) (name : String) : Prop where
  counted : ∃ d, p.type? name = some d ∧ ∀ f ∈ d.instanceFields, ∀ element,
    f.ty.element? = some element → ∃ count, f.arraySize = some count ∧ 0 < count
  acyclic : ¬TransGen (Embeds p) name name

-- What is expanded to countable structures has the default value that its declaration demands.
theorem exists_isDefault
    (leads : ∀ name args, ty = .struct name args → ∀ m ∈ path, TransGen (Embeds p) m name)
    (countable : ∀ name args, ReflTransGen (ExpandsTo p) ty (.struct name args) →
      Countable p name)
    (expandable : Expandable t p ty) :
    ∃ value, defaultValue t p path ty = .ok value ∧ IsDefault t p ty value := by
  fun_induction defaultValue t p path ty
  case case1 unknown =>
    obtain ⟨⟨d, known, _⟩, _⟩ := countable _ _ .refl
    cases unknown.symm.trans known
  case case2 again => exact absurd (leads _ _ rfl _ again) (countable _ _ .refl).acyclic
  case case4 underlying _ =>
    have maps : t.Maps underlying := (expandable _ .refl).right rfl
    obtain ⟨value, zero⟩ := exists_zero_of_maps maps
    exact ⟨value, zero, .enum zero⟩
  case case5 ty struct enum =>
    obtain ⟨array, maps⟩ := expandable _ .refl
    have leaf : ty.isStruct = false := by
      cases ty
      case struct => exact absurd rfl (struct _ _)
      all_goals rfl
    have maps := maps leaf
    obtain ⟨value, zero⟩ := exists_zero_of_maps maps
    rcases exists_of_maps maps array leaf with ⟨_, _, rfl⟩ | ⟨_, _, _, rfl⟩
    case inl => exact ⟨value, zero, .leaf zero⟩
    case inr => exact absurd rfl (enum _ _ _)
  case case3 path name args d known _ _ elements members =>
    obtain ⟨⟨_, found, counted⟩, _⟩ := countable _ _ .refl
    cases known.symm.trans found
    refine exists_of_bind_mapM (R := IsDefaultMember t p) (fun f mem => ?_) fun values each => ?_
    case refine_2 => exact ⟨_, rfl, .struct known rfl each⟩
    case refine_1 =>
      have step : ExpandsTo p (.struct name args) f.ty.elementOrSelf := .member known mem
      have around := leads_member known mem (leads _ _ rfl)
      have inside := fun inner args path => countable inner args (.head step path)
      have expandable := expandable.part step
      rw [TypeRef.elementOrSelf] at around inside expandable
      cases array : f.ty.element?
      case none =>
        rw [array] at around inside expandable
        obtain ⟨value, made, default⟩ := members f around inside expandable
        exact ⟨value, made, .single array default⟩
      case some element =>
        rw [array] at around inside expandable
        obtain ⟨count, size, positive⟩ := counted f mem element array
        obtain ⟨value, made, default⟩ := elements element around inside expandable
        obtain ⟨mapped, typed⟩ := expandable.exists_typeName
        refine ⟨_, ?_, .array array size positive typed default⟩
        simp only [size, made]
        rw [Option.getD_some] at typed
        rw [typed]
        rfl

end Defaults
end Shading
