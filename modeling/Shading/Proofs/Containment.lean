import Shading.Proofs.Packing
import Mathlib
/-!
The footprint of a type by itself, and how it depends on the structures that it is found in.

A structure that has a footprint does not contain itself. Its footprint is therefore the same inside
all structures that do not lie within it.
-/

open Relation

namespace Shading

variable {p : Program} {overrides : List (String × Nat)} {V W : List String} {ty : TypeRef}
  {f : Footprint}

-- The footprint that is computed for a type if none is known beforehand.
abbrev measure (p : Program) (overrides : List (String × Nat)) (V : List String) (ty : TypeRef) :
    Except Error Footprint :=
  (Layouts.compute p V ty).alone overrides

theorem measure_eq_derive : measure p overrides V ty = (Layouts.derive p V ty).alone overrides := by
  simp only [measure, Layouts.compute]
  change (Layouts.derive p V ty >>= _).alone overrides = _
  rw [Access.alone_bind]
  cases (Layouts.derive p V ty).alone overrides <;> rfl

theorem measure_array {name : String} {element : TypeRef} {args : List TypeRef} :
    measure p overrides V (.array name element args) = measure p overrides V element := by
  rw [measure_eq_derive, Layouts.derive]

-- The footprint of a structure that is declared and not entered already.
def deriveStruct (p : Program) (V : List String) (name : String) (t : TypeDecl) :
    Access Footprint := do
  let (_, k) ← packFields (Layouts.compute p (name :: V)) name t.instanceFields {}
  if t.instanceFields.isEmpty then throw (.layout (.emptyStructure name) t.location)
  .adjust name k.footprint pure

theorem derive_struct {name : String} {args : List TypeRef} :
    Layouts.derive p V (.struct name args) =
      match p.type? name with
      | none => throw (.layout (.unknownType name))
      | some t =>
        if t.isObject then throw (.layout (.nonBlittable name))
        else if name ∈ V then throw (.layout (.recursiveStructure name))
        else deriveStruct p V name t := by
  rw [Layouts.derive]
  split
  case h_1 h => simp only [h]
  case h_2 h =>
    simp only [h]
    split
    case isTrue => rfl
    case isFalse => split <;> rfl

theorem alone_deriveStruct_eq_ok_iff {name : String} {t : TypeDecl} :
    (deriveStruct p V name t).alone overrides = .ok f ↔
    (¬t.instanceFields.isEmpty) ∧
    ∃ fields k, packFields (measure p overrides (name :: V)) name t.instanceFields {} =
      .ok (fields, k) ∧ f = Layouts.adjust { overrides } name k.footprint := by
  simp only [deriveStruct]
  rw [Access.alone_bind, alone_packFields, bind_eq_ok_iff]
  by_cases empty : t.instanceFields.isEmpty
  case pos =>
    refine ⟨?_, fun h => absurd empty h.left⟩
    rintro ⟨⟨fields, k⟩, _, h⟩
    simp only [empty, if_true] at h
    cases h
  case neg =>
    simp only [empty, Bool.false_eq_true, if_false, not_false_eq_true, true_and, Prod.exists]
    constructor
    · rintro ⟨fields, k, packed, h⟩
      exact ⟨fields, k, packed, (Except.ok.inj h).symm⟩
    · rintro ⟨fields, k, packed, rfl⟩
      exact ⟨fields, k, packed, rfl⟩

-- What it takes for a structure to have a footprint.
theorem measure_struct_eq_ok_iff {name : String} {args : List TypeRef} :
    measure p overrides V (.struct name args) = .ok f ↔
    ∃ t, p.type? name = some t ∧ t.isObject = false ∧ name ∉ V ∧
      (deriveStruct p V name t).alone overrides = .ok f := by
  rw [measure_eq_derive, derive_struct]
  cases found : p.type? name
  case none => simp
  case some t =>
    cases object : t.isObject
    case true  => simp [object]
    case false => by_cases fresh : name ∈ V <;> simp [fresh, object]

-- What it takes for a declaration to describe a structure.
theorem alone_describe_eq_ok_iff {t : TypeDecl} {d : { s : Structure // s.name = t.name }} :
    (Structure.describe p t).alone overrides = .ok d ↔
    ∃ k, packFields (measure p overrides []) t.name t.instanceFields {} = .ok (d.val.fields, k) ∧
      measure p overrides [] t.structRef = .ok d.val.footprint ∧ d.val.agrees = k.agrees := by
  simp only [Structure.describe]
  rw [Access.alone_bind, alone_packFields, bind_eq_ok_iff]
  constructor
  case mp =>
    rintro ⟨⟨fields, k⟩, packed, h⟩
    dsimp only at h
    rw [Access.alone_bind] at h
    have ⟨_, whole, h⟩ := bind_eq_ok_iff.mp h
    cases h
    exact ⟨k, packed, whole, rfl⟩
  case mpr =>
    obtain ⟨⟨name, fields, footprint, agrees⟩, same⟩ := d
    dsimp only at same
    rintro ⟨k, packed, whole, rfl⟩
    refine ⟨_, packed, ?_⟩
    dsimp only
    rw [Access.alone_bind]
    refine bind_eq_ok_iff.mpr ⟨_, whole, congrArg _ (Subtype.ext ?_)⟩
    exact congrArg (Structure.mk · _ _ _) same.symm

-- The recursion that all computations of footprints follow. Each structure is entered once.
theorem layout_induction (p : Program) {motive : List String → TypeRef → Prop}
    (leaf : ∀ V ty, ty.element? = none → ty.isStruct = false → motive V ty)
    (array : ∀ V name element args, motive V element → motive V (.array name element args))
    (struct : ∀ V name args,
      (∀ t, p.type? name = some t → name ∉ V → ∀ ty, motive (name :: V) ty) →
      motive V (.struct name args))
    (V : List String) (ty : TypeRef) : motive V ty :=
  match ty with
  | .void .. | .primitive .. | .object .. | .enum .. => leaf V _ rfl rfl
  | .array name element args =>
    array V name element args (layout_induction p leaf array struct V element)
  | .struct name args =>
    struct V name args fun t found fresh ty =>
      have := unvisited_cons_lt (Program.name_mem_of_type? found) fresh
      layout_induction p leaf array struct (name :: V) ty
termination_by (unvisited (p.types.map TypeDecl.name) V, sizeOf ty)

-- The structure that a type consists of, under any number of arrays.
def TypeRef.base? : TypeRef → Option String
  | .array _ element _ => element.base?
  | .struct name _     => some name
  | _                  => none

theorem TypeRef.base?_elementOrSelf : ty.elementOrSelf.base? = ty.base? := by
  cases ty <;> rfl

theorem TypeRef.base?_eq_none (element : ty.element? = none) (struct : ty.isStruct = false) :
    ty.base? = none := by
  cases ty
  case array  => cases element
  case struct => cases struct
  all_goals rfl

def Holds (p : Program) (outer inner : String) : Prop :=
  ∃ t, p.type? outer = some t ∧ ∃ f ∈ t.instanceFields, f.ty.base? = some inner

-- A member of the outer structure, or an element of it, is of the inner one.
def Embeds (p : Program) (outer inner : String) : Prop :=
  ∃ t, p.type? outer = some t ∧ ∃ f ∈ t.instanceFields, ∃ args,
    f.ty.elementOrSelf = .struct inner args

theorem Embeds.holds {outer inner : String} (h : Embeds p outer inner) : Holds p outer inner := by
  obtain ⟨t, found, f, mem, args, same⟩ := h
  refine ⟨t, found, f, mem, ?_⟩
  rw [← TypeRef.base?_elementOrSelf, same]
  rfl

-- Containment is well-founded below a structure that has a footprint.
theorem acc_of_measure {n : String} (h : measure p overrides V ty = .ok f)
    (base : ty.base? = some n) : Acc (flip (Holds p)) n := by
  induction V, ty using layout_induction p generalizing f n
  case leaf element struct => simp [TypeRef.base?_eq_none element struct] at base
  case array hi            => exact hi (measure_array ▸ h) base
  case struct V name args hi =>
    cases base
    have ⟨t, found, _, fresh, h⟩ := measure_struct_eq_ok_iff.mp h
    have ⟨_, _, _, packed, _⟩ := alone_deriveStruct_eq_ok_iff.mp h
    refine .intro name fun m ⟨t', found', g, mem, inner⟩ => ?_
    cases found.symm.trans found'
    have ⟨_, one⟩ := exists_footprint_of_packFields packed mem
    exact hi t found fresh _ one (TypeRef.base?_elementOrSelf.trans inner)

theorem not_cyclic_of_acc {r : String → String → Prop} {n : String} (h : Acc (flip r) n) :
    ¬TransGen r n n := by
  induction h
  case intro n _ hi =>
    intro cycle
    have ⟨m, first, rest⟩ := TransGen.head'_iff.mp cycle
    exact hi m first (.tail' rest first)

theorem measure_leaf (element : ty.element? = none) (struct : ty.isStruct = false) :
    measure p overrides V ty = measure p overrides W ty := by
  rw [measure_eq_derive, measure_eq_derive]
  cases ty
  case array  => cases element
  case struct => cases struct
  all_goals rw [Layouts.derive, Layouts.derive]

-- A footprint does not depend on the structures around a type, unless they lie within it.
theorem measure_of_apart (h : measure p overrides W ty = .ok f)
    (apart : ∀ n, ty.base? = some n → ∀ m ∈ V, ¬ReflTransGen (Holds p) n m) :
    measure p overrides V ty = .ok f := by
  induction W, ty using layout_induction p generalizing V f
  case leaf element struct => rw [measure_leaf element struct]; exact h
  case array hi =>
    rw [measure_array] at h ⊢
    exact hi h apart
  case struct W name args hi =>
    have acyclic := not_cyclic_of_acc (acc_of_measure h rfl)
    have ⟨t, found, object, fresh, h⟩ := measure_struct_eq_ok_iff.mp h
    have ⟨filled, fields, _, packed, total⟩ := alone_deriveStruct_eq_ok_iff.mp h
    refine measure_struct_eq_ok_iff.mpr ⟨t, found, object, (apart name rfl name · .refl), ?_⟩
    refine alone_deriveStruct_eq_ok_iff.mpr ⟨filled, fields, _, ?_, total⟩
    refine packFields_mono packed fun g mem one known => hi t found fresh _ known ?_
    intro n inner m hm
    have holds : Holds p name n := ⟨t, found, g, mem, TypeRef.base?_elementOrSelf.symm.trans inner⟩
    cases hm
    case head    => exact fun back => acyclic (.head' holds back)
    case tail hm => exact fun reach => apart name rfl m hm (.head holds reach)

-- A footprint that is found inside some structures is the one that is found outside of all.
theorem measure_outside (h : measure p overrides V ty = .ok f) :
    measure p overrides [] ty = .ok f :=
  measure_of_apart h (by simp)

-- Conversely, structures that contain the type do not lie within it.
theorem measure_inside (h : measure p overrides [] ty = .ok f)
    (leads : ∀ n, ty.base? = some n → ∀ m ∈ V, TransGen (Holds p) m n) :
    measure p overrides V ty = .ok f := by
  refine measure_of_apart h fun n base m mem reach => ?_
  exact not_cyclic_of_acc (acc_of_measure h base) (.trans_right reach (leads n base m mem))

-- The members of a structure that has a footprint can be packed outside of it as well.
theorem exists_packed_of_measure {name : String} {args : List TypeRef} {t : TypeDecl}
    (found : p.type? name = some t) (h : measure p overrides V (.struct name args) = .ok f) :
    (¬t.instanceFields.isEmpty) ∧
    ∃ fields k, packFields (measure p overrides []) name t.instanceFields {} = .ok (fields, k) ∧
      f = Layouts.adjust { overrides } name k.footprint := by
  have ⟨t', found', _, _, h⟩ := measure_struct_eq_ok_iff.mp h
  cases found.symm.trans found'
  have ⟨filled, fields, k, packed, total⟩ := alone_deriveStruct_eq_ok_iff.mp h
  exact ⟨filled, fields, k, packFields_mono packed fun _ _ _ => measure_outside, total⟩

end Shading
