import Shading.Proofs.CanonicalNames
import Mathlib
/-!
Which types have different sizes on the host and on the device.

A builtin type is never larger on the host. A structure of which all members start at the same
offset, and end there as well, has one size.
-/

namespace Shading

variable {p : Program} {overrides : List (String × Nat)} {V : List String} {ty : TypeRef}
  {f : Footprint} {name : String} {types : List TypeRef}

namespace TypeRef

-- Types without parts of their own.
def isLeaf : TypeRef → Bool
  | .primitive .. | .enum .. => true
  | _                        => false

-- The builtin types that are larger on the device than on the host.
def isWidened : TypeRef → Bool
  | .primitive name _ => shortNameIn ["bool", "Vector3", "Int3", "UInt3"] name
  | _                 => false

-- What remains of a type without the arrays around it.
def innermost : TypeRef → TypeRef
  | .array _ element _ => element.innermost
  | ty                 => ty

theorem base?_innermost : ty.innermost.base? = ty.base? := by
  fun_induction innermost ty
  case case1 hi => exact hi
  case case2    => rfl

theorem innermost_ne_array {element : TypeRef} {args : List TypeRef} :
    ty.innermost ≠ .array name element args := by
  fun_induction innermost ty
  case case1 hi        => exact hi
  case case2 ty noArray => exact noArray _ _ _

theorem innermost_mem (mem : ty ∈ refsAll types) : ty.innermost ∈ refsAll types := by
  fun_induction innermost ty
  case case1 hi => exact hi (Universe.element_mem mem)
  case case2    => exact mem

end TypeRef

theorem measure_innermost : measure p overrides V ty.innermost = measure p overrides V ty := by
  fun_induction TypeRef.innermost ty
  case case1 hi => exact hi.trans measure_array.symm
  case case2    => rfl

theorem builtin?_sizes (h : Footprint.builtin? name = some f) :
    f.hostSize ≤ f.deviceSize ∧
    ((TypeRef.primitive name []).isWidened = false → f.hostSize = f.deviceSize) := by
  simp only [Footprint.builtin?] at h
  split at h <;> cases h <;> simp_all [TypeRef.isWidened, shortNameIn, Footprint.scalar]

theorem integer?_sizes (h : Footprint.integer? name = some f) : f.hostSize = f.deviceSize := by
  simp only [Footprint.integer?] at h
  split at h
  case isFalse => cases h
  case isTrue integer =>
    refine (builtin?_sizes h).right ?_
    simp only [shortNameIn, integerScalars, List.contains_eq_mem, List.mem_cons, decide_eq_true_eq]
      at integer
    rcases integer with h | h | h | h | h | h | h | h | h <;>
      simp_all [TypeRef.isWidened, shortNameIn]

theorem measure_leaf_sizes (leaf : ty.isLeaf) (h : measure p overrides V ty = .ok f) :
    f.hostSize ≤ f.deviceSize ∧ (ty.isWidened = false → f.hostSize = f.deviceSize) := by
  rw [measure_eq_derive] at h
  cases ty
  case primitive name args =>
    rw [Layouts.derive] at h
    split at h <;> cases h
    exact builtin?_sizes ‹_›
  case enum name underlying args =>
    rw [Layouts.derive] at h
    split at h <;> cases h
    have same := integer?_sizes ‹_›
    exact ⟨Nat.le_of_eq same, fun _ => same⟩
  all_goals cases leaf

theorem adjust_sizes {l : Layouts} : (l.adjust name f).hostSize = f.hostSize ∧
    (l.adjust name f).deviceSize = f.deviceSize := by
  simp only [Layouts.adjust]
  split <;> exact ⟨rfl, rfl⟩

variable {t : TypeDecl} {d : { s : Structure // s.name = t.name }} {args : List TypeRef}

-- The members are packed for the description as they are packed for the footprint.
theorem sizes_eq_of_agrees (found : p.type? name = some t)
    (described : (Structure.describe p t).alone overrides = .ok d) (agrees : d.val.agrees)
    (h : measure p overrides [] (.struct name args) = .ok f) : f.hostSize = f.deviceSize := by
  obtain rfl := Program.name_eq_of_type? found
  have ⟨_, fields, k, packed, total⟩ := exists_packed_of_measure found h
  have ⟨k', packed', _, same⟩ := alone_describe_eq_ok_iff.mp described
  cases packed.symm.trans packed'
  have sizes := (Bool.and_eq_true_iff.mp (same.symm.trans agrees)).right
  rw [total, adjust_sizes.left, adjust_sizes.right]
  exact beq_iff_eq.mp sizes

end Shading
