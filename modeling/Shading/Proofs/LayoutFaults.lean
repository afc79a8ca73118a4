import Shading.Proofs.Containment
import Shading.Proofs.Exclusion
import Mathlib
/-!
Why a type has no footprint.

A failure comes from a type without storage, from a structure that is entered again, or from the
first member of a structure that cannot be packed. Where it is located makes no difference to its
cause.
-/

open Relation

namespace Shading

section Packing

-- What can be wrong with a field if the footprints of types are given by `g`.
inductive FieldFault (g : TypeRef → Except Error Footprint) (owner : String) (f : FieldDecl) :
    Cause → Prop
  | part {e} : (g f.ty.elementOrSelf = .error e) → FieldFault g owner f e.cause
  | uncounted : FieldFault g owner f (.layout (.missingArraySize owner f.name))
  | oversized {element one count} :
    (f.ty.element? = some element) → (f.arraySize = some count) → (0 < count) →
    (g element = .ok one) → (one.array? count = none) →
    FieldFault g owner f (.layout (.sizeOverflow (owner ++ "." ++ f.name)))

-- Packing stops at the first field that has a fault or does not fit.
inductive PackFault (g : TypeRef → Except Error Footprint) (owner : String) :
    List FieldDecl → Packer → Cause → Prop
  | field {f fs k cause} : (FieldFault g owner f cause) → PackFault g owner (f :: fs) k cause
  | full {f fs k all count} : (Occupies g f all count) → (k.push? all = none) →
    PackFault g owner (f :: fs) k (.layout (.sizeOverflow owner))
  | later {f fs k all count offset k' cause} :
    (Occupies g f all count) → (k.push? all = some (offset, k')) →
    (PackFault g owner fs k' cause) → PackFault g owner (f :: fs) k cause

variable {g : TypeRef → Except Error Footprint} {owner : String} {f : FieldDecl}
  {fs : List FieldDecl} {k : Packer} {cause : Cause} {e : Error}

theorem bind_eq_error_iff {x : Except ε α} {next : α → Except ε β} {e : ε} :
    (x >>= next) = .error e ↔ x = .error e ∨ ∃ a, x = .ok a ∧ next a = .error e := by
  cases x
  case ok a =>
    refine ⟨fun h => .inr ⟨a, rfl, h⟩, ?_⟩
    rintro (h | ⟨_, h, h'⟩)
    · cases h
    · cases h
      exact h'
  case error e' =>
    refine ⟨fun h => .inl (by cases h; rfl), ?_⟩
    rintro (h | ⟨_, h, _⟩)
    · cases h
      rfl
    · cases h

theorem exists_error_of_locating {location : Option Location} {x : Except Error α}
    (h : locating location x = .error e) : ∃ e', x = .error e' ∧ e.cause = e'.cause := by
  cases x
  case ok       => cases h
  case error e' =>
    cases h
    exact ⟨e', rfl, rfl⟩

theorem fault_of_fieldFootprint (h : fieldFootprint g owner f = .error e) :
    FieldFault g owner f e.cause := by
  simp only [fieldFootprint] at h
  split at h
  case h_1 single =>
    rcases bind_eq_error_iff.mp h with h | ⟨_, _, h⟩
    · exact .part (by simpa [TypeRef.elementOrSelf, single] using h)
    · cases h
  case h_2 element array =>
    split at h
    case h_1 | h_2 => cases h; exact .uncounted
    case h_3 count positive size =>
      rcases bind_eq_error_iff.mp h with h | ⟨one, known, h⟩
      · exact .part (by simpa [TypeRef.elementOrSelf, array] using h)
      · split at h <;> cases h
        exact .oversized array size (Nat.pos_of_ne_zero positive) known ‹_›

theorem fault_of_packFields (h : packFields g owner fs k = .error e) :
    PackFault g owner fs k e.cause := by
  induction fs generalizing k
  case nil => cases h
  case cons f fs hi =>
    rcases bind_eq_error_iff.mp h with h | ⟨⟨all, count⟩, o, h⟩
    · have ⟨e', h, same⟩ := exists_error_of_locating h
      exact same ▸ .field (fault_of_fieldFootprint h)
    · have o := fieldFootprint_eq_ok_iff.mp (locating_eq_ok_iff.mp o)
      dsimp only at h
      split at h
      case h_1 full => cases h; exact .full o full
      case h_2 push =>
        rcases bind_eq_error_iff.mp h with h | ⟨_, _, h⟩
        · exact .later o push (hi h)
        · cases h

end Packing

variable {p : Program} {overrides : List (String × Nat)} {V : List String} {ty : TypeRef}
  {e : Error}

-- A type that is neither an array nor a structure is refused for what it is.
theorem cause_of_leaf (element : ty.element? = none) (struct : ty.isStruct = false)
    (h : measure p overrides V ty = .error e) (name : String) :
    e.cause ≠ .layout (.recursiveStructure name) ∧ e.cause ≠ .layout (.sizeOverflow name) := by
  rw [measure_eq_derive] at h
  cases ty
  case array  => cases element
  case struct => cases struct
  case void | object =>
    rw [Layouts.derive] at h
    cases h
    exact ⟨by simp [Error.layout], by simp [Error.layout]⟩
  case primitive | enum =>
    rw [Layouts.derive] at h
    split at h <;> cases h
    exact ⟨by simp [Error.layout], by simp [Error.layout]⟩

-- What can be wrong with a structure, inside the structures `V`.
inductive StructFault (p : Program) (overrides : List (String × Nat)) (V : List String)
    (name : String) : Cause → Prop
  | unknown : (p.type? name = none) → StructFault p overrides V name (.layout (.unknownType name))
  | object {t} : (p.type? name = some t) → (t.isObject) →
    StructFault p overrides V name (.layout (.nonBlittable name))
  | recursive : (name ∈ V) → StructFault p overrides V name (.layout (.recursiveStructure name))
  | members {t cause} : (p.type? name = some t) → (name ∉ V) →
    (PackFault (measure p overrides (name :: V)) name t.instanceFields {} cause) →
    StructFault p overrides V name cause
  | empty {t} : (p.type? name = some t) → (t.instanceFields.isEmpty) →
    StructFault p overrides V name (.layout (.emptyStructure name))

theorem fault_of_measure {name : String} {args : List TypeRef}
    (h : measure p overrides V (.struct name args) = .error e) :
    StructFault p overrides V name e.cause := by
  rw [measure_eq_derive, derive_struct] at h
  cases found : p.type? name
  case none =>
    rw [found] at h
    cases h
    exact .unknown found
  case some t =>
    simp only [found] at h
    split at h
    case isTrue object => cases h; exact .object found object
    case isFalse       =>
      split at h
      case isTrue entered => cases h; exact .recursive entered
      case isFalse fresh  =>
        rw [deriveStruct, Access.alone_bind, alone_packFields] at h
        rcases bind_eq_error_iff.mp h with h | ⟨_, _, h⟩
        · exact .members found fresh (fault_of_packFields h)
        · dsimp only at h
          split at h <;> cases h
          exact .empty found ‹_›

section Exclusion

variable {P : Error → Prop}

-- What a footprint does not fail with, unless it is on a structure that contains itself.
structure Sparing (P : Error → Prop) (p : Program) (ty : TypeRef) : Prop where
  quiet    : ∀ fault location, (∀ name, fault ≠ .recursiveStructure name) →
    ¬P (.layout fault location)
  unplaced : ∀ location (e : Error), P (e.locate location) → P e
  cyclic   : ∀ n m, ty.base? = some n → ReflTransGen (Holds p) n m → TransGen (Holds p) m m →
    ¬P (.layout (.recursiveStructure m))

theorem compute_excludes_of_derive (h : (Layouts.derive p V ty).Excludes P) :
    (Layouts.compute p V ty).Excludes P := by
  rw [Layouts.compute]
  intro known
  cases known
  case some => exact .pure _
  case none => exact h.bind fun f => fun g => .pure g

-- The structures that have been entered contain the type, so that one of them that is entered again
-- contains itself.
theorem compute_excludes (h : Sparing P p ty)
    (leads : ∀ n, ty.base? = some n → ∀ m ∈ V, TransGen (Holds p) m n) :
    (Layouts.compute p V ty).Excludes P := by
  induction V, ty using layout_induction p
  case leaf V ty element struct =>
    refine compute_excludes_of_derive ?_
    cases ty
    case array  => cases element
    case struct => cases struct
    case void | object =>
      rw [Layouts.derive]
      exact .throw (h.quiet _ _ (by simp))
    case primitive | enum =>
      rw [Layouts.derive]
      split
      case h_1 => exact .pure _
      case h_2 => exact .throw (h.quiet _ _ (by simp))
  case array V name element args hi =>
    refine compute_excludes_of_derive ?_
    rw [Layouts.derive]
    exact hi ⟨h.quiet, h.unplaced, h.cyclic⟩ leads
  case struct V name args hi =>
    refine compute_excludes_of_derive ?_
    rw [derive_struct]
    cases found : p.type? name
    case none => exact .throw (h.quiet _ _ (by simp))
    case some t =>
      dsimp only
      split
      case isTrue => exact .throw (h.quiet _ _ (by simp))
      case isFalse =>
        split
        case isTrue again =>
          exact .throw (h.cyclic name name rfl .refl (leads name rfl name again))
        case isFalse fresh =>
          have fields : (packFields (Layouts.compute p (name :: V)) name t.instanceFields
              {}).Excludes P := by
            have parts := Access.Excludes.compositional h.quiet h.unplaced
            refine packFields_of_parts parts fun f mem => ?_
            have step {n : String} (base : f.ty.elementOrSelf.base? = some n) : Holds p name n :=
              ⟨t, found, f, mem, TypeRef.base?_elementOrSelf.symm.trans base⟩
            refine hi t found fresh _ ⟨h.quiet, h.unplaced, fun n m base path => ?_⟩ ?_
            · exact h.cyclic name m rfl (.head (step base) path)
            · intro n base m mem
              rcases List.mem_cons.mp mem with rfl | mem
              case inl => exact .single (step base)
              case inr => exact (leads name rfl m mem).tail (step base)
          refine fields.bind fun packed => ?_
          dsimp only
          split
          case isTrue  => exact .throw (h.quiet _ _ (by simp))
          case isFalse => exact fun f => .pure f

end Exclusion

end Shading
