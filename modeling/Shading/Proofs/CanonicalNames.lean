import Shading.Proofs.Containment
import Mathlib
/-!
Type names that determine what they name.

If they do, all computations of footprints are steady: it does not matter which of them are known.
-/

open Relation

namespace Shading

namespace TypeRef

-- All of a type but its generic arguments, which have no part in its footprint.
def shape : TypeRef → TypeRef
  | .void name _            => .void name []
  | .primitive name _       => .primitive name []
  | .struct name _          => .struct name []
  | .object name _          => .object name []
  | .enum name underlying _ => .enum name underlying.shape []
  | .array name element _   => .array name element.shape []

mutual

-- The references that a reference consists of, itself included.
def refs : TypeRef → List TypeRef
  | .void name args            => .void name args :: refsAll args
  | .primitive name args       => .primitive name args :: refsAll args
  | .struct name args          => .struct name args :: refsAll args
  | .object name args          => .object name args :: refsAll args
  | .enum name underlying args => .enum name underlying args :: underlying.refs ++ refsAll args
  | .array name element args   => .array name element args :: element.refs ++ refsAll args

def refsAll : List TypeRef → List TypeRef
  | []          => []
  | ty :: types => ty.refs ++ refsAll types

end

theorem self_mem_refs (ty : TypeRef) : ty ∈ ty.refs := by
  cases ty <;> simp [refs]

theorem mem_refsAll {types : List TypeRef} {a : TypeRef} :
    a ∈ refsAll types ↔ ∃ ty ∈ types, a ∈ ty.refs := by
  induction types
  case nil         => simp [refsAll]
  case cons ty _ hi => simp [refsAll, hi]

theorem shape_name (ty : TypeRef) : ty.shape.name = ty.name := by
  cases ty <;> rfl

mutual

theorem refs_trans {a b : TypeRef} (h : a ∈ b.refs) : ∀ c : TypeRef, b ∈ c.refs → a ∈ c.refs
  | .void .., mem | .primitive .., mem | .struct .., mem | .object .., mem => by
    rw [refs] at mem
    cases mem
    case head     => exact h
    case tail mem => exact List.mem_cons_of_mem _ (refsAll_trans h _ mem)
  | .enum _ inner _, mem | .array _ inner _, mem => by
    rw [refs] at mem
    cases mem
    case head     => exact h
    case tail mem =>
      cases List.mem_append.mp mem
      case inl mem => exact List.mem_cons_of_mem _ (List.mem_append_left _ (refs_trans h inner mem))
      case inr mem => exact List.mem_cons_of_mem _ (List.mem_append_right _ (refsAll_trans h _ mem))

theorem refsAll_trans {a b : TypeRef} (h : a ∈ b.refs) :
    ∀ types : List TypeRef, b ∈ refsAll types → a ∈ refsAll types
  | [], mem          => by simp [refsAll] at mem
  | ty :: types, mem => by
    rw [refsAll] at mem ⊢
    cases List.mem_append.mp mem
    case inl mem => exact List.mem_append_left _ (refs_trans h ty mem)
    case inr mem => exact List.mem_append_right _ (refsAll_trans h types mem)

end

end TypeRef

-- Among all references in the given types, a name determines the shape of what it names.
def Canonical (types : List TypeRef) : Prop :=
  ∀ a ∈ TypeRef.refsAll types, ∀ b ∈ TypeRef.refsAll types, a.name = b.name → a.shape = b.shape

instance (types : List TypeRef) : Decidable (Canonical types) :=
  inferInstanceAs (Decidable (∀ a ∈ _, ∀ b ∈ _, _ → _))

-- Each of the types in question that has the name is a structure.
def Structural (types : List TypeRef) (name : String) : Prop :=
  ∀ ty ∈ TypeRef.refsAll types, ty.name = name → ty.isStruct

instance (types : List TypeRef) (name : String) : Decidable (Structural types name) :=
  inferInstanceAs (Decidable (∀ ty ∈ _, _ → _))

theorem TypeRef.shape_of_isStruct {ty : TypeRef} (h : ty.isStruct) :
    ty.shape = .struct ty.name [] := by
  cases ty <;> cases h
  rfl

theorem TypeRef.base?_shape : ∀ ty : TypeRef, ty.shape.base? = ty.base?
  | .array _ element _                                        => element.base?_shape
  | .void .. | .primitive .. | .struct .. | .object .. | .enum .. => rfl

theorem Canonical.structural {types : List TypeRef} {ty : TypeRef} (h : Canonical types)
    (mem : ty ∈ TypeRef.refsAll types) (struct : ty.isStruct) : Structural types ty.name := by
  intro ty' mem' same
  have shape := (h ty' mem' ty mem same).trans (TypeRef.shape_of_isStruct struct)
  cases ty' <;> first | rfl | cases shape

-- References to structures may be added, where their names mean no other.
theorem Canonical.append_structs {types : List TypeRef} {ts : List TypeDecl} (h : Canonical types)
    (meant : ∀ t ∈ ts, Structural types t.name) :
    Canonical (types ++ ts.map TypeDecl.structRef) := by
  have shape : ∀ a ∈ TypeRef.refsAll (types ++ ts.map TypeDecl.structRef),
      a ∈ TypeRef.refsAll types ∨ ∃ t ∈ ts, a = t.structRef := by
    intro a mem
    obtain ⟨ty, root, inside⟩ := TypeRef.mem_refsAll.mp mem
    rcases List.mem_append.mp root with root | root
    case inl => exact .inl (TypeRef.mem_refsAll.mpr ⟨ty, root, inside⟩)
    case inr =>
      obtain ⟨t, mem, rfl⟩ := List.mem_map.mp root
      exact .inr ⟨t, mem, by simpa [TypeDecl.structRef, TypeRef.refs, TypeRef.refsAll] using inside⟩
  have single {a : TypeRef} {t : TypeDecl} (mem : t ∈ ts) (known : a ∈ TypeRef.refsAll types)
      (same : a.name = t.name) : a.shape = t.structRef.shape := by
    rw [TypeRef.shape_of_isStruct (meant t mem a known same), same]
    rfl
  intro a ha b hb same
  rcases shape a ha with ha | ⟨t, mem, rfl⟩ <;> rcases shape b hb with hb | ⟨t', mem', rfl⟩
  · exact h a ha b hb same
  · exact single mem' ha same
  · exact (single mem hb same.symm).symm
  · exact congrArg (TypeRef.struct · []) same

variable {p : Program} {overrides : List (String × Nat)} {V : List String}

theorem compute_congr : ∀ {a b : TypeRef}, a.shape = b.shape →
    Layouts.compute p V a = Layouts.compute p V b := by
  intro a b h
  have name : a.name = b.name := a.shape_name ▸ b.shape_name ▸ congrArg TypeRef.name h
  suffices derive : Layouts.derive p V a = Layouts.derive p V b by
    rw [Layouts.compute, Layouts.compute, name, derive]
  cases a <;> cases b <;> cases name <;> simp only [TypeRef.shape, reduceCtorEq] at h
  case enum.enum u _ u' _ =>
    have underlying : u.name = u'.name := by
      rw [← u.shape_name, ← u'.shape_name]
      exact congrArg TypeRef.name (TypeRef.enum.inj h).right.left
    rw [Layouts.derive, Layouts.derive, underlying]
  case array.array e _ e' _ =>
    rw [Layouts.derive, Layouts.derive]
    exact compute_congr (TypeRef.array.inj h).right.left
  case struct.struct => rw [derive_struct, derive_struct]
  all_goals rw [Layouts.derive, Layouts.derive]

-- The footprints that fit a name: those of the types in question that have the name.
def Fitting (p : Program) (overrides : List (String × Nat)) (types : List TypeRef) (name : String)
    (f : Footprint) : Prop :=
  ∃ ty ∈ TypeRef.refsAll types, ty.name = name ∧ measure p overrides [] ty = .ok f

-- Types among which names are canonical, and which include those of all fields.
structure Universe (p : Program) (types : List TypeRef) : Prop where
  canonical : Canonical types
  fields    : ∀ t ∈ p.types, ∀ f ∈ t.instanceFields, f.ty ∈ TypeRef.refsAll types

-- The types of all fields that occupy storage.
def Program.fieldTypes (p : Program) : List TypeRef :=
  p.types.flatMap fun t => t.instanceFields.map FieldDecl.ty

namespace Universe

theorem of_canonical {types : List TypeRef} (h : Canonical (p.fieldTypes ++ types)) :
    Universe p (p.fieldTypes ++ types) where
  canonical := h
  fields t ht f hf := by
    refine TypeRef.mem_refsAll.mpr ⟨f.ty, List.mem_append_left _ ?_, f.ty.self_mem_refs⟩
    exact List.mem_flatMap.mpr ⟨t, ht, List.mem_map_of_mem hf⟩

variable {types : List TypeRef} {ty : TypeRef} {f g : Footprint} {name : String}

theorem measure_of_fitting (u : Universe p types) (mem : ty ∈ TypeRef.refsAll types)
    (fit : Fitting p overrides types ty.name f) : measure p overrides [] ty = .ok f := by
  have ⟨ty', mem', same, h⟩ := fit
  have shape := u.canonical ty' mem' ty mem same
  exact (congrArg (Access.alone overrides) (compute_congr shape)).symm.trans h

theorem fitting_unique (u : Universe p types) (name : String) (f g : Footprint)
    (fit : Fitting p overrides types name f) (fit' : Fitting p overrides types name g) : g = f := by
  have ⟨ty, mem, same, h⟩ := fit
  cases same
  exact Except.ok.inj ((u.measure_of_fitting mem fit').symm.trans h)

theorem element_mem {element : TypeRef} {args : List TypeRef}
    (mem : .array name element args ∈ TypeRef.refsAll types) : element ∈ TypeRef.refsAll types := by
  refine TypeRef.refsAll_trans ?_ types mem
  rw [TypeRef.refs]
  exact List.mem_cons_of_mem _ (List.mem_append_left _ element.self_mem_refs)

theorem elementOrSelf_mem (mem : ty ∈ TypeRef.refsAll types) :
    ty.elementOrSelf ∈ TypeRef.refsAll types := by
  cases ty
  case array => exact element_mem mem
  all_goals exact mem

-- A known footprint is the one that would be computed, and only footprints that fit are offered.
theorem compute_steady_of_derive (u : Universe p types) (mem : ty ∈ TypeRef.refsAll types)
    (leads : ∀ n, ty.base? = some n → ∀ m ∈ V, TransGen (Holds p) m n)
    (derived : Access.Steady overrides (Fitting p overrides types) (Layouts.derive p V ty)) :
    Access.Steady overrides (Fitting p overrides types) (Layouts.compute p V ty) := by
  simp only [Access.Steady]
  generalize h : (Layouts.compute p V ty).alone overrides = r
  rw [Layouts.compute]
  refine ⟨?unknown, ?known⟩
  case known =>
    intro f fit
    exact (measure_inside (u.measure_of_fitting mem fit) leads).symm.trans h
  case unknown =>
    have s : Access.Steady overrides (Fitting p overrides types)
        (Layouts.derive p V ty >>= fun f => .remember ty.name f pure) := by
      refine derived.bind fun f h => ⟨?_, rfl⟩
      exact ⟨ty, mem, rfl, measure_outside (measure_eq_derive.trans h)⟩
    rw [Layouts.compute] at h
    exact h ▸ s

theorem member_mem {t : TypeDecl} {f : FieldDecl} (u : Universe p types) (declared : t ∈ p.types)
    (mem : f ∈ t.instanceFields) : f.ty.elementOrSelf ∈ TypeRef.refsAll types :=
  elementOrSelf_mem (u.fields t declared f mem)

-- A structure is steady if its members are, whether or not it is one of the types in question.
theorem derive_struct_steady {args : List TypeRef}
    (members : ∀ t, p.type? name = some t → name ∉ V → ∀ f ∈ t.instanceFields,
      Access.Steady overrides (Fitting p overrides types)
        (Layouts.compute p (name :: V) f.ty.elementOrSelf)) :
    Access.Steady overrides (Fitting p overrides types)
      (Layouts.derive p V (.struct name args)) := by
  rw [derive_struct]
  split
  case h_1 => exact .throw _
  case h_2 t found =>
    split
    case isTrue => exact .throw _
    case isFalse =>
      split
      case isTrue => exact .throw _
      case isFalse fresh =>
        refine Access.Steady.bind ?_ fun _ _ => ?_
        · exact packFields_of_parts Access.Steady.compositional (members t found fresh)
        · dsimp only
          split <;> rfl

theorem compute_steady (u : Universe p types) (mem : ty ∈ TypeRef.refsAll types)
    (leads : ∀ n, ty.base? = some n → ∀ m ∈ V, TransGen (Holds p) m n) :
    Access.Steady overrides (Fitting p overrides types) (Layouts.compute p V ty) := by
  induction V, ty using layout_induction p
  case leaf V ty element struct =>
    refine u.compute_steady_of_derive mem leads ?_
    cases ty
    case array  => cases element
    case struct => cases struct
    all_goals rw [Layouts.derive]
    case primitive | enum => split <;> rfl
    case void | object    => rfl
  case array hi =>
    refine u.compute_steady_of_derive mem leads ?_
    rw [Layouts.derive]
    exact hi (element_mem mem) leads
  case struct V name args hi =>
    refine u.compute_steady_of_derive mem leads (derive_struct_steady fun t found fresh f mem => ?_)
    refine hi t found fresh _ (u.member_mem (Program.mem_of_type? found) mem) ?_
    intro n inner m hm
    have holds : Holds p name n :=
      ⟨t, found, f, mem, TypeRef.base?_elementOrSelf.symm.trans inner⟩
    cases hm
    case head    => exact .single holds
    case tail hm => exact .tail (leads name rfl m hm) holds

-- A steady computation has the outcome that it has by itself on all layouts that fit.
theorem run_steady {x : Access α} {l : Layouts} (u : Universe p types)
    (s : x.Steady overrides (Fitting p overrides types))
    (h : l.Fit overrides (Fitting p overrides types)) :
    outcome (x.run l) = x.alone overrides ∧
    (leftover (x.run l)).Fit overrides (Fitting p overrides types) :=
  Access.Yields.run u.fitting_unique s h

theorem outcome_footprintOf {l : Layouts} (u : Universe p types) (mem : ty ∈ TypeRef.refsAll types)
    (h : l.Fit overrides (Fitting p overrides types)) :
    outcome (Layouts.footprintOf p ty l) = measure p overrides [] ty :=
  (u.run_steady (u.compute_steady mem (by simp)) h).left

end Universe

variable {types : List TypeRef}

-- Layouts in which each entry is the footprint that a type of that name has on empty layouts.
def Layouts.Faithful (p : Program) (types : List TypeRef) (l : Layouts) : Prop :=
  ∀ entry ∈ l.known, (∃ ty ∈ TypeRef.refsAll types, ty.name = entry.1) ∧
    ∀ ty ∈ TypeRef.refsAll types, ty.name = entry.1 →
      outcome (footprintOf p ty { overrides := l.overrides }) = .ok entry.2

theorem Layouts.Fit.faithful {l : Layouts} (h : l.Fit overrides (Fitting p overrides types))
    (u : Universe p types) : l.Faithful p types := by
  intro entry mem
  have fit := h.known entry mem
  refine ⟨have ⟨ty, hty, same, _⟩ := fit; ⟨ty, hty, same⟩, fun ty hty same => ?_⟩
  rw [h.overrides_eq]
  exact (u.outcome_footprintOf hty (.empty _)).trans (u.measure_of_fitting hty (same ▸ fit))

theorem Layouts.Faithful.fit {l : Layouts} (h : l.Faithful p types) (u : Universe p types) :
    l.Fit l.overrides (Fitting p l.overrides types) where
  overrides_eq := rfl
  known entry mem := by
    have ⟨⟨ty, hty, same⟩, all⟩ := h entry mem
    exact ⟨ty, hty, same, (u.outcome_footprintOf hty (.empty _)).symm.trans (all ty hty same)⟩

end Shading
