import Shading.Proofs.CanonicalNames
import Shading.Proofs.Replay
import Mathlib
/-!
What layouts know about structures, whatever has been asked of them.

Where all references of a name are to a structure, the footprint that is known under the name has
been packed from footprints that are known as well. So nothing is embedded in itself there, even if
other names have been taken for something that they do not mean.
-/

open Relation

namespace Shading

section Retrieval

-- The footprint that layouts know under the name of a type.
def Layouts.retrieve (l : Layouts) (ty : TypeRef) : Except Error Footprint :=
  match l.known? ty.name with
  | some f => .ok f
  | none   => .error (.layout (.unknownType ty.name))

variable {p : Program} {V : List String} {l l' : Layouts} {ty : TypeRef} {one all : Footprint}
  {owner : String} {f : FieldDecl} {fs : List FieldDecl} {k k' : Packer} {fields : List Field}
  {count : Nat}

namespace Layouts

theorem retrieve_eq_ok_iff : l.retrieve ty = .ok one ↔ l.known? ty.name = some one := by
  rw [retrieve]
  cases l.known? ty.name <;> simp

theorem Grows.retrieve (g : l.Grows l') (h : l.retrieve ty = .ok one) : l'.retrieve ty = .ok one :=
  retrieve_eq_ok_iff.mpr (g.known (retrieve_eq_ok_iff.mp h))

theorem run_compute_of_retrieve (h : l.retrieve ty = .ok one) :
    (compute p V ty).run l = .ok one l := by
  rw [compute, Access.run, retrieve_eq_ok_iff.mp h]
  rfl

theorem retrieve_of_run_compute (h : (compute p V ty).run l = .ok one l') :
    l'.retrieve ty = .ok one :=
  retrieve_eq_ok_iff.mpr (known?_of_run_compute h)

-- What a field has been found to occupy is known from then on.
theorem occupies_of_run (h : (fieldFootprint (compute p V) owner f).run l = .ok (all, count) l') :
    Occupies l'.retrieve f all count := by
  simp only [fieldFootprint] at h
  split at h
  case h_1 single =>
    obtain ⟨_, _, found, h⟩ := Access.run_bind_eq_ok h
    cases h
    exact .single single (retrieve_of_run_compute found)
  case h_2 element array =>
    split at h
    case h_1 | h_2 => cases h
    case h_3 n positive size =>
      obtain ⟨_, _, found, h⟩ := Access.run_bind_eq_ok h
      split at h <;> cases h
      exact .array array size (Nat.pos_of_ne_zero positive) (retrieve_of_run_compute found) ‹_›

theorem packFields_retrieve
    (h : (packFields (compute p V) owner fs k).run l = .ok (fields, k') l') :
    packFields l'.retrieve owner fs k = .ok (fields, k') := by
  induction fs generalizing k fields l
  case nil =>
    cases h
    rfl
  case cons f fs hi =>
    obtain ⟨⟨all, count⟩, l₁, first, h⟩ := Access.run_bind_eq_ok h
    dsimp only at h
    split at h
    case h_1 => cases h
    case h_2 offset k₁ push =>
      obtain ⟨_, _, rest, h⟩ := Access.run_bind_eq_ok h
      cases h
      have occupies := occupies_of_run (Access.run_locating_eq_ok_iff.mp first)
      have grown := Access.grows_of_run rest
      exact packFields_cons_eq_ok_iff.mpr
        ⟨_, _, _, _, _, occupies.mono fun _ => grown.retrieve, push, hi rest, rfl⟩

theorem run_fieldFootprint_of_retrieve (h : Occupies l.retrieve f all count) :
    (fieldFootprint (compute p V) owner f).run l = .ok (all, count) l := by
  rcases h with ⟨single, found⟩ | ⟨array, size, positive, found, total⟩
  case single =>
    rw [fieldFootprint, single]
    exact Access.run_bind_of_ok (run_compute_of_retrieve found)
  case array =>
    obtain ⟨n, rfl⟩ := Nat.exists_eq_succ_of_ne_zero (Nat.ne_of_gt positive)
    rw [fieldFootprint, array, size]
    refine (Access.run_bind_of_ok (run_compute_of_retrieve found)).trans ?_
    rw [total]
    rfl

-- Members that are known are packed without a change to the layouts.
theorem run_packFields_of_retrieve (h : packFields l.retrieve owner fs k = .ok (fields, k')) :
    (packFields (compute p V) owner fs k).run l = .ok (fields, k') l := by
  induction fs generalizing k fields
  case nil =>
    cases h
    rfl
  case cons f fs hi =>
    obtain ⟨all, count, offset, k₁, rest, occupies, push, packed, rfl⟩ :=
      packFields_cons_eq_ok_iff.mp h
    have first : (fieldFootprint (compute p V) owner f).run l = .ok (all, count) l :=
      run_fieldFootprint_of_retrieve occupies
    refine (Access.run_bind_of_ok (Access.run_locating_eq_ok_iff.mpr first)).trans ?_
    dsimp only
    rw [push]
    exact Access.run_bind_of_ok (hi packed)

end Layouts
end Retrieval

variable {p : Program} {types : List TypeRef} {V : List String} {l l' : Layouts} {ty : TypeRef}
  {f : Footprint} {name : String} {t : TypeDecl}

-- A footprint under the name of a structure, and where it comes from.
structure Layouts.Composes (p : Program) (l : Layouts) (name : String) (f : Footprint) : Prop where
  packed  : ∃ t fields k, p.type? name = some t ∧ t.isObject = false ∧
    ¬t.instanceFields.isEmpty ∧
    packFields l.retrieve name t.instanceFields {} = .ok (fields, k) ∧
    f = l.adjust name k.footprint
  founded : Acc (flip (Embeds p)) name

-- All that is known about structures is composed of what is known.
def Layouts.Coherent (p : Program) (types : List TypeRef) (l : Layouts) : Prop :=
  ∀ name f, Structural types name → l.known? name = some f → l.Composes p name f

namespace Layouts

theorem Grows.adjust_eq (g : l.Grows l') : l'.adjust = l.adjust := by
  funext name f
  simp only [adjust, g.overrides_eq]

theorem Composes.mono (c : l.Composes p name f) (g : l.Grows l') : l'.Composes p name f := by
  obtain ⟨⟨t, fields, k, found, value, filled, packed, total⟩, founded⟩ := c
  refine ⟨⟨t, fields, k, found, value, filled, ?_, g.adjust_eq ▸ total⟩, founded⟩
  exact packFields_mono packed fun _ _ _ => g.retrieve

theorem Coherent.remember (h : l.Coherent p types)
    (new : Structural types name → l.Composes p name f) :
    (l.remember name f).2.Coherent p types := by
  intro other g structural known
  have grows := l.grows_remember name f
  rw [Layouts.remember] at known grows ⊢
  split at known
  case h_1 => exact h other g structural known
  case h_2 unknown =>
    simp only [unknown] at grows ⊢
    rw [known?, List.lookup_cons] at known
    split at known
    case h_1 same =>
      cases known
      cases eq_of_beq same
      exact (new structural).mono grows
    case h_2 => exact (h other g structural known).mono grows

end Layouts

namespace Access

-- What holds of the layouts before the computation holds of those that it leaves.
def Keeps (I : Layouts → Prop) (x : Access α) : Prop :=
  ∀ l, I l → I (leftover (x.run l))

namespace Keeps

variable {I : Layouts → Prop} {x : Access α} {k : α → Access β}

theorem done (r : Except Error α) : (Access.done r).Keeps I := by
  intro l holds
  cases r <;> exact holds

theorem bind_ensured {Q : α → Prop} (first : x.Keeps I) (ensured : x.Ensures Q)
    (next : ∀ a, Q a → (k a).Keeps I) : (x >>= k).Keeps I := by
  intro l holds
  have after := first l holds
  cases run : x.run l
  case ok a l' =>
    rw [run] at after
    rw [run_bind_of_ok run]
    exact next a (ensured.of_run run) l' after
  case error e l' =>
    rw [run] at after
    rw [run_bind_of_error run]
    exact after

theorem bind (first : x.Keeps I) (next : ∀ a, (k a).Keeps I) : (x >>= k).Keeps I :=
  first.bind_ensured (.intro fun _ => trivial) fun a (_ : True) => next a

theorem attempt (h : x.Keeps I) : x.attempt.Keeps I := by
  intro l holds
  rw [run_attempt]
  exact h l holds

theorem locating (location : Option Location) (h : x.Keeps I) :
    (locating location x).Keeps I :=
  h.attempt.bind fun r => by cases r <;> exact .done _

theorem compositional (I : Layouts → Prop) : Compositional (Keeps I) where
  pure _        := .done _
  uncounted _ _ := .done _
  oversized _   := .done _
  bind          := bind
  locating      := locating

end Keeps
end Access

-- A footprint that is derived is remembered if it was not known.
theorem compute_keeps {I : Layouts → Prop} (derived : (Layouts.derive p V ty).Keeps I)
    (new : ∀ l f l', (Layouts.derive p V ty).run l = .ok f l' → I l' →
      I (l'.remember ty.name f).2) : (Layouts.compute p V ty).Keeps I := by
  intro l holds
  rw [Layouts.compute, Access.run]
  cases l.known? ty.name
  case some => exact holds
  case none =>
    have after := derived l holds
    cases run : (Layouts.derive p V ty).run l
    case ok f l' =>
      rw [run] at after
      rw [Access.run_bind_of_ok run]
      exact new l f l' run after
    case error e l' =>
      rw [run] at after
      rw [Access.run_bind_of_error run]
      exact after

theorem derive_leaf_keeps {I : Layouts → Prop} (element : ty.element? = none)
    (struct : ty.isStruct = false) : (Layouts.derive p V ty).Keeps I := by
  cases ty
  case array  => cases element
  case struct => cases struct
  case void | object =>
    rw [Layouts.derive]
    exact .done _
  case primitive | enum =>
    rw [Layouts.derive]
    split <;> exact .done _

theorem derive_struct_keeps {I : Layouts → Prop} {args : List TypeRef}
    (members : ∀ t, p.type? name = some t → name ∉ V → ∀ f ∈ t.instanceFields,
      (Layouts.compute p (name :: V) f.ty.elementOrSelf).Keeps I) :
    (Layouts.derive p V (.struct name args)).Keeps I := by
  rw [derive_struct]
  split
  case h_1 => exact .done _
  case h_2 t found =>
    split
    case isTrue => exact .done _
    case isFalse =>
      split
      case isTrue => exact .done _
      case isFalse fresh =>
        have parts := Access.Keeps.compositional I
        refine (packFields_of_parts parts (members t found fresh)).bind fun _ => ?_
        dsimp only
        split
        case isTrue  => exact .done _
        case isFalse => exact fun l holds => holds

theorem run_deriveStruct_eq_ok (h : (deriveStruct p V name t).run l = .ok f l') :
    (¬t.instanceFields.isEmpty) ∧ ∃ fields k,
      packFields l'.retrieve name t.instanceFields {} = .ok (fields, k) ∧
      f = l'.adjust name k.footprint := by
  obtain ⟨⟨fields, k⟩, l₁, packed, h⟩ := Access.run_bind_eq_ok h
  dsimp only at h
  split at h
  case isTrue => cases h
  case isFalse filled =>
    cases h
    exact ⟨filled, fields, k, Layouts.packFields_retrieve packed, rfl⟩

theorem run_derive_struct_eq_ok {args : List TypeRef}
    (h : (Layouts.derive p V (.struct name args)).run l = .ok f l') :
    ∃ t, p.type? name = some t ∧ t.isObject = false ∧ name ∉ V ∧
      (deriveStruct p V name t).run l = .ok f l' := by
  rw [derive_struct] at h
  cases found : p.type? name
  case none =>
    rw [found] at h
    cases h
  case some t =>
    simp only [found] at h
    split at h
    case isTrue => cases h
    case isFalse value =>
      split at h
      case isTrue => cases h
      case isFalse fresh => exact ⟨t, rfl, by simpa using value, fresh, h⟩

namespace Universe

-- The structure is packed when the footprints of its members are known, and they are composed.
theorem composes_of_run (u : Universe p types) {args : List TypeRef}
    (h : (Layouts.derive p V (.struct name args)).run l = .ok f l')
    (coherent : l'.Coherent p types) : l'.Composes p name f := by
  obtain ⟨t, found, value, _, h⟩ := run_derive_struct_eq_ok h
  obtain ⟨filled, fields, k, packed, total⟩ := run_deriveStruct_eq_ok h
  refine ⟨⟨t, fields, k, found, value, filled, packed, total⟩, .intro name fun inner embeds => ?_⟩
  obtain ⟨t', found', member, mem, args', same⟩ := embeds
  cases found.symm.trans found'
  obtain ⟨g, one⟩ := exists_footprint_of_packFields packed mem
  have inside := u.member_mem (Program.mem_of_type? found) mem
  rw [same] at one inside
  have known := Layouts.retrieve_eq_ok_iff.mp one
  exact (coherent inner g (u.canonical.structural inside rfl) known).founded

-- A structure need not be among the types in question for that.
theorem compute_coherent (u : Universe p types)
    (mem : ty ∈ TypeRef.refsAll types ∨ ty.isStruct) :
    (Layouts.compute p V ty).Keeps (Layouts.Coherent p types) := by
  induction V, ty using layout_induction p
  case leaf V ty element struct =>
    refine compute_keeps (derive_leaf_keeps element struct) fun l f l' _ coherent => ?_
    have inside := mem.resolve_right (by simp [struct])
    exact coherent.remember fun structural =>
      absurd (structural ty inside rfl) (by simp [struct])
  case array V name element args hi =>
    have inside := mem.resolve_right (by simp [TypeRef.isStruct])
    refine compute_keeps ?_ fun l f l' _ coherent => coherent.remember fun structural => ?_
    case refine_1 =>
      rw [Layouts.derive]
      exact hi (.inl (element_mem inside))
    case refine_2 => exact absurd (structural _ inside rfl) (by simp [TypeRef.isStruct])
  case struct V name args hi =>
    refine compute_keeps ?_ fun l f l' run coherent => coherent.remember fun structural => ?_
    case refine_2 => exact u.composes_of_run run coherent
    case refine_1 =>
      refine derive_struct_keeps fun t found fresh member mem => ?_
      exact hi t found fresh _ (.inl (u.member_mem (Program.mem_of_type? found) mem))

-- Any declaration may be described, if its members are among the types in question.
theorem describe_coherent (u : Universe p types)
    (fields : ∀ member ∈ t.instanceFields, member.ty ∈ TypeRef.refsAll types) :
    (Structure.describe p t).Keeps (Layouts.Coherent p types) :=
  describe_of_parts (Access.Keeps.compositional _)
    (fun member mem => u.compute_coherent (.inl (elementOrSelf_mem (fields member mem))))
    (u.compute_coherent (.inr rfl))

end Universe

-- A structure that is known can be described again, and all its members are known.
theorem Layouts.Composes.exists_describe (c : l.Composes p name f) (known : l.known? name = some f)
    (found : p.type? name = some t) :
    (∃ d, (Structure.describe p t).run l = .ok d l) ∧
    ∀ member ∈ t.instanceFields, ∃ g, l.known? member.ty.elementOrSelf.name = some g := by
  obtain ⟨⟨_, fields, k, found', _, _, packed, _⟩, _⟩ := c
  cases found.symm.trans found'
  cases Program.name_eq_of_type? found
  have whole : (Layouts.compute p [] t.structRef).run l = .ok f l :=
    run_compute_of_retrieve (retrieve_eq_ok_iff.mpr known)
  refine ⟨⟨⟨⟨t.name, fields, f, k.agrees⟩, rfl⟩, ?_⟩, fun member mem => ?_⟩
  · refine (Access.run_bind_of_ok (run_packFields_of_retrieve packed)).trans ?_
    exact Access.run_bind_of_ok whole
  · obtain ⟨g, one⟩ := exists_footprint_of_packFields packed mem
    exact ⟨g, retrieve_eq_ok_iff.mp one⟩

-- What has been described is known, with its members.
theorem known_of_run_describe {d : { s : Structure // s.name = t.name }}
    (h : (Structure.describe p t).run l = .ok d l') :
    l'.known? t.name = some d.val.footprint ∧
    ∀ member ∈ t.instanceFields, ∃ g, l'.known? member.ty.elementOrSelf.name = some g := by
  obtain ⟨⟨fields, k⟩, l₁, packed, h⟩ := Access.run_bind_eq_ok h
  obtain ⟨f, l₂, whole, h⟩ := Access.run_bind_eq_ok h
  cases h
  refine ⟨known?_of_run_compute whole, fun member mem => ?_⟩
  obtain ⟨g, one⟩ := exists_footprint_of_packFields (Layouts.packFields_retrieve packed) mem
  exact ⟨g, (Access.grows_of_run whole).known (Layouts.retrieve_eq_ok_iff.mp one)⟩
end Shading
