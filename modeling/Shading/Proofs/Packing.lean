import Shading.Structure
import Shading.Proofs.Accesses
import Mathlib
/-!
Packing the fields of a structure, in terms of the footprints of what the fields hold.
-/

namespace Shading

variable {overrides : List (String × Nat)} {fits : String → Footprint → Prop} {owner : String}
  {f : FieldDecl} {fs : List FieldDecl} {k k' : Packer} {fields : List Field}

section Access

variable {footprintOf : TypeRef → Access Footprint}

theorem alone_fieldFootprint :
    (fieldFootprint footprintOf owner f).alone overrides =
    fieldFootprint (fun ty => (footprintOf ty).alone overrides) owner f := by
  simp only [fieldFootprint]
  split
  case h_1 => rw [Access.alone_bind]; rfl
  case h_2 =>
    split
    case h_1 | h_2 => rfl
    case h_3 =>
      rw [Access.alone_bind]
      congr 1
      funext one
      cases one.array? _ <;> rfl

theorem alone_packFields :
    (packFields footprintOf owner fs k).alone overrides =
    packFields (fun ty => (footprintOf ty).alone overrides) owner fs k := by
  induction fs generalizing k
  case nil => rfl
  case cons f fs hi =>
    simp only [packFields, Access.alone_bind, Access.alone_locating, alone_fieldFootprint]
    congr 1
    funext (footprint, count)
    cases k.push? footprint
    case none => rfl
    case some => simp only [Access.alone_bind, hi]; rfl

theorem run_fieldFootprint :
    (fieldFootprint footprintOf owner f).run =
    fieldFootprint (fun ty => (footprintOf ty).run) owner f := by
  simp only [fieldFootprint]
  split
  case h_1 => exact Access.run_bind ..
  case h_2 =>
    split
    case h_1 | h_2 => rfl
    case h_3 =>
      rw [Access.run_bind]
      congr 1
      funext one
      cases one.array? _ <;> rfl

variable {P : {α : Type} → Access α → Prop}

-- A field only asks for the footprint of its type or, for an array, of its element type.
theorem fieldFootprint_of_parts (c : Access.Compositional P) (owner : String)
    (h : P (footprintOf f.ty.elementOrSelf)) : P (fieldFootprint footprintOf owner f) := by
  simp only [fieldFootprint]
  simp only [TypeRef.elementOrSelf] at h
  split
  case h_1 none => rw [none] at h; exact c.bind h fun _ => c.pure _
  case h_2 some =>
    rw [some] at h
    split
    case h_1 | h_2 => exact c.uncounted _ _
    case h_3 =>
      refine c.bind h fun one => ?_
      split
      case h_1 => exact c.oversized _
      case h_2 => exact c.pure _

theorem packFields_of_parts (c : Access.Compositional P)
    (h : ∀ f ∈ fs, P (footprintOf f.ty.elementOrSelf)) :
    P (packFields footprintOf owner fs k) := by
  induction fs generalizing k
  case nil => exact c.pure _
  case cons f fs hi =>
    have first := fieldFootprint_of_parts c owner (h f List.mem_cons_self)
    refine c.bind (c.locating f.location first) fun (footprint, count) => ?_
    dsimp only
    split
    case h_1 => exact c.oversized _
    case h_2 => exact c.bind (hi fun f mem => h f (List.mem_cons_of_mem _ mem)) fun _ => c.pure _

theorem describe_of_parts {p : Program} {t : TypeDecl} (c : Access.Compositional P)
    (fields : ∀ f ∈ t.instanceFields, P (Layouts.compute p [] f.ty.elementOrSelf))
    (whole : P (Layouts.compute p [] t.structRef)) : P (Structure.describe p t) :=
  c.bind (packFields_of_parts c fields) fun _ => c.bind whole fun _ => c.pure _

theorem eq_of_addressable? {n m : Nat} (h : addressable? n = some m) : m = n := by
  simp only [addressable?, Option.ite_none_right_eq_some, Option.some.injEq] at h
  exact h.right.symm

-- Where a field is placed, and the packer after it.
theorem push?_eq_some {all : Footprint} {offset : Offset}
    (push : k.push? all = some (offset, k')) :
    (offset.host = k.host + padding k.host all.hostAlignment) ∧
    (offset.device = k.device + padding k.device all.deviceAlignment) ∧
    k' = {
      host            := offset.host + all.hostSize
      device          := offset.device + all.deviceSize
      hostAlignment   := max k.hostAlignment all.hostAlignment
      deviceAlignment := max k.deviceAlignment all.deviceAlignment
      aligned         := k.aligned && offset.host == offset.device } := by
  simp only [Packer.push?, Option.bind_eq_bind, Option.bind_eq_some_iff] at push
  obtain ⟨host, h, device, h', hostEnd, stop, deviceEnd, stop', push⟩ := push
  cases push
  cases eq_of_addressable? stop
  cases eq_of_addressable? stop'
  exact ⟨eq_of_addressable? h, eq_of_addressable? h', rfl⟩

theorem aligned_of_push? {all : Footprint} {offset : Offset}
    (push : k.push? all = some (offset, k')) (h : k'.aligned) :
    k.aligned ∧ offset.host = offset.device := by
  rw [(push?_eq_some push).right.right] at h
  simpa using h

-- The fields that are returned stand for those that were given, in order. If the packer has seen no
-- difference then there is none.
theorem packFields_ensures :
    (packFields footprintOf owner fs k).Ensures fun (fields, k') =>
      (fields.map Field.ty = fs.map FieldDecl.ty) ∧
      (k'.aligned → k.aligned ∧
        ∀ offset ∈ k.offsets (fields.map Field.footprint), offset.host = offset.device) := by
  induction fs generalizing k
  case nil => exact ⟨rfl, fun h => ⟨h, nofun⟩⟩
  case cons f fs hi =>
    refine Access.Ensures.bind (.intro fun _ => trivial) fun (footprint, count) _ => ?_
    dsimp only
    split
    case h_1 => trivial
    case h_2 offset k₁ push =>
      refine hi.bind fun (fields, k') ⟨types, aligned⟩ => ⟨by simp [types], fun h => ?_⟩
      have ⟨h, rest⟩ := aligned h
      have ⟨h, first⟩ := aligned_of_push? push h
      refine ⟨h, ?_⟩
      simpa [Packer.offsets, push, first] using rest

theorem describe_ensures {p : Program} {t : TypeDecl} :
    (Structure.describe p t).Ensures fun s =>
      (s.val.fields.map Field.ty = t.instanceFields.map FieldDecl.ty) ∧
      (s.val.agrees → ∀ offset ∈ s.val.offsets, offset.host = offset.device) := by
  refine packFields_ensures.bind fun (fields, k) ⟨types, aligned⟩ => ?_
  refine Access.Ensures.bind (.intro fun _ => trivial) fun footprint _ => ⟨types, fun h => ?_⟩
  exact (aligned (Bool.and_eq_true_iff.mp h).left).right

end Access

section Except

variable {g g' : TypeRef → Except Error Footprint} {all : Footprint} {count : Nat}

theorem bind_eq_ok_iff {x : Except ε α} {next : α → Except ε β} {b : β} :
    (x >>= next) = .ok b ↔ ∃ a, x = .ok a ∧ next a = .ok b := by
  cases x
  case ok a    => exact ⟨fun h => ⟨a, rfl, h⟩, fun ⟨_, h, h'⟩ => by cases h; exact h'⟩
  case error e => exact ⟨nofun, fun ⟨_, h, _⟩ => by cases h⟩

theorem list_mapM_eq_ok_iff {f : α → Except ε β} {as : List α} {bs : List β} :
    as.mapM f = .ok bs ↔ as.Forall₂ (fun a b => f a = .ok b) bs := by
  induction as generalizing bs
  case nil =>
    constructor
    · intro h
      cases h
      exact .nil
    · rintro ⟨⟩
      rfl
  case cons a as hi =>
    rw [List.mapM_cons, bind_eq_ok_iff]
    constructor
    · rintro ⟨b, first, h⟩
      have ⟨bs, rest, h⟩ := bind_eq_ok_iff.mp h
      cases h
      exact .cons first (hi.mp rest)
    · rintro (_ | ⟨first, rest⟩)
      exact ⟨_, first, bind_eq_ok_iff.mpr ⟨_, hi.mpr rest, rfl⟩⟩

theorem exists_right_of_mem {R : α → β → Prop} {as : List α} {bs : List β} {a : α}
    (related : as.Forall₂ R bs) (mem : a ∈ as) : ∃ b ∈ bs, R a b := by
  induction related
  case nil => cases mem
  case cons a' b as bs first _ hi =>
    rcases List.mem_cons.mp mem with rfl | mem
    · exact ⟨b, List.mem_cons_self, first⟩
    · have ⟨b', mem', h⟩ := hi mem
      exact ⟨b', List.mem_cons_of_mem b mem', h⟩

theorem exists_left_of_mem {R : α → β → Prop} {as : List α} {bs : List β} {b : β}
    (related : as.Forall₂ R bs) (mem : b ∈ bs) : ∃ a ∈ as, R a b :=
  exists_right_of_mem related.flip mem

theorem exists_forall₂_iff {R : α → β → Prop} {as : List α} :
    (∃ bs, as.Forall₂ R bs) ↔ ∀ a ∈ as, ∃ b, R a b := by
  constructor
  · rintro ⟨bs, related⟩ a mem
    have ⟨b, _, h⟩ := exists_right_of_mem related mem
    exact ⟨b, h⟩
  · intro each
    induction as
    case nil => exact ⟨[], .nil⟩
    case cons a as hi =>
      have ⟨b, first⟩ := each a List.mem_cons_self
      have ⟨bs, rest⟩ := hi fun a' mem => each a' (List.mem_cons_of_mem a mem)
      exact ⟨b :: bs, .cons first rest⟩

theorem map_eq_map_of_forall₂ {R : α → β → Prop} {f : α → γ} {g : β → γ} {as : List α} {bs : List β}
    (related : as.Forall₂ R bs) (same : ∀ a b, R a b → g b = f a) : bs.map g = as.map f := by
  rw [← List.forall₂_eq_eq_eq, List.forall₂_map_left_iff, List.forall₂_map_right_iff]
  exact (related.imp same).flip

theorem mapError_eq_ok_iff {x : Except ε α} {g : ε → ε'} {a : α} :
    x.mapError g = .ok a ↔ x = .ok a := by
  cases x
  case ok    => simp [Except.mapError]
  case error => exact ⟨nofun, nofun⟩

theorem locating_eq_ok_iff {location : Option Location} {x : Except Error α} {a : α} :
    locating location x = .ok a ↔ x = .ok a := by
  cases x
  case ok    => rfl
  case error => exact ⟨nofun, nofun⟩

-- What a field occupies if the footprints of types are given by `g`.
inductive Occupies (g : TypeRef → Except Error Footprint) (f : FieldDecl) : Footprint → Nat → Prop
  | single {one} : (f.ty.element? = none) → (g f.ty = .ok one) → Occupies g f one 0
  | array {element one all count} :
    (f.ty.element? = some element) → (f.arraySize = some count) → (0 < count) →
    (g element = .ok one) → (one.array? count = some all) → Occupies g f all count

theorem fieldFootprint_eq_ok_iff :
    fieldFootprint g owner f = .ok (all, count) ↔ Occupies g f all count := by
  simp only [fieldFootprint]
  constructor
  case mp =>
    intro h
    split at h
    case h_1 single =>
      have ⟨_, one, h⟩ := bind_eq_ok_iff.mp h
      cases h
      exact .single single one
    case h_2 element array =>
      split at h
      case h_1 | h_2 => cases h
      case h_3 n positive size =>
        have ⟨_, one, h⟩ := bind_eq_ok_iff.mp h
        split at h <;> cases h
        exact .array array size (Nat.pos_of_ne_zero positive) one ‹_›
  case mpr =>
    rintro (⟨single, one⟩ | ⟨array, size, positive, one, total⟩)
    case single => rw [single]; simp only [one]; rfl
    case array =>
      obtain ⟨n, rfl⟩ := Nat.exists_eq_succ_of_ne_zero (Nat.ne_of_gt positive)
      rw [array, size]
      simp only [one, bind, Except.bind, total]
      rfl

theorem Occupies.exists_footprint (o : Occupies g f all count) :
    ∃ one, g f.ty.elementOrSelf = .ok one := by
  simp only [TypeRef.elementOrSelf]
  rcases o with ⟨single, one⟩ | ⟨array, _, _, one, _⟩
  case single => rw [single]; exact ⟨_, one⟩
  case array  => rw [array]; exact ⟨_, one⟩

theorem Occupies.mono (o : Occupies g f all count)
    (h : ∀ one, g f.ty.elementOrSelf = .ok one → g' f.ty.elementOrSelf = .ok one) :
    Occupies g' f all count := by
  simp only [TypeRef.elementOrSelf] at h
  rcases o with ⟨single, one⟩ | ⟨array, size, positive, one, total⟩
  case single => rw [single] at h; exact .single single (h _ one)
  case array  => rw [array] at h; exact .array array size positive (h _ one) total

theorem packFields_cons_eq_ok_iff :
    packFields g owner (f :: fs) k = .ok (fields, k') ↔
    ∃ all count offset k₁ rest, Occupies g f all count ∧ k.push? all = some (offset, k₁) ∧
      packFields g owner fs k₁ = .ok (rest, k') ∧
      fields = ⟨f.name, f.ty, f.semantic, count, all⟩ :: rest := by
  rw [packFields, bind_eq_ok_iff]
  constructor
  case mp =>
    rintro ⟨⟨all, count⟩, o, h⟩
    have o := fieldFootprint_eq_ok_iff.mp (locating_eq_ok_iff.mp o)
    dsimp only at h
    split at h
    case h_1 => cases h
    case h_2 offset k₁ push =>
      have ⟨_, packed, h⟩ := bind_eq_ok_iff.mp h
      cases h
      exact ⟨_, _, _, _, _, o, push, packed, rfl⟩
  case mpr =>
    rintro ⟨all, count, offset, k₁, rest, o, push, packed, rfl⟩
    refine ⟨_, locating_eq_ok_iff.mpr (fieldFootprint_eq_ok_iff.mpr o), ?_⟩
    simp only [push, packed]
    rfl

theorem exists_occupies_of_packFields (h : packFields g owner fs k = .ok (fields, k'))
    (mem : f ∈ fs) : ∃ all count, Occupies g f all count := by
  induction fs generalizing k fields
  case nil => cases mem
  case cons hi =>
    have ⟨all, count, _, _, _, o, _, packed, _⟩ := packFields_cons_eq_ok_iff.mp h
    cases mem
    case head     => exact ⟨all, count, o⟩
    case tail mem => exact hi packed mem

theorem exists_footprint_of_packFields (h : packFields g owner fs k = .ok (fields, k'))
    (mem : f ∈ fs) : ∃ one, g f.ty.elementOrSelf = .ok one :=
  have ⟨_, _, o⟩ := exists_occupies_of_packFields h mem
  o.exists_footprint

-- Packing that has succeeded is not changed by footprints that were not there before.
theorem packFields_mono (h : packFields g owner fs k = .ok (fields, k'))
    (more : ∀ f ∈ fs, ∀ one, g f.ty.elementOrSelf = .ok one → g' f.ty.elementOrSelf = .ok one) :
    packFields g' owner fs k = .ok (fields, k') := by
  induction fs generalizing k fields
  case nil => exact h
  case cons f fs hi =>
    have ⟨_, _, _, _, _, o, push, packed, h⟩ := packFields_cons_eq_ok_iff.mp h
    refine packFields_cons_eq_ok_iff.mpr ⟨_, _, _, _, _, ?_, push, ?_, h⟩
    · exact o.mono (more f List.mem_cons_self)
    · exact hi packed fun f mem => more f (List.mem_cons_of_mem _ mem)

end Except
end Shading
