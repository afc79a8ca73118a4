import Shading.Proofs.Widening
import Mathlib
/-!
Where packing puts the members of a structure.

On the host as well as on the device, each member starts at the first place that its alignment
admits.
-/

namespace Shading

-- What a part takes up on one side.
structure Extent where
  size      : Nat
  alignment : Nat

-- Parts that follow each other from one place to another, with the places where they start: each at
-- the first multiple of its alignment that is not before the end of the previous part.
inductive Placed : Nat → List Extent → List Nat → Nat → Prop
  | nil {start} : Placed start [] [] start
  | cons {start stop offset part parts offsets} :
    (IsLeast { n | part.alignment ∣ n ∧ start ≤ n } offset) →
    (Placed (offset + part.size) parts offsets stop) →
    Placed start (part :: parts) (offset :: offsets) stop

namespace Placed

variable {start stop : Nat} {parts : List Extent} {offsets : List Nat}

theorem length_eq (h : Placed start parts offsets stop) : offsets.length = parts.length := by
  induction h
  case nil     => rfl
  case cons hi => simpa using hi

theorem le_of_mem (h : Placed start parts offsets stop) : ∀ offset ∈ offsets, start ≤ offset := by
  induction h
  case nil => exact nofun
  case cons first _ hi =>
    rintro offset (_ | ⟨_, mem⟩)
    case head => exact first.left.right
    case tail => exact first.left.right.trans ((Nat.le_add_right ..).trans (hi offset mem))

theorem aligned (h : Placed start parts offsets stop) :
    ∀ m ∈ offsets.zip parts, m.2.alignment ∣ m.1 := by
  induction h
  case nil => exact nofun
  case cons first _ hi =>
    rintro m (_ | ⟨_, mem⟩)
    case head => exact first.left.left
    case tail => exact hi m mem

theorem disjoint (h : Placed start parts offsets stop) :
    (offsets.zip parts).Pairwise fun m m' => m.1 + m.2.size ≤ m'.1 := by
  induction h
  case nil => exact .nil
  case cons rest hi =>
    refine .cons (fun m mem => ?_) hi
    exact rest.le_of_mem m.1 (List.of_mem_zip mem).left

-- Nothing follows the last part.
theorem ends (h : Placed start parts offsets stop) (filled : parts ≠ []) :
    (offsets.zip parts).getLast?.map (fun m => m.1 + m.2.size) = some stop := by
  induction h
  case nil => exact absurd rfl filled
  case cons rest hi =>
    cases rest
    case nil  => rfl
    case cons => exact hi (List.cons_ne_nil _ _)

end Placed

inductive Side
  | host
  | device

namespace Side

def size : Side → Footprint → Nat
  | host   => Footprint.hostSize
  | device => Footprint.deviceSize

def alignment : Side → Footprint → Nat
  | host   => Footprint.hostAlignment
  | device => Footprint.deviceAlignment

def extent (side : Side) (f : Footprint) : Extent :=
  ⟨side.size f, side.alignment f⟩

def offset : Side → Offset → Nat
  | host   => Offset.host
  | device => Offset.device

def position : Side → Packer → Nat
  | host   => Packer.host
  | device => Packer.device

end Side

-- A run of the packer over the footprints of fields.
inductive Packs : Packer → List Footprint → List Offset → Packer → Prop
  | nil {k} : Packs k [] [] k
  | cons {k k₁ k' f fs offset offsets} :
    (k.push? f = some (offset, k₁)) → (Packs k₁ fs offsets k') →
    Packs k (f :: fs) (offset :: offsets) k'

variable {p : Program} {overrides : List (String × Nat)} {V : List String} {ty : TypeRef}
  {f : Footprint} {fs : List Footprint} {k k' : Packer} {offset : Offset} {offsets : List Offset}
  {side : Side}

-- The padding is the least that brings the start of a field to a multiple of its alignment.
theorem isLeast_padding {start alignment : Nat} (positive : 0 < alignment) :
    IsLeast { n | alignment ∣ n ∧ start ≤ n } (start + padding start alignment) := by
  have bound := Nat.mod_lt start positive
  have short : padding start alignment < alignment := by
    rw [padding, if_neg (Nat.ne_of_gt positive)]
    exact Nat.mod_lt _ positive
  have multiple : alignment ∣ start + padding start alignment := by
    rw [padding, if_neg (Nat.ne_of_gt positive), Nat.dvd_iff_mod_eq_zero, Nat.add_mod_mod,
      ← Nat.mod_add_mod, Nat.add_sub_of_le bound.le, Nat.mod_self]
  refine ⟨⟨multiple, Nat.le_add_right ..⟩, fun n ⟨multiple', le⟩ => ?_⟩
  -- Two multiples differ by at least the alignment.
  by_contra later
  have apart := Nat.le_of_dvd (Nat.sub_pos_of_lt (not_le.mp later)) (Nat.dvd_sub multiple multiple')
  omega

theorem isLeast_of_push? (push : k.push? f = some (offset, k')) (positive : 0 < side.alignment f) :
    IsLeast { n | side.alignment f ∣ n ∧ side.position k ≤ n } (side.offset offset) := by
  have ⟨host, device, _⟩ := push?_eq_some push
  cases side
  case host   => rw [Side.offset, host]; exact isLeast_padding positive
  case device => rw [Side.offset, device]; exact isLeast_padding positive

theorem position_of_push? (push : k.push? f = some (offset, k')) :
    side.position k' = side.offset offset + side.size f := by
  rw [(push?_eq_some push).right.right]
  cases side <;> rfl

theorem alignment_of_push? (push : k.push? f = some (offset, k')) :
    side.alignment k'.footprint = max (side.alignment k.footprint) (side.alignment f) := by
  rw [(push?_eq_some push).right.right]
  cases side <;> rfl

theorem alignment_empty (side : Side) : side.alignment ({} : Packer).footprint = 1 := by
  cases side <;> rfl

namespace Packs

theorem placed (h : Packs k fs offsets k') (positive : ∀ f ∈ fs, 0 < side.alignment f) :
    Placed (side.position k) (fs.map side.extent) (offsets.map side.offset) (side.position k') := by
  induction h
  case nil => exact .nil
  case cons push _ hi =>
    have rest := hi fun f mem => positive f (List.mem_cons_of_mem _ mem)
    refine .cons (isLeast_of_push? push (positive _ List.mem_cons_self)) ?_
    exact position_of_push? push ▸ rest

theorem alignment (h : Packs k fs offsets k') :
    side.alignment k'.footprint =
    (fs.map side.alignment).foldl max (side.alignment k.footprint) := by
  induction h
  case nil            => rfl
  case cons push _ hi => rw [hi, alignment_of_push? push]; rfl

theorem alignment_le (h : Packs k fs offsets k') :
    side.alignment k.footprint ≤ side.alignment k'.footprint := by
  induction h
  case nil            => exact le_rfl
  case cons push _ hi => exact le_trans (alignment_of_push? push ▸ le_max_left ..) hi

theorem alignment_pos (h : Packs {} fs offsets k') : 0 < side.alignment k'.footprint :=
  (alignment_empty side).symm.trans_le h.alignment_le

-- The alignment that packing starts with never counts.
theorem max?_alignment (h : Packs {} fs offsets k') (filled : fs ≠ [])
    (positive : ∀ f ∈ fs, 0 < side.alignment f) :
    (fs.map side.alignment).max? = some (side.alignment k'.footprint) := by
  obtain ⟨f, fs, rfl⟩ := List.exists_cons_of_ne_nil filled
  have first := positive f List.mem_cons_self
  rw [h.alignment, List.map_cons, List.max?_cons', List.foldl_cons, alignment_empty,
    max_eq_right first]

theorem aligned_iff (h : Packs k fs offsets k') :
    k'.aligned ↔ k.aligned ∧ ∀ offset ∈ offsets, offset.host = offset.device := by
  induction h
  case nil => simp
  case cons push _ hi =>
    rw [hi, (push?_eq_some push).right.right]
    simp [and_assoc]

end Packs

section Members

variable {g : TypeRef → Except Error Footprint} {owner : String} {ds : List FieldDecl}
  {d : FieldDecl} {fields : List Field}

theorem packs_of_packFields (h : packFields g owner ds k = .ok (fields, k')) :
    Packs k (fields.map Field.footprint) (k.offsets (fields.map Field.footprint)) k' := by
  induction ds generalizing k fields
  case nil => cases h; exact .nil
  case cons hi =>
    have ⟨_, _, _, _, _, _, push, packed, h⟩ := packFields_cons_eq_ok_iff.mp h
    cases h
    rw [List.map_cons, Packer.offsets, push]
    exact .cons push (hi packed)

-- A member stands for a field, and takes up what the field does.
structure Stands (g : TypeRef → Except Error Footprint) (owner : String) (d : FieldDecl)
    (m : Field) : Prop where
  name      : m.name = d.name
  ty        : m.ty = d.ty
  semantic  : m.semantic = d.semantic
  footprint : fieldFootprint g owner d = .ok (m.footprint, m.count)

theorem stands_of_packFields (h : packFields g owner ds k = .ok (fields, k')) :
    List.Forall₂ (Stands g owner) ds fields := by
  induction ds generalizing k fields
  case nil => cases h; exact .nil
  case cons hi =>
    have ⟨_, _, _, _, _, o, _, packed, h⟩ := packFields_cons_eq_ok_iff.mp h
    cases h
    exact .cons ⟨rfl, rfl, rfl, fieldFootprint_eq_ok_iff.mpr o⟩ (hi packed)

theorem alignment_of_array? {one all : Footprint} {count : Nat} (h : one.array? count = some all) :
    side.alignment all = side.alignment one := by
  simp only [Footprint.array?, Option.bind_eq_bind, Option.bind_eq_some_iff] at h
  obtain ⟨_, _, _, _, h⟩ := h
  cases h
  cases side <;> rfl

theorem Occupies.alignment_pos {all : Footprint} {count : Nat} (o : Occupies g d all count)
    (positive : ∀ ty one, g ty = .ok one → 0 < side.alignment one) : 0 < side.alignment all := by
  rcases o with ⟨_, one⟩ | ⟨_, _, _, one, total⟩
  case single => exact positive _ _ one
  case array  => exact alignment_of_array? total ▸ positive _ _ one

theorem alignment_pos_of_packFields (positive : ∀ ty one, g ty = .ok one → 0 < side.alignment one)
    (h : packFields g owner ds k = .ok (fields, k')) :
    ∀ f ∈ fields.map Field.footprint, 0 < side.alignment f := by
  induction ds generalizing k fields
  case nil => cases h; exact nofun
  case cons hi =>
    have ⟨_, _, _, _, _, o, _, packed, h⟩ := packFields_cons_eq_ok_iff.mp h
    cases h
    exact List.forall_mem_cons.mpr ⟨o.alignment_pos positive, hi packed⟩

end Members

section Alignment

theorem builtin?_alignment_pos {name : String} (h : Footprint.builtin? name = some f) :
    0 < side.alignment f := by
  simp only [Footprint.builtin?] at h
  split at h <;> cases h <;> cases side <;> decide

-- A type without parts takes up what a builtin type does.
theorem exists_builtin?_of_measure (element : ty.element? = none) (struct : ty.isStruct = false)
    (h : measure p overrides V ty = .ok f) : ∃ name, Footprint.builtin? name = some f := by
  rw [measure_eq_derive] at h
  cases ty
  case array  => cases element
  case struct => cases struct
  case void | object => rw [Layouts.derive] at h; cases h
  case primitive name _ =>
    rw [Layouts.derive] at h
    split at h <;> cases h
    exact ⟨name, ‹_›⟩
  case enum underlying _ =>
    rw [Layouts.derive] at h
    split at h <;> cases h
    have integer : Footprint.integer? underlying.name = some f := ‹_›
    simp only [Footprint.integer?, Option.ite_none_right_eq_some] at integer
    exact ⟨underlying.name, integer.right⟩

theorem adjust_alignment_pos {name : String} (positive : ∀ o ∈ overrides, 0 < o.2)
    (h : ∀ side : Side, 0 < side.alignment f) :
    0 < side.alignment (Layouts.adjust { overrides } name f) := by
  simp only [Layouts.adjust]
  split
  case h_2 => exact h side
  case h_1 found =>
    obtain ⟨_, _, split, _⟩ := List.lookup_eq_some_iff.mp found
    cases side
    case host   => exact h .host
    case device => exact positive _ (split ▸ List.mem_append_right _ List.mem_cons_self)

-- All alignments are positive, if those that replace computed ones are.
theorem measure_alignment_pos (positive : ∀ o ∈ overrides, 0 < o.2)
    (h : measure p overrides V ty = .ok f) : 0 < side.alignment f := by
  induction V, ty using layout_induction p generalizing f
  case leaf element struct =>
    have ⟨_, builtin⟩ := exists_builtin?_of_measure element struct h
    exact builtin?_alignment_pos builtin
  case array hi => exact hi (measure_array ▸ h)
  case struct =>
    have ⟨_, _, _, _, h⟩ := measure_struct_eq_ok_iff.mp h
    have ⟨_, _, _, packed, total⟩ := alone_deriveStruct_eq_ok_iff.mp h
    cases total
    exact adjust_alignment_pos positive fun side => (packs_of_packFields packed).alignment_pos

end Alignment

namespace Structure

-- What the members take up on one side.
def extents (s : Structure) (side : Side) : List Extent :=
  s.fields.map fun m => side.extent m.footprint

-- The members on one side, with where they start.
def spans (s : Structure) (side : Side) : List (Nat × Extent) :=
  (s.offsets.map side.offset).zip (s.extents side)

-- A structure whose members are packed in order. It is aligned as the member with the greatest
-- alignment, unless the alignment on the device is replaced.
structure Packed (s : Structure) (replaced : Option Nat) : Prop where
  count    : s.offsets.length = s.fields.length
  placed   : ∀ side,
    Placed 0 (s.extents side) (s.offsets.map side.offset) (side.size s.footprint)
  aligned  : ∀ side, ∀ m ∈ s.spans side, m.2.alignment ∣ m.1
  disjoint : ∀ side, (s.spans side).Pairwise fun m m' => m.1 + m.2.size ≤ m'.1
  ends     : ∀ side,
    (s.spans side).getLast?.map (fun m => m.1 + m.2.size) = some (side.size s.footprint)
  greatest : ((s.extents .host).map Extent.alignment).max? = some s.footprint.hostAlignment
  replaced : replaced.or ((s.extents .device).map Extent.alignment).max? =
    some s.footprint.deviceAlignment
  agrees   : s.agrees ↔
    (∀ o ∈ s.offsets, o.host = o.device) ∧ s.footprint.hostSize = s.footprint.deviceSize

end Structure

variable {s : Structure} {g : TypeRef → Except Error Footprint}

theorem size_adjust {l : Layouts} {name : String} : side.size (l.adjust name f) = side.size f := by
  cases side
  case host   => exact adjust_sizes.left
  case device => exact adjust_sizes.right

theorem alignments_adjust {name : String} :
    (Layouts.adjust { overrides } name f).hostAlignment = f.hostAlignment ∧
    (Layouts.adjust { overrides } name f).deviceAlignment =
      (overrides.lookup name).getD f.deviceAlignment := by
  cases h : overrides.lookup name <;> simp [Layouts.adjust, h]

theorem size_footprint : side.size k.footprint = side.position k := by
  cases side <;> rfl

theorem map_alignment_extents :
    (s.extents side).map Extent.alignment = (s.fields.map Field.footprint).map side.alignment := by
  simp [Structure.extents, Side.extent]

theorem packed_of_packFields {owner : String} {ds : List FieldDecl} {name : String}
    (packed : packFields g owner ds {} = .ok (s.fields, k)) (filled : ¬ds.isEmpty)
    (positive : ∀ (side : Side) ty one, g ty = .ok one → 0 < side.alignment one)
    (total : s.footprint = Layouts.adjust { overrides } name k.footprint)
    (agrees : s.agrees = k.agrees) : s.Packed (overrides.lookup name) := by
  have run : Packs {} (s.fields.map Field.footprint) s.offsets k := packs_of_packFields packed
  have pos (side : Side) := alignment_pos_of_packFields (positive side) packed
  have size (side : Side) : side.size s.footprint = side.position k := by
    rw [total, size_adjust, size_footprint]
  have placed (side : Side) :
      Placed 0 (s.extents side) (s.offsets.map side.offset) (side.size s.footprint) := by
    have placed := run.placed (pos side)
    rw [List.map_map] at placed
    rw [size]
    cases side <;> exact placed
  have filled : s.fields ≠ [] := by
    intro empty
    have same := (stands_of_packFields packed).length_eq
    rw [empty, List.length_nil, List.length_eq_zero_iff] at same
    exact filled (same ▸ rfl)
  have greatest (side : Side) := run.max?_alignment (by simpa using filled) (pos side)
  exact {
    count    := by simpa [Structure.extents] using (placed .host).length_eq
    placed   := placed
    aligned  := fun side => (placed side).aligned
    disjoint := fun side => (placed side).disjoint
    ends     := fun side => (placed side).ends (by simpa [Structure.extents] using filled)
    greatest := by
      rw [map_alignment_extents, greatest, total, alignments_adjust.left]
      rfl
    replaced := by
      rw [map_alignment_extents, greatest, total, alignments_adjust.right, Option.or_some]
      rfl
    agrees   := by
      have host : s.footprint.hostSize = k.host := size .host
      have device : s.footprint.deviceSize = k.device := size .device
      rw [agrees, host, device, Packer.agrees, Bool.and_eq_true_iff, run.aligned_iff, beq_iff_eq]
      simp
  }

end Shading
