import Shading.Proofs.RecursiveStructures
import Mathlib
/-!
Layouts in numbers without a bound.

The same packing can be done with sizes and offsets of any magnitude. A type has a footprint exactly
if it has one without the bound and if no size or offset on the way to it is beyond the addressable
range, and then the two are the same.
-/

open Relation

namespace Shading

-- The footprint of consecutive elements, however large they are together.
def Footprint.times (f : Footprint) (count : Nat) : Footprint :=
  { f with hostSize := f.hostSize * count, deviceSize := f.deviceSize * count }

namespace Packer

-- Where the next field starts.
def next (k : Packer) (f : Footprint) : Offset :=
  ⟨k.host + padding k.host f.hostAlignment, k.device + padding k.device f.deviceAlignment⟩

-- The packer after the next field, wherever that ends.
def place (k : Packer) (f : Footprint) : Packer where
  host            := (k.next f).host + f.hostSize
  device          := (k.next f).device + f.deviceSize
  hostAlignment   := max k.hostAlignment f.hostAlignment
  deviceAlignment := max k.deviceAlignment f.deviceAlignment
  aligned         := k.aligned && (k.next f).host == (k.next f).device

end Packer

-- How often a field repeats its element, which an array field has to say.
def FieldDecl.repeats? (f : FieldDecl) : Option Nat :=
  match f.ty.element? with
  | none   => some 1
  | some _ => f.arraySize.filter (0 < ·)

-- The footprint that a type has without a bound.
inductive Spans (p : Program) (overrides : List (String × Nat)) : TypeRef → Footprint → Prop
  | primitive {name args f} : (Footprint.builtin? name = some f) →
    Spans p overrides (.primitive name args) f
  | enum {name underlying args f} : (Footprint.integer? underlying.name = some f) →
    Spans p overrides (.enum name underlying args) f
  | array {name element args f} : (Spans p overrides element f) →
    Spans p overrides (.array name element args) f
  | struct {name args t} {one : FieldDecl → Footprint} {count : FieldDecl → Nat} :
    (p.type? name = some t) → (t.isObject = false) → (t.instanceFields ≠ []) →
    (∀ f ∈ t.instanceFields, Spans p overrides f.ty.elementOrSelf (one f)) →
    (∀ f ∈ t.instanceFields, f.repeats? = some (count f)) →
    Spans p overrides (.struct name args) (Layouts.adjust { overrides } name
      ((t.instanceFields.map fun f => (one f).times (count f)).foldl Packer.place {}).footprint)

-- What a field takes up without a bound.
def Takes (p : Program) (overrides : List (String × Nat)) (f : FieldDecl) (all : Footprint) :
    Prop :=
  ∃ one count, Spans p overrides f.ty.elementOrSelf one ∧ f.repeats? = some count ∧
    all = one.times count

-- The size of a field, or the place where it starts or ends, is beyond the addressable range.
def Beyond (k : Packer) (all : Footprint) (side : Side) : Prop :=
  addressLimit ≤ side.size all ∨ addressLimit ≤ side.offset (k.next all) ∨
    addressLimit ≤ side.position (k.place all)

-- One of the fields is beyond the range when they are placed one after the other. Fields that
-- follow it, and that need not take up anything, make the structure no smaller.
inductive Overruns (p : Program) (overrides : List (String × Nat)) : List FieldDecl → Packer → Prop
  | here {f fs k all side} : (Takes p overrides f all) → (Beyond k all side) →
    Overruns p overrides (f :: fs) k
  | later {f fs k all} : (Takes p overrides f all) → (Overruns p overrides fs (k.place all)) →
    Overruns p overrides (f :: fs) k

-- A structure within the type has a field that is beyond the range.
def Exceeds (p : Program) (overrides : List (String × Nat)) (ty : TypeRef) : Prop :=
  ∃ name t, Within p ty name ∧ p.type? name = some t ∧ Overruns p overrides t.instanceFields {}

variable {p : Program} {overrides : List (String × Nat)} {V : List String} {ty : TypeRef}
  {k k' : Packer} {all one : Footprint} {count : Nat} {side : Side} {f : FieldDecl}
  {fs : List FieldDecl} {g : TypeRef → Except Error Footprint} {owner : String} {cause : Cause}
  {fields : List Field}

section Bounds

theorem addressable?_eq_some_iff {n m : Nat} :
    addressable? n = some m ↔ n < addressLimit ∧ m = n := by
  simp [addressable?, eq_comm]

theorem array?_eq_some_iff :
    one.array? count = some all ↔
    (∀ side : Side, side.size (one.times count) < addressLimit) ∧ all = one.times count := by
  simp only [Footprint.array?, Option.bind_eq_bind, Option.bind_eq_some_iff,
    addressable?_eq_some_iff]
  constructor
  case mp =>
    rintro ⟨_, ⟨host, rfl⟩, _, ⟨device, rfl⟩, h⟩
    cases h
    refine ⟨fun side => ?_, rfl⟩
    cases side
    case host   => exact host
    case device => exact device
  case mpr =>
    rintro ⟨small, rfl⟩
    exact ⟨_, ⟨small .host, rfl⟩, _, ⟨small .device, rfl⟩, rfl⟩

theorem position_place :
    side.position (k.place all) = side.offset (k.next all) + side.size all := by
  cases side <;> rfl

-- A field ends last, so nothing about it is beyond the range unless its end is.
theorem beyond_iff : Beyond k all side ↔ addressLimit ≤ side.position (k.place all) := by
  rw [Beyond, position_place]
  omega

theorem push?_eq_some_iff {offset : Offset} :
    k.push? all = some (offset, k') ↔
    (∀ side, ¬Beyond k all side) ∧ offset = k.next all ∧ k' = k.place all := by
  simp only [beyond_iff, not_le]
  simp only [Packer.push?, Option.bind_eq_bind, Option.bind_eq_some_iff, addressable?_eq_some_iff]
  constructor
  case mp =>
    rintro ⟨_, ⟨_, rfl⟩, _, ⟨_, rfl⟩, _, ⟨host, rfl⟩, _, ⟨device, rfl⟩, h⟩
    cases h
    refine ⟨fun side => ?_, rfl, rfl⟩
    cases side
    case host   => exact host
    case device => exact device
  case mpr =>
    rintro ⟨small, rfl, rfl⟩
    have host : k.host + padding k.host all.hostAlignment + all.hostSize < addressLimit :=
      small .host
    have device : k.device + padding k.device all.deviceAlignment + all.deviceSize < addressLimit :=
      small .device
    exact ⟨_, ⟨by omega, rfl⟩, _, ⟨by omega, rfl⟩, _, ⟨host, rfl⟩, _, ⟨device, rfl⟩, rfl⟩

theorem exists_beyond_of_push? (h : k.push? all = none) : ∃ side, Beyond k all side := by
  by_contra within
  have push := push?_eq_some_iff.mpr ⟨not_exists.mp within, rfl, rfl⟩
  cases h.symm.trans push

theorem Footprint.times_one : one.times 1 = one := by
  simp [times]

-- A field that is no array occupies what its type does, and an array a multiple of its element.
theorem Occupies.exists_times (o : Occupies g f all count) :
    ∃ one n, g f.ty.elementOrSelf = .ok one ∧ f.repeats? = some n ∧ all = one.times n := by
  simp only [TypeRef.elementOrSelf, FieldDecl.repeats?]
  rcases o with ⟨single, known⟩ | ⟨array, size, positive, known, total⟩
  case single =>
    rw [single]
    exact ⟨_, 1, known, rfl, Footprint.times_one.symm⟩
  case array =>
    rw [array, size]
    exact ⟨_, count, known, by simp [positive], (array?_eq_some_iff.mp total).right⟩

theorem exists_occupies (known : g f.ty.elementOrSelf = .ok one) (counted : f.repeats? = some count)
    (small : ∀ side : Side, side.size (one.times count) < addressLimit) :
    ∃ n, Occupies g f (one.times count) n := by
  simp only [TypeRef.elementOrSelf, FieldDecl.repeats?] at known counted
  split at counted
  case h_1 single =>
    cases counted
    rw [single] at known
    exact ⟨0, Footprint.times_one.symm ▸ .single single known⟩
  case h_2 array =>
    rw [array] at known
    obtain ⟨size, positive⟩ := Option.filter_eq_some_iff.mp counted
    exact ⟨count, .array array size (by simpa using positive) known
      (array?_eq_some_iff.mpr ⟨small, rfl⟩)⟩

end Bounds

theorem Spans.unique {a b : Footprint} (h : Spans p overrides ty a) (h' : Spans p overrides ty b) :
    a = b := by
  induction h generalizing b
  case primitive found | enum found =>
    cases h'
    case _ found' => exact Option.some.inj (found.symm.trans found')
  case array hi => cases h'; exact hi ‹_›
  case struct name _ t _ _ found _ _ _ counted hi =>
    cases h'
    case struct spans' counted' found' =>
      cases found.symm.trans found'
      have same : ∀ f ∈ t.instanceFields, _ = _ := fun f mem =>
        congrArg₂ Footprint.times (hi f mem (spans' f mem))
          (Option.some.inj ((counted f mem).symm.trans (counted' f mem)))
      rw [List.map_congr_left same]

theorem Takes.unique {all' : Footprint} (h : Takes p overrides f all)
    (h' : Takes p overrides f all') : all = all' := by
  obtain ⟨_, _, spans, counted, rfl⟩ := h
  obtain ⟨_, _, spans', counted', rfl⟩ := h'
  cases spans.unique spans'
  cases counted.symm.trans counted'
  rfl

theorem takes_of_occupies (o : Occupies g f all count)
    (spans : ∀ one, g f.ty.elementOrSelf = .ok one → Spans p overrides f.ty.elementOrSelf one) :
    Takes p overrides f all := by
  have ⟨one, n, known, counted, total⟩ := o.exists_times
  exact ⟨one, n, spans one known, counted, total⟩

-- Fields that have been packed are within the range, and lie where they do without a bound.
theorem not_overruns_of_packFields (h : packFields g owner fs k = .ok (fields, k'))
    (spans : ∀ f ∈ fs, ∀ one, g f.ty.elementOrSelf = .ok one →
      Spans p overrides f.ty.elementOrSelf one) : ¬Overruns p overrides fs k := by
  induction fs generalizing k fields
  case nil => exact nofun
  case cons f fs hi =>
    have ⟨first, others⟩ := List.forall_mem_cons.mp spans
    have ⟨all, _, _, _, _, o, push, packed, _⟩ := packFields_cons_eq_ok_iff.mp h
    have takes := takes_of_occupies o first
    have ⟨small, _, next⟩ := push?_eq_some_iff.mp push
    rintro (⟨takes', beyond⟩ | ⟨takes', later⟩)
    case here =>
      cases takes.unique takes'
      exact small _ beyond
    case later =>
      cases takes.unique takes'
      exact hi packed others (next ▸ later)

theorem exists_times_of_packFields (h : packFields g owner fs k = .ok (fields, k')) (mem : f ∈ fs) :
    ∃ one count, g f.ty.elementOrSelf = .ok one ∧ f.repeats? = some count := by
  induction fs generalizing k fields
  case nil => cases mem
  case cons hi =>
    have ⟨_, _, _, _, _, o, _, packed, _⟩ := packFields_cons_eq_ok_iff.mp h
    cases mem
    case head =>
      have ⟨one, count, known, counted, _⟩ := o.exists_times
      exact ⟨one, count, known, counted⟩
    case tail mem => exact hi packed mem

section Parts

variable {one : FieldDecl → Footprint} {count : FieldDecl → Nat}
  (known : ∀ f ∈ fs, g f.ty.elementOrSelf = .ok (one f))
  (counted : ∀ f ∈ fs, f.repeats? = some (count f))

include known counted

theorem eq_foldl_of_packFields (h : packFields g owner fs k = .ok (fields, k')) :
    k' = (fs.map fun f => (one f).times (count f)).foldl Packer.place k := by
  induction fs generalizing k fields
  case nil => cases h; rfl
  case cons f fs hi =>
    have ⟨known, others⟩ := List.forall_mem_cons.mp known
    have ⟨counted, others'⟩ := List.forall_mem_cons.mp counted
    have ⟨_, _, _, _, _, o, push, packed, _⟩ := packFields_cons_eq_ok_iff.mp h
    have ⟨_, _, known', counted', total⟩ := o.exists_times
    cases known.symm.trans known'
    cases counted.symm.trans counted'
    have ⟨_, _, next⟩ := push?_eq_some_iff.mp push
    rw [hi others others' packed, next, total]
    rfl

-- Fields can be packed as long as none is beyond the range.
theorem exists_packed (owner : String)
    (spans : ∀ f ∈ fs, Spans p overrides f.ty.elementOrSelf (one f))
    (within : ¬Overruns p overrides fs k) :
    ∃ fields, packFields g owner fs k =
      .ok (fields, (fs.map fun f => (one f).times (count f)).foldl Packer.place k) := by
  induction fs generalizing k
  case nil => exact ⟨[], rfl⟩
  case cons f fs hi =>
    have ⟨known, others⟩ := List.forall_mem_cons.mp known
    have ⟨counted, others'⟩ := List.forall_mem_cons.mp counted
    have ⟨first, spans⟩ := List.forall_mem_cons.mp spans
    have takes : Takes p overrides f _ := ⟨one f, count f, first, counted, rfl⟩
    have small (side : Side) : ¬Beyond k ((one f).times (count f)) side :=
      fun beyond => within (.here takes beyond)
    have ⟨n, o⟩ := exists_occupies known counted fun side => not_le.mp fun large =>
      small side (.inl large)
    have ⟨fields, packed⟩ := hi others others' spans fun later => within (.later takes later)
    have push := push?_eq_some_iff.mpr ⟨small, rfl, rfl⟩
    exact ⟨_, packFields_cons_eq_ok_iff.mpr ⟨_, n, _, _, fields, o, push, packed, rfl⟩⟩

end Parts

-- A field that is refused for its size is beyond the range, unless a part of it is refused.
theorem PackFault.overruns {name : String} (h : PackFault g owner fs k cause)
    (overflow : cause = .layout (.sizeOverflow name))
    (spans : ∀ f ∈ fs, ∀ one, g f.ty.elementOrSelf = .ok one →
      Spans p overrides f.ty.elementOrSelf one) :
    Overruns p overrides fs k ∨
    ∃ f ∈ fs, ∃ e, g f.ty.elementOrSelf = .error e ∧ e.cause = cause := by
  induction h
  case field f fs k _ fault =>
    cases fault
    case part e h  => exact .inr ⟨f, List.mem_cons_self, e, h, rfl⟩
    case uncounted => cases overflow
    case oversized element one count array size positive known large =>
      have self : f.ty.elementOrSelf = element := by simp [TypeRef.elementOrSelf, array]
      have counted : f.repeats? = some count := by
        simp [FieldDecl.repeats?, array, size, positive]
      have takes : Takes p overrides f (one.times count) :=
        ⟨one, count, spans f List.mem_cons_self one (self ▸ known), counted, rfl⟩
      obtain ⟨side, large⟩ : ∃ side : Side, addressLimit ≤ side.size (one.times count) := by
        by_contra small
        simp only [not_exists, not_le] at small
        cases large.symm.trans (array?_eq_some_iff.mpr ⟨small, rfl⟩)
      have beyond : Beyond k (one.times count) side := .inl large
      exact .inl (.here takes beyond)
  case full f _ _ _ _ o full =>
    obtain ⟨_, beyond⟩ := exists_beyond_of_push? full
    exact .inl (.here (takes_of_occupies o (spans f List.mem_cons_self)) beyond)
  case later f _ _ _ _ _ _ _ o push _ hi =>
    obtain ⟨first, others⟩ := List.forall_mem_cons.mp spans
    obtain ⟨_, _, next⟩ := push?_eq_some_iff.mp push
    rcases hi overflow others with later | ⟨f, mem, h⟩
    · exact .inl (.later (takes_of_occupies o first) (next ▸ later))
    · exact .inr ⟨f, List.mem_cons_of_mem _ mem, h⟩

theorem exceeds_of_member {name : String} {args : List TypeRef} {t : TypeDecl}
    (found : p.type? name = some t) (mem : f ∈ t.instanceFields)
    (h : Exceeds p overrides f.ty.elementOrSelf) : Exceeds p overrides (.struct name args) := by
  have ⟨n, t', ⟨base, consists, reach⟩, found', overruns⟩ := h
  have holds : Holds p name base := ⟨t, found, f, mem, TypeRef.base?_elementOrSelf ▸ consists⟩
  exact ⟨n, t', ⟨name, rfl, .head holds reach⟩, found', overruns⟩

theorem exceeds_array_iff {name : String} {element : TypeRef} {args : List TypeRef} :
    Exceeds p overrides (.array name element args) ↔ Exceeds p overrides element :=
  Iff.rfl

theorem spans_of_measure {a : Footprint} (h : measure p overrides V ty = .ok a) :
    Spans p overrides ty a := by
  induction V, ty using layout_induction p generalizing a
  case leaf V ty element struct =>
    rw [measure_eq_derive] at h
    cases ty
    case array         => cases element
    case struct        => cases struct
    case void | object => rw [Layouts.derive] at h; cases h
    case primitive =>
      rw [Layouts.derive] at h
      split at h <;> cases h
      exact .primitive ‹_›
    case enum =>
      rw [Layouts.derive] at h
      split at h <;> cases h
      exact .enum ‹_›
  case array hi => exact .array (hi (measure_array ▸ h))
  case struct V name args hi =>
    obtain ⟨t, found, object, fresh, h⟩ := measure_struct_eq_ok_iff.mp h
    obtain ⟨filled, _, k, packed, total⟩ := alone_deriveStruct_eq_ok_iff.mp h
    have : Nonempty Footprint := ⟨a⟩
    choose! one count known counted using
      fun f (mem : f ∈ t.instanceFields) => exists_times_of_packFields packed mem
    rw [total, eq_foldl_of_packFields known counted packed]
    exact .struct found object (by simpa using filled)
      (fun f mem => hi t found fresh _ (known f mem)) counted

theorem not_exceeds_of_measure {a : Footprint} (h : measure p overrides V ty = .ok a) :
    ¬Exceeds p overrides ty := by
  induction V, ty using layout_induction p generalizing a
  case leaf element struct =>
    rintro ⟨_, _, ⟨base, consists, _⟩, _⟩
    simp [TypeRef.base?_eq_none element struct] at consists
  case array hi => exact exceeds_array_iff.not.mpr (hi (measure_array ▸ h))
  case struct V name args hi =>
    have ⟨t, found, _, fresh, h⟩ := measure_struct_eq_ok_iff.mp h
    have ⟨_, _, _, packed, _⟩ := alone_deriveStruct_eq_ok_iff.mp h
    rintro ⟨n, t', ⟨_, consists, reach⟩, found', overruns⟩
    cases consists
    -- The field is one of the structure itself, or lies in one of its members.
    rcases reach.cases_head with rfl | ⟨m, ⟨_, found'', f, mem, consists⟩, reach⟩
    · cases found.symm.trans found'
      exact not_overruns_of_packFields packed (fun _ _ _ => spans_of_measure) overruns
    · cases found.symm.trans found''
      have ⟨_, known⟩ := exists_footprint_of_packFields packed mem
      refine hi t found fresh _ known ⟨n, t', ⟨m, ?_, reach⟩, found', overruns⟩
      exact TypeRef.base?_elementOrSelf.trans consists

theorem measure_of_spans {a : Footprint} (h : Spans p overrides ty a)
    (within : ¬Exceeds p overrides ty) : measure p overrides [] ty = .ok a := by
  induction h
  case primitive found | enum found =>
    rw [measure_eq_derive, Layouts.derive, found]
    rfl
  case array hi =>
    rw [measure_array]
    exact hi (exceeds_array_iff.not.mp within)
  case struct name args t one count found object filled spans counted hi =>
    have known : ∀ f ∈ t.instanceFields,
        measure p overrides [name] f.ty.elementOrSelf = .ok (one f) := by
      intro f mem
      have outside := hi f mem fun exceeds => within (exceeds_of_member found mem exceeds)
      refine measure_inside outside fun n base m hm => ?_
      cases List.mem_singleton.mp hm
      exact .single ⟨t, found, f, mem, TypeRef.base?_elementOrSelf ▸ base⟩
    have small : ¬Overruns p overrides t.instanceFields {} :=
      fun overruns => within ⟨name, t, ⟨name, rfl, .refl⟩, found, overruns⟩
    obtain ⟨fields, packed⟩ := exists_packed known counted name spans small
    refine measure_struct_eq_ok_iff.mpr ⟨t, found, object, List.not_mem_nil, ?_⟩
    exact alone_deriveStruct_eq_ok_iff.mpr ⟨by simpa using filled, fields, _, packed, rfl⟩

theorem exceeds_of_overflow {e : Error} {name : String} (h : measure p overrides V ty = .error e)
    (overflow : e.cause = .layout (.sizeOverflow name)) : Exceeds p overrides ty := by
  induction V, ty using layout_induction p generalizing e
  case leaf element struct => exact absurd overflow (cause_of_leaf element struct h name).right
  case array hi            => exact exceeds_array_iff.mpr (hi (measure_array ▸ h) overflow)
  case struct V owner args hi =>
    have fault := fault_of_measure h
    rw [overflow] at fault
    cases fault
    case members t found fresh fault =>
      rcases fault.overruns rfl fun _ _ _ => spans_of_measure with overruns | ⟨f, mem, e', h, same⟩
      · exact ⟨owner, t, ⟨owner, rfl, .refl⟩, found, overruns⟩
      · exact exceeds_of_member found mem (hi t found fresh _ h same)

section Sizes

theorem position_le_foldl (sizes : List Footprint) :
    side.position k ≤ side.position (sizes.foldl Packer.place k) := by
  induction sizes generalizing k
  case nil => exact le_rfl
  case cons all sizes hi =>
    refine le_trans ?_ (hi (k := k.place all))
    cases side <;> simp only [Side.position, Packer.place, Packer.next] <;> omega

-- If all fields take up something, one of them is beyond the range exactly if the last one ends
-- there.
theorem overruns_iff {one : FieldDecl → Footprint} {count : FieldDecl → Nat}
    (spans : ∀ f ∈ fs, Spans p overrides f.ty.elementOrSelf (one f))
    (counted : ∀ f ∈ fs, f.repeats? = some (count f))
    (start : ∀ side : Side, side.position k < addressLimit) :
    Overruns p overrides fs k ↔ ∃ side : Side, addressLimit ≤
      side.position ((fs.map fun f => (one f).times (count f)).foldl Packer.place k) := by
  induction fs generalizing k
  case nil =>
    refine ⟨nofun, fun ⟨side, large⟩ => ?_⟩
    exact absurd (start side) (not_lt.mpr large)
  case cons f fs hi =>
    have ⟨first, spans⟩ := List.forall_mem_cons.mp spans
    have ⟨counted, others⟩ := List.forall_mem_cons.mp counted
    have takes : Takes p overrides f ((one f).times (count f)) :=
      ⟨one f, count f, first, counted, rfl⟩
    rw [List.map_cons, List.foldl_cons]
    by_cases beyond : ∃ side, Beyond k ((one f).times (count f)) side
    case pos =>
      have ⟨side, beyond⟩ := beyond
      refine ⟨fun _ => ⟨side, ?_⟩, fun _ => .here takes beyond⟩
      exact le_trans (beyond_iff.mp beyond) (position_le_foldl _)
    case neg =>
      rw [← hi spans others fun side => not_le.mp fun large => beyond ⟨side, beyond_iff.mpr large⟩]
      refine ⟨?_, .later takes⟩
      rintro (⟨takes', here⟩ | ⟨takes', later⟩)
      case here  => exact absurd ⟨_, takes.unique takes' ▸ here⟩ beyond
      case later => exact takes.unique takes' ▸ later

theorem Spans.base {a : Footprint} {name : String} (h : Spans p overrides ty a)
    (consists : ty.base? = some name) : ∃ b, Spans p overrides (.struct name []) b := by
  induction h
  case primitive | enum => cases consists
  case array hi => exact hi consists
  case struct found object filled spans counted _ =>
    cases consists
    exact ⟨_, .struct found object filled spans counted⟩

theorem Spans.within {a : Footprint} {name : String} (h : Spans p overrides ty a)
    (within : Within p ty name) : ∃ b, Spans p overrides (.struct name []) b := by
  obtain ⟨base, consists, reach⟩ := within
  induction reach
  case refl => exact h.base consists
  case tail step hi =>
    obtain ⟨_, found, f, mem, inner⟩ := step
    obtain ⟨_, outer⟩ := hi
    cases outer
    case struct filled spans _ found' =>
      cases found.symm.trans found'
      exact (spans f mem).base (TypeRef.base?_elementOrSelf.trans inner)

theorem Spans.overruns_iff {name : String} {args : List TypeRef} {t : TypeDecl} {a : Footprint}
    (h : Spans p overrides (.struct name args) a) (found : p.type? name = some t) :
    Overruns p overrides t.instanceFields {} ↔ ∃ side : Side, addressLimit ≤ side.size a := by
  cases h
  case struct filled spans counted found' =>
    cases found.symm.trans found'
    have start (side : Side) : side.position {} < addressLimit := by cases side <;> decide
    rw [Shading.overruns_iff spans counted start]
    simp only [size_adjust, size_footprint]

-- For a type that has a footprint without the bound, what is beyond the range is the size of a
-- structure.
theorem Spans.exceeds_iff {a : Footprint} (h : Spans p overrides ty a) :
    Exceeds p overrides ty ↔ ∃ name b, Within p ty name ∧ Spans p overrides (.struct name []) b ∧
      ∃ side : Side, addressLimit ≤ side.size b := by
  constructor
  · rintro ⟨name, t, within, found, overruns⟩
    have ⟨b, spans⟩ := h.within within
    exact ⟨name, b, within, spans, (spans.overruns_iff found).mp overruns⟩
  · rintro ⟨name, b, within, spans, large⟩
    have found : ∃ t, p.type? name = some t := by
      cases spans
      exact ⟨_, ‹_›⟩
    have ⟨t, found⟩ := found
    exact ⟨name, t, within, found, (spans.overruns_iff found).mpr large⟩

end Sizes

-- On layouts that know nothing yet, a type has a footprint exactly if it has one in numbers without
-- a bound and no structure within it has a field beyond the addressable range. It is then the same
-- footprint, which is the only one without the bound. A type is refused for its size only if there
-- is such a field, which means a structure of that size if nothing else is wrong with the type.
theorem layout_arithmetic_exact (p : Program) (overrides : List (String × Nat)) (ty : TypeRef)
    (canonical : Canonical (p.fieldTypes ++ [ty])) :
    let r := outcome (Layouts.footprintOf p ty { overrides })
    (∀ f, r = .ok f ↔ Spans p overrides ty f ∧ ¬Exceeds p overrides ty) ∧
    (∀ f g, Spans p overrides ty f → Spans p overrides ty g → f = g) ∧
    (∀ e name, r = .error e → e.cause = .layout (.sizeOverflow name) → Exceeds p overrides ty) ∧
    ∀ f, Spans p overrides ty f → (Exceeds p overrides ty ↔
      ∃ name g, Within p ty name ∧ Spans p overrides (.struct name []) g ∧
        ∃ side : Side, addressLimit ≤ side.size g) := by
  intro r
  have mem : ty ∈ TypeRef.refsAll (p.fieldTypes ++ [ty]) :=
    TypeRef.mem_refsAll.mpr ⟨ty, by simp, ty.self_mem_refs⟩
  have measured : r = measure p overrides [] ty :=
    (Universe.of_canonical canonical).outcome_footprintOf mem (.empty overrides)
  rw [measured]
  refine ⟨fun f => ⟨fun h => ?_, fun h => ?_⟩, fun _ _ => Spans.unique, ?_, ?_⟩
  · exact ⟨spans_of_measure h, not_exceeds_of_measure h⟩
  · exact measure_of_spans h.left h.right
  · exact fun _ _ => exceeds_of_overflow
  · exact fun _ => Spans.exceeds_iff

-- A tile that ends 16 bytes before the range does, and walls on which it starts later than that.
def mosaic : Program where
  types         := [
    { name := "Tile", kind := .struct, fields := [
      { name := "grain", ty := .arrayOf (.primitive "Vector3" []), arraySize := some 0xfffffff }] },
    { name := "Wall", kind := .struct, fields := [
      { name := "shade", ty := .primitive "float" [] },
      { name := "tile", ty := .struct "Tile" [] }] }]
  sets          := []
  types_nodup   := by decide
  methods_nodup := by decide

-- The wall is still within the range on the host, but not on the device.
theorem layout_arithmetic_exact_mosaic :
    Spans mosaic [] (.struct "Tile" []) ⟨3221225460, 4294967280, 4, 16⟩ ∧
    ¬Exceeds mosaic [] (.struct "Tile" []) ∧
    Exceeds mosaic [] (.struct "Wall" []) := by
  have tile : outcome (Layouts.footprintOf mosaic (.struct "Tile" []) {}) =
      .ok ⟨3221225460, 4294967280, 4, 16⟩ := by
    cbv
  have wall : outcome (Layouts.footprintOf mosaic (.struct "Wall" []) {}) =
      .error (.layout (.sizeOverflow "Wall")) := by
    cbv
  obtain ⟨accepted, _⟩ := layout_arithmetic_exact mosaic [] (.struct "Tile" []) (by decide)
  obtain ⟨_, _, refused, _⟩ := layout_arithmetic_exact mosaic [] (.struct "Wall" []) (by decide)
  obtain ⟨spans, within⟩ := (accepted _).mp tile
  exact ⟨spans, within, refused _ _ wall rfl⟩

end Shading
