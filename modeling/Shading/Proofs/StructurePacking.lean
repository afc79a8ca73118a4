import Shading.Proofs.Coherence
import Shading.Proofs.Memoization
import Shading.Proofs.Placement
import Mathlib
/-!
Structures on layouts that have been used before.

A declaration describes a structure exactly if the structure has a footprint, and the members are
packed in order.
-/

namespace Shading

variable {p : Program} {overrides settings : List (String × Nat)} {types : List TypeRef}
  {ty : TypeRef} {t : TypeDecl} {l : Layouts} {qs : List Query} {f : Footprint}

namespace Layouts

-- Layouts of which nothing has been asked, with the device alignments of some structures replaced.
def configured (settings : List (String × Nat)) : Layouts :=
  settings.foldl (fun l s => l.withDeviceAlignment s.1 s.2) {}

theorem configured_eq :
    configured settings = { overrides := settings.reverse.map fun s => (s.1, max s.2 1) } := by
  induction settings using List.reverseRecOn
  case nil => rfl
  case append_singleton hi =>
    rw [configured, List.foldl_append, ← configured, hi, List.reverse_append]
    rfl

theorem configured_fit (settings : List (String × Nat)) {fits : String → Footprint → Prop} :
    (configured settings).Fit (configured settings).overrides fits := by
  rw [configured_eq]
  exact .empty _

theorem lookup_configured {name : String} :
    (configured settings).overrides.lookup name =
    (settings.reverse.lookup name).map (max · 1) := by
  rw [configured_eq]
  induction settings.reverse
  case nil => rfl
  case cons s _ hi =>
    simp only [List.map_cons, List.lookup]
    cases name == s.1
    case true  => rfl
    case false => exact hi

theorem configured_pos : ∀ o ∈ (configured settings).overrides, 0 < o.2 := by
  rw [configured_eq]
  intro o mem
  have ⟨_, _, same⟩ := List.mem_map.mp mem
  exact same ▸ lt_max_of_lt_right Nat.one_pos

end Layouts

namespace Query

-- The layouts that queries leave, one after the other.
def leave (p : Program) (qs : List Query) (l : Layouts) : Layouts :=
  qs.foldl (fun l q => leftover (q.ask p l)) l

theorem leave_fit (u : Universe p types)
    (mem : ∀ q ∈ qs, ∀ ty ∈ q.asks, ty ∈ TypeRef.refsAll types)
    (h : l.Fit overrides (Fitting p overrides types)) :
    (leave p qs l).Fit overrides (Fitting p overrides types) := by
  induction qs generalizing l
  case nil => exact h
  case cons q qs hi =>
    have left := (ask_fit u (mem q List.mem_cons_self) h).right
    exact hi (fun q hq => mem q (List.mem_cons_of_mem _ hq)) left

theorem leave_keeps {I : Layouts → Prop} (each : ∀ q ∈ qs, (q.accesses p).Keeps I) (start : I l) :
    I (leave p qs l) := by
  induction qs generalizing l
  case nil => exact start
  case cons q qs hi =>
    obtain ⟨first, rest⟩ := List.forall_mem_cons.mp each
    have after := first l start
    rw [run_accesses] at after
    exact hi rest after

theorem accesses_coherent (u : Universe p types) {q : Query}
    (mem : ∀ ty ∈ q.types, ty ∈ TypeRef.refsAll types) :
    (q.accesses p).Keeps (Layouts.Coherent p types) := by
  refine accesses_of_parts (Access.Keeps.compositional _) (fun ty occurs => ?_) fun t _ => ?_
  · have inside := mem ty occurs
    exact ⟨u.compute_coherent (.inl inside),
      u.compute_coherent (.inl (Universe.elementOrSelf_mem inside))⟩
  · exact u.compute_coherent (.inr rfl)

theorem leave_coherent (u : Universe p types) (settings : List (String × Nat))
    (mem : ∀ q ∈ qs, ∀ ty ∈ q.types, ty ∈ TypeRef.refsAll types) :
    (leave p qs (.configured settings)).Coherent p types := by
  refine leave_keeps (fun q hq => accesses_coherent u (mem q hq)) ?_
  rw [Layouts.configured_eq]
  exact fun _ _ _ known => nomatch known

-- The structures that are described add none but structures to the references of a name.
theorem named_append_structs (ts : List TypeDecl) {name : String}
    (named : ∀ ty ∈ TypeRef.refsAll types, ty.name = name → ty.isStruct ∨ ty.isObject) :
    ∀ ty ∈ TypeRef.refsAll (types ++ ts.map TypeDecl.structRef), ty.name = name →
      ty.isStruct ∨ ty.isObject := by
  intro ty mem same
  obtain ⟨root, known, inside⟩ := TypeRef.mem_refsAll.mp mem
  rcases List.mem_append.mp known with known | known
  case inl => exact named ty (TypeRef.mem_refsAll.mpr ⟨root, known, inside⟩) same
  case inr =>
    obtain ⟨t, _, rfl⟩ := List.mem_map.mp known
    simp only [TypeDecl.structRef, TypeRef.refs, TypeRef.refsAll, List.mem_singleton] at inside
    exact .inl (inside ▸ rfl)

end Query

namespace Universe

-- A type that need not be in question has the footprint that it has by itself, unless another
-- footprint may be known under its name.
theorem outcome_compute (u : Universe p types) (h : l.Fit overrides (Fitting p overrides types))
    (own : ∀ f, Fitting p overrides types ty.name f → measure p overrides [] ty = .ok f)
    (derived : Access.Steady overrides (Fitting p overrides types) (Layouts.derive p [] ty)) :
    outcome ((Layouts.compute p [] ty).run l) = measure p overrides [] ty := by
  cases known : l.known? ty.name
  case some f =>
    rw [own f (h.of_known? known), Layouts.compute, Access.run, known]
    rfl
  case none =>
    obtain ⟨returned, left⟩ := u.run_steady derived h
    rw [measure, Layouts.compute, Access.run, known, Access.alone]
    refine Access.outcome_run_bind returned fun f derived => ?_
    have measured := measure_eq_derive.trans derived
    refine congrArg Except.ok ?_
    simp only [Layouts.remember]
    split
    case h_1 g known' => exact Except.ok.inj ((own g (left.of_known? known')).symm.trans measured)
    case h_2          => rfl

section Declared

variable (named : ∀ ty ∈ TypeRef.refsAll types, ty.name = t.name → ty.isStruct ∨ ty.isObject)

include named

-- A reference to the declaration is all that may be known under the name of the declaration.
theorem measure_structRef_of_fitting (fit : Fitting p overrides types t.name f) :
    measure p overrides [] t.structRef = .ok f := by
  have ⟨ty, mem, same, h⟩ := fit
  cases named ty mem same
  case inl struct =>
    cases ty <;> simp only [TypeRef.isStruct, Bool.false_eq_true] at struct
    case struct name args =>
      cases same
      have shape : t.structRef.shape = (TypeRef.struct t.name args).shape := rfl
      exact (congrArg (Access.alone overrides) (compute_congr shape)).trans h
  case inr object =>
    cases ty <;> simp only [TypeRef.isObject, Bool.false_eq_true] at object
    rw [measure_eq_derive, Layouts.derive] at h
    cases h

theorem outcome_structRef (u : Universe p types)
    (h : l.Fit overrides (Fitting p overrides types)) :
    outcome ((Layouts.compute p [] t.structRef).run l) = measure p overrides [] t.structRef := by
  refine u.outcome_compute h (fun f => measure_structRef_of_fitting named) ?_
  refine derive_struct_steady fun t' found _ f mem => ?_
  have declared := u.member_mem (Program.mem_of_type? found) mem
  refine u.compute_steady declared fun n inner m hm => ?_
  cases List.mem_singleton.mp hm
  exact .single ⟨t', found, f, mem, TypeRef.base?_elementOrSelf.symm.trans inner⟩

theorem outcome_describe (u : Universe p types) (declared : t ∈ p.types)
    (h : l.Fit overrides (Fitting p overrides types)) :
    outcome ((Structure.describe p t).run l) = (Structure.describe p t).alone overrides := by
  have packed : Access.Steady overrides (Fitting p overrides types)
      (packFields (Layouts.compute p []) t.name t.instanceFields {}) :=
    packFields_of_parts Access.Steady.compositional fun f mem =>
      u.compute_steady (u.member_mem declared mem) (by simp)
  have ⟨returned, left⟩ := u.run_steady packed h
  refine Access.outcome_run_bind returned fun _ _ => ?_
  exact Access.outcome_run_bind (u.outcome_structRef named left) fun _ _ => rfl

-- What a declaration describes on all layouts that fit.
theorem ofDecl_eq_ok_iff {s : Structure} (u : Universe p types) (declared : t ∈ p.types)
    (h : l.Fit overrides (Fitting p overrides types)) :
    outcome (Structure.ofDecl p t l) = .ok s ↔
    s.name = t.name ∧ ∃ k,
      packFields (measure p overrides []) t.name t.instanceFields {} = .ok (s.fields, k) ∧
      measure p overrides [] t.structRef = .ok s.footprint ∧ s.agrees = k.agrees := by
  have described : outcome (Structure.ofDecl p t l) =
      (Subtype.val <$> Structure.describe p t).alone overrides :=
    Access.outcome_run_bind (u.outcome_describe named declared h) fun _ _ => rfl
  change _ = (Structure.describe p t >>= fun d => pure d.val).alone overrides at described
  rw [described, Access.alone_bind, bind_eq_ok_iff]
  constructor
  case mp =>
    rintro ⟨d, h, same⟩
    cases same
    exact ⟨d.property, alone_describe_eq_ok_iff.mp h⟩
  case mpr =>
    rintro ⟨same, h⟩
    exact ⟨⟨s, same⟩, alone_describe_eq_ok_iff.mpr h, rfl⟩

end Declared
end Universe

-- The references that share the name of the declaration have to mean it: a footprint that is known
-- under the name would be taken for that of the structure.
theorem structures_packed_in_order (p : Program) (settings : List (String × Nat)) (qs : List Query)
    (t : TypeDecl) (declared : t ∈ p.types)
    (canonical : Canonical (p.fieldTypes ++ qs.flatMap Query.types))
    (meant : ∀ d ∈ qs.filterMap Query.described?,
      Structural (p.fieldTypes ++ qs.flatMap Query.types) d.name)
    (named : ∀ ty ∈ TypeRef.refsAll (p.fieldTypes ++ qs.flatMap Query.types),
      ty.name = t.name → ty.isStruct ∨ ty.isObject) :
    let l := Query.leave p qs (.configured settings)
    ((∃ s, outcome (Structure.ofDecl p t l) = .ok s) ↔
      ∃ f, outcome (Layouts.footprintOf p t.structRef l) = .ok f) ∧
    ∀ s, outcome (Structure.ofDecl p t l) = .ok s →
      (outcome (Layouts.footprintOf p t.structRef l) = .ok s.footprint) ∧
      (t.instanceFields.Forall₂
        (Stands (fun ty => outcome (Layouts.footprintOf p ty l)) t.name) s.fields) ∧
      s.Packed ((settings.reverse.lookup t.name).map (max · 1)) := by
  intro l
  have u := Query.universe_of_meant canonical meant
  have found := Program.type?_eq_some_iff.mpr ⟨declared, rfl⟩
  have fit : l.Fit (Layouts.configured settings).overrides (Fitting p _ _) :=
    Query.leave_fit u (Query.asks_mem Query.types_mem) (Layouts.configured_fit settings)
  have named := Query.named_append_structs (qs.filterMap Query.described?) named
  have whole := u.outcome_structRef named fit
  have described (s : Structure) := u.ofDecl_eq_ok_iff (s := s) named declared fit
  constructor
  case left =>
    constructor
    · rintro ⟨s, h⟩
      have ⟨_, k, _, measured, _⟩ := (described s).mp h
      exact ⟨s.footprint, whole.trans measured⟩
    · rintro ⟨f, h⟩
      have measured := whole.symm.trans h
      have ⟨_, fields, k, packed, _⟩ := exists_packed_of_measure found measured
      refine ⟨⟨t.name, fields, f, k.agrees⟩, ?_⟩
      exact (described _).mpr ⟨rfl, k, packed, measured, rfl⟩
  case right =>
    intro s h
    have ⟨_, k, packed, measured, agrees⟩ := (described s).mp h
    have ⟨filled, _, k', packed', total⟩ := exists_packed_of_measure found measured
    cases packed.symm.trans packed'
    refine ⟨whole.trans measured, stands_of_packFields (packFields_mono packed ?_), ?_⟩
    · intro f mem one h
      exact (u.outcome_footprintOf (u.member_mem declared mem) fit).trans h
    · rw [← Layouts.lookup_configured]
      refine packed_of_packFields packed filled (fun side ty one h => ?_) total agrees
      exact measure_alignment_pos Layouts.configured_pos h

-- What the scene describes if alignments are replaced.
def sceneSettings : List (String × Nat) := [("Light", 8), ("Scene", 0), ("Light", 32)]

def sceneStructure : Structure where
  name      := "Scene"
  fields    := [
    ⟨"lights", .arrayOf (.struct "Light" []), .unspecified, 4, ⟨64, 80, 4, 32⟩⟩,
    ⟨"main", .struct "Light" [], .unspecified, 0, ⟨16, 20, 4, 32⟩⟩]
  footprint := ⟨80, 116, 4, 1⟩
  agrees    := false

-- The chain has failed, and the lights are known already.
theorem structures_packed_in_order_litScene :
    let l := Query.leave litScene [.type (.struct "Chain" [])] (.configured sceneSettings)
    outcome (Structure.ofDecl litScene sceneDecl l) = .ok sceneStructure ∧
    sceneStructure.Packed (some 1) := by
  have described : outcome (Structure.ofDecl litScene sceneDecl
      (Query.leave litScene [.type (.struct "Chain" [])] (.configured sceneSettings))) =
      .ok sceneStructure := by
    cbv
  have packed := structures_packed_in_order litScene sceneSettings [.type (.struct "Chain" [])]
    sceneDecl (List.get_mem ..) (by decide) (by decide) (by decide)
  exact ⟨described, (packed.right _ described).right.right⟩

-- The mode is described once the box is known, with a size and without a member that would end
-- there.
theorem mode_misplaced :
    let l := Query.leave modes [.type (.struct "Box" [])] (.configured [])
    modeDecl ∈ modes.types ∧
    Canonical (modes.fieldTypes ++ [.struct "Box" []]) ∧
    outcome (Structure.ofDecl modes modeDecl l) = .ok ⟨"Mode", [], ⟨4, 4, 4, 4⟩, true⟩ ∧
    ¬(Structure.mk "Mode" [] ⟨4, 4, 4, 4⟩ true).Packed none := by
  refine ⟨List.mem_cons_self, by decide, by cbv, fun packed => ?_⟩
  cases packed.ends .host

end Shading
