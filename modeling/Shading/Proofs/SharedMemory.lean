import Shading.Proofs.Discovery
import Shading.Proofs.Validation
import Shading.Proofs.Widening
import Mathlib
/-!
Where the values that host and device share lie on either side, and how much of that validation
compares.

Validation compares the members of the structures that it gets to, and nothing else. It does not
compare the elements of arrays and buffers, and it does not get behind arrays of arrays.
-/

namespace Shading

-- A step on the way to a value in memory: into a member of a structure, or to one of several
-- elements that lie next to each other.
inductive Part
  | member (owner : String) (offset : Offset)
  | element (index : Nat) (f : Footprint)

namespace Part

-- How far a step leads.
def offset : Part → Offset
  | member _ offset => offset
  | element i f     => ⟨i * f.hostSize, i * f.deviceSize⟩

def hostOffset (parts : List Part) : Nat :=
  (parts.map (·.offset.host)).sum

def deviceOffset (parts : List Part) : Nat :=
  (parts.map (·.offset.device)).sum

-- Steps that lead as far on both sides, if they are members, and no farther on the host, if they
-- are elements. Elements on the way to most leaves have one size.
def Tame (leaf : TypeRef) : Part → Prop
  | member _ offset => offset.host = offset.device
  | element _ f     => (f.hostSize ≤ f.deviceSize) ∧
    (leaf.isWidened = false → f.hostSize = f.deviceSize)

-- Steps that validation does not compare.
def Unvetted (m : Model) (r : Resource) : Part → Prop
  | member owner _ => ¬m.Vets r owner
  | element ..     => True

variable {parts : List Part}

-- Steps that lead equally far on both sides can be left out of a comparison.
open Classical in
theorem hostOffset_eq_iff_filter {P : Part → Prop}
    (h : ∀ part ∈ parts, ¬P part → part.offset.host = part.offset.device) :
    hostOffset parts = deviceOffset parts ↔
    hostOffset (parts.filter P) = deviceOffset (parts.filter P) := by
  have balance : hostOffset parts + deviceOffset (parts.filter P) =
      deviceOffset parts + hostOffset (parts.filter P) := by
    induction parts
    case nil => rfl
    case cons part parts hi =>
      have rest := hi fun part mem => h part (List.mem_cons_of_mem _ mem)
      have first := h part List.mem_cons_self
      by_cases keep : P part <;> simp_all [hostOffset, deviceOffset] <;> omega
  omega

-- Steps of which none leads farther on the host cannot make up for each other.
theorem hostOffset_eq_iff_forall
    (h : ∀ part ∈ parts, part.offset.host ≤ part.offset.device) :
    hostOffset parts = deviceOffset parts ↔
    ∀ part ∈ parts, part.offset.host = part.offset.device := by
  suffices both : hostOffset parts ≤ deviceOffset parts ∧ (hostOffset parts = deviceOffset parts ↔
      ∀ part ∈ parts, part.offset.host = part.offset.device) from both.right
  induction parts
  case nil => simp [hostOffset, deviceOffset]
  case cons part parts hi =>
    have ⟨le, iff⟩ := hi fun part mem => h part (List.mem_cons_of_mem _ mem)
    have first := h part List.mem_cons_self
    simp only [hostOffset, deviceOffset, List.map_cons, List.sum_cons, List.forall_mem_cons] at *
    refine ⟨by omega, fun same => ⟨by omega, iff.mp (by omega)⟩, fun ⟨same, rest⟩ => ?_⟩
    have := iff.mpr rest
    omega

end Part

-- The ways from a type to the leaves in it. Structures, and the footprints of elements, are those
-- that the given layouts lead to.
inductive Located (p : Program) (l : Layouts) : TypeRef → List Part → TypeRef → Prop
  | leaf {ty} : ty.isLeaf → Located p l ty [] ty
  | element {name element args i f parts leaf} :
    (outcome (Layouts.footprintOf p element l) = .ok f) → (Located p l element parts leaf) →
    Located p l (.array name element args) (.element i f :: parts) leaf
  | member {name args t s f offset parts leaf} :
    (p.type? name = some t) → (outcome (Structure.ofDecl p t l) = .ok s) →
    ((f, offset) ∈ s.fields.zip s.offsets) →
    (∀ i g rest, parts = .element i g :: rest → i < f.count) → (Located p l f.ty parts leaf) →
    Located p l (.struct name args) (.member name offset :: parts) leaf

-- The ways to the leaves of a resource. A uniform is a single value, and a buffer has elements.
inductive Shared (p : Program) (l : Layouts) (r : Resource) : List Part → TypeRef → Prop
  | value {parts leaf} :
    (r.kind = .uniform) → (Located p l r.valueType parts leaf) → Shared p l r parts leaf
  | buffer {i f parts leaf} :
    (r.kind = .structuredBuffer ∨ r.kind = .rwStructuredBuffer) →
    (outcome (Layouts.footprintOf p r.valueType l) = .ok f) →
    (Located p l r.valueType parts leaf) → Shared p l r (.element i f :: parts) leaf

-- A model that validation accepts, with the contexts and the layouts that discovery began and ended
-- with. What else happens to a context before its model is built is left open.
structure Accepted (p : Program) (c₀ : Context) (l₀ : Layouts) (c : Context) (l : Layouts)
    (m : Model) : Prop where
  fresh         : c₀.structures = []
  found         : Context.discoverStructures p (c₀, l₀) = .ok () (c, l)
  structures_eq : m.structures = c.structures
  resources_eq  : m.resources = c.resources
  valid         : m.validate = .ok ()

namespace Accepted

variable {p : Program} {c₀ c : Context} {l₀ l : Layouts} {m : Model} {r : Resource} {name : String}
  {s : Structure} {t : TypeDecl} {ty leaf : TypeRef} {parts : List Part} {offset : Offset}

theorem run_discoverAll (a : Accepted p c₀ l₀ c l m) :
    (Context.discoverAll p c₀ (c₀.touchedTypes p)).run l₀ = .ok (.ok (), c) l := by
  have found := a.found
  unfold Context.discoverStructures Context.discovering at found
  dsimp only at found
  split at found <;> cases found
  assumption

theorem discovered (a : Accepted p c₀ l₀ c l m) :
    Context.Discovered p (c₀.touchedTypes p) c₀ l₀ c l :=
  Context.discovered_of_run a.run_discoverAll

-- All structures of the model are new.
theorem describes (a : Accepted p c₀ l₀ c l m) (h : m.structure? name = some s) :
    Context.Describes p l s ∧ ∀ f ∈ s.fields, Context.Covers p c f.ty := by
  have mem : s ∈ c.structures := a.structures_eq ▸ List.mem_of_find?_eq_some h
  cases a.discovered.structures s mem
  case inr new => exact new
  case inl old => simp [a.fresh] at old

theorem structure?_eq (a : Accepted p c₀ l₀ c l m) {s' : Structure}
    (h : m.structure? name = some s) (declared : p.type? name = some t)
    (described : outcome (Structure.ofDecl p t l) = .ok s') : s' = s := by
  have ⟨t', declared', replays⟩ := (a.describes h).left
  rw [Model.name_of_structure? h] at declared'
  cases declared.symm.trans declared'
  have again : Structure.ofDecl p t l = .ok s l := replays l (.refl l)
  rw [again] at described
  exact (Except.ok.inj described).symm

theorem checked (a : Accepted p c₀ l₀ c l m) (mem : r ∈ m.resources) :
    m.checkResource r = .ok () :=
  Model.checkResource_of_validate a.valid mem

theorem agrees_of_vets (a : Accepted p c₀ l₀ c l m) (mem : r ∈ m.resources)
    (memory : r.kind.hasMemoryLayout) (v : m.Vets r name) (declared : p.type? name = some t)
    (described : outcome (Structure.ofDecl p t l) = .ok s) : s.agrees := by
  have ⟨s', found, agrees⟩ := Model.agrees_of_vets (a.checked mem) memory v
  exact a.structure?_eq found declared described ▸ agrees

end Accepted

-- What it takes for the description of a declaration to succeed.
theorem exists_describe_of_ofDecl {p : Program} {t : TypeDecl} {l : Layouts} {s : Structure}
    (h : outcome (Structure.ofDecl p t l) = .ok s) :
    ∃ d l', (Structure.describe p t).run l = .ok d l' ∧ d.val = s := by
  have ⟨d, l', run, h⟩ := Access.run_bind_eq_ok (eq_ok_of_outcome h)
  cases h
  exact ⟨d, _, run, rfl⟩

theorem Located.exists_of_member {p : Program} {l : Layouts} {ty leaf : TypeRef}
    {parts : List Part} {name : String} {offset : Offset} (h : Located p l ty parts leaf)
    (mem : .member name offset ∈ parts) :
    ∃ t s, p.type? name = some t ∧ outcome (Structure.ofDecl p t l) = .ok s ∧
      offset ∈ s.offsets := by
  induction h
  case leaf => cases mem
  case element hi =>
    cases mem
    case tail mem => exact hi mem
  case member declared described field _ _ hi =>
    cases mem
    case head     => exact ⟨_, _, declared, described, (List.of_mem_zip field).right⟩
    case tail mem => exact hi mem

theorem Located.leaf_eq {p : Program} {l : Layouts} {ty leaf : TypeRef} {parts : List Part}
    (h : Located p l ty parts leaf) (inner : ty.innermost.isLeaf) : leaf = ty.innermost := by
  induction h
  case leaf ty isLeaf =>
    cases ty
    case primitive | enum => rfl
    all_goals cases isLeaf
  case element hi => exact hi inner
  case member     => cases inner

-- No structures lie behind arrays of arrays.
def Flat (types : List TypeRef) : Prop :=
  ∀ ty ∈ TypeRef.refsAll types, ∀ element, ty.element? = some element →
    element.element?.isSome → ty.base? = none

instance (types : List TypeRef) : Decidable (Flat types) :=
  inferInstanceAs (Decidable (∀ ty ∈ TypeRef.refsAll types, ∀ element,
    ty.element? = some element → element.element?.isSome → ty.base? = none))

theorem Flat.structName? {types : List TypeRef} {ty : TypeRef} {name : String} (flat : Flat types)
    (mem : ty ∈ TypeRef.refsAll types) (h : ty.base? = some name) :
    Context.structName? ty = some name := by
  cases ty
  case struct => exact h
  case array n element args =>
    have single := flat _ mem element rfl
    cases element
    case struct => exact h
    case array  => simp [single rfl] at h
    all_goals cases h
  all_goals cases h

namespace Accepted

variable {p : Program} {c₀ c : Context} {l₀ l : Layouts} {m : Model} {r : Resource} {name : String}
  {s : Structure} {t : TypeDecl} {ty leaf : TypeRef} {parts : List Part} {f : Footprint}
  {types : List TypeRef}

-- If the type holds a declared structure, validation gets to it from the resource.
def VetsAll (p : Program) (m : Model) (r : Resource) (ty : TypeRef) : Prop :=
  ∀ name t, ty.base? = some name → p.type? name = some t → m.Vets r name

theorem valueType_mem (a : Accepted p c₀ l₀ c l m) (mem : r ∈ m.resources)
    (memory : r.kind.hasMemoryLayout) : r.valueType ∈ c₀.touchedTypes p := by
  rw [a.resources_eq, a.discovered.resources_eq] at mem
  refine List.mem_append_left _ (List.mem_append_left _ (List.mem_map_of_mem ?_))
  exact List.mem_filter.mpr ⟨mem, memory⟩

theorem vets_value (a : Accepted p c₀ l₀ c l m) (flat : Flat types) (mem : r ∈ m.resources)
    (memory : r.kind.hasMemoryLayout) (root : r.valueType ∈ TypeRef.refsAll types) :
    VetsAll p m r r.valueType := by
  intro name t base declared
  have struct := flat.structName? root base
  have has := a.discovered.pending _ (a.valueType_mem mem memory) name t struct declared
  refine ⟨?_, Context.exists_structure?_of_hasStructure a.structures_eq has⟩
  rw [Context.name_of_structName? struct]

theorem vets_member (a : Accepted p c₀ l₀ c l m) (flat : Flat types) (v : m.Vets r name)
    (found : m.structure? name = some s) {f : Field} (mem : f ∈ s.fields)
    (root : f.ty ∈ TypeRef.refsAll types) : VetsAll p m r f.ty := by
  intro inner t base declared
  have struct := flat.structName? root base
  have has := (a.describes found).right f mem inner t struct declared
  refine ⟨v.left.tail ⟨s, found, ?_⟩, Context.exists_structure?_of_hasStructure a.structures_eq has⟩
  exact Context.name_of_structName? struct ▸ List.mem_map_of_mem mem

section Canonical

variable {overrides : List (String × Nat)}

theorem fit (a : Accepted p c₀ l₀ c l m) (u : Universe p types)
    (touched : ∀ ty ∈ c₀.touchedTypes p, ty ∈ TypeRef.refsAll types)
    (h : l₀.Fit overrides (Fitting p overrides types)) :
    l.Fit overrides (Fitting p overrides types) := by
  have left := (u.run_steady (u.discoverAll_steady c₀ touched) h).right
  rw [a.run_discoverAll] at left
  exact left

-- The footprints of elements. Those of structures are the same on both sides, since validation has
-- compared their members.
theorem footprint_sizes (a : Accepted p c₀ l₀ c l m) (u : Universe p types)
    (fit : l.Fit overrides (Fitting p overrides types)) (mem : r ∈ m.resources)
    (memory : r.kind.hasMemoryLayout) (v : VetsAll p m r ty) (root : ty ∈ TypeRef.refsAll types)
    (located : Located p l ty parts leaf) (h : outcome (Layouts.footprintOf p ty l) = .ok f) :
    f.hostSize ≤ f.deviceSize ∧ (leaf.isWidened = false → f.hostSize = f.deviceSize) := by
  have h := measure_innermost.trans ((u.outcome_footprintOf root fit).symm.trans h)
  have inner := TypeRef.innermost_mem root
  have base := ty.base?_innermost
  cases e : ty.innermost
  all_goals rw [e] at h inner base
  case primitive | enum =>
    rw [located.leaf_eq (e ▸ rfl), e]
    exact measure_leaf_sizes rfl h
  case struct name args =>
    have ⟨t, declared, _⟩ := measure_struct_eq_ok_iff.mp h
    have v := v name t base.symm declared
    have ⟨s, found, agrees⟩ := Model.agrees_of_vets (a.checked mem) memory v
    have ⟨t', declared', replays⟩ := (a.describes found).left
    rw [Model.name_of_structure? found] at declared'
    cases declared.symm.trans declared'
    have ⟨d, _, run, same⟩ := exists_describe_of_ofDecl (congrArg outcome (replays l (.refl l)))
    have described := (u.run_steady (u.describe_steady declared inner) fit).left
    rw [run] at described
    have sizes := sizes_eq_of_agrees declared described.symm (same ▸ agrees) h
    exact ⟨Nat.le_of_eq sizes, fun _ => sizes⟩
  case array => exact absurd e TypeRef.innermost_ne_array
  case void | object =>
    rw [measure_eq_derive, Layouts.derive] at h
    cases h

theorem tame_of_located (a : Accepted p c₀ l₀ c l m) (u : Universe p types) (flat : Flat types)
    (fit : l.Fit overrides (Fitting p overrides types)) (mem : r ∈ m.resources)
    (memory : r.kind.hasMemoryLayout) (h : Located p l ty parts leaf) (v : VetsAll p m r ty)
    (root : ty ∈ TypeRef.refsAll types) : ∀ part ∈ parts, part.Tame leaf := by
  induction h
  case leaf => nofun
  case element name element args i f parts leaf footprint located hi =>
    have root := Universe.element_mem root
    have v : VetsAll p m r element := v
    rintro part (_ | ⟨_, h⟩)
    · exact a.footprint_sizes u fit mem memory v root located footprint
    · exact hi v root part h
  case member name args t s f offset parts leaf declared described field _ located hi =>
    have v := v name t rfl declared
    have ⟨d, _, run, same⟩ := exists_describe_of_ofDecl described
    have ⟨types, offsets⟩ := describe_ensures.of_run run
    rw [same] at types offsets
    have ⟨hf, ho⟩ := List.of_mem_zip field
    rintro part (_ | ⟨_, h⟩)
    · exact offsets (a.agrees_of_vets mem memory v declared described) offset ho
    · have ⟨s', found⟩ := v.right
      cases a.structure?_eq found declared described
      have hty : f.ty ∈ t.instanceFields.map FieldDecl.ty := types ▸ List.mem_map_of_mem hf
      have ⟨g, hg, same⟩ := List.mem_map.mp hty
      have root := same ▸ u.fields t (Program.mem_of_type? declared) g hg
      exact hi (a.vets_member flat v found hf root) root part h

end Canonical

end Accepted

theorem Shared.hasMemoryLayout {p : Program} {l : Layouts} {r : Resource} {parts : List Part}
    {leaf : TypeRef} (h : Shared p l r parts leaf) : r.kind.hasMemoryLayout := by
  rcases h with ⟨uniform, _⟩ | ⟨buffer | buffer, _, _⟩
  · rw [uniform]; rfl
  · rw [buffer]; rfl
  · rw [buffer]; rfl

namespace Accepted

variable {p : Program} {c₀ c : Context} {l₀ l : Layouts} {m : Model} {r : Resource} {leaf : TypeRef}
  {parts : List Part} {types : List TypeRef} {overrides : List (String × Nat)}

theorem offset_eq_of_not_unvetted (a : Accepted p c₀ l₀ c l m) (mem : r ∈ m.resources)
    (shared : Shared p l r parts leaf) {part : Part} (h : part ∈ parts)
    (vetted : ¬part.Unvetted m r) : part.offset.host = part.offset.device := by
  cases part
  case element => exact absurd trivial vetted
  case member owner offset =>
    have memory := shared.hasMemoryLayout
    have ⟨t, s, declared, described, ho⟩ : ∃ t s, p.type? owner = some t ∧
        outcome (Structure.ofDecl p t l) = .ok s ∧ offset ∈ s.offsets := by
      rcases shared with ⟨_, located⟩ | ⟨_, _, located⟩
      · exact located.exists_of_member h
      · cases h
        case tail h => exact located.exists_of_member h
    have agrees := a.agrees_of_vets mem memory (Classical.not_not.mp vetted) declared described
    have ⟨d, _, run, same⟩ := exists_describe_of_ofDecl described
    exact (describe_ensures.of_run run).right (same ▸ agrees) offset (same ▸ ho)

theorem tame_of_shared (a : Accepted p c₀ l₀ c l m) (u : Universe p types) (flat : Flat types)
    (fit : l.Fit overrides (Fitting p overrides types)) (mem : r ∈ m.resources)
    (root : r.valueType ∈ TypeRef.refsAll types) (shared : Shared p l r parts leaf) :
    ∀ part ∈ parts, part.Tame leaf := by
  have memory := shared.hasMemoryLayout
  have v := a.vets_value flat mem memory root
  rcases shared with ⟨_, located⟩ | ⟨_, footprint, located⟩
  · exact a.tame_of_located u flat fit mem memory located v root
  · rintro part (_ | ⟨_, h⟩)
    · exact a.footprint_sizes u fit mem memory v root located footprint
    · exact a.tame_of_located u flat fit mem memory located v root part h

end Accepted

theorem Part.Tame.offset_le {leaf : TypeRef} {part : Part} (h : part.Tame leaf) :
    part.offset.host ≤ part.offset.device := by
  cases part
  case member  => exact Nat.le_of_eq h
  case element => exact Nat.mul_le_mul_left _ h.left

-- Among tame steps, only elements can lead farther on one side.
theorem Part.Tame.offset_eq_iff {leaf : TypeRef} {part : Part} (h : part.Tame leaf) :
    part.offset.host = part.offset.device ↔
    ∀ i f, part = .element i f → i = 0 ∨ f.hostSize = f.deviceSize := by
  cases part
  case member      => exact ⟨fun _ => nofun, fun _ => h⟩
  case element i f =>
    constructor
    · rintro same _ _ ⟨⟩
      cases Nat.eq_zero_or_pos i
      case inl zero     => exact .inl zero
      case inr positive => exact .inr (Nat.eq_of_mul_eq_mul_left positive same)
    · intro same
      cases same i f rfl
      case inl zero  => simp [offset, zero]
      case inr sizes => simp [offset, sizes]

open Classical in
theorem host_eq_device_iff_of_accepted (p : Program) (c₀ c : Context) (l₀ l : Layouts) (m : Model)
    (r : Resource) (parts : List Part) (leaf : TypeRef) (accepted : Accepted p c₀ l₀ c l m)
    (mem : r ∈ m.resources) (shared : Shared p l r parts leaf) :
    (Part.hostOffset parts = Part.deviceOffset parts ↔
      Part.hostOffset (parts.filter (Part.Unvetted m r)) =
      Part.deviceOffset (parts.filter (Part.Unvetted m r))) ∧
    (Canonical (p.fieldTypes ++ c₀.touchedTypes p) → Flat (p.fieldTypes ++ c₀.touchedTypes p) →
      l₀.Faithful p (p.fieldTypes ++ c₀.touchedTypes p) →
      (Part.hostOffset parts = Part.deviceOffset parts ↔
        ∀ i f, .element i f ∈ parts → i = 0 ∨ f.hostSize = f.deviceSize) ∧
      (leaf.isWidened = false → Part.hostOffset parts = Part.deviceOffset parts)) := by
  refine ⟨Part.hostOffset_eq_iff_filter fun _ => accepted.offset_eq_of_not_unvetted mem shared, ?_⟩
  intro canonical flat faithful
  have u := Universe.of_canonical canonical
  have touched : ∀ ty ∈ c₀.touchedTypes p,
      ty ∈ TypeRef.refsAll (p.fieldTypes ++ c₀.touchedTypes p) := fun ty h =>
    TypeRef.mem_refsAll.mpr ⟨ty, List.mem_append_right _ h, ty.self_mem_refs⟩
  have fit := accepted.fit u touched (faithful.fit u)
  have root := touched _ (accepted.valueType_mem mem shared.hasMemoryLayout)
  have tame := accepted.tame_of_shared u flat fit mem root shared
  have iff := Part.hostOffset_eq_iff_forall fun part h => (tame part h).offset_le
  have exact_iff : Part.hostOffset parts = Part.deviceOffset parts ↔
      ∀ i f, .element i f ∈ parts → i = 0 ∨ f.hostSize = f.deviceSize := by
    refine iff.trans ⟨fun same i f h => ?_, fun same part h => ?_⟩
    · exact (tame _ h).offset_eq_iff.mp (same _ h) i f rfl
    · exact (tame part h).offset_eq_iff.mpr fun i f e => same i f (e ▸ h)
  refine ⟨exact_iff, fun narrow => exact_iff.mpr fun i f h => .inr ?_⟩
  exact (tame _ h).right narrow

-- Two flags in front of a number. They are wider on the device, which the padding behind them
-- hides.
def switches : Program where
  types         := [{ name := "Switches", kind := .struct, fields := [
    { name := "on", ty := .arrayOf (.primitive "bool" []), arraySize := some 2 },
    { name := "level", ty := .primitive "double" [] }] }]
  sets          := []
  types_nodup   := by decide
  methods_nodup := by decide

def switchResource : Resource :=
  ⟨"Panel", "Demo", 0, 0, .struct "Switches" [], .uniform⟩

def switchStructure : Structure where
  name      := "Switches"
  fields    := [
    ⟨"on", .arrayOf (.primitive "bool" []), .unspecified, 2, ⟨2, 8, 1, 4⟩⟩,
    ⟨"level", .primitive "double" [], .unspecified, 0, .scalar 8⟩]
  footprint := ⟨16, 16, 8, 8⟩
  agrees    := true

def switchContext (structures : List Structure) : Context where
  backend    := "glsl"
  set        := "Demo"
  structures := structures
  resources  := [switchResource]

def switchLayouts : Layouts where
  known := [("Switches", ⟨16, 16, 8, 8⟩), ("double", .scalar 8), ("bool", ⟨1, 4, 1, 4⟩)]

theorem switches_accepted :
    Accepted switches (switchContext []) {} (switchContext [switchStructure]) switchLayouts
      (switchContext [switchStructure]).build where
  fresh         := rfl
  found         := by cbv
  structures_eq := rfl
  resources_eq  := rfl
  valid         := by cbv

theorem second_switch_shared : Shared switches switchLayouts switchResource
    [.member "Switches" ⟨0, 0⟩, .element 1 ⟨1, 4, 1, 4⟩] (.primitive "bool" []) := by
  have flags : Located switches switchLayouts switchStructure.fields[0].ty
      [.element 1 ⟨1, 4, 1, 4⟩] (.primitive "bool" []) := .element (by cbv) (.leaf rfl)
  refine .value rfl (.member (t := switches.types[0]) (s := switchStructure) rfl ?_ ?_ ?_ flags)
  · cbv
  · exact List.mem_cons_self
  · rintro i g rest ⟨⟩
    decide

theorem host_eq_device_iff_of_accepted_switches :
    Accepted switches (switchContext []) {} (switchContext [switchStructure]) switchLayouts
      (switchContext [switchStructure]).build ∧
    Canonical (switches.fieldTypes ++ (switchContext []).touchedTypes switches) ∧
    Flat (switches.fieldTypes ++ (switchContext []).touchedTypes switches) ∧
    (Part.hostOffset [.member "Switches" ⟨0, 0⟩, .element 1 ⟨1, 4, 1, 4⟩] =
        Part.deviceOffset [.member "Switches" ⟨0, 0⟩, .element 1 ⟨1, 4, 1, 4⟩] ↔
      ∀ i f, .element i f ∈ [Part.member "Switches" ⟨0, 0⟩, .element 1 ⟨1, 4, 1, 4⟩] →
        i = 0 ∨ f.hostSize = f.deviceSize) :=
  ⟨switches_accepted, by decide, by decide,
    ((host_eq_device_iff_of_accepted _ _ _ _ _ _ _ _ _ switches_accepted List.mem_cons_self
      second_switch_shared).right (by decide) (by decide) nofun).left⟩

-- Validation accepts the flags, but the second one lies at 1 on the host and at 4 on the device.
theorem accepted_with_elements_apart :
    ∃ p c₀ l₀ c l m r parts leaf, Accepted p c₀ l₀ c l m ∧ r ∈ m.resources ∧
      Shared p l r parts leaf ∧ Part.hostOffset parts = 1 ∧ Part.deviceOffset parts = 4 :=
  ⟨_, _, _, _, _, _, _, _, _, switches_accepted, List.mem_cons_self, second_switch_shared,
    by decide, by decide⟩

end Shading
