import Shading.ShaderSet
import Shading.Proofs.Packing
import Mathlib
/-!
The shader sets of a program are the declared ones and one for each type with entry points that no
declaration refers to. Each entry point belongs to sets of one of these kinds, and discovery fails
only if the declarations do not resolve, or if the sets or their entry points would be ambiguous.
-/

namespace Shading

namespace MethodId

variable {reference : String} {id id' : MethodId}

-- A reference is the text of the method that it names. The name of the method is all that stands
-- behind the last dot.
structure Named (id : MethodId) (reference : String) : Prop where
  text  : reference = id.text
  owner : id.owner ≠ ""
  name  : id.name ≠ ""
  plain : '.' ∉ id.name.toList

theorem parse?_of_reverse {name owner : List Char} (plain : '.' ∉ name)
    (cut : reference.toList.reverse = name ++ '.' :: owner) :
    parse? reference = if owner.isEmpty || name.isEmpty then none
      else some ⟨String.ofList owner.reverse, String.ofList name.reverse⟩ := by
  have plain : ∀ c ∈ name, decide (c ≠ '.') = true := by
    intro c mem
    simp only [decide_eq_true_eq]
    rintro rfl
    exact plain mem
  simp only [parse?, cut]
  rw [List.takeWhile_append_of_pos plain, List.dropWhile_append_of_pos plain]
  simp

theorem parse?_eq_some_iff : parse? reference = some id ↔ id.Named reference := by
  constructor
  case mp =>
    intro h
    by_cases dot : '.' ∈ reference.toList.reverse
    case neg =>
      have none : reference.toList.reverse.dropWhile (· ≠ '.') = [] := by
        refine List.dropWhile_eq_nil_iff.mpr fun c mem => ?_
        simpa using ne_of_mem_of_not_mem mem dot
      simp only [parse?, none] at h
      cases h
    case pos =>
      have ⟨name, owner, cut, plain⟩ := List.eq_append_cons_of_mem dot
      rw [parse?_of_reverse plain cut] at h
      split at h
      case isTrue => cases h
      case isFalse filled =>
        cases h
        have ⟨filledOwner, filledName⟩ : owner ≠ [] ∧ name ≠ [] := by simpa using filled
        refine ⟨String.toList_injective ?_, by simpa using filledOwner, by simpa using filledName,
          by simpa using plain⟩
        simpa [MethodId.text] using congrArg List.reverse cut
  case mpr =>
    rintro ⟨rfl, owner, name, plain⟩
    have cut : id.text.toList.reverse =
        id.name.toList.reverse ++ '.' :: id.owner.toList.reverse := by
      simp [MethodId.text]
    rw [parse?_of_reverse (by simpa using plain) cut]
    simp [owner, name]

theorem Named.unique (h : id.Named reference) (h' : id'.Named reference) : id = id' :=
  Option.some.inj ((parse?_eq_some_iff.mpr h).symm.trans (parse?_eq_some_iff.mpr h'))

end MethodId

namespace PerStage

theorem mem_present {entries : PerStage (Option α)} {stage : Stage} {a : α} :
    (stage, a) ∈ entries.present ↔ entries.get stage = some a := by
  cases stage <;> simp [present, Stage.all]

theorem ext_get {entries entries' : PerStage α}
    (h : ∀ stage, entries.get stage = entries'.get stage) :
    entries = entries' := by
  obtain ⟨vertex, fragment, compute⟩ := entries
  obtain ⟨vertex', fragment', compute'⟩ := entries'
  cases h .vertex
  cases h .fragment
  cases h .compute
  rfl

end PerStage

variable {p : Program} {t : TypeDecl} {d : SetDecl} {s : ShaderSet} {stage : Stage}
  {id : MethodId} {m m' : MethodDecl} {s' : ShaderSet} {sets explicit implicit : List ShaderSet}
  {referenced : List MethodId}

-- A method that is declared to be the entry point of the stage.
def Program.Entry (p : Program) (stage : Stage) (id : MethodId) : Prop :=
  ∃ m, p.method? id = some m ∧ m.stage = some stage

-- A method that a declared set refers to, in whatever stage.
def Program.Referenced (p : Program) (id : MethodId) : Prop :=
  ∃ d ∈ p.sets, ∃ stage reference, d.entries.get stage = some reference ∧ id.Named reference

-- An entry point that a type declares and that no declared set refers to.
structure Program.Free (p : Program) (t : TypeDecl) (stage : Stage) (m : MethodDecl) : Prop where
  declared     : m ∈ t.methods
  stage_eq     : m.stage = some stage
  unreferenced : ¬p.Referenced ⟨t.name, m.name⟩

-- The types with such entry points.
open Classical in
noncomputable def Program.freeTypes (p : Program) : List TypeDecl :=
  p.types.filter fun t => ∃ stage m, p.Free t stage m

theorem Program.method?_eq_some_iff :
    p.method? id = some m ↔ ∃ t ∈ p.types, m ∈ t.methods ∧ id = ⟨t.name, m.name⟩ := by
  constructor
  · intro h
    have ⟨t, known, found⟩ := Option.bind_eq_some_iff.mp h
    have name : m.name = id.name := by simpa using List.find?_some found
    refine ⟨t, mem_of_type? known, List.mem_of_find?_eq_some found, ?_⟩
    rw [name_eq_of_type? known, name]
  · rintro ⟨t, mem, declared, rfl⟩
    have found := find?_key_of_mem (p.methods_nodup t mem) declared
    exact Option.bind_eq_some_iff.mpr ⟨t, type?_eq_some_iff.mpr ⟨mem, rfl⟩, found⟩

namespace ShaderSet

-- Whether a method is an entry point of the set, in whatever stage.
def Contains (s : ShaderSet) (id : MethodId) : Prop :=
  ∃ stage, s.entries.get stage = some id

theorem mem_entryPoints : id ∈ s.entryPoints.map Prod.snd ↔ s.Contains id := by
  simp [Contains, entryPoints, PerStage.mem_present]

theorem isEmpty_eq_false_iff : s.isEmpty = false ↔ ∃ id, s.Contains id := by
  simp only [isEmpty, List.isEmpty_eq_false_iff_exists_mem, Prod.exists, Contains, entryPoints,
    PerStage.mem_present]
  exact exists_comm

theorem resolveEntry_eq_ok_iff {set reference : String} :
    resolveEntry p set stage reference = .ok id ↔ id.Named reference ∧ p.Entry stage id := by
  rw [← MethodId.parse?_eq_some_iff]
  constructor
  · intro h
    simp only [resolveEntry] at h
    split at h
    case h_1 => cases h
    case h_2 parsed =>
      split at h
      case h_1 => cases h
      case h_2 m known =>
        split at h <;> cases h
        exact ⟨parsed, m, known, ‹_›⟩
  · rintro ⟨parsed, m, known, stage_eq⟩
    simp [resolveEntry, parsed, known, stage_eq]

-- What a declaration resolves to: each of its references names an entry point of its stage.
structure Resolves (p : Program) (d : SetDecl) (s : ShaderSet) : Prop where
  name   : s.name = d.name
  slots  : ∀ stage, Option.Rel (fun reference id => id.Named reference ∧ p.Entry stage id)
    (d.entries.get stage) (s.entries.get stage)
  filled : ∃ id, s.Contains id

-- What the free entry points of a type form. There is at most one of each stage.
structure Forms (p : Program) (t : TypeDecl) (s : ShaderSet) : Prop where
  name  : s.name = t.short
  slots : ∀ stage id, s.entries.get stage = some id ↔ ∃ m, p.Free t stage m ∧ id = ⟨t.name, m.name⟩

theorem option_mapM_eq_ok_iff {f : α → Except ε β} {a : Option α} {b : Option β} :
    a.mapM f = .ok b ↔ Option.Rel (fun a b => f a = .ok b) a b := by
  cases a
  case none =>
    cases b
    case none => exact ⟨fun _ => .none, fun _ => rfl⟩
    case some => exact ⟨nofun, nofun⟩
  case some a =>
    have mapped : (some a).mapM f = (f a >>= fun b => pure (some b)) := rfl
    rw [mapped, bind_eq_ok_iff]
    constructor
    · rintro ⟨b', found, h⟩
      cases h
      exact .some found
    · rintro (found | _)
      exact ⟨_, found, rfl⟩

theorem forall₂_congr_of_mem {R S : α → β → Prop} {as : List α} {bs : List β}
    (same : ∀ a ∈ as, ∀ b, R a b ↔ S a b) : as.Forall₂ R bs ↔ as.Forall₂ S bs := by
  induction as generalizing bs
  case nil => simp
  case cons a as hi =>
    have rest (bs : List β) : as.Forall₂ R bs ↔ as.Forall₂ S bs :=
      hi fun a' mem => same a' (List.mem_cons_of_mem a mem)
    simp only [List.forall₂_cons_left_iff, same a List.mem_cons_self, rest]

theorem ofDecl_eq_ok_iff : ofDecl p d = .ok s ↔ Resolves p d s := by
  simp only [ofDecl, bind_eq_ok_iff, option_mapM_eq_ok_iff, resolveEntry_eq_ok_iff]
  constructor
  · rintro ⟨vertex, first, fragment, second, compute, third, h⟩
    split at h
    case isTrue => cases h
    case isFalse filled =>
      cases h
      refine ⟨rfl, fun stage => ?_, isEmpty_eq_false_iff.mp (by simpa using filled)⟩
      cases stage
      case vertex   => exact first
      case fragment => exact second
      case compute  => exact third
  · obtain ⟨name, ⟨vertex, fragment, compute⟩⟩ := s
    rintro ⟨rfl, slots, filled⟩
    refine ⟨vertex, slots .vertex, fragment, slots .fragment, compute, slots .compute, ?_⟩
    rw [isEmpty_eq_false_iff.mpr filled]
    rfl

theorem mem_freeEntries : id ∈ freeEntries referenced t stage ↔
    ∃ m ∈ t.methods, m.stage = some stage ∧ id = ⟨t.name, m.name⟩ ∧ id ∉ referenced := by
  simp only [freeEntries, List.mem_filter, List.mem_map, decide_eq_true_eq]
  constructor
  · rintro ⟨⟨m, ⟨declared, stage_eq⟩, rfl⟩, free⟩
    exact ⟨m, declared, stage_eq, rfl, free⟩
  · rintro ⟨m, declared, stage_eq, rfl, free⟩
    exact ⟨⟨m, ⟨declared, stage_eq⟩, rfl⟩, free⟩

theorem nodup_freeEntries (declared : t ∈ p.types) : (freeEntries referenced t stage).Nodup := by
  refine List.Nodup.filter _ (List.Nodup.of_map MethodId.name ?_)
  rw [List.map_map]
  exact (p.methods_nodup t declared).sublist (List.filter_sublist.map _)

theorem freeEntry_eq_ok_iff {entry : Option MethodId} :
    freeEntry referenced t stage = .ok entry ↔ freeEntries referenced t stage = entry.toList := by
  simp only [freeEntry]
  split
  case h_1 none => cases entry <;> simp [none]
  case h_2 one  => cases entry <;> simp [one]
  case h_3 none many =>
    cases entry
    case none       => simpa using none
    case some entry => simpa using many entry

theorem ofType_eq_ok_iff (declared : t ∈ p.types) (same : ∀ id, id ∈ referenced ↔ p.Referenced id) :
    ofType referenced t = .ok s ↔ Forms p t s := by
  have free (stage : Stage) (id : MethodId) : id ∈ freeEntries referenced t stage ↔
      ∃ m, p.Free t stage m ∧ id = ⟨t.name, m.name⟩ := by
    rw [mem_freeEntries]
    constructor
    · rintro ⟨m, declared, stage_eq, rfl, free⟩
      exact ⟨m, ⟨declared, stage_eq, mt (same _).mpr free⟩, rfl⟩
    · rintro ⟨m, ⟨declared, stage_eq, free⟩, rfl⟩
      exact ⟨m, declared, stage_eq, rfl, mt (same _).mp free⟩
  simp only [ofType, bind_eq_ok_iff, freeEntry_eq_ok_iff]
  constructor
  · rintro ⟨vertex, first, fragment, second, compute, third, h⟩
    cases h
    refine ⟨rfl, fun stage id => ?_⟩
    rw [← free, ← Option.mem_toList]
    cases stage
    case vertex   => rw [first]; rfl
    case fragment => rw [second]; rfl
    case compute  => rw [third]; rfl
  · obtain ⟨name, entries⟩ := s
    rintro ⟨rfl, slots⟩
    -- The free entry points of a stage are distinct, and all of them are in one slot.
    have gathered (stage : Stage) :
        freeEntries referenced t stage = (entries.get stage).toList := by
      have perm : (freeEntries referenced t stage).Perm (entries.get stage).toList := by
        refine (List.perm_ext_iff_of_nodup (nodup_freeEntries declared) ?_).mpr fun id => ?_
        · cases entries.get stage <;> simp
        · rw [free, ← slots, Option.mem_toList]
      cases known : entries.get stage
      case none   => simpa [known] using perm
      case some _ => simpa [known] using perm
    exact ⟨_, gathered .vertex, _, gathered .fragment, _, gathered .compute, rfl⟩

theorem Resolves.contains_iff (h : Resolves p d s) : s.Contains id ↔
    ∃ stage reference, d.entries.get stage = some reference ∧ id.Named reference := by
  constructor
  · rintro ⟨stage, slot⟩
    have rel := h.slots stage
    rw [slot] at rel
    cases known : d.entries.get stage with rw [known] at rel
    | none           => cases rel
    | some reference =>
      cases rel with
      | some found => exact ⟨stage, reference, known, found.1⟩
  · rintro ⟨stage, reference, known, named⟩
    have rel := h.slots stage
    rw [known] at rel
    cases slot : s.entries.get stage with rw [slot] at rel
    | none     => cases rel
    | some id' =>
      cases rel with
      | some found => exact ⟨stage, slot.trans (congrArg some (found.1.unique named))⟩

theorem Resolves.entry (h : Resolves p d s) (slot : s.entries.get stage = some id) :
    p.Entry stage id := by
  have rel := h.slots stage
  rw [slot] at rel
  generalize d.entries.get stage = reference at rel
  cases rel with
  | some found => exact found.2

theorem exists_resolves_iff : (∃ s, Resolves p d s) ↔
    (∀ stage reference, d.entries.get stage = some reference →
      ∃ id : MethodId, id.Named reference ∧ p.Entry stage id) ∧
    ∃ stage reference, d.entries.get stage = some reference := by
  constructor
  · rintro ⟨s, h⟩
    constructor
    · intro stage reference known
      have rel := h.slots stage
      rw [known] at rel
      generalize s.entries.get stage = slot at rel
      cases rel with
      | some found => exact ⟨_, found⟩
    · have ⟨id, contained⟩ := h.filled
      have ⟨stage, reference, known, _⟩ := h.contains_iff.mp contained
      exact ⟨stage, reference, known⟩
  · rintro ⟨resolvable, stage, reference, known⟩
    have slots (stage : Stage) : ∃ slot, Option.Rel
        (fun reference (id : MethodId) => id.Named reference ∧ p.Entry stage id)
        (d.entries.get stage) slot := by
      cases known : d.entries.get stage with
      | none   => exact ⟨none, .none⟩
      | some _ =>
        have ⟨id, found⟩ := resolvable stage _ known
        exact ⟨some id, .some found⟩
    choose slot related using slots
    have related (stage : Stage) : Option.Rel
        (fun reference (id : MethodId) => id.Named reference ∧ p.Entry stage id)
        (d.entries.get stage) ((PerStage.ofFn slot).get stage) := by
      rw [PerStage.get_ofFn]
      exact related stage
    refine ⟨⟨d.name, .ofFn slot⟩, rfl, related, ?_⟩
    have rel := related stage
    rw [known] at rel
    cases filled : (PerStage.ofFn slot).get stage with rw [filled] at rel
    | none    => cases rel
    | some id => exact ⟨id, stage, filled⟩

theorem not_exists_resolves_iff : (¬∃ s, Resolves p d s) ↔
    (∃ stage reference, d.entries.get stage = some reference ∧
      ∀ id : MethodId, id.Named reference → ¬p.Entry stage id) ∨
    ∀ stage, d.entries.get stage = none := by
  rw [exists_resolves_iff, not_and_or]
  refine or_congr ?_ ?_
  · push Not
    rfl
  · simp only [not_exists, Option.eq_none_iff_forall_ne_some, ne_eq]

theorem Forms.contains_iff (h : Forms p t s) :
    s.Contains id ↔ ∃ stage m, p.Free t stage m ∧ id = ⟨t.name, m.name⟩ :=
  exists_congr fun stage => h.slots stage id

theorem Forms.unique (h : Forms p t s) (h' : Forms p t s') : s = s' := by
  obtain ⟨name, entries⟩ := s
  obtain ⟨name', entries'⟩ := s'
  cases h.name.trans h'.name.symm
  have same : entries = entries' := PerStage.ext_get fun stage => Option.ext fun id =>
    (h.slots stage id).trans (h'.slots stage id).symm
  rw [same]

theorem exists_forms_iff (declared : t ∈ p.types) : (∃ s, Forms p t s) ↔
    ∀ stage m m', p.Free t stage m → p.Free t stage m' → m = m' := by
  constructor
  · rintro ⟨s, h⟩ stage m m' free free'
    have slot := (h.slots stage _).mpr ⟨m, free, rfl⟩
    have slot' := (h.slots stage _).mpr ⟨m', free', rfl⟩
    have same : MethodId.mk t.name m.name = ⟨t.name, m'.name⟩ :=
      Option.some.inj (slot.symm.trans slot')
    exact List.inj_on_of_nodup_map (p.methods_nodup t declared) free.declared free'.declared
      (congrArg MethodId.name same)
  · intro alone
    have slots (stage : Stage) : ∃ slot : Option MethodId, ∀ id, slot = some id ↔
        ∃ m, p.Free t stage m ∧ id = ⟨t.name, m.name⟩ := by
      by_cases free : ∃ m, p.Free t stage m
      case pos =>
        obtain ⟨m, free⟩ := free
        refine ⟨some ⟨t.name, m.name⟩, fun id => ⟨fun h => ⟨m, free, (Option.some.inj h).symm⟩, ?_⟩⟩
        rintro ⟨m', free', rfl⟩
        rw [alone stage m m' free free']
      case neg =>
        refine ⟨none, fun id => ⟨nofun, ?_⟩⟩
        rintro ⟨m, found, _⟩
        exact absurd ⟨m, found⟩ free
    choose slot filled using slots
    refine ⟨⟨t.short, .ofFn slot⟩, rfl, fun stage => ?_⟩
    rw [PerStage.get_ofFn]
    exact filled stage

theorem not_exists_forms_iff (declared : t ∈ p.types) : (¬∃ s, Forms p t s) ↔
    ∃ stage m m', p.Free t stage m ∧ p.Free t stage m' ∧ m ≠ m' := by
  rw [exists_forms_iff declared]
  push Not
  rfl

theorem mem_flatMap_entryPoints (resolved : p.sets.Forall₂ (Resolves p) explicit) :
    id ∈ (explicit.flatMap fun s => s.entryPoints.map Prod.snd) ↔ p.Referenced id := by
  simp only [List.mem_flatMap, mem_entryPoints]
  constructor
  · rintro ⟨s, mem, contained⟩
    obtain ⟨d, declared, h⟩ := exists_left_of_mem resolved mem
    exact ⟨d, declared, h.contains_iff.mp contained⟩
  · rintro ⟨d, declared, named⟩
    obtain ⟨s, mem, h⟩ := exists_right_of_mem resolved declared
    exact ⟨s, mem, h.contains_iff.mpr named⟩

theorem mapM_ofType_eq_ok_iff {formed : List ShaderSet}
    (same : ∀ id, id ∈ referenced ↔ p.Referenced id) :
    p.types.mapM (ofType referenced) = .ok formed ↔ p.types.Forall₂ (Forms p) formed := by
  rw [list_mapM_eq_ok_iff]
  exact forall₂_congr_of_mem fun t declared s => ofType_eq_ok_iff declared same

theorem forall₂_freeTypes {formed : List ShaderSet} (related : p.types.Forall₂ (Forms p) formed) :
    p.freeTypes.Forall₂ (Forms p) (formed.filter (!·.isEmpty)) := by
  refine List.rel_filter (fun t s h => ?_) related
  simp only [decide_eq_true_eq, Bool.not_eq_true', isEmpty_eq_false_iff]
  constructor
  · rintro ⟨stage, m, free⟩
    exact ⟨_, h.contains_iff.mpr ⟨stage, m, free, rfl⟩⟩
  · rintro ⟨id, contained⟩
    have ⟨stage, m, free, _⟩ := h.contains_iff.mp contained
    exact ⟨stage, m, free⟩

theorem discover_eq_ok_iff : discover p = .ok sets ↔ (sets.map ShaderSet.name).Nodup ∧
    ∃ explicit formed, sets = explicit ++ formed.filter (!·.isEmpty) ∧
      p.sets.Forall₂ (Resolves p) explicit ∧ p.types.Forall₂ (Forms p) formed := by
  simp only [discover, bind_eq_ok_iff, list_mapM_eq_ok_iff, ofDecl_eq_ok_iff]
  constructor
  · rintro ⟨explicit, resolved, formed, h, h'⟩
    rw [← list_mapM_eq_ok_iff,
        mapM_ofType_eq_ok_iff fun id => mem_flatMap_entryPoints resolved] at h
    split at h'
    case h_1 => cases h'
    case h_2 distinct =>
      cases h'
      exact ⟨(firstRepeat?_eq_none_iff.mp distinct).1, explicit, formed, rfl, resolved, h⟩
  · rintro ⟨distinct, explicit, formed, rfl, resolved, h⟩
    rw [← mapM_ofType_eq_ok_iff fun id => mem_flatMap_entryPoints resolved,
        list_mapM_eq_ok_iff] at h
    refine ⟨explicit, resolved, formed, h, ?_⟩
    rw [firstRepeat?_eq_none_iff.mpr ⟨distinct, by simp⟩]
    rfl

-- The names of the sets are known from the declarations.
theorem names_eq {formed : List ShaderSet} (resolved : p.sets.Forall₂ (Resolves p) explicit)
    (related : p.types.Forall₂ (Forms p) formed) :
    (explicit ++ formed.filter (!·.isEmpty)).map ShaderSet.name =
      p.sets.map SetDecl.name ++ p.freeTypes.map TypeDecl.short := by
  rw [List.map_append, map_eq_map_of_forall₂ resolved fun d s h => h.name,
    map_eq_map_of_forall₂ (forall₂_freeTypes related) fun t s h => h.name]

theorem exists_discover_eq_ok_iff : (∃ sets, discover p = .ok sets) ↔
    (∀ d ∈ p.sets, ∃ s, Resolves p d s) ∧ (∀ t ∈ p.types, ∃ s, Forms p t s) ∧
    (p.sets.map SetDecl.name ++ p.freeTypes.map TypeDecl.short).Nodup := by
  simp only [discover_eq_ok_iff, ← exists_forall₂_iff]
  constructor
  · rintro ⟨sets, distinct, explicit, formed, rfl, resolved, related⟩
    rw [names_eq resolved related] at distinct
    exact ⟨⟨explicit, resolved⟩, ⟨formed, related⟩, distinct⟩
  · rintro ⟨⟨explicit, resolved⟩, ⟨formed, related⟩, distinct⟩
    rw [← names_eq resolved related] at distinct
    exact ⟨_, distinct, explicit, formed, rfl, resolved, related⟩

theorem exists_discover_eq_error_iff : (∃ e, discover p = .error e) ↔
    (∃ d ∈ p.sets, ∃ stage reference, d.entries.get stage = some reference ∧
      ∀ id : MethodId, id.Named reference → ¬p.Entry stage id) ∨
    (∃ d ∈ p.sets, ∀ stage, d.entries.get stage = none) ∨
    (∃ t ∈ p.types, ∃ stage m m', p.Free t stage m ∧ p.Free t stage m' ∧ m ≠ m') ∨
    ¬(p.sets.map SetDecl.name ++ p.freeTypes.map TypeDecl.short).Nodup := by
  have failed : (∃ e, discover p = .error e) ↔ ¬∃ sets, discover p = .ok sets := by
    cases discover p <;> simp
  have unresolved : (¬∀ d ∈ p.sets, ∃ s, Resolves p d s) ↔
      (∃ d ∈ p.sets, ∃ stage reference, d.entries.get stage = some reference ∧
        ∀ id : MethodId, id.Named reference → ¬p.Entry stage id) ∨
      ∃ d ∈ p.sets, ∀ stage, d.entries.get stage = none := by
    simp only [not_forall, exists_prop, not_exists_resolves_iff, and_or_left, exists_or]
  have crowded : (¬∀ t ∈ p.types, ∃ s, Forms p t s) ↔
      ∃ t ∈ p.types, ∃ stage m m', p.Free t stage m ∧ p.Free t stage m' ∧ m ≠ m' := by
    simp only [not_forall, exists_prop]
    exact exists_congr fun t => and_congr_right fun declared => not_exists_forms_iff declared
  rw [failed, exists_discover_eq_ok_iff, not_and_or, not_and_or, unresolved, crowded, or_assoc]

-- An entry point that a declared set refers to belongs to declared sets only.
theorem contains_of_referenced (resolved : p.sets.Forall₂ (Resolves p) explicit)
    (related : p.freeTypes.Forall₂ (Forms p) implicit) (named : p.Referenced id) :
    (∃ s ∈ explicit, s.Contains id) ∧ ∀ s ∈ implicit, ¬s.Contains id := by
  constructor
  · have ⟨d, declared, named⟩ := named
    obtain ⟨s, mem, h⟩ := exists_right_of_mem resolved declared
    exact ⟨s, mem, h.contains_iff.mpr named⟩
  · intro s mem contained
    have ⟨t, _, h⟩ := exists_left_of_mem related mem
    obtain ⟨_, m, free, rfl⟩ := h.contains_iff.mp contained
    exact free.unreferenced named

-- Any other belongs to the set of its type only.
theorem contains_of_free (resolved : p.sets.Forall₂ (Resolves p) explicit)
    (related : p.freeTypes.Forall₂ (Forms p) implicit) (declared : t ∈ p.types)
    (free : p.Free t stage m) :
    (∀ s ∈ explicit, ¬s.Contains ⟨t.name, m.name⟩) ∧
    ∃ s ∈ implicit, Forms p t s ∧ ∀ s' ∈ implicit, s'.Contains ⟨t.name, m.name⟩ ↔ s' = s := by
  constructor
  · intro s mem contained
    have ⟨d, declared, h⟩ := exists_left_of_mem resolved mem
    exact free.unreferenced ⟨d, declared, h.contains_iff.mp contained⟩
  · have mem : t ∈ p.freeTypes := by
      simpa [Program.freeTypes] using ⟨declared, stage, m, free⟩
    have ⟨s, mem, h⟩ := exists_right_of_mem related mem
    refine ⟨s, mem, h, fun s' mem' => ⟨fun contained => ?_, ?_⟩⟩
    · have ⟨t', mem', h'⟩ := exists_left_of_mem related mem'
      have ⟨_, m', _, same⟩ := h'.contains_iff.mp contained
      have declared' : t' ∈ p.types := List.mem_of_mem_filter mem'
      have : t = t' := List.inj_on_of_nodup_map p.types_nodup declared declared'
        (congrArg MethodId.owner same)
      subst this
      exact h'.unique h
    · rintro rfl
      exact h.contains_iff.mpr ⟨stage, m, free, rfl⟩

theorem entry_of_mem (resolved : p.sets.Forall₂ (Resolves p) explicit)
    (related : p.freeTypes.Forall₂ (Forms p) implicit) (mem : s ∈ explicit ++ implicit)
    (slot : s.entries.get stage = some id) : p.Entry stage id := by
  rcases List.mem_append.mp mem with mem | mem
  · have ⟨d, _, h⟩ := exists_left_of_mem resolved mem
    exact h.entry slot
  · have ⟨t, free, h⟩ := exists_left_of_mem related mem
    obtain ⟨m, free', rfl⟩ := (h.slots stage id).mp slot
    have known := Program.method?_eq_some_iff.mpr
      ⟨t, List.mem_of_mem_filter free, free'.declared, rfl⟩
    exact ⟨m, known, free'.stage_eq⟩

theorem filled_of_mem (resolved : p.sets.Forall₂ (Resolves p) explicit)
    (related : p.freeTypes.Forall₂ (Forms p) implicit) (mem : s ∈ explicit ++ implicit) :
    ∃ id, s.Contains id := by
  rcases List.mem_append.mp mem with mem | mem
  · have ⟨d, _, h⟩ := exists_left_of_mem resolved mem
    exact h.filled
  · have ⟨t, free, h⟩ := exists_left_of_mem related mem
    have ⟨stage, m, free⟩ : ∃ stage m, p.Free t stage m := by
      simpa using List.of_mem_filter free
    exact ⟨_, h.contains_iff.mpr ⟨stage, m, free, rfl⟩⟩

end ShaderSet

open ShaderSet

theorem entry_points_partitioned (p : Program) :
    (∀ sets, discover p = .ok sets → (sets.map ShaderSet.name).Nodup ∧
      (∀ s ∈ sets, ∃ id, s.Contains id) ∧
      (∀ s ∈ sets, ∀ stage id, s.entries.get stage = some id → p.Entry stage id) ∧
      ∃ explicit implicit, sets = explicit ++ implicit ∧
        (p.sets.Forall₂ (Resolves p) explicit) ∧ (p.freeTypes.Forall₂ (Forms p) implicit) ∧
        ∀ t ∈ p.types, ∀ m ∈ t.methods, ∀ stage, m.stage = some stage →
          ((∃ s ∈ explicit, s.Contains ⟨t.name, m.name⟩) ∧
            (∀ s ∈ implicit, ¬s.Contains ⟨t.name, m.name⟩)) ∨
          ((∀ s ∈ explicit, ¬s.Contains ⟨t.name, m.name⟩) ∧
            (∃ s ∈ implicit, Forms p t s ∧
              ∀ s' ∈ implicit, s'.Contains ⟨t.name, m.name⟩ ↔ s' = s))) ∧
    ((∃ e, discover p = .error e) ↔
      (∃ d ∈ p.sets, ∃ stage reference, d.entries.get stage = some reference ∧
        ∀ id : MethodId, id.Named reference → ¬p.Entry stage id) ∨
      (∃ d ∈ p.sets, ∀ stage, d.entries.get stage = none) ∨
      (∃ t ∈ p.types, ∃ stage m m', p.Free t stage m ∧ p.Free t stage m' ∧ m ≠ m') ∨
      ¬(p.sets.map SetDecl.name ++ p.freeTypes.map TypeDecl.short).Nodup) := by
  refine ⟨fun sets discovered => ?_, exists_discover_eq_error_iff⟩
  obtain ⟨distinct, explicit, formed, rfl, resolved, formed'⟩ := discover_eq_ok_iff.mp discovered
  have related := forall₂_freeTypes formed'
  refine ⟨distinct, fun s => filled_of_mem resolved related,
    fun s mem stage id => entry_of_mem resolved related mem, explicit, _, rfl, resolved, related,
    ?_⟩
  intro t declared m declared' stage stage_eq
  by_cases named : p.Referenced ⟨t.name, m.name⟩
  case pos => exact .inl (contains_of_referenced resolved related named)
  case neg => exact .inr (contains_of_free resolved related declared ⟨declared', stage_eq, named⟩)

-- Two sets share an entry point of the first type, which keeps one for a set of its own.
def torches : Program where
  types         := [
    { name := "Cave.Torch", kind := .object, methods := [
      { name := "place", returnType := .unit, stage := some .vertex },
      { name := "burn", returnType := .unit, stage := some .fragment },
      { name := "glow", returnType := .unit, stage := some .fragment }] },
    { name := "Cave.Lamp", kind := .object, methods := [
      { name := "shine", returnType := .unit, stage := some .fragment }] }]
  sets          := [
    ⟨"Night", ⟨some "Cave.Torch.place", some "Cave.Torch.burn", none⟩⟩,
    ⟨"Dusk", ⟨some "Cave.Torch.place", none, none⟩⟩]
  types_nodup   := by decide
  methods_nodup := by decide

theorem entry_points_partitioned_torches : ∃ sets, discover torches = .ok sets ∧
    sets.map ShaderSet.name = ["Night", "Dusk", "Torch", "Lamp"] ∧
    (∀ s ∈ sets, ∃ id, s.Contains id) ∧
    ∀ s ∈ sets, ∀ stage id, s.entries.get stage = some id → torches.Entry stage id := by
  have discovered : discover torches = .ok [
      ⟨"Night", ⟨some ⟨"Cave.Torch", "place"⟩, some ⟨"Cave.Torch", "burn"⟩, none⟩⟩,
      ⟨"Dusk", ⟨some ⟨"Cave.Torch", "place"⟩, none, none⟩⟩,
      ⟨"Torch", ⟨none, some ⟨"Cave.Torch", "glow"⟩, none⟩⟩,
      ⟨"Lamp", ⟨none, some ⟨"Cave.Lamp", "shine"⟩, none⟩⟩] := rfl
  have ⟨_, filled, entries, _⟩ := (entry_points_partitioned torches).left _ discovered
  exact ⟨_, discovered, rfl, filled, entries⟩

end Shading
