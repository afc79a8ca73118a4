import Shading.Proofs.CallSequences
import Shading.Proofs.SetDiscovery
import Mathlib
/-!
The types of a program, as calls add them one by one.

A program looks a name up by going through its types. The same answers can be had from an index that
keeps the position of each name, as long as the index and the types grow together. They do so in
every sequence of calls, whichever of them fail.
-/

namespace Shading

open Calls

variable {p p' : Program} {t : TypeDecl} {m : MethodDecl} {id : MethodId} {name : String}
  {calls : List TypeDecl} {position : Nat}

namespace Program

-- The call that adds a type to a program in place.
def adding (t : TypeDecl) : EStateM Conflict Program Unit := fun p =>
  match p.addType t with
  | .ok p'   => .ok () p'
  | .error c => .error c p

-- All that an addition can come to.
inductive Adds (p : Program) (t : TypeDecl) : EStateM.Result Conflict Program Unit → Prop
  | taken (taken : t.name ∈ p.types.map TypeDecl.name) :
      Adds p t (.error (.duplicateType t.name) p)
  | repeated {method : String} (fresh : t.name ∉ p.types.map TypeDecl.name)
      (repeated : firstRepeat? [] (t.methods.map MethodDecl.name) = some method) :
      Adds p t (.error (.duplicateMethod t.name method) p)
  | added {p' : Program} (fresh : t.name ∉ p.types.map TypeDecl.name)
      (distinct : firstRepeat? [] (t.methods.map MethodDecl.name) = none)
      (types : p'.types = p.types ++ [t]) : Adds p t (.ok () p')

theorem adding_adds (p : Program) (t : TypeDecl) : p.Adds t (adding t p) := by
  rw [adding, addType]
  by_cases taken : t.name ∈ p.types.map TypeDecl.name
  case pos => simpa only [taken] using .taken taken
  case neg =>
    simp only [taken, reduceDIte]
    split
    case h_1 added =>
      split at added <;> cases added
      case h_2 distinct => exact .added taken distinct rfl
    case h_2 refused =>
      split at refused <;> cases refused
      case h_1 repeated => exact .repeated taken repeated

theorem succeeds_adding_iff : Succeeds adding t p ↔
    t.name ∉ p.types.map TypeDecl.name ∧ (t.methods.map MethodDecl.name).Nodup := by
  have distinct_iff : (t.methods.map MethodDecl.name).Nodup ↔
      firstRepeat? [] (t.methods.map MethodDecl.name) = none := by
    simp [firstRepeat?_eq_none_iff]
  have adds := adding_adds p t
  rw [Succeeds, distinct_iff]
  generalize adding t p = result at adds
  cases adds
  case taken taken            => simp [taken]
  case repeated repeated      => simp [repeated]
  case added fresh distinct _ => simp [fresh, distinct]

-- A call that fails leaves the program as it is.
theorem leftover_adding_of_not_succeeds (refused : ¬Succeeds adding t p) :
    leftover (adding t p) = p := by
  have adds := adding_adds p t
  rw [Succeeds] at refused
  generalize adding t p = result at adds refused
  cases adds
  case taken | repeated => rfl
  case added p' _ _ _   => exact absurd ⟨(), p', rfl⟩ refused

theorem types_after : (after adding calls p).types = p.types ++ succeeding adding calls p := by
  induction calls generalizing p
  case nil => simp [after, succeeding]
  case cons t calls hi =>
    have adds := adding_adds p t
    rw [after, List.foldl_cons, succeeding]
    generalize adding t p = result at adds
    cases adds
    case taken | repeated   => exact hi
    case added p' _ _ types =>
      have later := hi (p := p')
      rw [types, List.append_assoc, List.singleton_append] at later
      exact later

end Program

-- Types in the order of their addition, with an index from their names to their positions. Nothing
-- in here says that the two belong together.
structure Catalogue where
  types : Array TypeDecl := #[]
  index : Std.HashMap String Nat := {}

namespace Catalogue

variable {x : Catalogue}

def adding (t : TypeDecl) : EStateM Conflict Catalogue Unit := fun x =>
  if x.index.contains t.name then .error (.duplicateType t.name) x
  else
    match firstRepeat? [] (t.methods.map MethodDecl.name) with
    | some method => .error (.duplicateMethod t.name method) x
    | none        => .ok () ⟨x.types.push t, x.index.insert t.name x.types.size⟩

def type? (x : Catalogue) (name : String) : Option TypeDecl :=
  x.index[name]?.bind fun position => x.types[position]?

def method? (x : Catalogue) (id : MethodId) : Option MethodDecl :=
  (x.type? id.owner).bind (·.method? id.name)

theorem leftover_adding_of_not_succeeds (refused : ¬Succeeds adding t x) :
    leftover (adding t x) = x := by
  rw [Succeeds] at refused
  simp only [adding] at refused ⊢
  split
  case isTrue => rfl
  case isFalse absent =>
    rw [if_neg absent] at refused
    split at refused
    case h_1     => rfl
    case h_2 new => exact absurd ⟨_, _, rfl⟩ refused

-- The catalogue has the types of the program, and its index has the position of each name.
structure Lists (x : Catalogue) (p : Program) : Prop where
  types : x.types.toList = p.types
  index : ∀ name, x.index[name]? = p.types.findIdx? (·.name == name)

namespace Lists

theorem empty : ({} : Catalogue).Lists .empty where
  types   := rfl
  index _ := Std.HashMap.getElem?_empty

variable (lists : x.Lists p)

include lists

theorem contains_iff : x.index.contains name ↔ name ∈ p.types.map TypeDecl.name := by
  rw [Std.HashMap.contains_eq_isSome_getElem?, lists.index, List.findIdx?_isSome]
  simp

theorem size : x.types.size = p.types.length := by
  rw [← lists.types, Array.length_toList]

-- A new name goes to the end of both.
theorem push (fresh : t.name ∉ p.types.map TypeDecl.name) (added : p'.types = p.types ++ [t]) :
    Lists ⟨x.types.push t, x.index.insert t.name x.types.size⟩ p' where
  types      := by rw [Array.toList_push, lists.types, added]
  index name := by
    rw [Std.HashMap.getElem?_insert, added, List.findIdx?_append, lists.index, lists.size]
    by_cases same : t.name = name
    case pos =>
      subst same
      have absent : p.types.findIdx? (·.name == t.name) = none := by
        simpa [List.findIdx?_eq_none_iff] using fresh
      simp [absent]
    case neg => simp [same]

-- One call keeps them together, whether it fails or not.
theorem step (t : TypeDecl) : outcome (adding t x) = outcome (Program.adding t p) ∧
    (leftover (adding t x)).Lists (leftover (Program.adding t p)) := by
  have adds := p.adding_adds t
  rw [adding]
  generalize Program.adding t p = result at adds
  cases adds
  case taken taken =>
    rw [if_pos (lists.contains_iff.mpr taken)]
    exact ⟨rfl, lists⟩
  case repeated fresh repeated =>
    rw [if_neg (fresh <| lists.contains_iff.mp ·), repeated]
    exact ⟨rfl, lists⟩
  case added fresh distinct types =>
    rw [if_neg (fresh <| lists.contains_iff.mp ·), distinct]
    exact ⟨rfl, lists.push fresh types⟩

theorem type?_eq (name : String) : x.type? name = p.type? name := by
  rw [type?, lists.index, Program.type?, List.find?_eq_bind_findIdx?_getElem?, ← lists.types]
  simp only [Array.getElem?_toList]

theorem method?_eq (id : MethodId) : x.method? id = p.method? id := by
  rw [method?, lists.type?_eq]
  rfl

-- The index knows the positions of the names, and no position past the end.
theorem index_eq_some_iff : x.index[name]? = some position ↔
    ∃ t, x.types[position]? = some t ∧ t.name = name := by
  rw [lists.index, ← Array.getElem?_toList, lists.types]
  constructor
  · intro found
    obtain ⟨bound, named, _⟩ := List.findIdx?_eq_some_iff_getElem.mp found
    exact ⟨_, List.getElem?_eq_getElem bound, by simpa using named⟩
  · rintro ⟨t, there, rfl⟩
    obtain ⟨bound, rfl⟩ := List.getElem?_eq_some_iff.mp there
    refine List.findIdx?_eq_some_iff_getElem.mpr ⟨bound, by simp, fun before lt same => ?_⟩
    -- The names are distinct, so that no other type has this one.
    have named : (p.types.map TypeDecl.name)[before]? = (p.types.map TypeDecl.name)[position]? := by
      simpa [lt.trans bound, bound] using same
    have within : before < (p.types.map TypeDecl.name).length := by simpa using lt.trans bound
    exact lt.ne ((List.getElem?_inj within p.types_nodup).mp named)

end Lists

theorem Lists.after (lists : x.Lists p) :
    (after adding calls x).Lists (after Program.adding calls p) := by
  induction calls generalizing x p
  case nil             => exact lists
  case cons t calls hi => exact hi (lists.step t).right

theorem Lists.succeeding_eq (lists : x.Lists p) :
    succeeding adding calls x = succeeding Program.adding calls p := by
  induction calls generalizing x p
  case nil => rfl
  case cons t calls hi =>
    have ⟨same, later⟩ := lists.step t
    rw [succeeding, succeeding]
    cases here : adding t x <;> cases there : Program.adding t p <;> rw [here, there] at same later
    case ok.ok       => exact congrArg (t :: ·) (hi later)
    case error.error => exact hi later
    all_goals cases same

end Catalogue

-- A program and a catalogue, both at first empty, after the same calls.
structure Program.Tabulates (calls : List TypeDecl) (p : Program) (x : Catalogue) : Prop where
  types    : p.types = succeeding adding calls .empty
  names    : (p.types.map TypeDecl.name).Nodup
  methods  : ∀ t ∈ p.types, (t.methods.map MethodDecl.name).Nodup
  type?    : ∀ name t, p.type? name = some t ↔ t ∈ p.types ∧ t.name = name
  method?  : ∀ id m, p.method? id = some m ↔
    ∃ t ∈ p.types, m ∈ t.methods ∧ id = ⟨t.name, m.name⟩
  refused  : ∀ t, ¬Succeeds adding t p ↔
    t.name ∈ p.types.map TypeDecl.name ∨ ¬(t.methods.map MethodDecl.name).Nodup
  kept     : ∀ t, ¬Succeeds adding t p → leftover (adding t p) = p
  -- The catalogue has the same types, accepts the same calls and gives the same answers.
  listed   : x.types.toList = p.types
  accepted : succeeding Catalogue.adding calls {} = succeeding adding calls .empty
  answers  : ∀ t, outcome (Catalogue.adding t x) = outcome (adding t p)
  rejected : ∀ t, ¬Succeeds Catalogue.adding t x → leftover (Catalogue.adding t x) = x
  position : ∀ name i, x.index[name]? = some i ↔
    ∃ t : TypeDecl, x.types[i]? = some t ∧ t.name = name
  lookup   : x.type? = p.type? ∧ x.method? = p.method?

-- The declarations that were added are those that calls have succeeded with, whatever the others
-- have failed on.
theorem types_tabulated (calls : List TypeDecl) :
    Program.Tabulates calls (after Program.adding calls .empty)
      (after Catalogue.adding calls {}) := by
  have lists : (after Catalogue.adding calls {}).Lists (after Program.adding calls .empty) :=
    Catalogue.Lists.empty.after
  generalize reached : after Program.adding calls .empty = p at lists
  exact {
    types        := by rw [← reached, Program.types_after]; rfl
    names        := p.types_nodup
    methods      := p.methods_nodup
    type? _ _    := Program.type?_eq_some_iff
    method? _ _  := Program.method?_eq_some_iff
    refused _    := by
      rw [Program.succeeds_adding_iff, Classical.not_and_iff_not_or_not, Classical.not_not]
    kept _       := Program.leftover_adding_of_not_succeeds
    listed       := lists.types
    accepted     := Catalogue.Lists.empty.succeeding_eq
    answers t    := (lists.step t).left
    rejected _   := Catalogue.leftover_adding_of_not_succeeds
    position _ _ := lists.index_eq_some_iff
    lookup       := ⟨funext lists.type?_eq, funext lists.method?_eq⟩ }

example : (succeeding Program.adding [
    { name := "Lamp", kind := .struct, methods := [
      { name := "glow", returnType := .void "void" [] }] },
    { name := "Lamp", kind := .object },
    { name := "Room", kind := .object, methods := [
      { name := "enter", returnType := .void "void" [] },
      { name := "enter", returnType := .void "void" [] }] },
    { name := "Room", kind := .object }] .empty).map TypeDecl.name = ["Lamp", "Room"] := by
  decide

end Shading
