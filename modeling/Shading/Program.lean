import Shading.Declaration
/-!
A resolved program: its type declarations in the order of their addition, and its shader sets.

Type names are distinct, and so are the method names within a type. Both facts are part of the
type `Program`, so that a look-up by name has at most one answer.
-/

namespace Shading

-- The first element that repeats an earlier one, or one of `seen`.
def firstRepeat? [DecidableEq α] (seen : List α) : List α → Option α
  | []      => none
  | a :: as => if a ∈ seen then some a else firstRepeat? (a :: seen) as

theorem firstRepeat?_eq_none_iff [DecidableEq α] {seen as : List α} :
    firstRepeat? seen as = none ↔ as.Nodup ∧ ∀ a ∈ as, a ∉ seen := by
  induction as generalizing seen with
  | nil => simp [firstRepeat?]
  | cons a as ih =>
    by_cases h : a ∈ seen
    · simp [firstRepeat?, h]
    · simp only [firstRepeat?, h, if_false, ih, List.mem_cons, List.nodup_cons, not_or]
      constructor
      · intro ⟨nodup, fresh⟩
        refine ⟨⟨fun mem => (fresh a mem).1 rfl, nodup⟩, ?_⟩
        rintro b (rfl | mem)
        · exact h
        · exact (fresh b mem).2
      · intro ⟨⟨notMem, nodup⟩, fresh⟩
        refine ⟨nodup, fun b mem => ⟨?_, fresh b (.inr mem)⟩⟩
        rintro rfl
        exact notMem mem

structure Program where
  types         : List TypeDecl
  sets          : List SetDecl
  types_nodup   : (types.map TypeDecl.name).Nodup
  methods_nodup : ∀ t ∈ types, (t.methods.map MethodDecl.name).Nodup

inductive Conflict where
  | duplicateType (name : String)
  | duplicateMethod (owner method : String)
  deriving DecidableEq

def Conflict.message : Conflict → String
  | .duplicateType name =>
    "the type `" ++ name ++ "` was declared more than once"
  | .duplicateMethod owner method =>
    "the method `" ++ method ++ "` was declared more than once on `" ++ owner ++ "`"

namespace Program

def empty : Program where
  types         := []
  sets          := []
  types_nodup   := List.nodup_nil
  methods_nodup := nofun

-- Adds a type after those that are there. A name that is taken is reported before a method name
-- that the declaration repeats.
def addType (p : Program) (t : TypeDecl) : Except Conflict Program :=
  if taken : t.name ∈ p.types.map TypeDecl.name then
    .error (.duplicateType t.name)
  else
    match repeated : firstRepeat? [] (t.methods.map MethodDecl.name) with
    | some method => .error (.duplicateMethod t.name method)
    | none => .ok {
        p with
        types         := p.types ++ [t]
        types_nodup   := by
          simp only [List.map_append, List.map_cons, List.map_nil, List.nodup_append,
            p.types_nodup, List.nodup_cons, List.not_mem_nil, List.nodup_nil, List.mem_singleton,
            not_false_eq_true, true_and]
          rintro a mem _ rfl rfl
          exact taken mem
        methods_nodup := by
          intro u mem
          rcases List.mem_append.mp mem with mem | mem
          · exact p.methods_nodup u mem
          · rw [List.mem_singleton.mp mem]
            exact (firstRepeat?_eq_none_iff.mp repeated).1
      }

def addSet (p : Program) (s : SetDecl) : Program :=
  { p with sets := p.sets ++ [s] }

def ofDecls (types : List TypeDecl) (sets : List SetDecl) : Except Conflict Program := do
  let p ← types.foldlM addType empty
  return sets.foldl addSet p

def type? (p : Program) (name : String) : Option TypeDecl :=
  p.types.find? (·.name == name)

def method? (p : Program) (id : MethodId) : Option MethodDecl := do
  (← p.type? id.owner).method? id.name

def constant? (p : Program) (owner name : String) : Option Literal := do
  (← (← p.type? owner).field? name).constant

-- The method with a body that a call of `owner.method` refers to, if the program has one.
def callee? (p : Program) (owner method : String) : Option MethodId := do
  let m ← (← p.type? owner).method? method
  if m.body.isSome then some ⟨owner, m.name⟩ else none

def methodIds (p : Program) : List MethodId :=
  p.types.flatMap fun t => t.methods.map fun m => ⟨t.name, m.name⟩

theorem name_eq_of_type? {p : Program} {name : String} {t : TypeDecl} (h : p.type? name = some t) :
    t.name = name := by
  have := List.find?_some h
  simpa using this

theorem mem_of_type? {p : Program} {name : String} {t : TypeDecl} (h : p.type? name = some t) :
    t ∈ p.types :=
  List.mem_of_find?_eq_some h

theorem name_mem_of_type? {p : Program} {name : String} {t : TypeDecl}
    (h : p.type? name = some t) : name ∈ p.types.map TypeDecl.name :=
  List.mem_map.mpr ⟨t, mem_of_type? h, name_eq_of_type? h⟩

theorem find?_key_of_mem [BEq β] [LawfulBEq β] {key : α → β} {as : List α} {a : α}
    (nodup : (as.map key).Nodup) (mem : a ∈ as) : as.find? (key · == key a) = some a := by
  induction as with
  | nil => cases mem
  | cons b as ih =>
    have ⟨fresh, nodup⟩ := List.nodup_cons.mp nodup
    rcases List.mem_cons.mp mem with rfl | mem
    · simp
    · have ne : key b ≠ key a := fun h => fresh (h ▸ List.mem_map_of_mem mem)
      simp [ne, ih nodup mem]

theorem type?_eq_some_iff {p : Program} {name : String} {t : TypeDecl} :
    p.type? name = some t ↔ t ∈ p.types ∧ t.name = name where
  mp h           := ⟨mem_of_type? h, name_eq_of_type? h⟩
  mpr | ⟨mem, h⟩ => h ▸ find?_key_of_mem p.types_nodup mem

theorem name_of_method? {p : Program} {id : MethodId} {m : MethodDecl} (h : p.method? id = some m) :
    m.name = id.name := by
  have ⟨_, _, found⟩ := Option.bind_eq_some_iff.mp h
  simpa using List.find?_some found

theorem mem_methodIds_of_method? {p : Program} {id : MethodId} {m : MethodDecl}
    (h : p.method? id = some m) : id ∈ p.methodIds := by
  obtain ⟨t, ht, hm⟩ := Option.bind_eq_some_iff.mp h
  refine List.mem_flatMap.mpr ⟨t, mem_of_type? ht, ?_⟩
  refine List.mem_map.mpr ⟨m, List.mem_of_find?_eq_some hm, ?_⟩
  rw [name_eq_of_type? ht, name_of_method? h]

end Program
end Shading
