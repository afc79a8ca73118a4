import Shading.Proofs.Validation
import Mathlib
/-!
The order in which the structures of a model are defined.

Each structure that can be found by its name occurs once. If no structure holds itself, each comes
after those that it holds.
-/

open Relation

namespace Shading
namespace Model

variable {m : Model} {path : List String} {name n : String} {names : List String}
  {ordered ordered' ordered'' : List Structure} {s : Structure}

-- What visiting names has done to an order. The names on the path are still to be added.
structure Extends (m : Model) (path : List String) (ordered ordered' : List Structure) : Prop where
  subset : ordered ⊆ ordered'
  added  : ∀ s ∈ ordered', s ∈ ordered ∨ m.structure? s.name = some s ∧ s.name ∉ path
  nodup  : (ordered.map Structure.name).Nodup → (ordered'.map Structure.name).Nodup

namespace Extends

theorem refl : Extends m path ordered ordered where
  subset    := List.Subset.refl _
  added _ h := .inl h
  nodup     := id

theorem trans (e : Extends m path ordered ordered') (e' : Extends m path ordered' ordered'') :
    Extends m path ordered ordered'' where
  subset    := List.Subset.trans e.subset e'.subset
  added s h := (e'.added s h).elim (e.added s) .inr
  nodup h   := e'.nodup (e.nodup h)

theorem snoc (e : Extends m (name :: path) ordered ordered') (found : m.structure? name = some s)
    (fresh : name ∉ path) (absent : name ∉ ordered.map Structure.name) :
    Extends m path ordered (ordered' ++ [s]) where
  subset := List.subset_append_of_subset_left _ e.subset
  added s' mem := by
    have named := name_of_structure? found
    rcases List.mem_append.mp mem with mem | mem
    case inl =>
      refine (e.added s' mem).imp_right fun ⟨found', apart⟩ => ⟨found', ?_⟩
      exact fun mem => apart (List.mem_cons_of_mem _ mem)
    case inr =>
      cases List.mem_singleton.mp mem
      exact .inr (named ▸ ⟨found, fresh⟩)
  nodup distinct := by
    have named := name_of_structure? found
    rw [List.map_append]
    refine (e.nodup distinct).append (List.nodup_singleton _) (List.disjoint_singleton.mpr ?_)
    rw [named]
    intro mem
    have ⟨s', mem, same⟩ := List.mem_map.mp mem
    rcases e.added s' mem with old | ⟨_, apart⟩
    case inl => exact absent (same ▸ List.mem_map_of_mem old)
    case inr => exact apart (same ▸ List.mem_cons_self)

theorem foldl {step : List Structure → String → List Structure}
    (each : ∀ n ∈ names, ∀ ordered, Extends m path ordered (step ordered n)) :
    Extends m path ordered (names.foldl step ordered) := by
  induction names generalizing ordered
  case nil => exact .refl
  case cons n names hi =>
    have first := each n List.mem_cons_self ordered
    exact first.trans (hi fun n mem => each n (List.mem_cons_of_mem _ mem))

end Extends

theorem visit_extends (m : Model) (path : List String) (name : String) (ordered : List Structure) :
    Extends m path ordered (m.visit path name ordered) := by
  fun_induction visit m path name ordered
  case case1 | case2 | case3 => exact .refl
  case case4 path name ordered fresh unordered s found _ hi =>
    have absent : name ∉ ordered.map Structure.name := by simpa using unordered
    exact (Extends.foldl fun n _ ordered => hi ordered n).snoc found fresh absent

-- The name of a type that is no structure of the model adds nothing.
theorem visit_eq_self (absent : m.structure? name = none) :
    m.visit path name ordered = ordered := by
  rw [visit]
  split
  case isTrue => rfl
  case isFalse =>
    split
    case isTrue => rfl
    case isFalse =>
      split
      case h_1       => rfl
      case h_2 found => cases absent.symm.trans found

-- A structure is there once its name has been visited.
theorem mem_visit (fresh : name ∉ path) (found : m.structure? name = some s) :
    name ∈ (m.visit path name ordered).map Structure.name := by
  rw [visit, dif_neg fresh]
  split
  case isTrue known => simpa using known
  case isFalse =>
    split
    case h_1 none => cases none.symm.trans found
    case h_2 found' => simp [name_of_structure? found']

theorem mem_foldl_visit (mem : n ∈ names) (fresh : n ∉ path) (found : m.structure? n = some s) :
    n ∈ (names.foldl (fun ordered n => m.visit path n ordered) ordered).map Structure.name := by
  induction names generalizing ordered
  case nil => cases mem
  case cons n' names hi =>
    rw [List.foldl_cons]
    rcases List.mem_cons.mp mem with rfl | mem
    case inr => exact hi mem
    case inl =>
      have rest : Extends m path (m.visit path n ordered)
          (names.foldl (fun ordered n => m.visit path n ordered) (m.visit path n ordered)) :=
        .foldl fun n _ ordered => m.visit_extends path n ordered
      exact List.map_subset _ rest.subset (mem_visit fresh found)

theorem dependencyOrder_extends (m : Model) : Extends m [] [] m.dependencyOrder :=
  .foldl fun n _ ordered => m.visit_extends [] n ordered

theorem nodup_dependencyOrder (m : Model) : (m.dependencyOrder.map Structure.name).Nodup :=
  m.dependencyOrder_extends.nodup .nil

-- The first structure of each name is ordered, and no other is.
theorem mem_dependencyOrder : s ∈ m.dependencyOrder ↔ m.structure? s.name = some s := by
  have known {s : Structure} (mem : s ∈ m.dependencyOrder) : m.structure? s.name = some s :=
    (m.dependencyOrder_extends.added s mem).elim nofun And.left
  refine ⟨known, fun found => ?_⟩
  have mem : s.name ∈ m.dependencyOrder.map Structure.name :=
    mem_foldl_visit (name_mem_of_structure? found) List.not_mem_nil found
  have ⟨s', mem, same⟩ := List.mem_map.mp mem
  cases (known mem).symm.trans (same ▸ found)
  exact mem

theorem name_mem_dependencyOrder :
    name ∈ m.dependencyOrder.map Structure.name ↔ ∃ s, m.structure? name = some s := by
  rw [List.mem_map]
  constructor
  · rintro ⟨s, mem, rfl⟩
    exact ⟨s, mem_dependencyOrder.mp mem⟩
  · intro ⟨s, found⟩
    have named := name_of_structure? found
    exact ⟨s, mem_dependencyOrder.mpr (named ▸ found), named⟩

-- One structure of the model has a member of the other.
def Contains (m : Model) (outer inner : String) : Prop :=
  m.Refers outer inner ∧ ∃ s, m.structure? inner = some s

def Acyclic (m : Model) : Prop := ∀ n, ¬TransGen m.Contains n n

-- Each structure comes after those that it holds.
inductive Sorted (m : Model) : List Structure → Prop
  | nil : Sorted m []
  | snoc {done : List Structure} {last : Structure} (sorted : Sorted m done)
      (held : ∀ n, m.Contains last.name n → n ∈ done.map Structure.name) :
      Sorted m (done ++ [last])

namespace Sorted

theorem mem_earlier {earlier later : List Structure} (sorted : Sorted m ordered)
    (split : ordered = earlier ++ s :: later) (contains : m.Contains s.name n) :
    n ∈ earlier.map Structure.name := by
  induction sorted generalizing later
  case nil => simp at split
  case snoc ordered s' _ held hi =>
    rcases List.eq_nil_or_concat later with rfl | ⟨later, last, rfl⟩
    case inl =>
      obtain ⟨rfl, same⟩ := List.append_inj' split rfl
      cases same
      exact held n contains
    case inr =>
      rw [List.concat_eq_append, ← List.cons_append, ← List.append_assoc] at split
      exact hi (List.append_inj' split rfl).left

theorem foldl {step : List Structure → String → List Structure}
    (each : ∀ n ∈ names, ∀ ordered, Sorted m ordered → Sorted m (step ordered n))
    (sorted : Sorted m ordered) : Sorted m (names.foldl step ordered) :=
  List.foldlRecOn names step sorted fun ordered sorted n mem => each n mem ordered sorted

-- Everything on the path leads to the name, so a member on the path would close a cycle. All others
-- have been ordered when the structure is.
theorem visit (acyclic : m.Acyclic) (sorted : Sorted m ordered)
    (leads : ∀ n ∈ path, TransGen m.Contains n name) : Sorted m (m.visit path name ordered) := by
  fun_induction Model.visit m path name ordered
  case case1 | case2 | case3 => exact sorted
  case case4 path name ordered fresh _ s found _ hi =>
    have named := name_of_structure? found
    have leads' (n : String) (contains : m.Contains name n) :
        ∀ n' ∈ name :: path, TransGen m.Contains n' n := by
      intro n' mem
      rcases List.mem_cons.mp mem with rfl | mem
      case inl => exact .single contains
      case inr => exact (leads n' mem).tail contains
    refine .snoc (foldl (fun n mem ordered sorted => ?each) sorted) fun n contains => ?held
    case each =>
      cases found' : m.structure? n
      case none    => exact visit_eq_self found' ▸ sorted
      case some s' => exact hi ordered n sorted (leads' n ⟨⟨s, found, mem⟩, s', found'⟩)
    case held =>
      rw [named] at contains
      have ⟨⟨s', found', mem⟩, inner, declared⟩ := contains
      cases found.symm.trans found'
      exact mem_foldl_visit mem (fun mem => acyclic n (leads' n contains n mem)) declared

end Sorted

theorem sorted_dependencyOrder (acyclic : m.Acyclic) : Sorted m m.dependencyOrder :=
  .foldl (fun _ _ _ sorted => sorted.visit acyclic (by simp)) .nil

end Model
end Shading
