/-!
How much of a finite universe a walk has not visited yet, which is what bounds the walk.
-/

namespace Shading

variable [DecidableEq α]

def unvisited (all visited : List α) : Nat :=
  (all.filter (· ∉ visited)).length

theorem unvisited_cons_lt {all visited : List α} {a : α} (mem : a ∈ all) (fresh : a ∉ visited) :
    unvisited all (a :: visited) < unvisited all visited := by
  have h : all.filter (· ∉ a :: visited) = (all.filter (· ∉ visited)).filter (· ≠ a) := by
    simp only [List.filter_filter, List.mem_cons, not_or, Bool.decide_and]
  unfold unvisited
  rw [h]
  exact List.length_filter_lt_length_iff_exists.mpr
    ⟨a, List.mem_filter.mpr ⟨mem, by simpa using fresh⟩, by simp⟩

end Shading
