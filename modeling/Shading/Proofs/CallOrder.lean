import Shading.CallGraph
import Mathlib
/-!
The order in which functions are written.

An entry point can be ordered exactly if no cycle of calls is reachable from it, and its order then
lists what it reaches, callees first. A refusal names a function on such a cycle.
-/

open Relation

namespace Shading
namespace CallGraph

variable {p : Program}

-- An edge of the call graph. Functions whose calls cannot be resolved have no edges.
def Calls (p : Program) (caller callee : MethodId) : Prop :=
  ∃ sites, callSites p caller = .ok sites ∧ ∃ site ∈ sites, site.target = callee

abbrev Reaches (p : Program) : MethodId → MethodId → Prop :=
  ReflTransGen (Calls p)

-- Whether a function reaches itself by at least one call.
def Cyclic (p : Program) (node : MethodId) : Prop :=
  TransGen (Calls p) node node

structure Orders (p : Program) (entry : MethodId) (functions : List MethodId) : Prop where
  mem_iff       : ∀ n, n ∈ functions ↔ Reaches p entry n
  nodup         : functions.Nodup
  callees_first : ∀ earlier caller later, functions = earlier ++ caller :: later →
    ∀ callee, Calls p caller callee → callee ∈ earlier
  entry_last    : functions.getLast? = some entry

-- The lists that a visit can have completed. Each function is put behind all of its callees.
inductive Ordered (p : Program) : List MethodId → Prop
  | nil : Ordered p []
  | snoc {done sites node} :
    (Ordered p done) → (node ∉ done) → (callSites p node = .ok sites) →
    (∀ site ∈ sites, site.target ∈ done) → Ordered p (done ++ [node])

-- The reasons for which the functions that `node` reaches cannot be ordered.
inductive Fault (p : Program) (node : MethodId) : Error → Prop
  | unresolved {n e} : (Reaches p node n) → (callSites p n = .error e) → Fault p node e
  | recursion {n location} :
    (Reaches p node n) → (Calls p n n) → Fault p node (.graph (.recursion n) location)
  | cycle {caller callee location} :
    (Reaches p node caller) → (Calls p caller callee) → (Reaches p callee caller) →
    Fault p node (.graph (.cycle caller callee) location)

namespace Ordered

variable {done : List MethodId} {n m : MethodId}

theorem nodup (o : Ordered p done) : done.Nodup := by
  induction o
  case nil => exact List.nodup_nil
  case snoc fresh _ _ hi =>
    refine List.nodup_append.mpr ⟨hi, by simp, ?_⟩
    intro a ha b hb h
    exact fresh (List.mem_singleton.mp hb ▸ h ▸ ha)

theorem callee_mem_earlier (o : Ordered p done) (c : Calls p n m) :
    ∀ {earlier later}, done = earlier ++ n :: later → m ∈ earlier := by
  induction o
  case nil => simp
  case snoc done sites node _ fresh known callees hi =>
    intro earlier later h
    rcases List.eq_nil_or_concat later with rfl | ⟨later, l, rfl⟩
    case inl =>
      have ⟨h₁, h₂⟩ := List.append_inj' h rfl
      have ⟨_, known', site, mem, target⟩ := c
      cases List.singleton_inj.mp h₂
      cases known.symm.trans known'
      exact h₁ ▸ target ▸ callees site mem
    case inr =>
      rw [List.concat_eq_append, ← List.cons_append, ← List.append_assoc] at h
      exact hi (List.append_inj' h rfl).left

theorem callee_mem (o : Ordered p done) (c : Calls p n m) (h : n ∈ done) : m ∈ done := by
  have ⟨earlier, later, h⟩ := List.append_of_mem h
  exact h ▸ List.mem_append_left _ (o.callee_mem_earlier c h)

theorem mem_of_reaches (o : Ordered p done) (r : Reaches p n m) (h : n ∈ done) : m ∈ done := by
  induction r
  case refl         => exact h
  case tail _ c hi  => exact o.callee_mem c hi

-- A cycle through the last function would pass through a callee, and callees reach only what
-- stands before them.
theorem not_cyclic (o : Ordered p done) (h : n ∈ done) : ¬Cyclic p n := by
  induction o
  case nil => cases h
  case snoc done sites node o fresh known callees hi =>
    intro c
    cases List.mem_append.mp h
    case inl h => exact hi h c
    case inr h =>
      cases List.mem_singleton.mp h
      have ⟨m, ⟨_, known', site, mem, target⟩, r⟩ := TransGen.head'_iff.mp c
      cases known.symm.trans known'
      exact fresh (o.mem_of_reaches r (target ▸ callees site mem))

end Ordered

namespace Fault

variable {node callee : MethodId} {e : Error}

theorem of_callee (c : Calls p node callee) (f : Fault p callee e) : Fault p node e := by
  cases f
  case unresolved r h      => exact .unresolved (.head c r) h
  case recursion r c'      => exact .recursion (.head c r) c'
  case cycle r c' r'       => exact .cycle (.head c r) c' r'

end Fault

theorem exists_of_foldlM_error {f : β → α → Except ε β} {as : List α} {b : β} {e : ε}
    (h : as.foldlM f b = .error e) : ∃ a b', f b' a = .error e := by
  induction as generalizing b
  case nil => cases h
  case cons a as hi =>
    rw [List.foldlM_cons] at h
    cases h' : f b a <;> rw [h'] at h
    case ok    => exact hi h
    case error => injection h with h; exact ⟨a, b, h ▸ h'⟩

-- Resolving the calls of a single function never blames the shape of the graph.
theorem isInternal_error {site : CallSite} {e : Error} (h : isInternal p site = .error e) :
    e = .graph (.unresolvedCall site.target) site.location := by
  simp only [isInternal] at h
  split at h
  case h_1 => cases h
  case h_2 =>
    split at h
    case h_1 => cases h
    case h_2 =>
      split at h
      case isTrue  => cases h
      case isFalse => injection h with h; exact h.symm

theorem callSites_error {n : MethodId} {e : Error} (h : callSites p n = .error e) :
    (∃ target location, e = .graph (.unresolvedCall target) location) ∨
    (∃ function location, e = .graph (.missingBody function) location) := by
  simp only [callSites] at h
  split at h
  case h_1 =>
    injection h with h
    exact .inl ⟨_, _, h.symm⟩
  case h_2 =>
    split at h
    case h_1 =>
      injection h with h
      exact .inr ⟨_, _, h.symm⟩
    case h_2 =>
      have ⟨site, sites, h⟩ := exists_of_foldlM_error h
      cases known : isInternal p site <;> rw [known] at h
      case ok    => cases h
      case error => injection h with h; exact .inl ⟨_, _, h ▸ isInternal_error known⟩

-- A visit completes `done'` from `done`. What it adds is reached from `node` and not on the path.
structure Extends (p : Program) (path : List MethodId) (node : MethodId)
    (done done' : List MethodId) : Prop where
  ordered : Ordered p done'
  subset  : done ⊆ done'
  reached : ∀ n ∈ done', n ∈ done ∨ (Reaches p node n ∧ n ∉ path)

namespace Extends

variable {path done done₁ done₂ : List MethodId} {node callee : MethodId}

theorem refl (o : Ordered p done) : Extends p path node done done where
  ordered    := o
  subset     := List.Subset.refl _
  reached _  := .inl

theorem trans (e₁ : Extends p path node done done₁) (e₂ : Extends p path node done₁ done₂) :
    Extends p path node done done₂ where
  ordered       := e₂.ordered
  subset        := List.Subset.trans e₁.subset e₂.subset
  reached n mem := (e₂.reached n mem).elim (e₁.reached n) .inr

theorem of_callee (c : Calls p node callee) (e : Extends p path callee done done₁) :
    Extends p path node done done₁ where
  ordered       := e.ordered
  subset        := e.subset
  reached n mem := (e.reached n mem).imp_right fun ⟨r, h⟩ => ⟨.head c r, h⟩

theorem apart (e : Extends p path node done done₁) (h : ∀ n ∈ path, n ∉ done) :
    ∀ n ∈ path, n ∉ done₁ := by
  intro n mem mem'
  cases e.reached n mem'
  case inl mem' => exact h n mem mem'
  case inr h'   => exact h'.right mem

end Extends

-- The outcome of following calls that `node` makes, when `node` is being expanded.
def Followed (p : Program) (path : List MethodId) (node : MethodId) (done : List MethodId)
    (sites : List CallSite) : Except Error (List MethodId) → Prop
  | .ok done' => (Extends p (node :: path) node done done') ∧ ∀ site ∈ sites, site.target ∈ done'
  | .error e  => Fault p node e

-- The outcome of expanding `node`.
def Visited (p : Program) (path : List MethodId) (node : MethodId) (done : List MethodId) :
    Except Error (List MethodId) → Prop
  | .ok done' => (Extends p path node done done') ∧ done'.getLast? = some node
  | .error e  => Fault p node e

variable {path done : List MethodId} {node : MethodId} {sites : List CallSite}

-- Calls can be followed one after the other if each can be followed whatever is done by then.
theorem Followed.foldlM {step : List MethodId → CallSite → Except Error (List MethodId)}
    (each : ∀ done, ∀ site ∈ sites, Ordered p done → (∀ n ∈ node :: path, n ∉ done) →
      Followed p path node done [site] (step done site))
    (o : Ordered p done) (apart : ∀ n ∈ node :: path, n ∉ done) :
    Followed p path node done sites (sites.foldlM step done) := by
  induction sites generalizing done
  case nil => exact ⟨.refl o, by simp⟩
  case cons site sites hi =>
    have first := each done site List.mem_cons_self o apart
    rw [List.foldlM_cons]
    cases h : step done site <;> rw [h] at first
    case error => exact first
    case ok done₁ =>
      have ⟨e₁, mem⟩ := first
      have rest := hi (fun d s m => each d s (List.mem_cons_of_mem _ m)) e₁.ordered (e₁.apart apart)
      simp only [bind, Except.bind]
      cases h : sites.foldlM step done₁ <;> rw [h] at rest
      case error => exact rest
      case ok done₂ =>
        have ⟨e₂, mems⟩ := rest
        refine ⟨e₁.trans e₂, ?_⟩
        intro s hs
        cases hs
        case head => exact e₂.subset (mem _ List.mem_cons_self)
        case tail hs => exact mems s hs

-- Everything on the path leads to `node`, so a call back to the path closes a cycle. What is done
-- stays apart from the path, so a call to it never does.
theorem Followed.single {site : CallSite} (c : Calls p node site.target)
    (leads : ∀ n ∈ path, Reaches p n node) (o : Ordered p done)
    (visited : ∀ cyclic : site.target ∉ node :: path, site.target ∉ done →
      Visited p (node :: path) site.target done (visit p (node :: path) site.target cyclic done)) :
    Followed p path node done [site] (
      if site.target = node then .error (.graph (.recursion node) site.location)
      else if site.target ∈ done then .ok done
      else if cyclic : site.target ∈ node :: path then
        .error (.graph (.cycle node site.target) site.location)
      else visit p (node :: path) site.target cyclic done) := by
  split
  case isTrue self => exact .recursion .refl (self ▸ c)
  case isFalse other =>
    split
    case isTrue known => exact ⟨.refl o, by simpa using known⟩
    case isFalse unknown =>
      split
      case isTrue cyclic =>
        have back := (List.mem_cons.mp cyclic).resolve_left other
        exact .cycle .refl c (leads _ back)
      case isFalse cyclic =>
        have visited := visited cyclic unknown
        cases h : visit p (node :: path) site.target cyclic done <;> rw [h] at visited
        case error => exact Fault.of_callee c visited
        case ok done' =>
          have ⟨e, last⟩ := visited
          exact ⟨e.of_callee c, by simpa using List.mem_of_getLast? last⟩

theorem Extends.snoc {done' : List MethodId} (e : Extends p (node :: path) node done done')
    (known : callSites p node = .ok sites) (callees : ∀ site ∈ sites, site.target ∈ done')
    (absent : node ∉ done') (fresh : node ∉ path) :
    Extends p path node done (done' ++ [node]) where
  ordered := .snoc e.ordered absent known callees
  subset  := List.subset_append_of_subset_left _ e.subset
  reached := by
    intro n mem
    cases List.mem_append.mp mem
    case inl mem =>
      refine (e.reached n mem).imp_right fun ⟨r, h⟩ => ⟨r, ?_⟩
      exact fun mem => h (List.mem_cons_of_mem _ mem)
    case inr mem =>
      cases List.mem_singleton.mp mem
      exact .inr ⟨.refl, fresh⟩

theorem visit_visited {path done : List MethodId} {node : MethodId} (fresh : node ∉ path)
    (leads : ∀ n ∈ path, Reaches p n node) (o : Ordered p done)
    (apart : ∀ n ∈ node :: path, n ∉ done) :
    Visited p path node done (visit p path node fresh done) := by
  unfold visit
  split
  case h_1 e known => exact .unresolved .refl known
  case h_2 sites known =>
    have shrinks := unvisited_cons_lt (mem_methodIds_of_callSites known) fresh
    have calls : ∀ site ∈ sites, Calls p node site.target := fun _ mem => ⟨_, known, _, mem, rfl⟩
    have followed := Followed.foldlM
      (fun done site mem o apart => Followed.single (calls site mem) leads o
        fun cyclic unknown => visit_visited cyclic
          (fun n hn => (List.mem_cons.mp hn).elim (· ▸ .single (calls site mem))
            fun hn => (leads n hn).tail (calls site mem))
          o (by simpa using ⟨unknown, by simpa using apart⟩))
      o apart
    simp only [bind, Except.bind]
    split
    case h_1 e h => rw [h] at followed; exact followed
    case h_2 done' h =>
      rw [h] at followed
      obtain ⟨e, callees⟩ := followed
      have absent := e.apart apart node List.mem_cons_self
      exact ⟨e.snoc known callees absent fresh, by simp⟩
termination_by unvisited p.methodIds path
decreasing_by assumption

theorem order_visited (p : Program) (entry : MethodId) : Visited p [] entry [] (order p entry) :=
  visit_visited List.not_mem_nil (by simp) .nil (by simp)

theorem order_orders {entry : MethodId} {functions : List MethodId}
    (h : order p entry = .ok functions) : Orders p entry functions := by
  have visited := order_visited p entry
  rw [h] at visited
  have ⟨e, last⟩ := visited
  have mem := List.mem_of_getLast? last
  exact {
    mem_iff n     :=
      ⟨fun h => (e.reached n h).elim nofun And.left, (e.ordered.mem_of_reaches · mem)⟩
    nodup         := e.ordered.nodup
    callees_first := fun _ _ _ h _ c => e.ordered.callee_mem_earlier c h
    entry_last    := last
  }

theorem not_cyclic_of_order {entry n : MethodId} {functions : List MethodId}
    (h : order p entry = .ok functions) (r : Reaches p entry n) : ¬Cyclic p n := by
  have visited := order_visited p entry
  rw [h] at visited
  have mem := (order_orders h).mem_iff n |>.mpr r
  exact visited.left.ordered.not_cyclic mem

theorem fault_of_order {entry : MethodId} {e : Error} (h : order p entry = .error e) :
    Fault p entry e := by
  have visited := order_visited p entry
  rw [h] at visited
  exact visited

-- If all calls can be resolved, only a cycle is in the way.
theorem Fault.exists_cyclic {e : Error} (f : Fault p node e)
    (resolved : ∀ n, Reaches p node n → ∃ sites, callSites p n = .ok sites) :
    ∃ n, Reaches p node n ∧ Cyclic p n := by
  cases f
  case unresolved r h =>
    have ⟨_, known⟩ := resolved _ r
    cases known.symm.trans h
  case recursion r c => exact ⟨_, r, .single c⟩
  case cycle r c r'  => exact ⟨_, r, .head' c r'⟩

-- Ordering ends on every graph, since `order` is a total function. The first part needs all calls
-- to be resolved, because a call that cannot be resolved is reported before a cycle behind it.
theorem order_topological (p : Program) (entry : MethodId) :
    ((∀ n, Reaches p entry n → ∃ sites, callSites p n = .ok sites) →
      ((∃ functions, order p entry = .ok functions) ↔ ∀ n, Reaches p entry n → ¬Cyclic p n)) ∧
    (∀ functions, order p entry = .ok functions → Orders p entry functions) ∧
    (∀ n location, order p entry = .error (.graph (.recursion n) location) →
      Reaches p entry n ∧ Calls p n n) ∧
    (∀ caller callee location, order p entry = .error (.graph (.cycle caller callee) location) →
      Reaches p entry caller ∧ Reaches p entry callee ∧
      Calls p caller callee ∧ Reaches p callee caller) := by
  refine ⟨?ordered, fun _ => order_orders, ?recursion, ?cycle⟩
  case ordered =>
    intro resolved
    constructor
    · intro ⟨_, h⟩ n r
      exact not_cyclic_of_order h r
    · intro acyclic
      cases h : order p entry
      case ok functions => exact ⟨_, rfl⟩
      case error =>
        have ⟨n, r, c⟩ := (fault_of_order h).exists_cyclic resolved
        exact absurd c (acyclic n r)
  case recursion =>
    intro n location h
    cases fault_of_order h
    case recursion r c    => exact ⟨r, c⟩
    case unresolved known => rcases callSites_error known with ⟨_, _, h⟩ | ⟨_, _, h⟩ <;> cases h
  case cycle =>
    intro caller callee location h
    cases fault_of_order h
    case cycle r c r'     => exact ⟨r, r.tail c, c, r'⟩
    case unresolved known => rcases callSites_error known with ⟨_, _, h⟩ | ⟨_, _, h⟩ <;> cases h

end CallGraph
end Shading
