import Shading.Source
import Mathlib
/-!
What stands inside of what in a body: expressions inside expressions, and statements inside
statements.

A walk that goes on from a statement to its bodies and to the initializers in its header gets
everywhere. The walk over the expressions of a body does not: it goes through the initializers of a
loop as a part of the header, and leaves out the bodies of statements among them.
-/

open Relation

namespace Shading

-- A walk that goes on to smaller and smaller places collects what there is at those it gets to.
theorem mem_iff_of_unfold [SizeOf α] {walk own : α → List β} {next : α → List α}
    (unfold : ∀ a b, b ∈ walk a ↔ b ∈ own a ∨ ∃ a' ∈ next a, b ∈ walk a')
    (smaller : ∀ a, ∀ a' ∈ next a, sizeOf a' < sizeOf a) {a : α} {b : β} :
    b ∈ walk a ↔ ∃ a', ReflTransGen (fun a a' => a' ∈ next a) a a' ∧ b ∈ own a' := by
  constructor
  case mp =>
    induction size : sizeOf a using Nat.strong_induction_on generalizing a
    case h n hi =>
      subst size
      intro mem
      rcases (unfold a b).mp mem with here | ⟨a', step, mem⟩
      case inl => exact ⟨a, .refl, here⟩
      case inr =>
        have ⟨a'', path, mem⟩ := hi _ (smaller a a' step) rfl mem
        exact ⟨a'', .head step path, mem⟩
  case mpr =>
    rintro ⟨a', path, here⟩
    induction path using ReflTransGen.head_induction_on
    case refl             => exact (unfold _ b).mpr (.inl here)
    case head step _ hi => exact (unfold _ b).mpr (.inr ⟨_, step, hi⟩)

namespace Expr

-- The expressions directly inside an expression.
def operands : Expr → List Expr
  | literal .. | name .. | this _ | outVariable .. | discard _ => []
  | member _ target _                          => [target]
  | index _ target position                    => [target, position]
  | binary _ _ left right                      => [left, right]
  | unary _ _ operand | cast _ operand         => [operand]
  | assign _ _ target value                    => [target, value]
  | call _ _ _ args | construct _ args         => args
  | conditional _ condition whenTrue whenFalse => [condition, whenTrue, whenFalse]
  | paren _ inner                              => [inner]

-- An expression inside another one at any depth, or that one itself.
def Contains : Expr → Expr → Prop :=
  ReflTransGen fun e e' => e' ∈ e.operands

theorem subtermsAll_eq (es : List Expr) : subtermsAll es = es.flatMap subterms := by
  induction es
  case nil     => rfl
  case cons hi => rw [subtermsAll, hi, List.flatMap_cons]

theorem subterms_eq (e : Expr) : e.subterms = e :: e.operands.flatMap subterms := by
  cases e <;> simp [subterms, operands, subtermsAll_eq]

theorem sizeOf_pos (e : Expr) : 0 < sizeOf e := by
  cases e <;> simp

theorem sizeOf_operand {e e' : Expr} (h : e' ∈ e.operands) : sizeOf e' < sizeOf e := by
  cases e
  case call args | construct args =>
    have : sizeOf e' < sizeOf args := List.sizeOf_lt_of_mem h
    simp only [call.sizeOf_spec, construct.sizeOf_spec]
    omega
  all_goals
    simp only [operands, List.mem_cons, List.not_mem_nil, or_false] at h
  all_goals
    simp
    grind

-- What holds of an expression if it holds of those directly inside it holds of all expressions.
theorem operand_induction {motive : Expr → Prop}
    (step : ∀ e, (∀ o ∈ e.operands, motive o) → motive e) (e : Expr) : motive e := by
  induction size : sizeOf e using Nat.strong_induction_on generalizing e
  case h n hi =>
    subst size
    exact step e fun o mem => hi _ (sizeOf_operand mem) o rfl

theorem mem_subterms {e e' : Expr} : e' ∈ e.subterms ↔ e.Contains e' := by
  have unfold (e e' : Expr) :
      e' ∈ e.subterms ↔ e' ∈ [e] ∨ ∃ o ∈ e.operands, e' ∈ o.subterms := by
    simp [subterms_eq e]
  refine (mem_iff_of_unfold unfold fun _ _ => sizeOf_operand).trans ?_
  simp [Contains]

end Expr

namespace Stmt

-- The statements in the header of a `for` loop.
def initializers : Stmt → List Stmt
  | forLoop init _ _ _ => init
  | _                  => []

-- The expressions that a statement consists of, without those of the statements inside it.
def header : Stmt → List Expr
  | block _ | breakLoop | continueLoop => []
  | eval e                             => [e]
  | declare _ _ init                   => init.toList
  | ret value                          => value.toList
  | branch condition _ _               => [condition]
  | whileLoop condition _              => [condition]
  | doLoop _ condition                 => [condition]
  | forLoop _ condition step _         => condition.toList ++ step
  | switch scrutinee _                 => [scrutinee]

-- The type of the variable that a statement declares.
def declaredType? : Stmt → Option TypeRef
  | declare _ ty _ => some ty
  | _              => none

-- A statement inside another one at any depth, or that one itself.
def Nests : Stmt → Stmt → Prop :=
  ReflTransGen fun s s' => s' ∈ s.initializers ++ s.children

-- From body to body, and from there only to what the headers of loops start with.
def Walks (s s' : Stmt) : Prop :=
  ∃ outer, ReflTransGen (fun s s' => s' ∈ s.children) s outer ∧
    ReflTransGen (fun s s' => s' ∈ s.initializers) outer s'

theorem declaredType?_eq_some_iff {s : Stmt} {ty : TypeRef} :
    s.declaredType? = some ty ↔ ∃ name init, s = .declare name ty init := by
  cases s <;> simp [declaredType?]

theorem ownExprsAll_eq (ss : List Stmt) : ownExprsAll ss = ss.flatMap ownExprs := by
  induction ss
  case nil     => rfl
  case cons hi => rw [ownExprsAll, hi, List.flatMap_cons]

theorem exprsAll_eq (ss : List Stmt) : exprsAll ss = ss.flatMap exprs := by
  induction ss
  case nil     => rfl
  case cons hi => rw [exprsAll, hi, List.flatMap_cons]

theorem exprsSections_eq (sections : List (List Label × List Stmt)) :
    exprsSections sections = (sections.flatMap Prod.snd).flatMap exprs := by
  induction sections
  case nil     => rfl
  case cons hi => rw [exprsSections, hi, exprsAll_eq, List.flatMap_cons, List.flatMap_append]

theorem declaredTypesAll_eq (ss : List Stmt) : declaredTypesAll ss = ss.flatMap declaredTypes := by
  induction ss
  case nil     => rfl
  case cons hi => rw [declaredTypesAll, hi, List.flatMap_cons]

theorem declaredTypesSections_eq (sections : List (List Label × List Stmt)) :
    declaredTypesSections sections = (sections.flatMap Prod.snd).flatMap declaredTypes := by
  induction sections
  case nil     => rfl
  case cons hi =>
    rw [declaredTypesSections, hi, declaredTypesAll_eq, List.flatMap_cons, List.flatMap_append]

theorem ownExprs_eq (s : Stmt) : s.ownExprs = s.initializers.flatMap ownExprs ++ s.header := by
  cases s <;> simp [ownExprs, initializers, header, ownExprsAll_eq]

theorem exprs_eq (s : Stmt) :
    s.exprs = s.ownExprs.flatMap Expr.subterms ++ s.children.flatMap exprs := by
  cases s
  case branch otherwise => cases otherwise <;> simp [exprs, children, ownExprs, exprsAll_eq]
  all_goals simp [exprs, children, ownExprs, exprsAll_eq, exprsSections_eq]

theorem declaredTypes_eq (s : Stmt) :
    s.declaredTypes =
    s.declaredType?.toList ++ (s.initializers ++ s.children).flatMap declaredTypes := by
  cases s
  case branch otherwise =>
    cases otherwise <;>
      simp [declaredTypes, children, initializers, declaredType?, declaredTypesAll_eq]
  all_goals
    simp [declaredTypes, children, initializers, declaredType?, declaredTypesAll_eq,
      declaredTypesSections_eq]

theorem sizeOf_initializer {s s' : Stmt} (h : s' ∈ s.initializers) : sizeOf s' < sizeOf s := by
  cases s
  case forLoop init _ _ _ =>
    have : sizeOf s' < sizeOf init := List.sizeOf_lt_of_mem h
    simp only [forLoop.sizeOf_spec]
    omega
  all_goals cases h

theorem sizeOf_child {s s' : Stmt} (h : s' ∈ s.children) : sizeOf s' < sizeOf s := by
  cases s
  case block body =>
    have : sizeOf s' < sizeOf body := List.sizeOf_lt_of_mem h
    simp only [block.sizeOf_spec]
    omega
  case branch condition _ otherwise =>
    have := condition.sizeOf_pos
    cases otherwise <;> simp only [children, List.mem_cons, List.not_mem_nil, or_false] at h
    case none =>
      subst h
      simp
    case some =>
      rcases h with rfl | rfl
      case inl =>
        simp
        omega
      case inr => simp
  case forLoop init _ _ _ =>
    cases List.mem_singleton.mp h
    cases init <;> simp <;> omega
  case whileLoop condition _ | doLoop condition =>
    have := condition.sizeOf_pos
    cases List.mem_singleton.mp h
    simp
    omega
  case switch sections =>
    obtain ⟨⟨labels, body⟩, mem, h⟩ := List.mem_flatMap.mp h
    have : sizeOf s' < sizeOf body := List.sizeOf_lt_of_mem h
    have := List.sizeOf_lt_of_mem mem
    simp only [switch.sizeOf_spec, Prod.mk.sizeOf_spec] at this ⊢
    omega
  all_goals cases h

theorem mem_ownExprs {s : Stmt} {e : Expr} : e ∈ s.ownExprs ↔
    ∃ s', ReflTransGen (fun s s' => s' ∈ s.initializers) s s' ∧ e ∈ s'.header := by
  refine mem_iff_of_unfold (fun s e => ?_) fun _ _ => sizeOf_initializer
  rw [ownExprs_eq, List.mem_append, List.mem_flatMap, or_comm]

-- All expressions but those in the bodies of statements that loops start with.
theorem mem_exprs {s : Stmt} {e : Expr} :
    e ∈ s.exprs ↔ ∃ s', s.Walks s' ∧ ∃ e' ∈ s'.header, e'.Contains e := by
  have unfold (s : Stmt) (e : Expr) : e ∈ s.exprs ↔
      e ∈ s.ownExprs.flatMap Expr.subterms ∨ ∃ s' ∈ s.children, e ∈ s'.exprs := by
    rw [exprs_eq, List.mem_append, List.mem_flatMap (f := exprs)]
  rw [mem_iff_of_unfold unfold fun _ _ => sizeOf_child]
  simp only [List.mem_flatMap, mem_ownExprs, Expr.mem_subterms]
  constructor
  · rintro ⟨outer, bodies, e', ⟨s', headers, mem⟩, inner⟩
    exact ⟨s', ⟨outer, bodies, headers⟩, e', mem, inner⟩
  · rintro ⟨s', ⟨outer, bodies, headers⟩, e', mem, inner⟩
    exact ⟨outer, bodies, e', ⟨s', headers, mem⟩, inner⟩

-- The variables are found wherever they are declared.
theorem mem_declaredTypes {s : Stmt} {ty : TypeRef} :
    ty ∈ s.declaredTypes ↔ ∃ s', s.Nests s' ∧ s'.declaredType? = some ty := by
  have unfold (s : Stmt) (ty : TypeRef) : ty ∈ s.declaredTypes ↔ ty ∈ s.declaredType?.toList ∨
      ∃ s' ∈ s.initializers ++ s.children, ty ∈ s'.declaredTypes := by
    rw [declaredTypes_eq, List.mem_append, List.mem_flatMap]
  have smaller (s s' : Stmt) (h : s' ∈ s.initializers ++ s.children) : sizeOf s' < sizeOf s :=
    (List.mem_append.mp h).elim sizeOf_initializer sizeOf_child
  simp only [mem_iff_of_unfold unfold smaller, Option.mem_toList]
  rfl

theorem Walks.nests {s s' : Stmt} (h : s.Walks s') : s.Nests s' := by
  have ⟨outer, bodies, headers⟩ := h
  have bodies : s.Nests outer := bodies.lift id fun _ _ => List.mem_append_right _
  have headers : outer.Nests s' := headers.lift id fun _ _ => List.mem_append_left _
  exact bodies.trans headers

-- Loops in the statement start with statements that have no bodies, such as declarations.
def Plain (s : Stmt) : Prop :=
  ∀ loop, s.Nests loop → ∀ first ∈ loop.initializers, first.children = []

theorem plain_iff {s : Stmt} : s.Plain ↔
    (∀ first ∈ s.initializers, first.children = []) ∧
    ∀ s' ∈ s.initializers ++ s.children, s'.Plain := by
  constructor
  · intro plain
    exact ⟨plain s .refl, fun s' step loop nests => plain loop (.head step nests)⟩
  · rintro ⟨here, inside⟩ loop nests
    rcases nests.cases_head with rfl | ⟨s', step, nests⟩
    case inl => exact here
    case inr => exact inside s' step loop nests

theorem Nests.walks {s s' : Stmt} (h : s.Nests s') (plain : s.Plain) : s.Walks s' := by
  induction h
  case refl => exact ⟨s, .refl, .refl⟩
  case tail s₁ s₂ nests step hi =>
    obtain ⟨outer, bodies, headers⟩ := hi
    rcases List.mem_append.mp step with first | child
    case inl => exact ⟨outer, bodies, headers.tail first⟩
    case inr =>
      -- What a loop starts with has no body to go on to.
      rcases headers.cases_tail with rfl | ⟨loop, headers, first⟩
      case inl => exact ⟨s₂, bodies.tail child, .refl⟩
      case inr =>
        have loop : s.Nests loop := Walks.nests ⟨outer, bodies, headers⟩
        rw [plain _ loop _ first] at child
        cases child

end Stmt
end Shading
