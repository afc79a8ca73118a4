import Shading.Proofs.Calls
import Mathlib
/-!
What emission writes of a function body, and what it records about it.

Not every expression of a body is written: nothing is left of a type or of the shader object in
front of a member, nor of what a builtin variable is selected from. Emission records exactly the
flags and resources of the expressions that it writes, and writes calls of functions of the program
only for them.
-/

namespace Shading

open Glsl

theorem append_mono {as as' bs bs' : List α} (h : as ⊆ as') (h' : bs ⊆ bs') :
    as ++ bs ⊆ as' ++ bs' :=
  List.append_subset.mpr
    ⟨List.subset_append_of_subset_left _ h, List.subset_append_of_subset_right _ h'⟩

variable {p : Program} {resources : List Resource} {env : Emission} {c : Bool} {e : Expr}
  {parts rest : List Expr}

namespace Expr

mutual

-- The expression and the expressions inside it that are written along with it.
def rendered (c : Bool) (e : Expr) : List Expr :=
  e :: match e with
    | literal .. | name .. | this _ | outVariable .. | discard _ => []
    | member _ target symbol =>
      if symbol.isData && isBuiltinsType symbol.owner then []
      else if Emission.isImplicit c target then []
      else target.rendered c
    | index _ target position => target.rendered c ++ position.rendered c
    | binary _ _ left right => left.rendered c ++ right.rendered c
    | unary _ _ operand => operand.rendered c
    | assign _ _ target value => target.rendered c ++ value.rendered c
    | call _ _ _ args | construct _ args => renderedAll c args
    | conditional _ condition whenTrue whenFalse =>
      condition.rendered c ++ (whenTrue.rendered c ++ whenFalse.rendered c)
    | cast _ operand => operand.rendered c
    | paren _ inner => inner.rendered c

def renderedAll (c : Bool) : List Expr → List Expr
  | []      => []
  | e :: es => e.rendered c ++ renderedAll c es

end

mutual

theorem rendered_subset_subterms (c : Bool) (e : Expr) : e.rendered c ⊆ e.subterms := by
  cases e
  case literal | name | this | outVariable | discard => simp [rendered, subterms]
  case member _ target symbol =>
    rw [rendered, subterms]
    refine List.cons_subset_cons _ ?_
    split
    case isTrue => exact List.nil_subset _
    case isFalse =>
      split
      case isTrue  => exact List.nil_subset _
      case isFalse => exact rendered_subset_subterms c target
  case index _ a b | binary _ _ a b | assign _ _ a b =>
    rw [rendered, subterms]
    exact List.cons_subset_cons _ <|
      append_mono (rendered_subset_subterms c a) (rendered_subset_subterms c b)
  case unary a | cast a | paren a =>
    rw [rendered, subterms]
    exact List.cons_subset_cons _ (rendered_subset_subterms c a)
  case call args | construct args =>
    rw [rendered, subterms]
    exact List.cons_subset_cons _ (renderedAll_subset_subtermsAll c args)
  case conditional _ x y z =>
    rw [rendered, subterms, List.append_assoc]
    exact List.cons_subset_cons _ <|
      append_mono (rendered_subset_subterms c x) <|
      append_mono (rendered_subset_subterms c y) (rendered_subset_subterms c z)

theorem renderedAll_subset_subtermsAll (c : Bool) :
    ∀ es : List Expr, renderedAll c es ⊆ subtermsAll es
  | []      => List.nil_subset _
  | e :: es =>
    append_mono (rendered_subset_subterms c e) (renderedAll_subset_subtermsAll c es)

end

-- The function of the program that the expression itself is written as a call of.
def callee? (p : Program) : Expr → Option MethodId
  | call _ owner method _ => p.callee? owner method
  | construct node _      =>
    if node.ty.isStruct then p.callee? node.ty.name MethodId.constructorName else none
  | _                     => none

def callees (p : Program) (parts : List Expr) : List MethodId := parts.filterMap (callee? p)

variable {ids ids' : List MethodId}

theorem append_subset_callees (h : ids ⊆ callees p parts) (h' : ids' ⊆ callees p rest) :
    ids ++ ids' ⊆ callees p (parts ++ rest) := by
  rw [callees, List.filterMap_append]
  exact append_mono h h'

theorem subset_callees_cons (h : ids ⊆ callees p parts) : ids ⊆ callees p (e :: parts) := by
  intro id mem
  have ⟨part, mem, known⟩ := List.mem_filterMap.mp (h mem)
  exact List.mem_filterMap.mpr ⟨part, List.mem_cons_of_mem _ mem, known⟩

theorem cons_subset_callees {id : MethodId} (known : e.callee? p = some id)
    (h : ids ⊆ callees p parts) : id :: ids ⊆ callees p (e :: parts) :=
  List.cons_subset.mpr
    ⟨List.mem_filterMap.mpr ⟨e, List.mem_cons_self, known⟩, subset_callees_cons h⟩

-- The symbols that are written by their name alone. This is the case of the members of types, and
-- of those of the shader object, which a constructor does not know.
inductive Names (c : Bool) (symbol : Symbol) : Expr → Prop
  | bare {node} : Names c symbol (.name node symbol)
  | ofType {node node' type} :
    (type.kind = .type) → Names c symbol (.member node (.name node' type) symbol)
  | ofThis {node node'} : (c = false) → Names c symbol (.member node (.this node') symbol)

-- The builtin variable of a name.
inductive Builtin (name : String) : Expr → Prop
  | bare {node symbol} :
    (symbol.isData) → (isBuiltinsType symbol.owner) → (symbol.name = name) →
    Builtin name (.name node symbol)
  | member {node target symbol} :
    (symbol.isData) → (isBuiltinsType symbol.owner) → (symbol.name = name) →
    Builtin name (.member node target symbol)

-- A call of an intrinsic of the builtins type.
inductive Intrinsic (p : Program) (method : String) : Expr → Prop
  | call {node owner args} :
    (p.callee? owner method = none) → (swizzle? method args.length = none) →
    (isBuiltinsType owner) → Intrinsic p method (.call node owner method args)

-- A field or property of a type that is written by its name alone and is neither a constant nor a
-- builtin variable.
def Refers (p : Program) (c : Bool) (owner name : String) (e : Expr) : Prop :=
  ∃ symbol : Symbol, e.Names c symbol ∧ symbol.isData ∧ ¬isBuiltinsType symbol.owner ∧
    p.constant? symbol.owner symbol.name = none ∧ symbol.owner = owner ∧ symbol.name = name

-- The resource that is found for such a field.
def Denotes (p : Program) (resources : List Resource) (c : Bool) (r : Resource) (e : Expr) :
    Prop :=
  ∃ owner name, e.Refers p c owner name ∧
    resources.find? (fun r => r.owner == owner && r.name == name) = some r

-- The flags that an expression sets by itself.
inductive Touches (p : Program) (resources : List Resource) (c : Bool) (e : Expr) : Flag → Prop
  | builtin {name builtin} :
    (e.Builtin name) → (BuiltinVariable.parse? name = some builtin) →
    Touches p resources c e builtin.flag
  | resource {r flag} :
    (e.Denotes p resources c r) → (Emitter.resourceFlag? r.kind = some flag) →
    Touches p resources c e flag
  | atomic : (e.Intrinsic p "InterlockedAdd") → Touches p resources c e .interlockedAdd

-- An expression that may stand in the stage, as far as it goes by itself.
structure Legal (p : Program) (stage : Stage) (e : Expr) : Prop where
  builtin   : ∀ name, e.Builtin name →
    ∃ builtin, BuiltinVariable.parse? name = some builtin ∧ builtin.stages.allows stage
  intrinsic : ∀ method, e.Intrinsic p method → (intrinsicStages method).allows stage

variable {name name' method : String} {symbol symbol' : Symbol} {r : Resource} {flag : Flag}

theorem Names.unique (h : e.Names c symbol) (h' : e.Names c symbol') : symbol = symbol' := by
  cases h <;> cases h' <;> rfl

theorem Names.builtin_iff (h : e.Names c symbol) :
    e.Builtin name ↔ symbol.isData ∧ isBuiltinsType symbol.owner ∧ symbol.name = name := by
  constructor
  · intro b
    cases h <;> cases b <;> simp_all
  · intro ⟨data, owner, h'⟩
    cases h
    case bare => exact .bare data owner h'
    all_goals exact .member data owner h'

theorem Names.not_intrinsic (h : e.Names c symbol) : ¬e.Intrinsic p method := by
  intro i
  cases i
  cases h

theorem Names.denotes_iff (h : e.Names c symbol) :
    e.Denotes p resources c r ↔ symbol.isData ∧ ¬isBuiltinsType symbol.owner ∧
      p.constant? symbol.owner symbol.name = none ∧
      resources.find? (fun r => r.owner == symbol.owner && r.name == symbol.name) = some r := by
  constructor
  · rintro ⟨_, _, ⟨_, h', data, builtins, constant, rfl, rfl⟩, found⟩
    exact h.unique h' ▸ ⟨data, builtins, constant, found⟩
  · intro ⟨data, builtins, constant, found⟩
    exact ⟨_, _, ⟨symbol, h, data, builtins, constant, rfl, rfl⟩, found⟩

theorem Builtin.unique (h : e.Builtin name) (h' : e.Builtin name') : name = name' := by
  cases h <;> cases h' <;> simp_all

theorem Builtin.not_intrinsic (h : e.Builtin name) : ¬e.Intrinsic p method := by
  intro i
  cases i
  cases h

theorem Builtin.not_denotes (h : e.Builtin name) : ¬e.Denotes p resources c r := by
  intro ⟨_, _, ⟨_, names, _, other, _⟩, _⟩
  exact other (names.builtin_iff.mp h).2.1

-- An expression that neither touches nor denotes anything, and that is fine in every stage.
structure Inert (env : Emission) (c : Bool) (e : Expr) : Prop where
  builtin   : ∀ name, ¬e.Builtin name
  denotes   : ∀ r, ¬e.Denotes env.program env.resources c r
  intrinsic : ∀ method, ¬e.Intrinsic env.program method

namespace Inert

theorem plain (names : ∀ symbol, ¬e.Names c symbol) (builtin : ∀ name, ¬e.Builtin name)
    (intrinsic : ∀ method, ¬e.Intrinsic env.program method) : e.Inert env c where
  builtin   := builtin
  denotes   := fun _ ⟨_, _, ⟨symbol, h, _⟩, _⟩ => names symbol h
  intrinsic := intrinsic

theorem not_touches (h : Inert env c e) : ¬e.Touches env.program env.resources c flag := by
  intro t
  cases t
  case builtin b _  => exact h.builtin _ b
  case resource d _ => exact h.denotes _ d
  case atomic i     => exact h.intrinsic _ i

theorem legal (h : Inert env c e) : e.Legal env.program env.stage where
  builtin name b     := (h.builtin name b).elim
  intrinsic method i := (h.intrinsic method i).elim

end Inert

end Expr

namespace Stmt

-- What is written of a statement in a `for` header.
def renderedSimple (c : Bool) : Stmt → List Expr
  | declare _ _ init => init.toList.flatMap (Expr.rendered c)
  | eval e           => e.rendered c
  | _                => []

mutual

-- The expressions that are written of a statement, in the order in which they are written.
def rendered (c : Bool) : Stmt → List Expr
  | block body => renderedAll c body
  | eval e => e.rendered c
  | declare _ _ init => init.toList.flatMap (Expr.rendered c)
  | ret value => value.toList.flatMap (Expr.rendered c)
  | branch condition thenBody none => condition.rendered c ++ renderedAll c thenBody
  | branch condition thenBody (some elseBody) =>
    condition.rendered c ++ (renderedAll c thenBody ++ renderedAll c elseBody)
  | forLoop init condition step body =>
    init.flatMap (renderedSimple c) ++ (condition.toList.flatMap (Expr.rendered c) ++
      (Expr.renderedAll c step ++ renderedAll c body))
  | whileLoop condition body => condition.rendered c ++ renderedAll c body
  | doLoop body condition => renderedAll c body ++ condition.rendered c
  | switch scrutinee sections => scrutinee.rendered c ++ renderedSections c sections
  | breakLoop | continueLoop => []

def renderedAll (c : Bool) : List Stmt → List Expr
  | []      => []
  | s :: ss => s.rendered c ++ renderedAll c ss

def renderedSections (c : Bool) : List (List Label × List Stmt) → List Expr
  | []                => []
  | (_, body) :: rest => renderedAll c body ++ renderedSections c rest

end

theorem flatMap_rendered_subset (c : Bool) (es : List Expr) :
    es.flatMap (Expr.rendered c) ⊆ es.flatMap Expr.subterms := by
  intro e mem
  have ⟨e', mem', mem⟩ := List.mem_flatMap.mp mem
  exact List.mem_flatMap.mpr ⟨e', mem', Expr.rendered_subset_subterms c e' mem⟩

theorem renderedSimple_subset (c : Bool) (s : Stmt) :
    s.renderedSimple c ⊆ s.ownExprs.flatMap Expr.subterms := by
  cases s
  case declare init => exact flatMap_rendered_subset c init.toList
  case eval e => simpa [renderedSimple, ownExprs] using Expr.rendered_subset_subterms c e
  all_goals exact List.nil_subset _

theorem flatMap_renderedSimple_subset (c : Bool) (ss : List Stmt) :
    ss.flatMap (renderedSimple c) ⊆ (ownExprsAll ss).flatMap Expr.subterms := by
  induction ss
  case nil => exact List.nil_subset _
  case cons s ss hi =>
    rw [List.flatMap_cons, ownExprsAll, List.flatMap_append]
    exact append_mono (renderedSimple_subset c s) hi

theorem renderedAll_subset_flatMap (c : Bool) (es : List Expr) :
    Expr.renderedAll c es ⊆ es.flatMap Expr.subterms := by
  induction es
  case nil => exact List.nil_subset _
  case cons e es hi => exact append_mono (Expr.rendered_subset_subterms c e) hi

mutual

theorem rendered_subset_exprs (c : Bool) : ∀ s : Stmt, s.rendered c ⊆ s.exprs
  | block body => by
    rw [rendered, exprs]
    exact List.subset_append_of_subset_right _ (renderedAll_subset_exprsAll c body)
  | eval e => by
    simpa [rendered, exprs, ownExprs] using Expr.rendered_subset_subterms c e
  | declare _ _ value | ret value => by
    simpa [rendered, exprs, ownExprs] using flatMap_rendered_subset c value.toList
  | branch condition thenBody none => by
    simp only [rendered, exprs, ownExprs, List.flatMap_singleton]
    exact append_mono (Expr.rendered_subset_subterms c condition)
      (renderedAll_subset_exprsAll c thenBody)
  | branch condition thenBody (some elseBody) => by
    simp only [rendered, exprs, ownExprs, List.flatMap_singleton]
    exact append_mono (Expr.rendered_subset_subterms c condition) <|
      append_mono (renderedAll_subset_exprsAll c thenBody) (renderedAll_subset_exprsAll c elseBody)
  | forLoop init condition step body => by
    simp only [rendered, exprs, ownExprs, List.flatMap_append, List.append_assoc]
    exact append_mono (flatMap_renderedSimple_subset c init) <|
      append_mono (flatMap_rendered_subset c condition.toList) <|
      append_mono (renderedAll_subset_flatMap c step) (renderedAll_subset_exprsAll c body)
  | whileLoop condition body => by
    simp only [rendered, exprs, ownExprs, List.flatMap_singleton]
    exact append_mono (Expr.rendered_subset_subterms c condition)
      (renderedAll_subset_exprsAll c body)
  | doLoop body condition => by
    simp only [rendered, exprs, ownExprs, List.flatMap_singleton]
    refine List.append_subset.mpr ⟨?_, ?_⟩
    · exact List.subset_append_of_subset_right _ (renderedAll_subset_exprsAll c body)
    · exact List.subset_append_of_subset_left _ (Expr.rendered_subset_subterms c condition)
  | switch scrutinee sections => by
    simp only [rendered, exprs, ownExprs, List.flatMap_singleton]
    exact append_mono (Expr.rendered_subset_subterms c scrutinee)
      (renderedSections_subset_exprsSections c sections)
  | breakLoop | continueLoop => List.nil_subset _

theorem renderedAll_subset_exprsAll (c : Bool) : ∀ ss : List Stmt, renderedAll c ss ⊆ exprsAll ss
  | []      => List.nil_subset _
  | s :: ss => append_mono (rendered_subset_exprs c s) (renderedAll_subset_exprsAll c ss)

theorem renderedSections_subset_exprsSections (c : Bool) :
    ∀ sections, renderedSections c sections ⊆ exprsSections sections
  | []                => List.nil_subset _
  | (_, body) :: rest =>
    append_mono (renderedAll_subset_exprsAll c body) (renderedSections_subset_exprsSections c rest)

end

end Stmt

-- Whether the expression is written of the body of a function, in a constructor or not.
def Program.Renders (p : Program) (id : MethodId) (c : Bool) (e : Expr) : Prop :=
  ∃ m body, p.method? id = some m ∧ m.body = some body ∧ m.isConstructor = c ∧
    e ∈ Stmt.renderedAll c body

-- What a function touches, and the names of the resources that it uses.
def Program.Touches (p : Program) (resources : List Resource) (id : MethodId) (flag : Flag) :
    Prop :=
  ∃ c e, p.Renders id c e ∧ e.Touches p resources c flag

def Program.Uses (p : Program) (resources : List Resource) (id : MethodId) (name : String) :
    Prop :=
  ∃ c e, p.Renders id c e ∧ ∃ r, e.Denotes p resources c r ∧ r.name = name

namespace Program

variable {id : MethodId} {m : MethodDecl} {body : List Stmt}

theorem renders_iff (known : p.method? id = some m) (given : m.body = some body) :
    p.Renders id c e ↔ c = m.isConstructor ∧ e ∈ Stmt.renderedAll m.isConstructor body := by
  constructor
  · rintro ⟨m', body', known', given', rfl, mem⟩
    cases known.symm.trans known'
    cases given.symm.trans given'
    exact ⟨rfl, mem⟩
  · rintro ⟨rfl, mem⟩
    exact ⟨m, body, known, given, rfl, mem⟩

theorem exists_renders_iff {P : Bool → Expr → Prop} (known : p.method? id = some m)
    (given : m.body = some body) :
    (∃ c e, p.Renders id c e ∧ P c e) ↔
    ∃ e ∈ Stmt.renderedAll m.isConstructor body, P m.isConstructor e := by
  constructor
  · rintro ⟨c, e, renders, h⟩
    obtain ⟨rfl, mem⟩ := (renders_iff known given).mp renders
    exact ⟨e, mem, h⟩
  · rintro ⟨e, mem, h⟩
    exact ⟨_, e, (renders_iff known given).mpr ⟨rfl, mem⟩, h⟩

end Program

-- What happens to the state of an emitter while it writes expressions.
structure Recorded (env : Emission) (c : Bool) (parts : List Expr) (s s' : Emitter) : Prop where
  inConstructor : s'.inConstructor = c
  flags         : ∀ flag, s'.usage.has flag ↔
    s.usage.has flag ∨ ∃ e ∈ parts, e.Touches env.program env.resources c flag
  unnamed       : s'.usage.unnamed = s.usage.unnamed
  resources     : ∀ name, name ∈ s'.resourcesUsed ↔
    name ∈ s.resourcesUsed ∨
      ∃ e ∈ parts, ∃ r, e.Denotes env.program env.resources c r ∧ r.name = name
  legal         : ∀ e ∈ parts, e.Legal env.program env.stage

namespace Recorded

variable {s s' s'' : Emitter}

theorem quiet (ctor : s'.inConstructor = c) (usage : s'.usage = s.usage)
    (resources : s'.resourcesUsed = s.resourcesUsed) : Recorded env c [] s s' where
  inConstructor  := ctor
  flags flag     := by simp [usage]
  unnamed        := by rw [usage]
  resources name := by simp [resources]
  legal          := nofun

theorem append (first : Recorded env c parts s s') (second : Recorded env c rest s' s'') :
    Recorded env c (parts ++ rest) s s'' where
  inConstructor  := second.inConstructor
  flags flag     := by simp only [second.flags, first.flags, List.mem_append, or_and_right,
    exists_or, or_assoc]
  unnamed        := second.unnamed.trans first.unnamed
  resources name := by simp only [second.resources, first.resources, List.mem_append, or_and_right,
    exists_or, or_assoc]
  legal e mem    := (List.mem_append.mp mem).elim (first.legal e) (second.legal e)

theorem single (ctor : s'.inConstructor = c)
    (flags : ∀ flag, s'.usage.has flag ↔
      s.usage.has flag ∨ e.Touches env.program env.resources c flag)
    (unnamed : s'.usage.unnamed = s.usage.unnamed)
    (resources : ∀ name, name ∈ s'.resourcesUsed ↔
      name ∈ s.resourcesUsed ∨ ∃ r, e.Denotes env.program env.resources c r ∧ r.name = name)
    (legal : e.Legal env.program env.stage) : Recorded env c [e] s s' where
  inConstructor := ctor
  flags         := by simpa using flags
  unnamed       := unnamed
  resources     := by simpa using resources
  legal         := by simpa using legal

end Recorded

-- Whenever the computation succeeds it has written the parts, and its result is as described.
def Renders (env : Emission) (c : Bool) (parts : List Expr) (Q : α → Prop) (x : EmitM α) : Prop :=
  ∀ s a s', s.inConstructor = c → x s = .ok a s' → Recorded env c parts s s' ∧ Q a

namespace Renders

variable {Q : α → Prop} {R : β → Prop} {x : EmitM α} {f : α → EmitM β}

theorem bind (first : Renders env c parts Q x) (second : ∀ a, Q a → Renders env c rest R (f a)) :
    Renders env c (parts ++ rest) R (x >>= f) := by
  intro s b s'' ctor h
  have ⟨a, s', h, h'⟩ := exists_of_bind_eq_ok h
  have ⟨recorded, q⟩ := first s a s' ctor h
  have ⟨recorded', r⟩ := second a q s' b s'' recorded.inConstructor h'
  exact ⟨recorded.append recorded', r⟩

theorem pure {a : α} (q : Q a) : Renders env c [] Q (pure a) := by
  intro s _ _ ctor h
  cases h
  exact ⟨.quiet ctor rfl rfl, q⟩

theorem map {g : α → β} (first : Renders env c parts Q x) (second : ∀ a, Q a → R (g a)) :
    Renders env c parts R (x >>= fun a => Pure.pure (g a)) := by
  rw [← List.append_nil parts]
  exact first.bind fun a q => .pure (second a q)

-- What follows a computation that writes nothing writes all the parts.
theorem before (first : Renders env c [] Q x) (second : ∀ a, Q a → Renders env c parts R (f a)) :
    Renders env c parts R (x >>= f) :=
  first.bind second

theorem weaken {Q' : α → Prop} (h : Renders env c parts Q x) (imp : ∀ a, Q a → Q' a) :
    Renders env c parts Q' x := by
  intro s a s' ctor h'
  have ⟨recorded, q⟩ := h s a s' ctor h'
  exact ⟨recorded, imp a q⟩

theorem fail {error : Error} : Renders env c parts Q (throw error) := by
  intro s a s' _ h
  cases h

theorem liftExcept {result : Except Error α} (h : ∀ a, result = .ok a → Q a) :
    Renders env c [] Q (liftExcept result) := by
  intro s a s' ctor h'
  cases result
  case error => cases h'
  case ok =>
    cases h'
    exact ⟨.quiet ctor rfl rfl, h _ rfl⟩

theorem locate {location : Option Location} (h : Renders env c parts Q x) :
    Renders env c parts Q (EmitM.locate location x) := by
  intro s a s' ctor h'
  simp only [EmitM.locate, EStateM.adaptExcept] at h'
  split at h'
  case h_1 => cases h'
  case h_2 known =>
    cases h'
    exact h s a s' ctor known

theorem get : Renders env c [] (fun s : Emitter => s.inConstructor = c) get := by
  intro s a s' ctor h
  cases h
  exact ⟨.quiet ctor rfl rfl, ctor⟩

theorem inert (h : e.Inert env c) (rest : Renders env c parts Q x) :
    Renders env c (e :: parts) Q x := by
  intro s a s' ctor h'
  have ⟨recorded, q⟩ := rest s a s' ctor h'
  refine ⟨?_, q⟩
  exact {
    inConstructor  := recorded.inConstructor
    flags flag     := by simp [recorded.flags, h.not_touches]
    unnamed        := recorded.unnamed
    resources name := by simp [recorded.resources, h.denotes]
    legal          := List.forall_mem_cons.mpr ⟨h.legal, recorded.legal⟩ }

theorem thenLift {R : β → Prop} {f : α → Except Error β} (first : Renders env c parts Q x)
    (second : ∀ a, Q a → ∀ b, f a = .ok b → R b) :
    Renders env c parts R (x >>= fun a => Shading.liftExcept (f a)) := by
  rw [← List.append_nil parts]
  exact first.bind fun a q => .liftExcept (second a q)

-- A change of discard variables only.
theorem modifyGet {g : Emitter → α × Emitter}
    (h : ∀ s, ∃ discards nextDiscard, (g s).2 = { s with discards, nextDiscard }) :
    Renders env c [] (fun _ => True) (modifyGet g) := by
  intro s a s' ctor h'
  have ⟨_, _, known⟩ := h s
  cases h'
  refine ⟨?_, trivial⟩
  rw [known]
  exact .quiet ctor rfl rfl

end Renders

-- Whenever the computation succeeds, it has written the parts, and what it calls is called by them.
abbrev Writes (env : Emission) (c : Bool) (parts : List Expr) (calls : α → List MethodId)
    (x : EmitM α) : Prop :=
  Renders env c parts (fun a => calls a ⊆ Expr.callees env.program parts) x

namespace Writes

variable {calls : α → List MethodId} {x : EmitM α}

theorem inert (h : e.Inert env c) (rest : Writes env c parts calls x) :
    Writes env c (e :: parts) calls x :=
  (Renders.inert h rest).weaken fun _ => Expr.subset_callees_cons

theorem of_none (h : Renders env c parts (calls · = []) x) : Writes env c parts calls x :=
  h.weaken fun _ none => none ▸ List.nil_subset _

end Writes

end Shading
