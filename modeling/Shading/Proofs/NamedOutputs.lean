import Shading.Proofs.GlobalNames
import Shading.Proofs.Lowering
import Shading.Proofs.Occurrences
import Shading.Proofs.SpelledTerms
import Mathlib
/-!
Expressions whose outputs are variables that have been declared before.

Where an expression throws an output away it can name a variable instead, and where it declares an
output it can name it. An expression is emitted as what it becomes in this way, as long as the
innermost scope holds the numbers of its variables in the order in which they are come to.
-/

namespace Shading

open Glsl

theorem Glsl.identifier_discardName (number : Nat) :
    identifier (discardName number) = discardName number := by
  have starts : (discardName number).toList.head? = some '_' := by
    simp [discardName, String.toList_append]
  refine identifier_eq_self (fun word => ?_) (fun range => ?_)
  · have others : ∀ chars ∈ reservedWords.map String.toList, chars.head? ≠ some '_' := by
      decide +kernel
    exact others _ (List.mem_map_of_mem word) starts
  · obtain ⟨rest, known⟩ := List.isPrefixOf_iff_prefix.mp range
    rw [← known] at starts
    cases starts

namespace Expr

open Emission (discardType? outVariable?)

-- The types of the outputs that are thrown away in an expression.
def discards (e : Expr) : List TypeRef :=
  e.subterms.filterMap discardType?

def discardsAll (es : List Expr) : List TypeRef :=
  es.flatMap discards

mutual

-- The expression with names for its outputs. Those that are thrown away are numbered from `first`.
def named (first : Nat) : Expr → Expr
  | literal node value         => literal node value
  | name node symbol           => name node symbol
  | this node                  => this node
  | member node target symbol  => member node (target.named first) symbol
  | index node target position =>
    index node (target.named first) (position.named (first + target.discards.length))
  | binary node op left right  =>
    binary node op (left.named first) (right.named (first + left.discards.length))
  | unary node op operand      => unary node op (operand.named first)
  | assign node op target value =>
    assign node op (target.named first) (value.named (first + target.discards.length))
  | call node owner method args => call node owner method (namedAll first args)
  | construct node args        => construct node (namedAll first args)
  | conditional node condition whenTrue whenFalse =>
    conditional node (condition.named first)
      (whenTrue.named (first + condition.discards.length))
      (whenFalse.named (first + condition.discards.length + whenTrue.discards.length))
  | cast node operand          => cast node (operand.named first)
  | paren node inner           => paren node (inner.named first)
  | outVariable node declared  => name node ⟨"", declared, .local⟩
  | discard node               => name node ⟨"", discardName first, .local⟩

def namedAll (first : Nat) : List Expr → List Expr
  | []      => []
  | e :: es => e.named first :: namedAll (first + e.discards.length) es

end

variable {e : Expr} {es es' : List Expr} {first : Nat}

theorem node_named (e : Expr) : (e.named first).node = e.node := by
  cases e <;> rfl

@[simp]
theorem ty_named (e : Expr) : (e.named first).ty = e.ty :=
  congrArg Node.ty (node_named e)

theorem length_namedAll : (namedAll first es).length = es.length := by
  induction es generalizing first
  case nil     => rfl
  case cons hi => rw [namedAll, List.length_cons, List.length_cons, hi]

theorem discards_eq (e : Expr) :
    e.discards = (discardType? e).toList ++ discardsAll e.operands := by
  rw [discards, subterms_eq, List.filterMap_cons, discardsAll, List.filterMap_flatMap]
  cases discardType? e <;> rfl

theorem discards_member {node : Node} {symbol : Symbol} :
    (member node e symbol).discards = e.discards := rfl

theorem discards_index {node : Node} {target position : Expr} :
    (index node target position).discards = target.discards ++ position.discards := by
  simp [discards_eq (index ..), operands, discardType?, discardsAll]

theorem discards_binary {node : Node} {op : BinaryOp} {left right : Expr} :
    (binary node op left right).discards = left.discards ++ right.discards := by
  simp [discards_eq (binary ..), operands, discardType?, discardsAll]

theorem discards_assign {node : Node} {op : AssignOp} {target value : Expr} :
    (assign node op target value).discards = target.discards ++ value.discards := by
  simp [discards_eq (assign ..), operands, discardType?, discardsAll]

theorem discards_conditional {node : Node} {condition whenTrue whenFalse : Expr} :
    (conditional node condition whenTrue whenFalse).discards =
    condition.discards ++ whenTrue.discards ++ whenFalse.discards := by
  simp [discards_eq (conditional ..), operands, discardType?, discardsAll]

theorem discards_call {node : Node} {owner method : String} :
    (call node owner method es).discards = discardsAll es :=
  discards_eq _

theorem discards_construct {node : Node} : (construct node es).discards = discardsAll es :=
  discards_eq _

theorem discardsAll_nil : discardsAll [] = [] := rfl

theorem discardsAll_cons : discardsAll (e :: es) = e.discards ++ discardsAll es :=
  List.flatMap_cons

theorem discardsAll_singleton : discardsAll [e] = e.discards :=
  List.flatMap_singleton ..

theorem discardsAll_append : discardsAll (es ++ es') = discardsAll es ++ discardsAll es' :=
  List.flatMap_append

theorem namedAll_append : namedAll first (es ++ es') =
    namedAll first es ++ namedAll (first + (discardsAll es).length) es' := by
  induction es generalizing first
  case nil => rfl
  case cons e es hi =>
    rw [List.cons_append, namedAll, namedAll, hi, discardsAll_cons, List.length_append,
      Nat.add_assoc, List.cons_append]

-- The places of a walk one after the other, each with the number that the walk has come to.
def namedEach (first : Nat) : List Expr → List Expr
  | []      => []
  | e :: es => e.named first :: namedEach (first + (discardType? e).toList.length) es

theorem namedEach_append : namedEach first (es ++ es') =
    namedEach first es ++ namedEach (first + (es.filterMap discardType?).length) es' := by
  induction es generalizing first
  case nil => rfl
  case cons e es hi =>
    rw [List.cons_append, namedEach, hi, namedEach, List.filterMap_cons]
    cases discardType? e <;> simp [Nat.add_comm, Nat.add_left_comm]

theorem filterMap_namedEach {f : Expr → Option α} (none : ∀ e first, f (named first e) = none) :
    (namedEach first es).filterMap f = [] := by
  induction es generalizing first
  case nil     => rfl
  case cons hi => rw [namedEach, List.filterMap_cons_none (none ..), hi]

theorem discardType?_named (e : Expr) (first : Nat) : discardType? (e.named first) = none := by
  cases e <;> rfl

theorem outVariable?_named (e : Expr) (first : Nat) : outVariable? (e.named first) = none := by
  cases e <;> rfl

theorem filterMap_subtermsAll : (subtermsAll es).filterMap discardType? = discardsAll es := by
  rw [subtermsAll_eq, List.filterMap_flatMap]
  rfl

mutual

theorem subterms_named (first : Nat) (e : Expr) :
    (e.named first).subterms = namedEach first e.subterms := by
  cases e
  case call args | construct args =>
    simp only [named, subterms, namedEach, discardType?, Option.toList_none, List.length_nil,
      Nat.add_zero, subtermsAll_namedAll first args]
  case member e _ | unary e | cast e | paren e =>
    simp only [named, subterms, namedEach, discardType?, Option.toList_none, List.length_nil,
      Nat.add_zero, subterms_named _ e]
  case index left right | binary left right | assign left right =>
    simp only [named, subterms, namedEach, discardType?, Option.toList_none, List.length_nil,
      Nat.add_zero, namedEach_append, subterms_named _ left, subterms_named _ right]
    rfl
  case conditional condition whenTrue whenFalse =>
    simp only [named, subterms, namedEach, discardType?, Option.toList_none, List.length_nil,
      Nat.add_zero, namedEach_append, List.filterMap_append, List.length_append,
      subterms_named _ condition, subterms_named _ whenTrue, subterms_named _ whenFalse,
      ← Nat.add_assoc]
    rfl
  all_goals rfl

theorem subtermsAll_namedAll (first : Nat) :
    ∀ es : List Expr, subtermsAll (namedAll first es) = namedEach first (subtermsAll es)
  | []      => rfl
  | e :: es => by
    rw [namedAll, subtermsAll, subtermsAll, namedEach_append, subterms_named first e,
      subtermsAll_namedAll _ es]
    rfl

end

-- The outputs that are thrown away in what a builtin variable is selected from are never come to.
def Reaches (e : Expr) : Prop :=
  ∀ node target symbol, .member node target symbol ∈ e.subterms →
    symbol.isData → isBuiltinsType symbol.owner → target.discards = []

theorem Reaches.operand {o : Expr} (h : e.Reaches) (mem : o ∈ e.operands) : o.Reaches := by
  intro node target symbol inside
  refine h node target symbol ?_
  rw [subterms_eq]
  exact .tail _ (List.mem_flatMap.mpr ⟨o, mem, inside⟩)

end Expr

-- What an emitter draws the numbers of its discard variables from.
structure Supply where
  queues : List (List Nat)
  next   : Nat

namespace Emitter

def supply (s : Emitter) : Supply := ⟨s.discards, s.nextDiscard⟩

-- The emitter with another supply.
def drawing (s : Emitter) (supply : Supply) : Emitter :=
  { s with discards := supply.queues, nextDiscard := supply.next }

end Emitter

theorem locate_eq_ok_iff {x : EmitM α} {location : Option Location} {s s' : Emitter} {a : α} :
    EmitM.locate location x s = .ok a s' ↔ x s = .ok a s' := by
  simp only [EmitM.locate, EStateM.adaptExcept]
  cases x s <;> simp

theorem liftExcept_eq_ok_iff {result : Except Error α} {s s' : Emitter} {a : α} :
    (liftExcept result : EmitM α) s = .ok a s' ↔ result = .ok a ∧ s' = s := by
  cases result
  case error => exact ⟨nofun, nofun⟩
  case ok b =>
    change EStateM.Result.ok b s = .ok a s' ↔ _
    simp [eq_comm]

-- Whenever the first computation succeeds with the one supply, it leaves the other, and the second
-- succeeds with any supply, which it leaves as it is. Apart from supplies they do the same.
def Follows (before after : Supply) (R : α → β → Prop) (x : EmitM α) (y : EmitM β) : Prop :=
  ∀ s a s', s.supply = before → x s = .ok a s' → s'.supply = after ∧
    ∀ supply, ∃ b, y (s.drawing supply) = .ok b (s'.drawing supply) ∧ R a b

namespace Follows

variable {before middle after supply : Supply} {R : α → β → Prop} {R' : γ → δ → Prop}
  {x : EmitM α} {y : EmitM β}

theorem bind {f : α → EmitM γ} {g : β → EmitM δ} (first : Follows before middle R x y)
    (second : ∀ a b, R a b → Follows middle after R' (f a) (g b)) :
    Follows before after R' (x >>= f) (y >>= g) := by
  intro s c s'' supplied h
  have ⟨a, s', h, h'⟩ := exists_of_bind_eq_ok h
  have ⟨left, follow⟩ := first s a s' supplied h
  have ⟨b, _, r⟩ := follow before
  refine ⟨(second a b r s' c s'' left h').left, fun supply => ?_⟩
  have ⟨b, run, r⟩ := follow supply
  have ⟨d, run', r'⟩ := (second a b r s' c s'' left h').right supply
  exact ⟨d, bind_eq_ok_of run run', r'⟩

theorem pure {a : α} {b : β} (r : R a b) : Follows supply supply R (pure a) (pure b) := by
  intro s _ _ supplied h
  cases h
  exact ⟨supplied, fun _ => ⟨b, rfl, r⟩⟩

theorem map {f : α → γ} {g : β → δ} (first : Follows before after R x y)
    (second : ∀ a b, R a b → R' (f a) (g b)) :
    Follows before after R' (x >>= fun a => Pure.pure (f a)) (y >>= fun b => Pure.pure (g b)) :=
  first.bind fun a b r => .pure (second a b r)

theorem fail {error : Error} : Follows before after R (throw error) y := by
  intro s a s' _ h
  cases h

theorem locate {location location' : Option Location} (h : Follows before after R x y) :
    Follows before after R (EmitM.locate location x) (EmitM.locate location' y) := by
  intro s a s' supplied h'
  simp only [locate_eq_ok_iff] at h' ⊢
  exact h s a s' supplied h'

theorem liftExcept {result : Except Error α} {result' : Except Error β}
    (h : ∀ a, result = .ok a → ∃ b, result' = .ok b ∧ R a b) :
    Follows supply supply R (liftExcept result) (liftExcept result') := by
  intro s a s' supplied h'
  have ⟨known, kept⟩ := liftExcept_eq_ok_iff.mp h'
  have ⟨b, known, r⟩ := h a known
  subst kept
  exact ⟨supplied, fun _ => ⟨b, liftExcept_eq_ok_iff.mpr ⟨known, rfl⟩, r⟩⟩

theorem get : Follows supply supply (fun s s' => s'.inConstructor = s.inConstructor) get get := by
  intro s _ _ supplied h
  cases h
  exact ⟨supplied, fun _ => ⟨_, rfl, rfl⟩⟩

-- A change that has nothing to do with supplies.
theorem modify {f : Emitter → Emitter}
    (apart : ∀ s supply, f (s.drawing supply) = (f s).drawing supply) :
    Follows supply supply (fun _ _ => True) (modify f) (modify f) := by
  intro s _ _ supplied h
  cases h
  refine ⟨?_, fun supply => ⟨(), ?_, trivial⟩⟩
  · have := congrArg Emitter.supply (apart s s.supply)
    exact this.trans supplied
  · exact congrArg (EStateM.Result.ok ()) (apart s supply)

end Follows

-- Follows, and draws as many numbers from the innermost queue, which starts with them.
def Draws (first count : Nat) (R : α → β → Prop) (x : EmitM α) (y : EmitM β) : Prop :=
  ∀ rest outer next, Follows ⟨(List.range' first count ++ rest) :: outer, next⟩
    ⟨rest :: outer, next⟩ R x y

namespace Draws

variable {first m n : Nat} {R : α → β → Prop} {R' : γ → δ → Prop} {x : EmitM α} {y : EmitM β}

theorem of_follows (h : ∀ supply, Follows supply supply R x y) : Draws first 0 R x y :=
  fun _ _ _ => h _

theorem pure {a : α} {b : β} (r : R a b) : Draws first 0 R (pure a) (pure b) :=
  of_follows fun _ => .pure r

theorem bind {f : α → EmitM γ} {g : β → EmitM δ} (head : Draws first m R x y)
    (tail : ∀ a b, R a b → Draws (first + m) n R' (f a) (g b)) :
    Draws first (m + n) R' (x >>= f) (y >>= g) := by
  intro rest outer next
  rw [← List.range'_append_1, List.append_assoc]
  exact (head _ _ _).bind fun a b r => tail a b r rest outer next

-- What follows draws nothing.
theorem after {f : α → EmitM γ} {g : β → EmitM δ} (head : Draws first m R x y)
    (tail : ∀ a b, R a b → ∀ supply, Follows supply supply R' (f a) (g b)) :
    Draws first m R' (x >>= f) (y >>= g) :=
  head.bind fun a b r => of_follows (tail a b r)

-- What comes first draws nothing.
theorem before {f : α → EmitM γ} {g : β → EmitM δ} (head : ∀ supply, Follows supply supply R x y)
    (tail : ∀ a b, R a b → Draws first m R' (f a) (g b)) :
    Draws first m R' (x >>= f) (y >>= g) :=
  fun rest outer next => (head _).bind fun a b r => tail a b r rest outer next

theorem map {f : α → γ} {g : β → δ} (head : Draws first m R x y)
    (tail : ∀ a b, R a b → R' (f a) (g b)) :
    Draws first m R' (x >>= fun a => Pure.pure (f a)) (y >>= fun b => Pure.pure (g b)) :=
  head.after fun a b r _ => .pure (tail a b r)

theorem locate {location location' : Option Location} (h : Draws first m R x y) :
    Draws first m R (EmitM.locate location x) (EmitM.locate location' y) :=
  fun _ _ _ => (h _ _ _).locate

end Draws

namespace Glsl

-- The second is the first, spelled.
def Term.Spells (a b : Term) : Prop := b = a.spelled

def Operand.Spells (as bs : List Operand) : Prop := bs = as.map spelled

end Glsl

namespace Emission

variable {env : Emission} {supply : Supply}

theorem lowerBuiltin_follows (name : String) :
    Follows supply supply Term.Spells (env.lowerBuiltin name) (env.lowerBuiltin name) := by
  rw [lowerBuiltin]
  split
  case h_1 => exact .fail
  case h_2 builtin _ =>
    split
    case isFalse => exact .fail
    case isTrue =>
      exact (Follows.modify fun _ _ => rfl).map fun _ _ _ =>
        (Target.spelled_builtinVariable builtin).symm

theorem useResource_drawing (r : Resource) (s : Emitter) (supply : Supply) :
    (s.drawing supply).useResource r = (s.useResource r).drawing supply := by
  by_cases used : r.name ∈ s.resourcesUsed <;> cases known : Emitter.resourceFlag? r.kind
  all_goals simp [Emitter.useResource, Emitter.touch, Emitter.drawing, used, known]

theorem lowerSymbol_follows (symbol : Symbol) :
    Follows supply supply Term.Spells (env.lowerSymbol symbol) (env.lowerSymbol symbol) := by
  rw [lowerSymbol]
  split
  case h_5 | h_6 =>
    split
    case isTrue => exact lowerBuiltin_follows symbol.name
    case isFalse =>
      split
      case h_1 => exact .pure rfl
      case h_2 =>
        split
        case h_1 r _ => exact (Follows.modify (useResource_drawing r)).map fun _ _ _ => rfl
        case h_2 =>
          refine .pure ?_
          split
          case isFalse => rfl
          case isTrue =>
            cases known : staticMember? symbol.owner symbol.name
            case none => rfl
            case some => exact (spelled_staticMember? known).symm
  all_goals exact .pure rfl

theorem checkIntrinsic_follows (owner method : String) :
    Follows supply supply (fun _ _ => True) (env.checkIntrinsic owner method)
      (env.checkIntrinsic owner method) := by
  rw [checkIntrinsic]
  split
  case isFalse => exact .pure trivial
  case isTrue =>
    simp only
    split
    case isFalse => exact .fail
    case isTrue =>
      split
      case isTrue  => exact .modify fun _ _ => rfl
      case isFalse => exact .pure trivial

variable {first : Nat}

theorem isImplicit_named {c : Bool} {e : Expr} :
    isImplicit c (e.named first) = isImplicit c e := by
  cases e <;> rfl

theorem needsGroup_named {e : Expr} : needsGroup (e.named first) = needsGroup e := by
  cases e <;> rfl

theorem discards_of_isImplicit {c : Bool} {e : Expr} (h : isImplicit c e) : e.discards = [] := by
  cases e
  case name | this => rfl
  all_goals cases h

theorem takeDiscard_draws : Draws first 1 Term.Spells
    (return .discarded (← modifyGet Emitter.takeDiscard))
    (return .atom (identifier (discardName first))) := by
  intro rest outer next s a s' supplied h
  have ⟨number, s₁, taken, h⟩ := exists_of_bind_eq_ok h
  cases h
  have ⟨queues, next⟩ := Supply.mk.injEq .. ▸ supplied
  have known : s.takeDiscard = (first, { s with discards := rest :: outer }) := by
    simp [Emitter.takeDiscard, queues]
  change EStateM.Result.ok s.takeDiscard.1 s.takeDiscard.2 = _ at taken
  rw [known] at taken
  cases taken
  refine ⟨Supply.mk.injEq .. ▸ ⟨rfl, next⟩, fun supply => ⟨_, rfl, ?_⟩⟩
  rw [identifier_discardName]
  rfl

-- An assignment to anything but an element is no store to an image.
theorem assign_draws {node : Node} {op : AssignOp} {target value : Expr}
    (other : ∀ node image position, target ≠ .index node image position)
    (whole : Draws first target.discards.length Term.Spells (env.lower target)
      (env.lower (target.named first)))
    (given : Draws (first + target.discards.length) value.discards.length Term.Spells
      (env.lower value) (env.lower (value.named (first + target.discards.length)))) :
    Draws first (target.discards.length + value.discards.length) Term.Spells
      (env.lower (.assign node op target value))
      (env.lower ((Expr.assign node op target value).named first)) := by
  have other' (node image position) : target.named first ≠ .index node image position := by
    cases target <;> simp_all [Expr.named]
  rw [Expr.named, lower, lower]
  case x => exact other'
  case x => exact other
  refine .locate (whole.bind ?_)
  rintro t _ rfl
  refine given.map ?_
  rintro v _ rfl
  rfl

mutual

theorem lower_draws (env : Emission) (e : Expr) (reaches : e.Reaches) (first : Nat) :
    Draws first e.discards.length Term.Spells (env.lower e) (env.lower (e.named first)) := by
  have part {o : Expr} (mem : o ∈ e.operands) : o.Reaches := reaches.operand mem
  cases e
  case literal | this =>
    rw [Expr.named, lower]
    exact .locate (.pure rfl)
  case outVariable =>
    rw [Expr.named, lower, lower]
    exact .locate (.pure rfl)
  case name symbol =>
    rw [Expr.named, lower]
    exact .locate (.of_follows fun _ => lowerSymbol_follows symbol)
  case discard =>
    rw [Expr.named, lower, lower]
    exact .locate takeDiscard_draws
  case member node target symbol =>
    have inner := lower_draws env target (part (.head _)) first
    rw [Expr.named, lower, lower]
    refine .locate ?_
    split
    case isTrue builtin =>
      have ⟨data, owner⟩ := Bool.and_eq_true_iff.mp builtin
      have none := reaches node target symbol (by simp [Expr.subterms]) data owner
      rw [Expr.discards_member, none]
      exact .of_follows fun _ => lowerBuiltin_follows symbol.name
    case isFalse =>
      refine .before (fun _ => .get) fun s s' same => ?_
      rw [same, isImplicit_named]
      split
      case isTrue implicit =>
        rw [Expr.discards_member, discards_of_isImplicit implicit]
        exact .of_follows fun _ => lowerSymbol_follows symbol
      case isFalse =>
        refine inner.map ?_
        rintro target _ rfl
        exact Selector.select_spelled ..
  case index node target position =>
    have image := lower_draws env target (part (.head _)) first
    have index := lower_draws env position (part (.tail _ (.head _)))
      (first + target.discards.length)
    rw [Expr.named, lower, lower, Expr.discards_index, List.length_append]
    refine .locate (image.bind ?_)
    rintro image _ rfl
    rw [Expr.ty_named]
    split
    case isTrue =>
      refine index.map ?_
      rintro index _ rfl
      exact imageLoad_spelled ..
    case isFalse =>
      refine index.map ?_
      rintro index _ rfl
      rfl
  case binary op left right =>
    have l := lower_draws env left (part (.head _)) first
    have r := lower_draws env right (part (.tail _ (.head _))) (first + left.discards.length)
    rw [Expr.named, lower, lower, Expr.discards_binary, List.length_append]
    refine .locate (l.bind ?_)
    rintro l _ rfl
    refine r.map ?_
    rintro r _ rfl
    rw [Expr.ty_named, Expr.ty_named]
    exact binaryTerm_spelled ⟨l, left.ty⟩ op ⟨r, right.ty⟩
  case unary op operand =>
    have inner := lower_draws env operand (part (.head _)) first
    rw [Expr.named, lower, lower]
    refine .locate (inner.map ?_)
    rintro operand _ rfl
    rfl
  case paren inner =>
    have inner := lower_draws env inner (part (.head _)) first
    rw [Expr.named, lower, lower]
    refine .locate (inner.map ?_)
    rintro inner _ rfl
    rfl
  case cast node operand =>
    have inner := lower_draws env operand (part (.head _)) first
    rw [Expr.named, lower, lower]
    refine .locate (inner.after ?_)
    rintro operand _ rfl _
    exact .liftExcept fun term known => ⟨_, Target.conversion_spelled known, rfl⟩
  case conditional condition whenTrue whenFalse =>
    have c := lower_draws env condition (part (.head _)) first
    have t := lower_draws env whenTrue (part (.tail _ (.head _)))
      (first + condition.discards.length)
    have f := lower_draws env whenFalse (part (.tail _ (.tail _ (.head _))))
      (first + condition.discards.length + whenTrue.discards.length)
    rw [Expr.named, lower, lower, Expr.discards_conditional, List.append_assoc, List.length_append,
      List.length_append]
    refine .locate (c.bind ?_)
    rintro c _ rfl
    refine t.bind ?_
    rintro t _ rfl
    refine f.map ?_
    rintro f _ rfl
    rfl
  case assign op target value =>
    have whole := lower_draws env target (part (.head _)) first
    have given := lower_draws env value (part (.tail _ (.head _)))
      (first + target.discards.length)
    rw [Expr.discards_assign, List.length_append]
    cases target
    case index node image position =>
      have i := lower_draws env image ((part (.head _)).operand (.head _)) first
      have p := lower_draws env position ((part (.head _)).operand (.tail _ (.head _)))
        (first + image.discards.length)
      rw [Expr.named, Expr.named, lower, lower]
      refine .locate ?_
      rw [Expr.ty_named]
      split
      case isTrue =>
        rw [Expr.discards_index, List.length_append, ← Nat.add_assoc first] at given ⊢
        rw [Nat.add_assoc image.discards.length]
        refine i.bind ?_
        rintro i _ rfl
        refine p.bind ?_
        rintro p _ rfl
        refine given.map ?_
        rintro v _ rfl
        rw [Expr.ty_named]
        exact imageStore_spelled i p ⟨v, value.ty⟩
      case isFalse =>
        refine whole.bind ?_
        rintro t _ rfl
        refine given.map ?_
        rintro v _ rfl
        rfl
    all_goals exact assign_draws (by simp) whole given
  case call node owner method args =>
    have all := lowerAll_draws env args (fun _ => part) first
    have only (arg : Expr) (h : args = [arg]) : Draws first arg.discards.length Term.Spells
        (env.lower arg) (env.lower (arg.named first)) := by
      cases args
      case nil => cases h
      case cons e es =>
        have here := lower_draws env e (part (.head _)) first
        cases h
        exact here
    rw [Expr.discards_call, Expr.named, lower.eq_def, lower.eq_def env (.call ..)]
    refine .locate ?_
    simp only [Expr.length_namedAll]
    split
    case h_1 id known =>
      refine all.map ?_
      rintro operands _ rfl
      simp [Term.Spells]
    case h_2 =>
      cases swizzle : swizzle? method args.length
      case none =>
        simp only
        refine .before (fun _ => checkIntrinsic_follows owner method) fun _ _ _ => ?_
        refine all.after ?_
        rintro operands _ rfl _
        exact .liftExcept fun term known => ⟨_, Target.invocation_spelled known, rfl⟩
      case some components =>
        have one := length_eq_one_of_swizzle? (swizzle ▸ Option.some_ne_none components)
        obtain ⟨arg, rfl⟩ := List.length_eq_one_iff.mp one
        rw [Expr.discardsAll_cons, Expr.discardsAll_nil, List.append_nil, Expr.namedAll,
          Expr.namedAll]
        simp only [needsGroup_named]
        refine (only arg rfl).map ?_
        rintro term _ rfl
        split <;> rfl
  case construct node args =>
    have all := lowerAll_draws env args (fun _ => part) first
    rw [Expr.discards_construct, Expr.named, lower, lower]
    refine .locate ?_
    split
    case h_1 =>
      refine all.map ?_
      rintro operands _ rfl
      simp [Term.Spells]
    case h_2 =>
      cases args
      case nil =>
        rw [Expr.namedAll]
        exact .of_follows fun _ => .liftExcept fun term known =>
          ⟨term, known, (spelled_defaultValue known).symm⟩
      case cons =>
        rw [Expr.namedAll] at all ⊢
        refine all.after ?_
        rintro operands _ rfl _
        exact .liftExcept fun term known => ⟨_, Target.construction_spelled known, rfl⟩

theorem lowerAll_draws (env : Emission) : ∀ es : List Expr, (∀ e ∈ es, e.Reaches) → ∀ first,
    Draws first (Expr.discardsAll es).length Operand.Spells (env.lowerAll es)
      (env.lowerAll (Expr.namedAll first es))
  | [], _, first => by
    rw [Expr.namedAll, lowerAll]
    exact .pure rfl
  | e :: es, reaches, first => by
    have here := lower_draws env e (reaches e (.head _)) first
    have later := lowerAll_draws env es (fun e mem => reaches e (.tail _ mem))
      (first + e.discards.length)
    rw [Expr.namedAll, lowerAll, lowerAll, Expr.discardsAll_cons, List.length_append]
    refine here.bind ?_
    rintro term _ rfl
    refine later.map ?_
    rintro operands _ rfl
    rw [Expr.ty_named]
    rfl

end

end Emission
end Shading
