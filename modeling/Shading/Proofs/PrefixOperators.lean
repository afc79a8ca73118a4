import Shading.Proofs.LeadingMarks
import Shading.Proofs.NamedOutputs
import Shading.Proofs.Products
import Mathlib
/-!
Whether an operator that is written before its operand is read as a token of its own.

Nothing separates the two, so this depends on what is written first of the operand, which can be any
part of it that stands at its left.
-/

namespace Shading

open Glsl Token

namespace Emission

variable (env : Emission) (c : Bool) (op : UnaryOp)

-- What a symbol is written as where it stands by itself.
def symbolTerm (symbol : Symbol) : Term :=
  match symbol.kind with
  | .local | .parameter | .method => .atom (identifier symbol.name)
  | .type => .atom (identifier (shortName symbol.name))
  | .field | .property =>
    if isBuiltinsType symbol.owner then
      ((BuiltinVariable.parse? symbol.name).map env.target.builtinVariable).getD (.atom "")
    else
      match env.program.constant? symbol.owner symbol.name with
      | some value => .atom (env.target.literal value)
      | none =>
        let constant :=
          if (env.resource? symbol.owner symbol.name).isNone &&
            (env.program.type? symbol.owner).isNone then staticMember? symbol.owner symbol.name
          else none
        constant.getD (.atom (identifier symbol.name))

-- The symbol whose name is all that is written of an expression.
def symbol? : Expr → Option Symbol
  | .name _ symbol          => some symbol
  | .member _ target symbol =>
    if symbol.isData && isBuiltinsType symbol.owner || isImplicit c target then some symbol
    else none
  | _ => none

-- Whether nothing at all is written of an expression.
def isBlank : Expr → Bool
  | .literal _ value    => env.target.literal value == ""
  | .outVariable _ name => identifier name == ""
  | e                   => (symbol? c e).any fun symbol => (env.symbolTerm symbol).text == ""

-- Whether the product of two operands is written with the operands exchanged.
def exchanges (op : BinaryOp) (left right : TypeRef) : Bool :=
  op == .multiply && isMatrixName right.name && (isMatrixName left.name || isVectorName left.name)

mutual

-- Whether a sign before the expression is read as a part of a longer mark. What is written first of
-- the expression is a part of an operand, down to a literal, a name, or another operator.
def sticks : Expr → Bool
  | .literal _ value => op.joins (env.target.literal value)
  | .name _ symbol => op.joins (env.symbolTerm symbol).text
  | .outVariable _ name => op.joins (identifier name)
  | .this _ | .conditional .. | .paren .. | .discard _ => false
  | .member node target symbol =>
    match symbol? c (.member node target symbol) with
    | some symbol => op.joins (env.symbolTerm symbol).text
    | none        => sticks target
  | .index _ target _ => !isStorageImage target.ty && sticks target
  | .binary _ inner left right =>
    if (vectorComparison? inner).isSome && isVectorName left.ty.name then false
    else if exchanges inner left.ty right.ty then sticks right
    else sticks left
  | .unary _ inner operand =>
    if inner.isTrailing then sticks operand || (env.isBlank c operand && op.joins inner.symbol)
    else op.joins inner.symbol
  | .assign _ _ target _ => sticks target
  | .call node owner method args =>
    match (Expr.call node owner method args).callee? env.program with
    | some id => op.joins (functionName id)
    | none =>
      if (swizzle? method args.length).isSome then sticksFirst args
      else op.joins "-" && Intrinsic.negates owner method
  | .construct node args =>
    match (Expr.construct node args).callee? env.program with
    | some id => op.joins (functionName id)
    | none    => node.ty.isStruct && op.joins (identifier node.ty.short)
  | .cast node _ => ((env.target.typeName node.ty).toOption).any op.joins

-- The components of a value are selected from the argument of a swizzle.
def sticksFirst : List Expr → Bool
  | []       => false
  | arg :: _ => !needsGroup arg && sticks arg

end

variable {env c op} {symbol : Symbol} {e : Expr} {t : Term} {s s' : Emitter} {name : String}
  {node : Node}

theorem eq_of_lowerBuiltin (h : env.lowerBuiltin name s = .ok t s') :
    t = ((BuiltinVariable.parse? name).map env.target.builtinVariable).getD (.atom "") := by
  cases known : BuiltinVariable.parse? name
  case none =>
    simp only [lowerBuiltin, known] at h
    cases h
  case some builtin =>
    simp only [lowerBuiltin, known] at h
    by_cases allowed : builtin.stages.allows env.stage
    case pos =>
      simp only [allowed] at h
      cases h
      rfl
    case neg =>
      rw [if_neg (by simpa using allowed)] at h
      cases h

theorem eq_symbolTerm (h : env.lowerSymbol symbol s = .ok t s') : t = env.symbolTerm symbol := by
  cases kind : symbol.kind
  case field | property =>
    simp only [lowerSymbol, kind] at h
    simp only [symbolTerm, kind]
    split at h
    case isTrue builtin =>
      rw [if_pos builtin]
      exact eq_of_lowerBuiltin h
    case isFalse other =>
      rw [if_neg other]
      cases constant : env.program.constant? symbol.owner symbol.name
      case some =>
        simp only [constant] at h
        cases h
        rfl
      case none =>
        simp only [constant] at h
        cases found : env.resource? symbol.owner symbol.name
        case some =>
          simp only [found] at h
          cases h
          rfl
        case none =>
          simp only [found] at h
          cases h
          simp
  all_goals
    simp only [lowerSymbol, kind] at h
    cases h
    simp only [symbolTerm, kind]

theorem eq_symbolTerm_of_lowerBuiltin (builtin : symbol.isData && isBuiltinsType symbol.owner)
    (h : env.lowerBuiltin symbol.name s = .ok t s') : t = env.symbolTerm symbol := by
  obtain ⟨data, owned⟩ := Bool.and_eq_true_iff.mp builtin
  rw [eq_of_lowerBuiltin h, symbolTerm]
  cases kind : symbol.kind
  case field | property => simp only [owned, if_true]
  all_goals simp [Symbol.isData, kind] at data

theorem symbolTerm_of_constant? {value : Literal} (data : symbol.isData)
    (other : ¬isBuiltinsType symbol.owner)
    (known : env.program.constant? symbol.owner symbol.name = some value) :
    env.symbolTerm symbol = .atom (env.target.literal value) := by
  rw [symbolTerm]
  cases kind : symbol.kind
  case field | property => simp only [if_neg other, known]
  all_goals simp [Symbol.isData, kind] at data

theorem symbol?_of_names (names : e.Names c symbol) : symbol? c e = some symbol := by
  have implicit {node : Node} {target : Expr} (h : isImplicit c target) :
      symbol? c (.member node target symbol) = some symbol := by
    simp only [symbol?, h, Bool.or_true, if_true]
  cases names
  case bare        => rfl
  case ofType kind => exact implicit (beq_iff_eq.mpr kind)
  case ofThis ctor => exact implicit (ctor ▸ rfl)

theorem sticks_of_symbol? (known : symbol? c e = some symbol) :
    env.sticks c op e = op.joins (env.symbolTerm symbol).text := by
  cases e
  case name =>
    cases known
    rfl
  case member => simp only [sticks, known]
  all_goals cases known

-- What an expression leads with, as far as a sign before it is concerned.
structure Leads (env : Emission) (c : Bool) (op : UnaryOp) (e : Expr) (text : String) : Prop where
  joins : op.joins text = env.sticks c op e
  blank : (text == "") = env.isBlank c e

theorem leads_of_joins {text : String} (h : op.joins text = env.sticks c op e ∧ text ≠ "")
    (written : env.isBlank c e = false) : Leads env c op e text where
  joins := h.left
  blank := by
    rw [written]
    exact beq_eq_false_iff_ne.mpr h.right

theorem leads_of_opens {text : String} (opened : opens text) (apart : env.sticks c op e = false)
    (written : env.isBlank c e = false) : Leads env c op e text :=
  leads_of_joins ⟨by rw [joins_of_opens opened, apart], ne_empty_of_opens opened⟩ written

-- Whatever an expression is lowered to begins as it says.
def Led (env : Emission) (op : UnaryOp) (e : Expr) : Prop :=
  ∀ s t s', env.lower e s = .ok t s' → Leads env s.inConstructor op e t.text

theorem inConstructor_of_lower (h : env.lower e s = .ok t s') :
    s'.inConstructor = s.inConstructor :=
  (lower_writes env s.inConstructor e s t s' rfl h).left.inConstructor

theorem led_unary {inner : UnaryOp} (operand : Led env op e) :
    Led env op (.unary node inner e) := by
  intro s t s' h
  rw [lower] at h
  obtain ⟨a, _, lowered, h⟩ := exists_of_bind_eq_ok (locate_eq_ok h)
  cases h
  have leads := operand _ _ _ lowered
  have marked : inner.symbol ≠ "" := by cases inner <;> decide
  rw [Term.text]
  split
  case isTrue trailing =>
    refine leads_of_joins ⟨?_, by simp [marked]⟩ rfl
    rw [sticks, if_pos trailing, UnaryOp.joins_append, leads.joins, leads.blank]
  case isFalse leading =>
    refine leads_of_joins ⟨?_, by simp [marked]⟩ rfl
    rw [sticks, if_neg leading, UnaryOp.joins_append, beq_eq_false_iff_ne.mpr marked,
      Bool.false_and, Bool.or_false]

theorem led_index {position : Expr} (target : Led env op e) :
    Led env op (.index node e position) := by
  intro s t s' h
  rw [lower] at h
  obtain ⟨image, _, lowered, h⟩ := exists_of_bind_eq_ok (locate_eq_ok h)
  obtain ⟨_, _, _, h⟩ := exists_of_bind_eq_ok h
  split at h
  case isTrue stored =>
    cases h
    refine leads_of_opens opens_imageLoad ?_ rfl
    rw [sticks, stored]
    rfl
  case isFalse plain =>
    cases h
    refine leads_of_joins ?_ rfl
    rw [sticks, Bool.eq_false_iff.mpr plain, ← (target _ _ _ lowered).joins, Term.text,
      String.append_assoc]
    exact joins_before (by decide) _

theorem led_assign {assignOp : AssignOp} {value : Expr} (target : Led env op e) :
    Led env op (.assign node assignOp e value) := by
  intro s t s' h
  by_cases stored : assignOp = .assign ∧
      ∃ node image position, e = .index node image position ∧ isStorageImage image.ty
  case pos =>
    obtain ⟨rfl, _, image, _, rfl, stored⟩ := stored
    rw [lower] at h
    have h := locate_eq_ok h
    simp only [stored, beq_self_eq_true, Bool.and_self, if_true] at h
    obtain ⟨_, _, _, h⟩ := exists_of_bind_eq_ok h
    obtain ⟨_, _, _, h⟩ := exists_of_bind_eq_ok h
    obtain ⟨_, _, _, h⟩ := exists_of_bind_eq_ok h
    cases h
    refine leads_of_opens (Term.opens_apply (by decide)) ?_ rfl
    rw [sticks, sticks, stored]
    rfl
  case neg =>
    have plain : assignOp = .assign → ∀ node image position, e = .index node image position →
        isStorageImage image.ty = false := by
      intro assigned node image position element
      refine Bool.eq_false_iff.mpr fun storage => stored ?_
      exact ⟨assigned, node, image, position, element, storage⟩
    obtain ⟨l, r, _, lowered, _, rfl⟩ := exists_of_lower_assign plain h
    refine leads_of_joins ?_ rfl
    rw [sticks, ← (target _ _ _ lowered).joins, Term.text, String.append_assoc,
      String.append_assoc]
    exact joins_before (by decide) _

theorem leads_binaryTerm {inner : BinaryOp} {left right : Expr} {l r : Term}
    (first : Leads env c op left l.text) (second : Leads env c op right r.text) :
    Leads env c op (.binary node inner left right)
      (binaryTerm ⟨l, left.ty⟩ inner ⟨r, right.ty⟩).text := by
  have written {inner' : BinaryOp} {a b : Term} {e : Expr} (leads : Leads env c op e a.text) :
      op.joins (Term.binary inner' a b).text = env.sticks c op e ∧
        (Term.binary inner' a b).text ≠ "" := by
    rw [← leads.joins, Term.text, String.append_assoc, String.append_assoc]
    exact joins_before (by decide) _
  unfold binaryTerm
  split
  case h_1 function compared vector =>
    have named : opens function := by cases inner <;> cases compared <;> decide
    have vector : isVectorName left.ty.name := vector
    refine leads_of_opens (Term.opens_apply named) ?_ rfl
    rw [sticks, compared, vector]
    rfl
  case h_2 other =>
    have plain : ((vectorComparison? inner).isSome && isVectorName left.ty.name) = false := by
      cases known : vectorComparison? inner
      case none => rfl
      case some function =>
        have scalar : ¬isVectorName left.ty.name := other function known
        simp [scalar]
    split
    case isTrue exchanged =>
      have exchanged : exchanges inner left.ty right.ty := exchanged
      refine leads_of_joins ?_ rfl
      rw [sticks, plain, if_neg Bool.false_ne_true, if_pos exchanged]
      exact written second
    case isFalse kept =>
      have kept : ¬exchanges inner left.ty right.ty := kept
      refine leads_of_joins ?_ rfl
      rw [sticks, plain, if_neg Bool.false_ne_true, if_neg kept]
      exact written first

theorem led_binary {inner : BinaryOp} {left right : Expr} (first : Led env op left)
    (second : Led env op right) : Led env op (.binary node inner left right) := by
  intro s t s' h
  rw [lower] at h
  obtain ⟨l, s₁, lowered, h⟩ := exists_of_bind_eq_ok (locate_eq_ok h)
  obtain ⟨r, _, lowered', h⟩ := exists_of_bind_eq_ok h
  cases h
  exact leads_binaryTerm (first _ _ _ lowered)
    (inConstructor_of_lower lowered ▸ second _ _ _ lowered')

-- Either the name is all that is written, or it is selected from what is written before it.
theorem eq_symbolTerm_of_symbol? (known : symbol? s.inConstructor e = some symbol)
    (h : env.lower e s = .ok t s') : t = env.symbolTerm symbol := by
  cases e
  case name =>
    cases known
    rw [lower] at h
    exact eq_symbolTerm (locate_eq_ok h)
  case member node target symbol' =>
    rw [symbol?] at known
    split at known
    case isTrue either =>
      cases known
      rw [lower] at h
      have h := locate_eq_ok h
      split at h
      case isTrue builtin => exact eq_symbolTerm_of_lowerBuiltin builtin h
      case isFalse other =>
        have implicit : isImplicit s.inConstructor target := by simpa [other] using either
        change (if isImplicit s.inConstructor target then env.lowerSymbol symbol
          else _ : EmitM Term) s = .ok t s' at h
        rw [if_pos implicit] at h
        exact eq_symbolTerm h
    case isFalse => cases known
  all_goals cases known

theorem exists_of_symbol?_eq_none (unknown : symbol? s.inConstructor (.member node e symbol) = none)
    (h : env.lower (.member node e symbol) s = .ok t s') :
    ∃ l, env.lower e s = .ok l s' ∧ t = (Selector.ofSymbol symbol).select l := by
  simp only [symbol?, ite_eq_right_iff, reduceCtorEq, imp_false, Bool.or_eq_true, not_or] at unknown
  rw [lower] at h
  have h := locate_eq_ok h
  rw [if_neg unknown.left] at h
  change (if isImplicit s.inConstructor e then _
    else do return (Selector.ofSymbol symbol).select (← env.lower e) : EmitM Term) s = .ok t s' at h
  rw [if_neg unknown.right] at h
  obtain ⟨l, _, lowered, h⟩ := exists_of_bind_eq_ok h
  cases h
  exact ⟨l, lowered, rfl⟩

theorem led_member (target : Led env op e) : Led env op (.member node e symbol) := by
  intro s t s' h
  cases known : symbol? s.inConstructor (.member node e symbol)
  case some =>
    rw [eq_symbolTerm_of_symbol? known h]
    refine ⟨(sticks_of_symbol? known).symm, ?_⟩
    simp only [isBlank, known, Option.any_some]
  case none =>
    obtain ⟨l, lowered, rfl⟩ := exists_of_symbol?_eq_none known h
    refine leads_of_joins ?_ (by simp only [isBlank, known, Option.any_none])
    simp only [sticks, known, ← (target _ _ _ lowered).joins]
    exact joins_select op _

-- A call of a function of the program, however it is written in the program.
theorem leads_of_callee? {id : MethodId} {args : List Term}
    (called : env.sticks c op e = op.joins (functionName id)) (written : env.isBlank c e = false) :
    Leads env c op e (Term.call id args).text := by
  refine leads_of_joins ?_ written
  rw [called]
  exact Term.joins_call op

theorem led_construct (args : List Expr) : Led env op (.construct node args) := by
  intro s t s' h
  rw [lower] at h
  have h := locate_eq_ok h
  cases known : (Expr.construct node args).callee? env.program
  case some id =>
    have called : (if node.ty.isStruct then
        env.program.callee? node.ty.name MethodId.constructorName else none) = some id := known
    simp only [called] at h
    obtain ⟨operands, _, _, h⟩ := exists_of_bind_eq_ok h
    cases h
    exact leads_of_callee? (by simp only [sticks, known]) rfl
  case none =>
    have foreign : (if node.ty.isStruct then
        env.program.callee? node.ty.name MethodId.constructorName else none) = none := known
    simp only [foreign] at h
    refine leads_of_joins ?_ rfl
    simp only [sticks, known]
    split at h
    case isTrue => exact joins_defaultValue (liftExcept_eq_ok_iff.mp h).left
    case isFalse =>
      obtain ⟨operands, _, _, h⟩ := exists_of_bind_eq_ok h
      exact Target.joins_construction (liftExcept_eq_ok_iff.mp h).left

theorem led_swizzle {owner method components : String} (arg : Led env op e)
    (foreign : env.program.callee? owner method = none)
    (swizzle : swizzle? method [e].length = some components) :
    Led env op (.call node owner method [e]) := by
  intro s t s' h
  have known : (Expr.call node owner method [e]).callee? env.program = none := foreign
  rw [lower.eq_def] at h
  have h := locate_eq_ok h
  simp only [foreign, swizzle] at h
  obtain ⟨l, _, lowered, h⟩ := exists_of_bind_eq_ok h
  cases h
  refine leads_of_joins ?_ rfl
  simp only [sticks, known, swizzle, Option.isSome_some, if_true, sticksFirst,
    ← (arg _ _ _ lowered).joins]
  cases needsGroup e
  case true =>
    have opened : opens (Term.member (.group l) components).text :=
      Term.opens_member Term.opens_group
    exact ⟨joins_of_opens opened, ne_empty_of_opens opened⟩
  case false =>
    rw [Term.text]
    exact joins_before (by decide) _

theorem led_call {owner method : String} {args : List Expr} (each : ∀ arg ∈ args, Led env op arg) :
    Led env op (.call node owner method args) := by
  cases known : env.program.callee? owner method
  case some id =>
    intro s t s' h
    rw [lower.eq_def] at h
    have h := locate_eq_ok h
    simp only [known] at h
    obtain ⟨operands, _, _, h⟩ := exists_of_bind_eq_ok h
    cases h
    exact leads_of_callee? (by simp only [sticks, Expr.callee?, known]) rfl
  case none =>
    cases swizzle : swizzle? method args.length
    case some components =>
      obtain ⟨arg, rfl⟩ := List.length_eq_one_iff.mp
        (length_eq_one_of_swizzle? (Option.ne_none_iff_exists'.mpr ⟨_, swizzle⟩))
      exact led_swizzle (each arg List.mem_cons_self) known swizzle
    case none =>
      intro s t s' h
      rw [lower] at h
      case x_2 => simp [swizzle]
      have h := locate_eq_ok h
      simp only [known] at h
      obtain ⟨_, _, _, h⟩ := exists_of_bind_eq_ok h
      obtain ⟨operands, _, _, h⟩ := exists_of_bind_eq_ok h
      refine leads_of_joins ?_ rfl
      simp only [sticks, Expr.callee?, known, swizzle]
      exact Target.joins_invocation (liftExcept_eq_ok_iff.mp h).left

theorem led_cast (operand : Expr) : Led env op (.cast node operand) := by
  intro s t s' h
  rw [lower] at h
  obtain ⟨_, _, _, h⟩ := exists_of_bind_eq_ok (locate_eq_ok h)
  obtain ⟨mapped, typed, converted⟩ := bind_eq_ok_iff.mp (liftExcept_eq_ok_iff.mp h).left
  cases converted
  refine leads_of_joins ?_ rfl
  rw [sticks, typed]
  exact Term.joins_apply op

theorem led_conditional (condition whenTrue whenFalse : Expr) :
    Led env op (.conditional node condition whenTrue whenFalse) := by
  intro s t s' h
  rw [lower] at h
  obtain ⟨_, _, _, h⟩ := exists_of_bind_eq_ok (locate_eq_ok h)
  obtain ⟨_, _, _, h⟩ := exists_of_bind_eq_ok h
  obtain ⟨_, _, _, h⟩ := exists_of_bind_eq_ok h
  cases h
  refine leads_of_opens ?_ rfl rfl
  simp only [Term.text, String.append_assoc]
  exact opens_append (by decide)

-- By induction on the expression, along what is written first of it.
theorem led_of_expr (op : UnaryOp) (e : Expr) : Led env op e := by
  induction e using Expr.operand_induction
  case step e hi =>
    cases e
    case member target _    => exact led_member (hi target (by simp [Expr.operands]))
    case index target _     => exact led_index (hi target (by simp [Expr.operands]))
    case unary operand      => exact led_unary (hi operand (by simp [Expr.operands]))
    case assign target _    => exact led_assign (hi target (by simp [Expr.operands]))
    case call args          => exact led_call hi
    case construct          => exact led_construct _
    case cast               => exact led_cast _
    case conditional        => exact led_conditional _ _ _
    case binary left right  =>
      exact led_binary (hi left (by simp [Expr.operands])) (hi right (by simp [Expr.operands]))
    all_goals
      intro s t s' h
      rw [lower] at h
      have h := locate_eq_ok h
    case literal | outVariable =>
      cases h
      exact ⟨rfl, rfl⟩
    case name =>
      rw [eq_symbolTerm h]
      exact ⟨rfl, rfl⟩
    case this =>
      cases h
      exact leads_of_opens (by decide) rfl rfl
    case discard =>
      cases h
      refine leads_of_opens ?_ rfl rfl
      rw [Term.text]
      exact opens_append (by decide)
    case paren =>
      obtain ⟨_, _, _, h⟩ := exists_of_bind_eq_ok h
      cases h
      exact leads_of_opens Term.opens_group rfl rfl

end Emission

-- The literals that are written with a minus. This is not the case of a negative infinity.
def Literal.isNegative : Literal → Bool
  | .int value           => value < 0
  | .float bits          => match Decimal.Format.single.decode bits.toNat with
    | .finite isNegative _ => isNegative
    | _                    => false
  | .double bits         => match Decimal.Format.double.decode bits.toNat with
    | .finite isNegative _ => isNegative
    | _                    => false
  | .bool _ | .uint _    => false

-- The expressions that are written with a minus before all else: negations, negative literals, and
-- constant fields with a negative value.
inductive Emission.Negative (env : Emission) (c : Bool) : Expr → Prop
  | negation {node operand} : Negative env c (.unary node .negate operand)
  | literal {node value} : (value.isNegative) → Negative env c (.literal node value)
  | constant {e symbol value} :
    (e.Names c symbol) → (symbol.isData) → (¬isBuiltinsType symbol.owner) →
    (env.program.constant? symbol.owner symbol.name = some value) → (value.isNegative) →
    Negative env c e

theorem Glsl.Target.exists_of_isNegative {t : Target} {value : Literal} (h : value.isNegative) :
    ∃ rest, t.literal value = "-" ++ rest := by
  cases value
  case int value =>
    cases value
    case negSucc n => exact ⟨_, rfl⟩
    case ofNat n   =>
      have negative : Int.ofNat n < 0 := of_decide_eq_true h
      exact absurd negative (by simp)
  case float bits =>
    rw [Literal.isNegative] at h
    split at h
    case h_1 known =>
      subst h
      rw [Target.literal, known]
      exact ⟨_, rfl⟩
    case h_2 => cases h
  case double bits =>
    rw [Literal.isNegative] at h
    split at h
    case h_1 known =>
      subst h
      simp only [Target.literal, known, floatText]
      cases t.version.isEmbedded
      · exact ⟨_, String.append_assoc⟩
      · exact ⟨_, rfl⟩
    case h_2 => cases h
  all_goals cases h

theorem Emission.Negative.exists_of_lower {env : Emission} {e : Expr} {t : Term} {s s' : Emitter}
    (negative : Negative env s.inConstructor e) (h : env.lower e s = .ok t s') :
    ∃ rest, t.text = "-" ++ rest := by
  rcases negative with _ | negative | ⟨names, data, other, known, negative⟩
  case negation =>
    rw [lower] at h
    obtain ⟨operand, _, _, h⟩ := exists_of_bind_eq_ok (locate_eq_ok h)
    cases h
    exact ⟨operand.text, by rw [Term.text]; rfl⟩
  case literal =>
    rw [lower] at h
    cases locate_eq_ok h
    rw [Term.text]
    exact Glsl.Target.exists_of_isNegative negative
  case constant =>
    rw [eq_symbolTerm_of_symbol? (symbol?_of_names names) h,
      symbolTerm_of_constant? data other known, Term.text]
    exact Glsl.Target.exists_of_isNegative negative

theorem signs_read_apart_iff (env : Emission) (op : UnaryOp) (node : Node) (e : Expr) (t : Term)
    (s s' : Emitter) (sign : op ∈ UnaryOp.signs) (h : env.lower e s = .ok t s') :
    env.lower (.unary node op e) s = .ok (.unary op t) s' ∧
    (Term.unary op t).text = op.symbol ++ t.text ∧
    (lex (Term.unary op t).text = mark op.symbol :: lex t.text ↔
      ¬env.sticks s.inConstructor op e) ∧
    (env.sticks s.inConstructor op e → ∃ first rest, t.text = String.singleton first ++ rest ∧
      op.symbol.toList ++ [first] ∈ longMarks ∧
      lex (Term.unary op t).text = mark (op.symbol ++ String.singleton first) :: lex rest) ∧
    (op = .negate → env.Negative s.inConstructor e →
      ∃ rest, t.text = "-" ++ rest ∧ lex (Term.unary op t).text = mark "--" :: lex rest) := by
  have text : (Term.unary op t).text = op.symbol ++ t.text := by
    have leading : op.isTrailing = false := by fin_cases sign <;> rfl
    rw [Term.text, leading, if_neg Bool.false_ne_true]
  have leads : op.joins t.text = env.sticks s.inConstructor op e :=
    (Emission.led_of_expr op e s t s' h).joins
  rw [text, ← leads]
  refine ⟨?_, rfl, UnaryOp.lex_eq_cons_iff sign, UnaryOp.lex_of_joins sign, ?_⟩
  · rw [Emission.lower]
    exact locate_eq_ok_iff.mpr (bind_eq_of_eq_ok h)
  · rintro rfl negative
    obtain ⟨rest, written⟩ := negative.exists_of_lower h
    have tokens := UnaryOp.lex_sign sign '-' rest
    rw [if_pos (by decide)] at tokens
    exact ⟨rest, written, written ▸ tokens⟩

-- A tank with a constant below zero.
def tank : Emission where
  target    := {}
  program   := {
    types         := [{
      name   := "Tank"
      kind   := .object
      fields := [{
        name     := "Low"
        ty       := .primitive "int" []
        isStatic := true
        constant := some (.int (-2)) }] }]
    sets          := []
    types_nodup   := by decide
    methods_nodup := by decide }
  resources := []
  stage     := .fragment

def integer : Node := ⟨.primitive "int" [], none⟩

def negated (e : Expr) : Expr := .unary integer .negate e

def integerLocal : Expr := .name integer ⟨"", "x", .local⟩

def lowConstant : Expr := .name integer ⟨"Tank", "Low", .field⟩

theorem signs_read_apart_iff_integerLocal :
    UnaryOp.negate ∈ UnaryOp.signs ∧ tank.lower integerLocal {} = .ok (.atom "x") {} ∧
    lex (Term.unary .negate (.atom "x")).text = [mark "-", word "x"] := by
  have sign : UnaryOp.negate ∈ UnaryOp.signs := by decide
  have lowered : tank.lower integerLocal {} = .ok (.atom "x") {} := rfl
  obtain ⟨_, _, apart, _⟩ := signs_read_apart_iff tank .negate integer _ _ {} {} sign lowered
  exact ⟨sign, lowered, apart.mpr (by decide +kernel)⟩

-- A negation, a negative literal and a negative constant are all read as decremented.
theorem tank_decrements :
    (∃ t, tank.lower (negated (negated integerLocal)) {} = .ok t {} ∧ t.text = "--x" ∧
      lex t.text = [mark "--", word "x"]) ∧
    (∃ t, tank.lower (negated (.literal integer (.int (-1)))) {} = .ok t {} ∧ t.text = "--1" ∧
      lex t.text = [mark "--", number "1"]) ∧
    (∃ t, tank.lower (negated lowConstant) {} = .ok t {} ∧ t.text = "--2" ∧
      lex t.text = [mark "--", number "2"]) :=
  ⟨⟨_, rfl, by decide, by decide⟩, ⟨_, rfl, by decide, by decide⟩, ⟨_, rfl, by decide, by decide⟩⟩

end Shading
