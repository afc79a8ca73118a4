import Shading.Proofs.Tokens
import Mathlib
/-!
How a text of the target language is read: its tokens are grouped by the levels of the operators,
and operators of one level from the left. A text is read as the only phrase that has its tokens and
is grouped in this way.
-/

namespace Shading

-- The higher the level, the tighter an operator binds. The levels below are those of a choice, an
-- assignment and a comma, and the ones above those of a unary operator and of a closed phrase.
def BinaryOp.level : BinaryOp → Nat
  | logicalOr                                => 4
  | logicalAnd                               => 5
  | bitOr                                    => 6
  | bitXor                                   => 7
  | bitAnd                                   => 8
  | equal | notEqual                         => 9
  | less | lessEqual | greater | greaterEqual => 10
  | shiftLeft | shiftRight                   => 11
  | add | subtract                           => 12
  | multiply | divide | remainder            => 13

theorem BinaryOp.level_bounds (op : BinaryOp) : 4 ≤ op.level ∧ op.level ≤ 13 := by
  cases op <;> decide

def BinaryOp.all : List BinaryOp :=
  [add, subtract, multiply, divide, remainder, equal, notEqual, less, lessEqual, greater,
    greaterEqual, logicalAnd, logicalOr, bitAnd, bitOr, bitXor, shiftLeft, shiftRight]

def AssignOp.all : List AssignOp :=
  [assign, add, subtract, multiply, divide, remainder, bitAnd, bitOr, bitXor, shiftLeft, shiftRight]

def UnaryOp.leading : List UnaryOp :=
  [negate, plus, logicalNot, bitNot, preIncrement, preDecrement]

namespace Glsl

-- What stands between two phrases that it joins: an operator, or the comma between arguments.
inductive Joint where
  | comma
  | operator (op : BinaryOp)
  deriving DecidableEq

namespace Joint

def symbol : Joint → String
  | comma       => ","
  | operator op => op.symbol

def level : Joint → Nat
  | comma       => 1
  | operator op => op.level

theorem level_bounds (j : Joint) : 1 ≤ j.level ∧ j.level ≤ 13 := by
  cases j
  case comma       => decide
  case operator op =>
    have := op.level_bounds
    simp only [level]
    omega

end Joint

-- A text of the target language, grouped. The arguments of a call are joined by commas.
inductive Phrase where
  | word     (text : String)
  | number   (text : String)
  | group    (inner : Phrase)
  | member   (target : Phrase) (name : String)
  | index    (target position : Phrase)
  | call     (function args : Phrase)
  | invoke   (function : Phrase)
  | trailing (op : UnaryOp) (operand : Phrase)
  | leading  (op : UnaryOp) (operand : Phrase)
  | joined   (joint : Joint) (left right : Phrase)
  | choice   (condition whenTrue whenFalse : Phrase)
  | assign   (op : AssignOp) (target value : Phrase)
  deriving DecidableEq

namespace Phrase

open Token

-- The levels of closed phrases and of unary operators. No operator follows a number immediately:
-- it counts as an operand of unary operators only.
def closed : Nat := 15

def unary : Nat := 14

def level : Phrase → Nat
  | word _ | group _ | member .. | index .. | call .. | invoke _ | trailing .. => closed
  | number _ | leading .. => unary
  | joined joint _ _      => joint.level
  | choice ..             => 3
  | assign ..             => 2

def tokens : Phrase → List Token
  | word text                  => [.word text]
  | number text                => [.number text]
  | group inner                => mark "(" :: inner.tokens ++ [mark ")"]
  | member target name         => target.tokens ++ [mark ".", .word name]
  | index target position      => target.tokens ++ mark "[" :: position.tokens ++ [mark "]"]
  | call function args         => function.tokens ++ mark "(" :: args.tokens ++ [mark ")"]
  | invoke function            => function.tokens ++ [mark "(", mark ")"]
  | trailing op operand        => operand.tokens ++ [mark op.symbol]
  | leading op operand         => mark op.symbol :: operand.tokens
  | joined joint left right    => left.tokens ++ mark joint.symbol :: right.tokens
  | choice condition yes no    =>
    condition.tokens ++ mark "?" :: yes.tokens ++ mark ":" :: no.tokens
  | assign op target value     => target.tokens ++ mark op.symbol :: value.tokens

-- Whether each part of a phrase binds as tightly as its place demands.
def Grouped : Phrase → Prop
  | word _ | number _       => True
  | group inner             => inner.Grouped
  | member target _         => closed ≤ target.level ∧ target.Grouped
  | index target position   => closed ≤ target.level ∧ target.Grouped ∧ position.Grouped
  | call function args      => closed ≤ function.level ∧ function.Grouped ∧ args.Grouped
  | invoke function         => closed ≤ function.level ∧ function.Grouped
  | trailing op operand     => op.isTrailing ∧ closed ≤ operand.level ∧ operand.Grouped
  | leading op operand      => op ∈ UnaryOp.leading ∧ unary ≤ operand.level ∧ operand.Grouped
  | joined joint left right =>
    joint.level ≤ left.level ∧ joint.level < right.level ∧ left.Grouped ∧ right.Grouped
  | choice condition yes no =>
    4 ≤ condition.level ∧ 2 ≤ no.level ∧ condition.Grouped ∧ yes.Grouped ∧ no.Grouped
  | assign _ target value   =>
    unary ≤ target.level ∧ 2 ≤ value.level ∧ target.Grouped ∧ value.Grouped

instance decidableGrouped : (t : Phrase) → Decidable t.Grouped
  | word _ | number _ => .isTrue trivial
  | group inner => decidableGrouped inner
  | member target _ | invoke target =>
    have := decidableGrouped target
    inferInstanceAs (Decidable (_ ∧ _))
  | index left right | call left right | joined _ left right | assign _ left right =>
    have := decidableGrouped left
    have := decidableGrouped right
    inferInstanceAs (Decidable (_ ∧ _))
  | trailing _ operand | leading _ operand =>
    have := decidableGrouped operand
    inferInstanceAs (Decidable (_ ∧ _))
  | choice condition yes no =>
    have := decidableGrouped condition
    have := decidableGrouped yes
    have := decidableGrouped no
    inferInstanceAs (Decidable (_ ∧ _))

end Phrase

-- What the mark behind a phrase may begin.
inductive Suffix where
  | trailing (op : UnaryOp)
  | member
  | index
  | call
  | joint (joint : Joint)
  | choice
  | assign (op : AssignOp)
  deriving DecidableEq

namespace Suffix

open Phrase

def symbol : Suffix → String
  | trailing op => op.symbol
  | member      => "."
  | index       => "["
  | call        => "("
  | joint j     => j.symbol
  | choice      => "?"
  | assign op   => op.symbol

-- The level of the phrase that comes about.
def level : Suffix → Nat
  | trailing _ | member | index | call => closed
  | joint j  => j.level
  | choice   => 3
  | assign _ => 2

-- The level that the phrase before it has to have.
def demand : Suffix → Nat
  | trailing _ | member | index | call => closed
  | joint j  => j.level
  | choice   => 4
  | assign _ => unary

def all : List Suffix :=
  [trailing .postIncrement, trailing .postDecrement, member, index, call, joint .comma, choice] ++
    BinaryOp.all.map (joint ∘ .operator) ++ AssignOp.all.map assign

def ofMark? (m : String) : Option Suffix := all.find? (·.symbol == m)

theorem ofMark?_symbol : ∀ s ∈ all, ofMark? s.symbol = some s := by
  decide

theorem trailing_mem_all {op : UnaryOp} (h : op.isTrailing) : trailing op ∈ all := by
  cases op
  case postIncrement => decide
  case postDecrement => decide
  all_goals cases h

theorem isTrailing_of_mem_all {op : UnaryOp} (h : trailing op ∈ all) : op.isTrailing := by
  cases op
  case postIncrement => rfl
  case postDecrement => rfl
  all_goals exact absurd h (by decide)

theorem joint_mem_all (j : Joint) : joint j ∈ all := by
  cases j with
  | comma       => decide
  | operator op => cases op <;> decide

theorem assign_mem_all (op : AssignOp) : assign op ∈ all := by
  cases op <;> decide

theorem level_le_demand (s : Suffix) : s.level ≤ s.demand := by
  cases s <;> simp [level, demand, unary]

theorem demand_eq_one_or (s : Suffix) : s.level = 1 ∨ 4 ≤ s.demand := by
  cases s <;> simp [level, demand, closed, unary]
  case joint j =>
    cases j
    case comma       => exact .inl rfl
    case operator op => exact .inr op.level_bounds.left

theorem symbol_of_ofMark? {m : String} {s : Suffix} (h : ofMark? m = some s) : m = s.symbol := by
  have same := List.find?_some h
  exact (beq_iff_eq.mp same).symm

end Suffix

namespace Phrase

open Token

def leading? (m : String) : Option UnaryOp := UnaryOp.leading.find? (·.symbol == m)

-- The tokens behind a mark that has to come next.
def expect (m : String) : List Token → Option (List Token)
  | []            => none
  | token :: rest => if token = mark m then some rest else none

-- Each of these yields the tokens that it leaves. That they are fewer is tested where it is needed
-- for termination, and always holds.
mutual

-- The longest phrase of a level that the tokens begin with.
def take (n : Nat) (tokens : List Token) : Option (Phrase × List Token) :=
  match tokens with
  | [] => none
  | .word text :: rest => extend n (.word text) rest
  | .number text :: rest => extend n (.number text) rest
  | .mark m :: rest =>
    if m = "(" then do
      let (inner, after) ← take 1 rest
      let after ← expect ")" after
      if after.length ≤ rest.length then extend n (.group inner) after else none
    else do
      let op ← leading? m
      let (operand, after) ← take unary rest
      if after.length ≤ rest.length then extend n (.leading op operand) after else none
termination_by 2 * tokens.length
decreasing_by all_goals (simp only [List.length_cons]; omega)

-- The longest phrase of a level that begins with the phrase `left`, which precedes the tokens.
def extend (n : Nat) (left : Phrase) (tokens : List Token) : Option (Phrase × List Token) :=
  match tokens with
  | .mark m :: rest =>
    match Suffix.ofMark? m with
    | some s =>
      if n ≤ s.level ∧ s.demand ≤ left.level then do
        let (whole, after) ← complete s left rest
        if after.length ≤ rest.length then extend n whole after else none
      else some (left, tokens)
    | none => some (left, tokens)
  | _ => some (left, tokens)
termination_by 2 * tokens.length
decreasing_by all_goals (simp only [List.length_cons]; omega)

-- The phrase that the phrase `left`, the mark of a suffix and the first of the tokens make up.
def complete (s : Suffix) (left : Phrase) (tokens : List Token) : Option (Phrase × List Token) :=
  match s with
  | .trailing op => some (.trailing op left, tokens)
  | .member =>
    match tokens with
    | .word name :: rest => some (.member left name, rest)
    | _                  => none
  | .index => do
    let (position, after) ← take 1 tokens
    return (.index left position, ← expect "]" after)
  | .call =>
    match expect ")" tokens with
    | some after => some (.invoke left, after)
    | none => do
      let (args, after) ← take 1 tokens
      return (.call left args, ← expect ")" after)
  | .joint j => do
    let (right, after) ← take (j.level + 1) tokens
    return (.joined j left right, after)
  | .choice => do
    let (yes, after) ← take 1 tokens
    let after ← expect ":" after
    if after.length < tokens.length then do
      let (no, after) ← take 2 after
      return (.choice left yes no, after)
    else none
  | .assign op => do
    let (value, after) ← take 2 tokens
    return (.assign op left value, after)
termination_by 2 * tokens.length + 1
decreasing_by all_goals omega

end

-- The phrase that a text is read as.
def read (text : String) : Option Phrase :=
  match take 1 (lex text) with
  | some (t, []) => some t
  | _            => none

variable {n : Nat} {t left right whole : Phrase} {m : String} {s : Suffix}
  {tokens rest after : List Token}

-- The level of what the tokens may add to a phrase before them.
def follow : List Token → Nat
  | .mark m :: _ => (Suffix.ofMark? m).elim 0 Suffix.level
  | _            => 0

-- The level of what may follow a phrase without becoming a part of its last part.
def bound (t : Phrase) : Nat := if t.level ≤ 3 then 1 else t.level

theorem expect_eq_some_iff : expect m tokens = some rest ↔ tokens = mark m :: rest := by
  cases tokens
  case nil => simp [expect]
  case cons token tokens => simp [expect, ite_eq_iff]

theorem expect_self : expect m (mark m :: rest) = some rest :=
  expect_eq_some_iff.mpr rfl

theorem extend_of_follow_lt (h : follow tokens < n) : extend n t tokens = some (t, tokens) := by
  rw [extend.eq_def]
  split
  case h_1 m rest =>
    cases known : Suffix.ofMark? m
    case none => rfl
    case some s =>
      have below : ¬n ≤ s.level := by simpa [follow, known] using h
      simp [below]
  case h_2 => rfl

theorem extend_suffix (known : s ∈ Suffix.all) (fits : n ≤ s.level) (demand : s.demand ≤ left.level)
    (completed : complete s left rest = some (whole, after)) (fewer : after.length ≤ rest.length) :
    extend n left (mark s.symbol :: rest) = extend n whole after := by
  rw [extend.eq_def]
  simp [Suffix.ofMark?_symbol s known, fits, demand, completed, fewer]

theorem follow_suffix (known : s ∈ Suffix.all) : follow (mark s.symbol :: rest) = s.level := by
  simp [follow, Suffix.ofMark?_symbol s known]

theorem follow_close (m : String) (known : m ∈ [")", "]", ":"]) : follow (mark m :: rest) = 0 := by
  simp only [List.mem_cons, List.not_mem_nil, or_false] at known
  rcases known with rfl | rfl | rfl
  · exact congrArg (Option.elim · 0 Suffix.level) (by decide : Suffix.ofMark? ")" = none)
  · exact congrArg (Option.elim · 0 Suffix.level) (by decide : Suffix.ofMark? "]" = none)
  · exact congrArg (Option.elim · 0 Suffix.level) (by decide : Suffix.ofMark? ":" = none)

theorem follow_ne_unary : follow tokens ≠ unary := by
  unfold follow
  split
  case h_1 m _ =>
    cases Suffix.ofMark? m
    case none => decide
    case some s =>
      cases s <;> simp [Suffix.level, closed, unary]
      case joint j =>
        have := j.level_bounds
        omega
  case h_2 => decide

theorem level_pos (t : Phrase) : 1 ≤ t.level := by
  cases t <;> simp [level, closed, unary]
  case joined j _ _ => exact j.level_bounds.left

theorem one_le_bound (t : Phrase) : 1 ≤ t.bound := by
  have := t.level_pos
  unfold bound
  split <;> omega

theorem bound_le_level (t : Phrase) : t.bound ≤ t.level := by
  have := t.level_pos
  unfold bound
  split <;> omega

theorem bound_le_bound (h : t.level ≤ left.level) : t.bound ≤ left.bound := by
  have := left.level_pos
  unfold bound
  split <;> split <;> omega

theorem Suffix.level_le_bound (demand : s.demand ≤ left.level) : s.level ≤ left.bound := by
  have := s.level_le_demand
  have := s.demand_eq_one_or
  have := left.one_le_bound
  unfold bound at *
  split <;> omega

-- No phrase begins with a closing bracket.
theorem expect_tokens_append (grouped : t.Grouped) : expect ")" (t.tokens ++ rest) = none := by
  induction t generalizing rest
  case word text => rfl
  case number text => rfl
  case group inner => rfl
  case leading op operand _ =>
    have apart : ∀ op ∈ UnaryOp.leading, mark op.symbol ≠ mark ")" := by decide
    simp [tokens, expect, apart op grouped.left]
  all_goals simp only [tokens, List.append_assoc]
  case member hi      => exact hi grouped.2
  case index hi _     => exact hi grouped.2.1
  case call hi _      => exact hi grouped.2.1
  case invoke hi      => exact hi grouped.2
  case trailing hi    => exact hi grouped.2.2
  case joined hi _    => exact hi grouped.2.2.1
  case choice hi _ _  => exact hi grouped.2.2.1
  case assign hi _    => exact hi grouped.2.2.1

-- A phrase that begins with another one is taken by extending that one.
theorem take_suffix (s : Suffix) (known : s ∈ Suffix.all) (fits : n ≤ s.level)
    (demand : s.demand ≤ left.level)
    (first : ∀ {n rest}, n ≤ left.level → follow rest ≤ left.bound →
      take n (left.tokens ++ rest) = extend n left rest)
    (completed : complete s left rest = some (whole, after)) (fewer : after.length ≤ rest.length) :
    take n (left.tokens ++ mark s.symbol :: rest) = extend n whole after := by
  have below : n ≤ left.level := fits.trans (s.level_le_demand.trans demand)
  rw [first below ((follow_suffix known).trans_le (Suffix.level_le_bound demand))]
  exact extend_suffix known fits demand completed fewer

-- By induction on the phrase. The part that a phrase begins with is taken first, and then extended
-- by the rest of the phrase. Its last part is not extended by what follows, since that is bound.
theorem take_tokens_append (grouped : t.Grouped) (fits : n ≤ t.level)
    (apart : follow rest ≤ t.bound) : take n (t.tokens ++ rest) = extend n t rest := by
  induction t generalizing n rest
  case word text => rw [tokens, List.singleton_append, take.eq_def]
  case number text => rw [tokens, List.singleton_append, take.eq_def]
  case group inner hi =>
    have close : follow (mark ")" :: rest) = 0 := follow_close ")" (by decide)
    have taken : take 1 (inner.tokens ++ mark ")" :: rest) = some (inner, mark ")" :: rest) := by
      rw [hi grouped inner.level_pos (by omega), extend_of_follow_lt (by omega)]
    simp only [tokens, List.cons_append, List.append_assoc, List.nil_append]
    rw [take.eq_def]
    simp [taken, expect_self]
    omega
  case leading op operand hi =>
    have ⟨known, binds, grouped⟩ := grouped
    have below : follow rest < unary := lt_of_le_of_ne apart follow_ne_unary
    have taken : take unary (operand.tokens ++ rest) = some (operand, rest) := by
      rw [hi grouped binds (apart.trans (bound_le_bound binds)), extend_of_follow_lt below]
    have plain : ∀ op ∈ UnaryOp.leading, op.symbol ≠ "(" ∧ leading? op.symbol = some op := by decide
    simp only [tokens, List.cons_append]
    rw [take.eq_def]
    simp [plain op known, taken]
  case member target name hi =>
    have ⟨binds, grouped⟩ := grouped
    have completed : complete .member target (.word name :: rest) =
        some (.member target name, rest) := by simp [complete]
    have h := take_suffix .member (by decide) fits binds (hi grouped) completed (by simp)
    simpa [tokens, Suffix.symbol] using h
  case index target position first hi =>
    have ⟨binds, grouped, grouped'⟩ := grouped
    have close : follow (mark "]" :: rest) = 0 := follow_close "]" (by decide)
    have taken : take 1 (position.tokens ++ mark "]" :: rest) =
        some (position, mark "]" :: rest) := by
      rw [hi grouped' position.level_pos (by omega), extend_of_follow_lt (by omega)]
    have completed : complete .index target (position.tokens ++ mark "]" :: rest) =
        some (.index target position, rest) := by simp [complete, taken, expect_self]
    have h := take_suffix .index (by decide) fits binds (first grouped) completed (by simp; omega)
    simpa [tokens, Suffix.symbol] using h
  case call function args first hi =>
    have ⟨binds, grouped, grouped'⟩ := grouped
    have close : follow (mark ")" :: rest) = 0 := follow_close ")" (by decide)
    have taken : take 1 (args.tokens ++ mark ")" :: rest) = some (args, mark ")" :: rest) := by
      rw [hi grouped' args.level_pos (by omega), extend_of_follow_lt (by omega)]
    have completed : complete .call function (args.tokens ++ mark ")" :: rest) =
        some (.call function args, rest) := by
      simp [complete, expect_tokens_append grouped', taken, expect_self]
    have h := take_suffix .call (by decide) fits binds (first grouped) completed (by simp; omega)
    simpa [tokens, Suffix.symbol] using h
  case invoke function hi =>
    have ⟨binds, grouped⟩ := grouped
    have completed : complete .call function (mark ")" :: rest) =
        some (.invoke function, rest) := by simp [complete, expect_self]
    have h := take_suffix .call (by decide) fits binds (hi grouped) completed (by simp)
    simpa [tokens, Suffix.symbol] using h
  case trailing op operand hi =>
    have ⟨behind, binds, grouped⟩ := grouped
    have completed : complete (.trailing op) operand rest = some (.trailing op operand, rest) := by
      simp [complete]
    have h := take_suffix (.trailing op) (Suffix.trailing_mem_all behind) fits binds (hi grouped)
      completed le_rfl
    simpa [tokens, Suffix.symbol] using h
  case joined joint left right first hi =>
    have ⟨binds, binds', grouped, grouped'⟩ := grouped
    have below : follow rest ≤ joint.level := apart.trans (bound_le_level _)
    have taken : take (joint.level + 1) (right.tokens ++ rest) = some (right, rest) := by
      rw [hi grouped' binds' (apart.trans (bound_le_bound binds'.le)),
        extend_of_follow_lt (by omega)]
    have completed : complete (.joint joint) left (right.tokens ++ rest) =
        some (.joined joint left right, rest) := by simp [complete, taken]
    have h := take_suffix (.joint joint) (Suffix.joint_mem_all joint) fits binds (first grouped)
      completed (by simp)
    simpa [tokens, Suffix.symbol] using h
  case choice condition yes no first hi hi' =>
    have ⟨binds, binds', grouped, grouped', grouped''⟩ := grouped
    have close : follow (mark ":" :: (no.tokens ++ rest)) = 0 := follow_close ":" (by decide)
    have below : follow rest ≤ 1 := apart
    have taken : take 1 (yes.tokens ++ mark ":" :: (no.tokens ++ rest)) =
        some (yes, mark ":" :: (no.tokens ++ rest)) := by
      rw [hi grouped' yes.level_pos (by omega), extend_of_follow_lt (by omega)]
    have taken' : take 2 (no.tokens ++ rest) = some (no, rest) := by
      rw [hi' grouped'' binds' (below.trans no.one_le_bound), extend_of_follow_lt (by omega)]
    have completed : complete .choice condition (yes.tokens ++ mark ":" :: (no.tokens ++ rest)) =
        some (.choice condition yes no, rest) := by
      simp [complete, taken, taken', expect_self]
      omega
    have h := take_suffix .choice (by decide) fits binds (first grouped) completed (by simp; omega)
    simpa [tokens, Suffix.symbol] using h
  case assign op target value first hi =>
    have ⟨binds, binds', grouped, grouped'⟩ := grouped
    have below : follow rest ≤ 1 := apart
    have taken : take 2 (value.tokens ++ rest) = some (value, rest) := by
      rw [hi grouped' binds' (below.trans value.one_le_bound), extend_of_follow_lt (by omega)]
    have completed : complete (.assign op) target (value.tokens ++ rest) =
        some (.assign op target value, rest) := by simp [complete, taken]
    have h := take_suffix (.assign op) (Suffix.assign_mem_all op) fits binds (first grouped)
      completed (by simp)
    simpa [tokens, Suffix.symbol] using h

-- What the tokens begin with, if it is taken from them.
structure Takes (n : Nat) (tokens : List Token) (t : Phrase) (rest : List Token) : Prop where
  grouped : t.Grouped
  fits    : n ≤ t.level
  spelled : t.tokens ++ rest = tokens

theorem leading?_eq_some {op : UnaryOp} (h : leading? m = some op) :
    op ∈ UnaryOp.leading ∧ m = op.symbol :=
  have same := List.find?_some h
  ⟨List.mem_of_find?_eq_some h, (beq_iff_eq.mp same).symm⟩

mutual

theorem takes_of_take {n : Nat} {tokens rest : List Token} {t : Phrase}
    (h : take n tokens = some (t, rest)) (small : n ≤ unary) : Takes n tokens t rest := by
  match tokens with
  | [] =>
    rw [take] at h
    cases h
  | .word text :: tokens =>
    rw [take] at h
    exact takes_of_extend h trivial (small.trans (Nat.le_succ _))
  | .number text :: tokens =>
    rw [take] at h
    exact takes_of_extend h trivial small
  | .mark m :: tokens =>
    rw [take] at h
    split at h
    case isTrue opened =>
      simp only [Option.bind_eq_bind, Option.bind_eq_some_iff, Prod.exists] at h
      obtain ⟨inner, after, taken, after', expected, h⟩ := h
      split at h
      case isFalse => cases h
      case isTrue fewer =>
        have i := takes_of_take taken (by decide)
        have g := takes_of_extend h i.grouped (small.trans (Nat.le_succ _))
        refine ⟨g.grouped, g.fits, ?_⟩
        rw [g.spelled, ← i.spelled, expect_eq_some_iff.mp expected, opened]
        simp [Phrase.tokens]
    case isFalse =>
      simp only [Option.bind_eq_bind, Option.bind_eq_some_iff, Prod.exists] at h
      obtain ⟨op, known, operand, after, taken, h⟩ := h
      split at h
      case isFalse => cases h
      case isTrue fewer =>
        have ⟨mem, symbol⟩ := leading?_eq_some known
        have i := takes_of_take taken le_rfl
        have g := takes_of_extend h ⟨mem, i.fits, i.grouped⟩ small
        refine ⟨g.grouped, g.fits, ?_⟩
        rw [g.spelled, ← i.spelled, symbol]
        simp [Phrase.tokens]
termination_by 2 * tokens.length
decreasing_by all_goals (simp only [List.length_cons]; omega)

theorem takes_of_extend {n : Nat} {tokens rest : List Token} {t left : Phrase}
    (h : extend n left tokens = some (t, rest)) (grouped : left.Grouped) (fits : n ≤ left.level) :
    Takes n (left.tokens ++ tokens) t rest := by
  match tokens with
  | [] | .word _ :: _ | .number _ :: _ =>
    rw [extend] at h
    · cases h
      exact ⟨grouped, fits, rfl⟩
    · simp
  | .mark m :: tokens =>
    rw [extend] at h
    split at h
    case h_2 =>
      cases h
      exact ⟨grouped, fits, rfl⟩
    case h_1 s known =>
      split at h
      case isFalse =>
        cases h
        exact ⟨grouped, fits, rfl⟩
      case isTrue allowed =>
        simp only [Option.bind_eq_bind, Option.bind_eq_some_iff, Prod.exists] at h
        obtain ⟨whole, after, completed, h⟩ := h
        split at h
        case isFalse => cases h
        case isTrue fewer =>
          have i := takes_of_complete completed (List.mem_of_find?_eq_some known) grouped allowed.2
          have g := takes_of_extend h i.grouped (allowed.1.trans i.fits)
          refine ⟨g.grouped, g.fits, ?_⟩
          rw [g.spelled, i.spelled, Suffix.symbol_of_ofMark? known]
termination_by 2 * tokens.length
decreasing_by all_goals (simp only [List.length_cons]; omega)

theorem takes_of_complete {s : Suffix} {tokens rest : List Token} {t left : Phrase}
    (h : complete s left tokens = some (t, rest)) (known : s ∈ Suffix.all)
    (grouped : left.Grouped) (demand : s.demand ≤ left.level) :
    Takes s.level (left.tokens ++ mark s.symbol :: tokens) t rest := by
  rw [complete.eq_def] at h
  cases s
  case trailing op =>
    cases h
    have behind := Suffix.isTrailing_of_mem_all known
    exact ⟨⟨behind, demand, grouped⟩, le_rfl, by simp [Phrase.tokens, Suffix.symbol]⟩
  case member =>
    simp only at h
    split at h
    case h_1 =>
      cases h
      exact ⟨⟨demand, grouped⟩, le_rfl, by simp [Phrase.tokens, Suffix.symbol]⟩
    case h_2 => cases h
  case index =>
    simp only [Option.bind_eq_bind, Option.bind_eq_some_iff, Prod.exists] at h
    obtain ⟨position, after, taken, after', expected, h⟩ := h
    cases h
    have i := takes_of_take taken (by decide)
    refine ⟨⟨demand, grouped, i.grouped⟩, le_rfl, ?_⟩
    rw [← i.spelled, expect_eq_some_iff.mp expected]
    simp [Phrase.tokens, Suffix.symbol]
  case call =>
    simp only at h
    split at h
    case h_1 after expected =>
      cases h
      refine ⟨⟨demand, grouped⟩, le_rfl, ?_⟩
      rw [expect_eq_some_iff.mp expected]
      simp [Phrase.tokens, Suffix.symbol]
    case h_2 =>
      simp only [Option.bind_eq_bind, Option.bind_eq_some_iff, Prod.exists] at h
      obtain ⟨args, after, taken, after', expected, h⟩ := h
      cases h
      have i := takes_of_take taken (by decide)
      refine ⟨⟨demand, grouped, i.grouped⟩, le_rfl, ?_⟩
      rw [← i.spelled, expect_eq_some_iff.mp expected]
      simp [Phrase.tokens, Suffix.symbol]
  case joint j =>
    simp only [Option.bind_eq_bind, Option.bind_eq_some_iff, Prod.exists] at h
    obtain ⟨right, after, taken, h⟩ := h
    cases h
    have i := takes_of_take taken (Nat.succ_le_succ j.level_bounds.right)
    refine ⟨⟨demand, i.fits, grouped, i.grouped⟩, le_rfl, ?_⟩
    rw [← i.spelled]
    simp [Phrase.tokens, Suffix.symbol]
  case choice =>
    simp only [Option.bind_eq_bind, Option.bind_eq_some_iff, Prod.exists] at h
    obtain ⟨yes, after, taken, after', expected, h⟩ := h
    split at h
    case isFalse => cases h
    case isTrue fewer =>
      simp only [Option.bind_eq_some_iff, Prod.exists] at h
      obtain ⟨no, after'', taken', h⟩ := h
      cases h
      have i := takes_of_take taken (by decide)
      have i' := takes_of_take taken' (by decide)
      refine ⟨⟨demand, i'.fits, grouped, i.grouped, i'.grouped⟩, le_rfl, ?_⟩
      rw [← i.spelled, expect_eq_some_iff.mp expected, ← i'.spelled]
      simp [Phrase.tokens, Suffix.symbol]
  case assign op =>
    simp only [Option.bind_eq_bind, Option.bind_eq_some_iff, Prod.exists] at h
    obtain ⟨value, after, taken, h⟩ := h
    cases h
    have i := takes_of_take taken (by decide)
    refine ⟨⟨demand, i.fits, grouped, i.grouped⟩, le_rfl, ?_⟩
    rw [← i.spelled]
    simp [Phrase.tokens, Suffix.symbol]
termination_by 2 * tokens.length + 1
decreasing_by all_goals omega

end

theorem read_eq_some_iff {text : String} :
    read text = some t ↔ t.Grouped ∧ t.tokens = lex text := by
  constructor
  · intro h
    unfold read at h
    split at h
    case h_1 taken =>
      cases h
      have g := takes_of_take taken (by decide)
      exact ⟨g.grouped, by simpa using g.spelled⟩
    case h_2 => cases h
  · rintro ⟨grouped, spelled⟩
    have taken : take 1 (t.tokens ++ []) = extend 1 t [] :=
      take_tokens_append grouped t.level_pos (Nat.zero_le _)
    rw [extend_of_follow_lt (by decide), List.append_nil, spelled] at taken
    rw [read, taken]

end Phrase
end Glsl
end Shading
