import Shading.Glsl.Term
import Mathlib
/-!
The tokens of a text of the target language. A token reaches as far as it can, so what is written
next to it may become a part of it. Blanks, brackets and commas never do.
-/

namespace Shading.Glsl

inductive Token where
  | word   (text : String)
  | number (text : String)
  | mark   (text : String)
  deriving DecidableEq

namespace Token

-- The marks of several characters. Each of them without its last character is a mark as well.
def longMarks : List (List Char) :=
  ["==", "!=", "<=", ">=", "&&", "||", "<<", ">>", "++", "--", "+=", "-=", "*=", "/=", "%=", "&=",
    "|=", "^=", "<<=", ">>="].map String.toList

def startsWord (c : Char) : Bool := c.isAlpha || c == '_'

def continuesWord (c : Char) : Bool := c.isAlphanum || c == '_'

-- Whether a character belongs to the token that the characters before it have begun.
def continues : List Char → Char → Bool
  | [], _ => false
  | first :: more, c =>
    if first.isDigit then continuesWord c || c == '.'
    else if startsWord first then continuesWord c
    else first :: more ++ [c] ∈ longMarks

-- The token that is made up of the characters, unless there are none.
def finish : List Char → List Token
  | [] => []
  | first :: more =>
    let text := String.ofList (first :: more)
    if first.isDigit then [number text] else if startsWord first then [word text] else [mark text]

def scan (begun : List Char) : List Char → List Token
  | [] => finish begun
  | c :: rest =>
    if continues begun c then scan (begun ++ [c]) rest
    else finish begun ++ scan (if c == ' ' then [] else [c]) rest

def lex (text : String) : List Token := scan [] text.toList

-- A character that is a token wherever it stands.
structure IsBracket (c : Char) : Prop where
  plain  : c.isDigit = false ∧ continuesWord c = false ∧ startsWord c = false ∧ c ≠ '.' ∧ c ≠ ' '
  first  : ∀ m ∈ longMarks, m.head? ≠ some c
  last   : ∀ m ∈ longMarks, m.getLast? ≠ some c

variable {c d : Char} {begun a b : List Char}

theorem continues_eq_false (last : ∀ m ∈ longMarks, m.getLast? ≠ some c)
    (plain : continuesWord c = false) (dot : c ≠ '.') : continues begun c = false := by
  cases begun
  case nil => rfl
  case cons first more =>
    have long : first :: more ++ [c] ∉ longMarks := fun mem => last _ mem List.getLast?_concat
    simp only [continues, plain, long, decide_false, Bool.false_or, ite_self, ite_eq_right_iff]
    simpa using fun _ => dot

theorem scan_blank : scan begun (a ++ ' ' :: b) = scan begun a ++ scan [] b := by
  induction a generalizing begun
  case nil =>
    have apart : continues begun ' ' = false :=
      continues_eq_false (by decide) (by decide) (by decide)
    simp [scan, apart]
  case cons c a hi =>
    simp only [List.cons_append, scan]
    split <;> simp [hi]

theorem scan_of_not_continues (apart : ∀ d, continues begun d = false) :
    scan begun b = finish begun ++ scan [] b := by
  cases b
  case nil => exact (List.append_nil _).symm
  case cons d b =>
    have start : continues [] d = false := rfl
    rw [scan, scan, apart, start]
    rfl

theorem IsBracket.scan_self (h : IsBracket c) :
    scan [c] b = mark (String.singleton c) :: scan [] b := by
  have apart (d : Char) : continues [c] d = false := by
    have long : [c] ++ [d] ∉ longMarks := fun mem => h.first _ mem rfl
    simp only [continues, h.plain, long]
    rfl
  rw [scan_of_not_continues apart]
  simp [finish, h.plain]

theorem IsBracket.scan_append (h : IsBracket c) :
    scan begun (a ++ c :: b) = scan begun a ++ mark (String.singleton c) :: scan [] b := by
  have ⟨_, plain, _, dot, blank⟩ := h.plain
  induction a generalizing begun
  case nil =>
    have apart : continues begun c = false := continues_eq_false h.last plain dot
    simp [scan, apart, blank, h.scan_self]
  case cons d a hi =>
    simp only [List.cons_append, scan]
    split <;> simp [hi]

theorem finish_eq_number {first : Char} {more : List Char} (digit : first.isDigit = true) :
    finish (first :: more) = [number (String.ofList (first :: more))] := by
  simp only [finish, digit, if_true]

-- A point belongs to the number before it, and is a token of its own after anything else.
theorem scan_point (apart : ∀ n, (scan begun a).getLast? ≠ some (number n)) :
    scan begun (a ++ '.' :: b) = scan begun a ++ mark "." :: scan [] b := by
  induction a generalizing begun
  case nil =>
    have start : continues begun '.' = false := by
      cases begun
      case nil => rfl
      case cons first more =>
        have digit : first.isDigit = false := by
          by_contra digit
          refine apart (String.ofList (first :: more)) ?_
          rw [scan, finish_eq_number (by simpa using digit)]
          rfl
        have long : first :: more ++ ['.'] ∉ longMarks := fun mem =>
          (by decide : ∀ m ∈ longMarks, m.getLast? ≠ some '.') _ mem List.getLast?_concat
        simp only [continues, digit, long]
        simp [continuesWord]
    have apart (d : Char) : continues ['.'] d = false := by
      have long : ['.'] ++ [d] ∉ longMarks := fun mem =>
        (by decide : ∀ m ∈ longMarks, m.head? ≠ some '.') _ mem rfl
      simp only [continues, long]
      rfl
    have step : scan begun ('.' :: b) = finish begun ++ scan ['.'] b := by
      rw [scan, start]
      rfl
    rw [List.nil_append, step, scan_of_not_continues apart]
    rfl
  case cons c a hi =>
    rw [List.cons_append, scan, scan]
    rw [scan] at apart
    split at apart
    case isTrue h =>
      rw [if_pos h, if_pos h]
      exact hi apart
    case isFalse h =>
      rw [if_neg h, if_neg h, List.append_assoc]
      refine congrArg _ (hi fun n last => apart n ?_)
      rw [List.getLast?_append, last]
      rfl

end Token

namespace Term

open Token

theorem lex_blank (a b : String) : lex (a ++ " " ++ b) = lex a ++ lex b := by
  simp only [lex, String.toList_append, List.append_assoc]
  exact scan_blank

-- What is written with a bracket or a comma between its parts.
theorem lex_bracket (m : String) (known : m ∈ ["(", ")", "[", "]", ","]) (a b : String) :
    lex (a ++ m ++ b) = lex a ++ mark m :: lex b := by
  have bracket : ∃ c, IsBracket c ∧ m = String.singleton c := by
    simp only [List.mem_cons, List.not_mem_nil, or_false] at known
    rcases known with rfl | rfl | rfl | rfl | rfl
    · exact ⟨'(', ⟨by decide, by decide, by decide⟩, rfl⟩
    · exact ⟨')', ⟨by decide, by decide, by decide⟩, rfl⟩
    · exact ⟨'[', ⟨by decide, by decide, by decide⟩, rfl⟩
    · exact ⟨']', ⟨by decide, by decide, by decide⟩, rfl⟩
    · exact ⟨',', ⟨by decide, by decide, by decide⟩, rfl⟩
  obtain ⟨c, bracket, rfl⟩ := bracket
  simp only [lex, String.toList_append, String.toList_singleton, List.append_assoc]
  exact bracket.scan_append

theorem lex_symbol (op : BinaryOp) : lex op.symbol = [mark op.symbol] := by
  cases op <;> decide

variable {t a b c : Term} {args : List Term} {f name : String} {op : BinaryOp}

theorem lex_binary : lex (binary op a b).text = lex a.text ++ mark op.symbol :: lex b.text := by
  rw [text, lex_blank, lex_blank, lex_symbol]
  simp

theorem lex_assign {op : AssignOp} :
    lex (assign op a b).text = lex a.text ++ mark op.symbol :: lex b.text := by
  have symbol : lex op.symbol = [mark op.symbol] := by cases op <;> decide
  rw [text, lex_blank, lex_blank, symbol]
  simp

theorem lex_group : lex (group t).text = mark "(" :: lex t.text ++ [mark ")"] := by
  have opened := lex_bracket "(" (by decide) "" t.text
  have closed := lex_bracket ")" (by decide) ("(" ++ t.text) ""
  simp only [String.append_empty, String.empty_append] at opened closed
  rw [text, closed, opened]
  rfl

theorem lex_apply :
    lex (apply f args).text = lex f ++ mark "(" :: lex (textArgs args) ++ [mark ")"] := by
  have opened := lex_bracket "(" (by decide) f (textArgs args)
  have closed := lex_bracket ")" (by decide) (f ++ "(" ++ textArgs args) ""
  rw [String.append_empty] at closed
  rw [text, closed, opened]
  rfl

theorem lex_textArgs_cons :
    lex (textArgs (a :: b :: args)) = lex a.text ++ mark "," :: lex (textArgs (b :: args)) := by
  have comma := lex_bracket "," (by decide) a.text (" " ++ textArgs (b :: args))
  have blank := lex_blank "" (textArgs (b :: args))
  rw [String.empty_append] at blank
  have spelled : textArgs (a :: b :: args) = a.text ++ "," ++ (" " ++ textArgs (b :: args)) := by
    have separator : ", " = "," ++ " " := by decide
    rw [textArgs, separator]
    · simp only [String.append_assoc]
    · simp
  rw [spelled, comma, blank]
  rfl

theorem lex_member (named : lex name = [word name])
    (apart : ∀ n, (lex t.text).getLast? ≠ some (number n)) :
    lex (member t name).text = lex t.text ++ [mark ".", word name] := by
  have scanned := scan_point apart (b := name.toList)
  rw [text, lex]
  simp only [String.toList_append, List.append_assoc]
  rw [lex] at named
  rw [named] at scanned
  exact scanned

end Term
end Shading.Glsl
