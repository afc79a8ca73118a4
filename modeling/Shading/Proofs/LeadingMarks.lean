import Shading.Proofs.Calls
import Shading.Proofs.Tokens
import Mathlib
/-!
How texts begin, and what a sign before them is read as.

A sign and the first character of the text after it may be read as a longer mark. Words and brackets
prevent this, and all that is written for builtin types begins with one of them, except for the
method that negates a vector.
-/

namespace Shading

open Glsl Token

namespace UnaryOp

-- The operators of one character, all of which are written before their operand.
def signs : List UnaryOp := [negate, plus, logicalNot, bitNot]

-- Whether the operator is read as a longer mark before the text.
def joins (op : UnaryOp) (text : String) : Bool :=
  text.toList.head?.any fun c => longMarks.contains (op.symbol.toList ++ [c])

variable {op : UnaryOp} {a b : String} {c : Char}

theorem exists_singleton (sign : op ∈ signs) : ∃ c, op.symbol = String.singleton c ∧
    (c.isDigit = false ∧ startsWord c = false ∧ c ≠ ' ') ∧
    ∀ m ∈ longMarks, m.take 1 = [c] → m.length = 2 := by
  fin_cases sign
  · exact ⟨'-', by decide⟩
  · exact ⟨'+', by decide⟩
  · exact ⟨'!', by decide⟩
  · exact ⟨'~', by decide⟩

theorem joins_append : op.joins (a ++ b) = (op.joins a || (a == "" && op.joins b)) := by
  rw [joins, joins, String.toList_append, List.head?_append]
  cases chars : a.toList
  case nil =>
    have blank : a = "" := String.toList_eq_nil_iff.mp chars
    simp [blank, joins]
  case cons =>
    have nonblank : a ≠ "" := fun blank => by simp [blank] at chars
    simp [nonblank]

theorem exists_of_joins (h : op.joins a) :
    ∃ first rest, a = String.singleton first ++ rest ∧ op.symbol.toList ++ [first] ∈ longMarks := by
  rw [joins] at h
  cases chars : a.toList
  case nil => simp [chars] at h
  case cons first rest =>
    rw [chars] at h
    refine ⟨first, String.ofList rest, ?_, List.contains_iff_mem.mp h⟩
    simp [← String.toList_inj, chars]

-- A sign begins a token, and the character after it decides whether the token ends.
theorem lex_sign (sign : op ∈ signs) (d : Char) (rest : String) :
    lex (op.symbol ++ (String.singleton d ++ rest)) =
      if op.symbol.toList ++ [d] ∈ longMarks then
        mark (op.symbol ++ String.singleton d) :: lex rest
      else mark op.symbol :: lex (String.singleton d ++ rest) := by
  obtain ⟨c, symbol, ⟨digit, word, blank⟩, short⟩ := exists_singleton sign
  have finished (more : List Char) : finish (c :: more) = [mark (String.ofList (c :: more))] := by
    simp [finish, digit, word]
  have begun : lex (op.symbol ++ (String.singleton d ++ rest)) = scan [c] (d :: rest.toList) := by
    simp [lex, symbol, scan, continues, finish, blank]
  have long : continues [c] d = decide (op.symbol.toList ++ [d] ∈ longMarks) := by
    simp [continues, digit, word, symbol]
  rw [begun, scan, long]
  by_cases joined : op.symbol.toList ++ [d] ∈ longMarks
  case pos =>
    -- A mark of three characters begins with none of the signs.
    have apart (x : Char) : continues [c, d] x = false := by
      have longer : [c, d, x] ∉ longMarks := fun mem => by simpa using short _ mem rfl
      simpa [continues, digit, word] using longer
    have pair : String.ofList [c, d] = op.symbol ++ String.singleton d := by simp [symbol]
    rw [decide_eq_true joined, if_pos rfl, if_pos joined, List.singleton_append,
      scan_of_not_continues apart, finished, pair]
    rfl
  case neg =>
    have single : String.ofList [c] = op.symbol := by simp [symbol]
    have alone : lex (String.singleton d ++ rest) =
        scan (if d == ' ' then [] else [d]) rest.toList := by
      simp [lex, scan, continues, finish]
    rw [decide_eq_false joined, if_neg Bool.false_ne_true, if_neg joined, finished, single, alone,
      List.singleton_append]

theorem lex_of_joins (sign : op ∈ signs) (h : op.joins a) :
    ∃ first rest, a = String.singleton first ++ rest ∧ op.symbol.toList ++ [first] ∈ longMarks ∧
      lex (op.symbol ++ a) = mark (op.symbol ++ String.singleton first) :: lex rest := by
  obtain ⟨first, rest, rfl, long⟩ := exists_of_joins h
  refine ⟨first, rest, rfl, long, ?_⟩
  rw [lex_sign sign, if_pos long]

theorem lex_eq_cons_iff (sign : op ∈ signs) :
    lex (op.symbol ++ a) = mark op.symbol :: lex a ↔ ¬op.joins a := by
  constructor
  case mp =>
    intro apart joined
    obtain ⟨first, rest, _, _, tokens⟩ := lex_of_joins sign joined
    have same := Token.mark.inj (List.cons.inj (tokens.symm.trans apart)).left
    have longer := congrArg String.length same
    simp at longer
  case mpr =>
    intro apart
    cases chars : a.toList
    case nil =>
      have empty : a = "" := String.toList_eq_nil_iff.mp chars
      subst empty
      fin_cases sign <;> decide
    case cons d rest =>
      have whole : a = String.singleton d ++ String.ofList rest := by
        simp [← String.toList_inj, chars]
      have short : op.symbol.toList ++ [d] ∉ longMarks := by simpa [joins, chars] using apart
      rw [whole, lex_sign sign, if_neg short]

end UnaryOp

namespace Glsl

-- Whether a text begins with a character that no sign is joined with.
def opens (text : String) : Bool :=
  text.toList.head?.any fun c => continuesWord c || c == '('

variable {op : UnaryOp} {a b : String}

theorem exists_of_opens (h : opens a) :
    ∃ c rest, a.toList = c :: rest ∧ (continuesWord c || c == '(') := by
  rw [opens] at h
  cases chars : a.toList
  case nil => simp [chars] at h
  case cons c rest =>
    rw [chars] at h
    exact ⟨c, rest, rfl, h⟩

theorem joins_of_opens (h : opens a) : op.joins a = false := by
  have last : ∀ m ∈ longMarks, m.getLast?.all fun c => !(continuesWord c || c == '(') := by decide
  obtain ⟨c, rest, chars, plain⟩ := exists_of_opens h
  have long : op.symbol.toList ++ [c] ∉ longMarks := by
    intro mem
    have other := last _ mem
    rw [List.getLast?_concat, Option.all_some, plain] at other
    cases other
  simpa [UnaryOp.joins, chars] using long

theorem opens_append (h : opens a) : opens (a ++ b) := by
  obtain ⟨c, rest, chars, plain⟩ := exists_of_opens h
  rw [opens, String.toList_append, chars]
  exact plain

theorem opens_of_isPrefixOf (h : a.toList.isPrefixOf b.toList) (opened : opens a) : opens b := by
  obtain ⟨rest, same⟩ := List.isPrefixOf_iff_prefix.mp h
  have whole : b = a ++ String.ofList rest := by simp [← String.toList_inj, same]
  exact whole ▸ opens_append opened

theorem ne_empty_of_opens (h : opens a) : a ≠ "" := by
  rintro rfl
  cases h

-- What a point, a blank or a bracket is written after.
theorem joins_before (known : b ∈ [".", " ", "[", "("]) (rest : String) :
    op.joins (a ++ b ++ rest) = op.joins a ∧ a ++ b ++ rest ≠ "" := by
  have last : ∀ b ∈ [".", " ", "[", "("], ∀ m ∈ longMarks, m.getLast? ≠ b.toList.head? := by decide
  have apart : op.joins b = false := by
    rw [UnaryOp.joins, Option.any_eq_false]
    intro c head
    rw [List.contains_eq_mem]
    exact decide_eq_false fun mem => last b known _ mem (by rw [head, List.getLast?_concat])
  have nonblank : b ≠ "" := by
    rintro rfl
    simp at known
  constructor
  · rw [String.append_assoc, UnaryOp.joins_append, UnaryOp.joins_append, apart]
    simp [nonblank]
  · simp [nonblank]

namespace Term

variable {function name : String} {args : List Term} {inner target : Term}

theorem opens_apply (h : opens function) : opens (apply function args).text := by
  rw [text, String.append_assoc, String.append_assoc]
  exact opens_append h

theorem joins_apply (op : UnaryOp) :
    op.joins (apply function args).text = op.joins function ∧ (apply function args).text ≠ "" := by
  rw [text, String.append_assoc]
  exact joins_before (by decide) _

theorem joins_call (op : UnaryOp) {id : MethodId} :
    op.joins (call id args).text = op.joins (functionName id) ∧ (call id args).text ≠ "" := by
  rw [text, String.append_assoc]
  exact joins_before (by decide) _

theorem opens_group : opens (group inner).text := by
  have bracket : opens "(" := by decide
  rw [text, String.append_assoc]
  exact opens_append bracket

theorem opens_member (h : opens target.text) : opens (member target name).text := by
  rw [text, String.append_assoc]
  exact opens_append h

end Term

theorem joins_select (op : UnaryOp) {target : Term} (selector : Selector) :
    op.joins (selector.select target).text = op.joins target.text ∧
      (selector.select target).text ≠ "" := by
  cases selector
  case named =>
    rw [Selector.select, Term.text]
    exact joins_before (by decide) _
  case element row column =>
    simp only [Selector.select, Term.text, elementText, String.append_assoc]
    rw [← String.append_assoc]
    exact joins_before (by decide) _

theorem opens_imageLoad {image position : Term} {element : TypeRef} :
    opens (imageLoad image position element).text := by
  have load : opens (Term.apply "imageLoad" [image, .apply "ivec2" [position]]).text :=
    Term.opens_apply (by decide)
  rw [imageLoad]
  split
  case h_4 => exact load
  all_goals exact Term.opens_member load

namespace Intrinsic

-- The methods that are written as a negation.
def negates (owner method : String) : Bool :=
  method == "Negate" && shortNameIn floatVectors owner

-- What the intrinsic is written as is not joined with a sign before it.
def Opens (i : Intrinsic) : Prop := ∀ t args term, i.format t args = .ok term → opens term.text

variable {owner method name : String} {i : Intrinsic}

theorem opens_function (h : opens name) : (function name).Opens := by
  rintro t args _ ⟨⟩
  exact Term.opens_apply h

theorem opens_operator (op : BinaryOp) : (operator op).Opens := by
  intro t args term h
  rcases args with _ | ⟨left, _ | ⟨right, _ | _⟩⟩ <;> cases h
  exact Term.opens_group

theorem opens_transform : (custom transform).Opens := by
  intro t args term h
  rcases args with _ | ⟨vector, _ | ⟨matrix, _ | _⟩⟩ <;> cases h
  exact Term.opens_group

theorem opens_transformTo (components : String) : (custom (transformTo components)).Opens := by
  intro t args term h
  obtain ⟨_, transformed, h⟩ := bind_eq_ok_iff.mp h
  cases h
  exact Term.opens_member (opens_transform _ _ _ transformed)

theorem opens_of_ofFloatVector? (h : ofFloatVector? method = some i) :
    if method = "Negate" then i = .custom negate else i.Opens := by
  unfold ofFloatVector? at h
  split at h <;> cases h
  case h_2 | h_6 | h_13 | h_18 => exact opens_operator _
  case h_14 => rfl
  case h_5 | h_9 =>
    intro t args term h
    rcases args with _ | ⟨a, _ | ⟨b, _ | _⟩⟩ <;> cases h
    exact Term.opens_apply (by decide)
  all_goals exact opens_function (by decide)

theorem opens_of_ofIntegerVector? (h : ofIntegerVector? method = some i) : i.Opens := by
  unfold ofIntegerVector? at h
  split at h <;> cases h
  case h_2 | h_4 | h_7 | h_8 => exact opens_operator _
  all_goals exact opens_function (by decide)

theorem opens_of_ofMatrix? (h : ofMatrix? method = some i) : i.Opens := by
  unfold ofMatrix? at h
  split at h <;> cases h
  case h_1 | h_2 => exact opens_operator _
  case h_3 =>
    intro t args term h
    rcases args with _ | ⟨a, _ | ⟨b, _ | _⟩⟩ <;> cases h
    exact Term.opens_group
  case h_4 => exact opens_function (by decide)

theorem opens_of_ofMath? (h : ofMath? method = some i) : i.Opens := by
  unfold ofMath? at h
  split at h <;> cases h
  case h_24 =>
    intro t args term h
    rcases args with _ | ⟨a, _ | _⟩ <;> cases h
    exact Term.opens_apply (by decide)
  case h_25 =>
    intro t args term h
    simp only [format, fusedMultiplyAdd] at h
    split at h
    case h_1 =>
      split at h <;> cases h
      · exact Term.opens_apply (by decide)
      · exact Term.opens_group
    case h_2 => cases h
  all_goals exact opens_function (by decide)

theorem opens_of_ofBuiltins? (h : ofBuiltins? method = some i) : i.Opens := by
  unfold ofBuiltins? at h
  split at h <;> cases h
  case h_7 | h_8 | h_13 | h_14 | h_15 | h_16 => exact opens_function (by decide)
  all_goals
    intro t args term h
    simp only [format, sample, sampleLevel, sampleGrad, sampleComparison,
      sampleComparisonLevelZero, load, derivative, saturate, clipToTextureCoordinates,
      interlockedAdd] at h
  case h_11 =>
    cases h
    decide
  case h_9 | h_10 =>
    split at h <;> cases h
    cases t.version.usesDescriptorSets <;> exact Term.opens_apply (by decide)
  case h_12 | h_17 | h_18 =>
    split at h <;> cases h
    exact Term.opens_apply (by decide)
  case h_4 | h_5 =>
    split at h
    case h_1 =>
      obtain ⟨_, _, h⟩ := bind_eq_ok_iff.mp h
      obtain ⟨_, _, h⟩ := bind_eq_ok_iff.mp h
      cases h
      exact Term.opens_apply (by decide)
    case h_2 => cases h
  case h_3 | h_6 =>
    split at h
    case h_1 =>
      obtain ⟨_, _, h⟩ := bind_eq_ok_iff.mp h
      cases h
      exact Term.opens_apply (by decide)
    case h_2 => cases h
  all_goals
    split at h
    case h_1 | h_2 =>
      obtain ⟨_, _, h⟩ := bind_eq_ok_iff.mp h
      cases h
      exact Term.opens_apply (by decide)
    case h_3 => cases h

-- All intrinsics open with a word or a bracket, unless they are a negation.
theorem opens_of_of? (h : of? owner method = some i) :
    if negates owner method then i = .custom negate else i.Opens := by
  have vector (float : shortNameIn floatVectors owner) (h : ofFloatVector? method = some i) :
      if negates owner method then i = .custom negate else i.Opens := by
    simpa [negates, float] using opens_of_ofFloatVector? h
  have other (plain : negates owner method = false) (h : i.Opens) :
      if negates owner method then i = .custom negate else i.Opens := by
    rwa [plain]
  unfold of? at h
  split at h
  case h_1 short =>
    have float : shortNameIn floatVectors owner := by simp [shortNameIn, short, floatVectors]
    unfold ofVector2? at h
    split at h
    case h_1 =>
      cases h
      exact other rfl (opens_transformTo _)
    case h_2 => exact vector float h
  case h_2 short =>
    have float : shortNameIn floatVectors owner := by simp [shortNameIn, short, floatVectors]
    unfold ofVector3? at h
    split at h
    case h_1 =>
      cases h
      exact other rfl (opens_transformTo _)
    case h_2 =>
      cases h
      exact other rfl (opens_function (by decide))
    case h_3 => exact vector float h
  case h_3 short =>
    have float : shortNameIn floatVectors owner := by simp [shortNameIn, short, floatVectors]
    unfold ofVector4? at h
    split at h
    case h_1 =>
      cases h
      exact other rfl opens_transform
    case h_2 => exact vector float h
  case h_13 => cases h
  all_goals
    rename shortName owner = _ => short
    refine other (by simp [negates, shortNameIn, short, floatVectors]) ?_
  case h_10 => exact opens_of_ofMatrix? h
  case h_11 => exact opens_of_ofMath? h
  case h_12 => exact opens_of_ofBuiltins? h
  all_goals exact opens_of_ofIntegerVector? h

end Intrinsic

namespace Target

variable {t : Target} {ty : TypeRef} {term : Term} {owner method mapped : String}
  {args : List Operand}

theorem joins_invocation (h : t.invocation owner method args = .ok term) :
    op.joins term.text = (op.joins "-" && Intrinsic.negates owner method) ∧ term.text ≠ "" := by
  rw [invocation] at h
  split at h
  case h_1 => cases h
  case h_2 i known =>
    split at h <;> cases h
    case h_1 written =>
      have opened := Intrinsic.opens_of_of? known
      cases negates : Intrinsic.negates owner method
      case false =>
        have opened : opens term.text := by
          rw [negates] at opened
          exact opened _ _ _ written
        simp [joins_of_opens opened, ne_empty_of_opens opened]
      case true =>
        rw [negates] at opened
        obtain rfl : i = .custom Intrinsic.negate := opened
        rcases args with _ | ⟨a, _ | _⟩ <;> cases written
        have text : (Term.unary .negate (.group a.term)).text =
            "-" ++ (Term.group a.term).text := by
          rw [Term.text]
          rfl
        simp [text, UnaryOp.joins_append]

theorem opens_primitive? {name : String} (h : t.primitive? name = some mapped) : opens mapped := by
  unfold primitive? at h
  split at h
  case h_11 =>
    rw [Option.ite_none_left_eq_some] at h
    cases h.right
    decide
  case h_22 => cases h
  all_goals
    cases h
    decide

theorem joins_construction (h : t.construction ty args = .ok term) :
    op.joins term.text = (ty.isStruct && op.joins (identifier ty.short)) ∧ term.text ≠ "" := by
  cases ty
  case primitive name _ =>
    obtain ⟨mapped, typed, h⟩ := bind_eq_ok_iff.mp h
    cases h
    rw [typeName] at typed
    split at typed
    case h_1 known =>
      cases typed
      have opened : opens (Term.apply mapped (args.map Operand.term)).text :=
        Term.opens_apply (opens_primitive? known)
      exact ⟨joins_of_opens opened, ne_empty_of_opens opened⟩
    case h_2 => cases typed
  case struct name _ =>
    cases h
    rw [TypeRef.isStruct, Bool.true_and, TypeRef.short, TypeRef.name]
    exact Term.joins_apply op
  all_goals cases h

theorem opens_zero (h : t.zero ty = .ok term) : opens term.text := by
  obtain ⟨mapped, _, h⟩ := bind_eq_ok_iff.mp h
  split at h
  case h_6 =>
    split at h
    case isTrue integer =>
      cases h
      exact Term.opens_apply (opens_of_isPrefixOf integer (by decide))
    case isFalse =>
      split at h
      case isTrue unsigned =>
        cases h
        exact Term.opens_apply (opens_of_isPrefixOf unsigned (by decide))
      case isFalse =>
        split at h
        case isTrue float =>
          cases h
          rcases Bool.or_eq_true_iff.mp float with vector | matrix
          · exact Term.opens_apply (opens_of_isPrefixOf vector (by decide))
          · exact Term.opens_apply (opens_of_isPrefixOf matrix (by decide))
        case isFalse => cases h
  all_goals
    cases h
    rw [Term.text]
    decide

end Target

-- The zero of a structure is applied to its members, and all others are builtin.
theorem joins_defaultValue {t : Target} {p : Program} {path : List String} {ty : TypeRef}
    {term : Term} (h : defaultValue t p path ty = .ok term) :
    op.joins term.text = (ty.isStruct && op.joins (identifier ty.short)) ∧ term.text ≠ "" := by
  fun_induction defaultValue t p path ty
  case case1 | case2 => cases h
  case case3 =>
    obtain ⟨members, _, h⟩ := bind_eq_ok_iff.mp h
    cases h
    rw [TypeRef.isStruct, Bool.true_and, TypeRef.short, TypeRef.name]
    exact Term.joins_apply op
  case case4 =>
    have opened := Target.opens_zero h
    exact ⟨joins_of_opens opened, ne_empty_of_opens opened⟩
  case case5 ty other _ =>
    have opened := Target.opens_zero h
    refine ⟨?_, ne_empty_of_opens opened⟩
    cases ty
    case struct => exact absurd rfl (other _ _)
    all_goals exact joins_of_opens opened

end Glsl

end Shading
