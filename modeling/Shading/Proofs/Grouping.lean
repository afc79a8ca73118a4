import Shading.Proofs.Reading
import Shading.Proofs.Rendering
import Mathlib
/-!
Operands of operators keep their grouping only if they bind tightly enough.

Several calls and products are written as operators between the texts of their operands. No
parentheses are put around the operands, so whether the whole is read as the operator applied to
them depends on the levels of the phrases that they are read as.
-/

namespace Shading

open Glsl

namespace Glsl

namespace Phrase

-- An operator between two phrases.
def binary (op : BinaryOp) (left right : Phrase) : Phrase := .joined (.operator op) left right

-- A function applied to some arguments, of which there is at least one.
def apply (function : String) (arg : Phrase) (args : List Phrase) : Phrase :=
  .call (.word function) (args.foldl (.joined .comma) arg)

variable {t a b c : Term} {A B C : Phrase} {op : BinaryOp} {f name : String}

-- Whether the tokens of a term are those of a phrase, however they are grouped.
def Spells (A : Phrase) (t : Term) : Prop := A.tokens = Token.lex t.text

theorem read_eq_some_iff_of_spells (h : A.Spells t) : read t.text = some A ↔ A.Grouped :=
  read_eq_some_iff.trans (and_iff_left h)

theorem spells_atom {text : String} (h : A.tokens = Token.lex text) : A.Spells (.atom text) := by
  rw [Spells, Term.text]
  exact h

theorem Spells.binary (left : A.Spells a) (right : B.Spells b) :
    (binary op A B).Spells (.binary op a b) := by
  rw [Spells, Term.lex_binary, ← left, ← right]
  rfl

theorem Spells.group (inner : A.Spells a) : A.group.Spells (.group a) := by
  rw [Spells, Term.lex_group, ← inner]
  rfl

-- A closed phrase does not end with a number, which would go on with what is written behind it.
theorem getLast?_tokens_ne_number (closed : closed ≤ A.level) (n : String) :
    A.tokens.getLast? ≠ some (.number n) := by
  cases A
  case number | leading | choice | assign => simp [level, Phrase.closed, unary] at closed
  case joined j _ _ =>
    have := j.level_bounds
    simp only [level, Phrase.closed] at closed
    omega
  case group | index | call | trailing =>
    rw [tokens, List.getLast?_concat]
    simp
  all_goals simp [tokens]

theorem Spells.member (target : A.Spells a) (named : Token.lex name = [.word name])
    (closed : closed ≤ A.level) : (A.member name).Spells (.member a name) := by
  have apart := getLast?_tokens_ne_number closed
  rw [target] at apart
  rw [Spells, Term.lex_member named apart, ← target]
  rfl

theorem tokens_foldl_comma (args : List Phrase) : (args.foldl (.joined .comma) A).tokens =
    A.tokens ++ args.flatMap fun B => .mark "," :: B.tokens := by
  induction args generalizing A
  case nil => simp
  case cons B args hi =>
    rw [List.foldl_cons, hi]
    simp [tokens, Joint.symbol]

theorem lex_textArgs (as : List Term) : Token.lex (Term.textArgs (a :: as)) =
    Token.lex a.text ++ as.flatMap fun b => .mark "," :: Token.lex b.text := by
  induction as generalizing a
  case nil => simp [Term.textArgs]
  case cons b as hi => simp [Term.lex_textArgs_cons, hi]

theorem Spells.apply {args : List Phrase} {as : List Term} (named : Token.lex f = [.word f])
    (first : A.Spells a) (rest : args.Forall₂ Spells as) :
    (apply f A args).Spells (.apply f (a :: as)) := by
  have same : (args.flatMap fun B => Token.mark "," :: B.tokens) =
      as.flatMap fun b => .mark "," :: Token.lex b.text := by
    induction rest
    case nil => rfl
    case cons spelled _ hi => rw [List.flatMap_cons, List.flatMap_cons, hi, spelled]
  rw [Spells, Term.lex_apply, lex_textArgs, named, ← first, ← same, ← tokens_foldl_comma]
  rfl

theorem grouped_apply {args : List Phrase} :
    (apply f A args).Grouped ↔ A.Grouped ∧ ∀ B ∈ args, 1 < B.level ∧ B.Grouped := by
  have inner : (args.foldl (.joined .comma) A).Grouped ↔
      A.Grouped ∧ ∀ B ∈ args, 1 < B.level ∧ B.Grouped := by
    induction args generalizing A
    case nil => simp
    case cons B args hi =>
      simp [hi, Grouped, Joint.level, A.level_pos]
      tauto
  simp [apply, Grouped, inner, level]

-- A vector in a product with a matrix, and the level that it has to have there.
def widened (ty : TypeRef) (A : Phrase) : Phrase :=
  match ty.short with
  | "Vector2" => .apply "vec4" A [.number "0.0", .number "1.0"]
  | "Vector3" => .apply "vec4" A [.number "1.0"]
  | _         => A

def widenedDemand (ty : TypeRef) : Nat :=
  match ty.short with
  | "Vector2" | "Vector3" => 1
  | _                     => BinaryOp.multiply.level + 1

-- What is left of a vector of four components in a vector of the type `owner`.
def narrowed (owner : String) (A : Phrase) : Phrase :=
  match shortName owner with
  | "Vector2" => .member A "xy"
  | "Vector3" => .member A "xyz"
  | _         => A

-- A component of a position, divided and shifted to lie between zero and one.
def coordinate (A : Phrase) (component : String) (divisor : Phrase) : Phrase :=
  .binary .add
    (.binary .divide (.group (.binary .divide (.member A component) (.member A "w"))) divisor)
    (.number "0.5")

end Phrase
end Glsl

-- An operand, the phrase that its text is read as, and the level that its position demands.
structure Splice where
  expr   : Expr
  phrase : Phrase
  demand : Nat

-- The operator that a method of a vector or a matrix is written as.
inductive OperatorMethod (owner : String) : String → BinaryOp → Prop
  | add      : isVectorName owner ∨ isMatrixName owner → OperatorMethod owner "Add" .add
  | subtract : isVectorName owner ∨ isMatrixName owner → OperatorMethod owner "Subtract" .subtract
  | multiply : isVectorName owner → OperatorMethod owner "Multiply" .multiply
  | divide   : isVectorName owner → OperatorMethod owner "Divide" .divide

-- What is written as operators between the texts of its operands: the operands in the order in
-- which they are lowered, and the phrase that is meant, given the phrases that they are read as.
inductive Spliced (env : Emission) : Expr → List Splice → Phrase → Prop
  | operator : env.program.callee? owner method = none → OperatorMethod owner method op →
    Spliced env (.call node owner method [a, b]) [⟨a, A, op.level⟩, ⟨b, B, op.level + 1⟩]
      (.group (.binary op A B))
  | matrixMultiply : env.program.callee? owner "Multiply" = none → isMatrixName owner →
    Spliced env (.call node owner "Multiply" [a, b])
      [⟨a, A, BinaryOp.multiply.level + 1⟩, ⟨b, B, BinaryOp.multiply.level⟩]
      (.group (.binary .multiply B A))
  | transform : env.program.callee? owner "Transform" = none → shortNameIn floatVectors owner →
    Spliced env (.call node owner "Transform" [a, b])
      [⟨a, A, Phrase.widenedDemand a.ty⟩, ⟨b, B, BinaryOp.multiply.level⟩]
      (.narrowed owner (.group (.binary .multiply B (.widened a.ty A))))
  | distanceSquared : env.program.callee? owner "DistanceSquared" = none →
    shortNameIn floatVectors owner →
    Spliced env (.call node owner "DistanceSquared" [a, b])
      [⟨a, A, BinaryOp.subtract.level⟩, ⟨b, B, BinaryOp.subtract.level + 1⟩]
      (.apply "dot" (.binary .subtract A B) [.binary .subtract A B])
  | fusedMultiplyAdd : env.program.callee? owner "FusedMultiplyAdd" = none →
    shortName owner = "MathF" → env.target.version.usesDescriptorSets = false →
    Spliced env (.call node owner "FusedMultiplyAdd" [a, b, c])
      [⟨a, A, BinaryOp.multiply.level⟩, ⟨b, B, BinaryOp.multiply.level + 1⟩,
        ⟨c, C, BinaryOp.add.level + 1⟩]
      (.group (.binary .add (.binary .multiply A B) C))
  | clipToTextureCoordinates : env.program.callee? owner "ClipToTextureCoordinates" = none →
    isBuiltinsType owner →
    Spliced env (.call node owner "ClipToTextureCoordinates" [a]) [⟨a, A, Phrase.closed⟩]
      (.apply "vec2" (.coordinate A "x" (.number "2.0"))
        [.coordinate A "y" (.leading .negate (.number "2.0"))])
  | exchanged : isMatrixName b.ty.name → isMatrixName a.ty.name ∨ isVectorName a.ty.name →
    Spliced env (.binary node .multiply a b)
      [⟨a, A, BinaryOp.multiply.level + 1⟩, ⟨b, B, BinaryOp.multiply.level⟩]
      (.binary .multiply B A)
  | binary : (isVectorName a.ty.name → vectorComparison? op = none) →
    (op = .multiply → isMatrixName b.ty.name → ¬isMatrixName a.ty.name ∧ ¬isVectorName a.ty.name) →
    Spliced env (.binary node op a b) [⟨a, A, op.level⟩, ⟨b, B, op.level + 1⟩] (.binary op A B)

namespace Emission

variable {env : Emission} {e a b : Expr} {es args : List Expr} {os : List Operand} {node : Node}
  {owner method : String} {op : BinaryOp} {t : Term} {s s' : Emitter} {location : Option Location}

theorem locate_eq_ok {x : EmitM α} {r : α} (h : EmitM.locate location x s = .ok r s') :
    x s = .ok r s' := by
  simp only [EmitM.locate, EStateM.adaptExcept] at h
  split at h
  case h_1 => cases h
  case h_2 known =>
    cases h
    exact known

theorem exists_of_lowerAll_cons (h : env.lowerAll (e :: es) s = .ok os s') :
    ∃ t s₁ os', env.lower e s = .ok t s₁ ∧ env.lowerAll es s₁ = .ok os' s' ∧
      os = ⟨t, e.ty⟩ :: os' := by
  rw [lowerAll] at h
  have ⟨t, s₁, lowered, h⟩ := exists_of_bind_eq_ok h
  have ⟨os', s₂, rest, h⟩ := exists_of_bind_eq_ok h
  cases h
  exact ⟨t, s₁, os', lowered, rest, rfl⟩

theorem lowerAll_cons {s₁ : Emitter} (first : env.lower e s = .ok t s₁)
    (rest : env.lowerAll es s₁ = .ok os s') :
    env.lowerAll (e :: es) s = .ok (⟨t, e.ty⟩ :: os) s' := by
  rw [lowerAll, bind_eq_of_eq_ok first, bind_eq_of_eq_ok rest]
  rfl

theorem lowerAll_nil : env.lowerAll [] s = .ok [] s := by
  rw [lowerAll]
  rfl

theorem types_of_lowerAll (h : env.lowerAll es s = .ok os s') :
    es.Forall₂ (fun e o => o.ty = e.ty) os := by
  induction es generalizing s os
  case nil =>
    cases lowerAll_nil.symm.trans h
    exact .nil
  case cons e es hi =>
    obtain ⟨t, s₁, os', _, rest, rfl⟩ := exists_of_lowerAll_cons h
    exact .cons rfl (hi rest)

theorem checkIntrinsic_eq_pure
    (h : shortName owner = builtinsTypeName → method = "ClipToTextureCoordinates") :
    env.checkIntrinsic owner method = pure () := by
  rw [checkIntrinsic]
  split
  case isFalse => rfl
  case isTrue owned =>
    rw [h (by simpa [isBuiltinsType] using owned)]
    have allowed (stage : Stage) :
        (intrinsicStages "ClipToTextureCoordinates").allows stage = true := by
      cases stage <;> decide
    simp [allowed]

-- A call of an intrinsic, other than the few that are not legal in each stage.
theorem exists_of_lower_call {i : Intrinsic} (foreign : env.program.callee? owner method = none)
    (plain : swizzle? method args.length = none)
    (quiet : shortName owner = builtinsTypeName → method = "ClipToTextureCoordinates")
    (known : Intrinsic.of? owner method = some i)
    (h : env.lower (.call node owner method args) s = .ok t s') :
    ∃ os, env.lowerAll args s = .ok os s' ∧ i.format env.target os = .ok t := by
  rw [lower] at h
  case x_2 => simp [plain]
  have h := locate_eq_ok h
  simp only [foreign, checkIntrinsic_eq_pure quiet, pure_bind] at h
  have ⟨os, s₁, lowered, h⟩ := exists_of_bind_eq_ok h
  simp only [Target.invocation, known] at h
  cases written : i.format env.target os
  case ok t' =>
    rw [written] at h
    cases h
    exact ⟨os, lowered, written⟩
  case error refusal =>
    rw [written] at h
    cases refusal <;> cases h

theorem exists_of_lower_binary (h : env.lower (.binary node op a b) s = .ok t s') :
    ∃ l r, env.lowerAll [a, b] s = .ok [⟨l, a.ty⟩, ⟨r, b.ty⟩] s' ∧
      t = binaryTerm ⟨l, a.ty⟩ op ⟨r, b.ty⟩ := by
  rw [lower] at h
  have h := locate_eq_ok h
  have ⟨l, s₁, left, h⟩ := exists_of_bind_eq_ok h
  have ⟨r, s₂, right, h⟩ := exists_of_bind_eq_ok h
  cases h
  exact ⟨l, r, lowerAll_cons left (lowerAll_cons right lowerAll_nil), rfl⟩

end Emission

theorem short_of_isVectorName {name : String} (h : isVectorName name) :
    shortName name ∈ floatVectors ++ integerVectors := by
  simpa [isVectorName, shortNameIn] using h

theorem short_of_isMatrixName {name : String} (h : isMatrixName name) :
    shortName name = "Matrix4x4" := by
  simpa [isMatrixName] using h

namespace OperatorMethod

variable {owner method : String} {op : BinaryOp}

theorem short (h : OperatorMethod owner method op) :
    shortName owner ∈ floatVectors ++ integerVectors ++ ["Matrix4x4"] := by
  have either (h : isVectorName owner ∨ isMatrixName owner) :
      shortName owner ∈ floatVectors ++ integerVectors ++ ["Matrix4x4"] := by
    rcases h with h | h
    · exact List.mem_append_left _ (short_of_isVectorName h)
    · exact List.mem_append_right _ (List.mem_singleton.mpr (short_of_isMatrixName h))
  cases h
  case add h      => exact either h
  case subtract h => exact either h
  case multiply h => exact either (.inl h)
  case divide h   => exact either (.inl h)

theorem of?_vector (vector : isVectorName owner) :
    Intrinsic.of? owner "Add" = some (.operator .add) ∧
    Intrinsic.of? owner "Subtract" = some (.operator .subtract) ∧
    Intrinsic.of? owner "Multiply" = some (.operator .multiply) ∧
    Intrinsic.of? owner "Divide" = some (.operator .divide) := by
  have short := short_of_isVectorName vector
  simp only [floatVectors, integerVectors, List.cons_append, List.nil_append, List.mem_cons,
    List.not_mem_nil, or_false] at short
  unfold Intrinsic.of?
  rcases short with short | short | short | short | short | short | short | short | short <;>
    rw [short] <;> exact ⟨rfl, rfl, rfl, rfl⟩

theorem of?_matrix (matrix : isMatrixName owner) :
    Intrinsic.of? owner "Add" = some (.operator .add) ∧
    Intrinsic.of? owner "Subtract" = some (.operator .subtract) ∧
    Intrinsic.of? owner "Multiply" = some (.custom Intrinsic.matrixMultiply) := by
  rw [Intrinsic.of?, Intrinsic.of?, Intrinsic.of?, short_of_isMatrixName matrix]
  exact ⟨rfl, rfl, rfl⟩

theorem of? (h : OperatorMethod owner method op) :
    Intrinsic.of? owner method = some (.operator op) := by
  cases h
  case add h      => exact h.elim (fun h => (of?_vector h).1) (fun h => (of?_matrix h).1)
  case subtract h => exact h.elim (fun h => (of?_vector h).2.1) (fun h => (of?_matrix h).2.1)
  case multiply h => exact (of?_vector h).2.2.1
  case divide h   => exact (of?_vector h).2.2.2

theorem not_builtin (h : OperatorMethod owner method op) : shortName owner ≠ builtinsTypeName := by
  intro same
  have := h.short
  rw [same] at this
  exact absurd this (by decide)

end OperatorMethod

theorem swizzle?_of_ne_one {method : String} {count : Nat} (h : count ≠ 1) :
    swizzle? method count = none := by
  simp [swizzle?, h]

namespace Spliced

open Phrase Emission

variable {env : Emission} {e : Expr} {splices : List Splice} {whole : Phrase} {t : Term}
  {s s' : Emitter}

theorem spells_number {text : String} (h : Token.lex text = [.number text]) :
    (number text).Spells (.atom text) :=
  spells_atom h.symm

theorem exists_transform (target : Target) (v m : Operand) : ∃ four,
    Intrinsic.transform target [v, m] = .ok (.group (.binary .multiply m.term four)) ∧
    ∀ A : Phrase, A.Spells v.term → (widened v.ty A).Spells four := by
  have zero : (number "0.0").Spells (.atom "0.0") := spells_number (by decide)
  have one : (number "1.0").Spells (.atom "1.0") := spells_number (by decide)
  by_cases two : v.ty.short = "Vector2"
  case pos =>
    refine ⟨.apply "vec4" [v.term, .atom "0.0", .atom "1.0"],
      by simp [Intrinsic.transform, two], ?_⟩
    intro A spelled
    simp only [widened, two]
    exact .apply (by decide) spelled (.cons zero (.cons one .nil))
  case neg =>
    by_cases three : v.ty.short = "Vector3"
    case pos =>
      refine ⟨.apply "vec4" [v.term, .atom "1.0"], by simp [Intrinsic.transform, three], ?_⟩
      intro A spelled
      simp only [widened, three]
      exact .apply (by decide) spelled (.cons one .nil)
    case neg =>
      refine ⟨v.term, by simp [Intrinsic.transform], fun A spelled => ?_⟩
      simpa [widened, two, three] using spelled

theorem binaryTerm_exchanged (l r : Operand) (matrix : isMatrixName r.ty.name)
    (either : isMatrixName l.ty.name ∨ isVectorName l.ty.name) :
    binaryTerm l .multiply r = .binary .multiply r.term l.term := by
  simp [binaryTerm, vectorComparison?, Operand.isMatrix, Operand.isVector, matrix, either]

theorem binaryTerm_plain {op : BinaryOp} (l r : Operand)
    (scalar : isVectorName l.ty.name → vectorComparison? op = none)
    (plain : op = .multiply → isMatrixName r.ty.name →
      ¬isMatrixName l.ty.name ∧ ¬isVectorName l.ty.name) :
    binaryTerm l op r = .binary op l.term r.term := by
  unfold binaryTerm
  split
  case h_1 compared vector => exact absurd (scalar vector) (by simp [compared])
  case h_2 =>
    split
    case isTrue swapped => simp_all [Operand.isMatrix, Operand.isVector]
    case isFalse => rfl

theorem exists_narrow {owner : String} (short : shortName owner ∈ floatVectors) :
    ∃ (format : Formatter) (narrow : Term → Term),
      Intrinsic.of? owner "Transform" = some (.custom format) ∧
      (∀ target args t, Intrinsic.transform target args = .ok t →
        format target args = .ok (narrow t)) ∧
      ∀ (A : Phrase) (t : Term), A.Spells t → Phrase.closed ≤ A.level →
        (narrowed owner A).Spells (narrow t) := by
  simp only [floatVectors, List.mem_cons, List.not_mem_nil, or_false] at short
  have cut (components : String) (target : Target) (args : List Operand) (t : Term)
      (h : Intrinsic.transform target args = .ok t) :
      Intrinsic.transformTo components target args = .ok (.member t components) := by
    rw [Intrinsic.transformTo, h]
    rfl
  unfold Intrinsic.of? narrowed
  rcases short with short | short | short <;> rw [short]
  · exact ⟨_, (.member · "xy"), rfl, cut "xy", fun A t spelled => spelled.member (by decide)⟩
  · exact ⟨_, (.member · "xyz"), rfl, cut "xyz", fun A t spelled => spelled.member (by decide)⟩
  · exact ⟨_, id, rfl, fun _ _ _ h => h, fun A t spelled _ => spelled⟩

-- What the splices know about the operands that they are lowered to. Of the demands only those for
-- closed phrases matter to the tokens: a number goes on with a point that is written behind it.
def Fits (splices : List Splice) (os : List Operand) : Prop :=
  splices.Forall₂ (fun p o => p.phrase.Spells o.term ∧ o.ty = p.expr.ty) os ∧
  ∀ p ∈ splices, p.demand = Phrase.closed → Phrase.closed ≤ p.phrase.level

theorem Fits.pair {p q : Splice} {os : List Operand} (h : Fits [p, q] os) :
    ∃ l r : Operand, os = [l, r] ∧ l.ty = p.expr.ty ∧ p.phrase.Spells l.term ∧
      q.phrase.Spells r.term := by
  have ⟨l, _, ⟨left, same⟩, h', e⟩ := List.forall₂_cons_left_iff.mp h.left
  have ⟨r, _, ⟨right, _⟩, h'', e'⟩ := List.forall₂_cons_left_iff.mp h'
  cases List.forall₂_nil_left_iff.mp h''
  cases e'
  exact ⟨l, r, e, same, left, right⟩

-- The operands are lowered, and the whole is spelled as meant if they fit.
def Lowered (env : Emission) (splices : List Splice) (whole : Phrase) (s : Emitter) (t : Term)
    (s' : Emitter) : Prop :=
  ∃ os, env.lowerAll (splices.map Splice.expr) s = .ok os s' ∧ (Fits splices os → whole.Spells t)

theorem lowered_of_call {owner method : String} {node : Node} {i : Intrinsic}
    (foreign : env.program.callee? owner method = none)
    (plain : swizzle? method splices.length = none)
    (quiet : shortName owner = builtinsTypeName → method = "ClipToTextureCoordinates")
    (known : Intrinsic.of? owner method = some i)
    (spells : ∀ os t, Fits splices os → i.format env.target os = .ok t → whole.Spells t)
    (h : env.lower (.call node owner method (splices.map Splice.expr)) s = .ok t s') :
    Lowered env splices whole s t s' := by
  rw [← List.length_map Splice.expr] at plain
  have ⟨os, lowered, written⟩ := exists_of_lower_call foreign plain quiet known h
  exact ⟨os, lowered, fun fits => spells os t fits written⟩

theorem spells_transform {owner : String} {a b : Expr} {A B : Phrase} {format : Formatter}
    {narrow : Term → Term} {n m : Nat}
    (formats : ∀ target args t, Intrinsic.transform target args = .ok t →
      format target args = .ok (narrow t))
    (narrows : ∀ (A : Phrase) (t : Term), A.Spells t → Phrase.closed ≤ A.level →
      (narrowed owner A).Spells (narrow t))
    (target : Target) (os : List Operand) (t : Term) (fits : Fits [⟨a, A, n⟩, ⟨b, B, m⟩] os)
    (written : (Intrinsic.custom format).format target os = .ok t) :
    (narrowed owner (.group (.binary .multiply B (.widened a.ty A)))).Spells t := by
  obtain ⟨v, m, rfl, same, left, right⟩ := fits.pair
  have ⟨four, transformed, widens⟩ := exists_transform target v m
  rw [Intrinsic.format, formats _ _ _ transformed] at written
  cases written
  have same : v.ty = a.ty := same
  rw [← same]
  exact narrows _ _ (right.binary (widens A left)).group le_rfl

theorem spells_clip {a : Expr} {A : Phrase} (target : Target) (os : List Operand) (t : Term)
    (fits : Fits [⟨a, A, Phrase.closed⟩] os)
    (written : (Intrinsic.custom Intrinsic.clipToTextureCoordinates).format target os = .ok t) :
    (Phrase.apply "vec2" (.coordinate A "x" (.number "2.0"))
      [.coordinate A "y" (.leading .negate (.number "2.0"))]).Spells t := by
  have closed : Phrase.closed ≤ A.level := fits.right _ List.mem_cons_self rfl
  rcases fits.left with _ | ⟨⟨clip, _⟩, _ | _⟩
  cases written
  have half : (number "0.5").Spells (.atom "0.5") := spells_number (by decide)
  have two : (number "2.0").Spells (.atom "2.0") := spells_number (by decide)
  have below : (leading .negate (number "2.0")).Spells (.atom "-2.0") := spells_atom (by decide)
  have x := clip.member (by decide : Token.lex "x" = [.word "x"]) closed
  have y := clip.member (by decide : Token.lex "y" = [.word "y"]) closed
  have w := clip.member (by decide : Token.lex "w" = [.word "w"]) closed
  exact .apply (by decide) (((x.binary w).group.binary two).binary half)
    (.cons (((y.binary w).group.binary below).binary half) .nil)

theorem lowered (w : Spliced env e splices whole) (h : env.lower e s = .ok t s') :
    Lowered env splices whole s t s' := by
  cases w
  case operator foreign known =>
    refine lowered_of_call foreign (swizzle?_of_ne_one (by simp)) (absurd · known.not_builtin)
      known.of? (fun os t fits written => ?_) h
    obtain ⟨l, r, rfl, _, left, right⟩ := fits.pair
    cases written
    exact (left.binary right).group
  case matrixMultiply owner _ _ _ _ _ foreign matrix =>
    have short := short_of_isMatrixName matrix
    refine lowered_of_call foreign (swizzle?_of_ne_one (by simp))
      (by simp [short, builtinsTypeName]) (OperatorMethod.of?_matrix matrix).2.2
      (fun os t fits written => ?_) h
    obtain ⟨l, r, rfl, _, left, right⟩ := fits.pair
    cases written
    exact (right.binary left).group
  case transform owner _ _ _ _ _ foreign vector =>
    have short : shortName owner ∈ floatVectors := by simpa [shortNameIn] using vector
    have quiet : shortName owner ≠ builtinsTypeName := ne_of_mem_of_not_mem short (by decide)
    obtain ⟨format, narrow, known, formats, narrows⟩ := exists_narrow short
    exact lowered_of_call foreign (swizzle?_of_ne_one (by simp)) (absurd · quiet) known
      (spells_transform formats narrows env.target) h
  case distanceSquared owner _ _ _ _ _ foreign vector =>
    have short : shortName owner ∈ floatVectors := by simpa [shortNameIn] using vector
    have quiet : shortName owner ≠ builtinsTypeName := ne_of_mem_of_not_mem short (by decide)
    have known :
        Intrinsic.of? owner "DistanceSquared" = some (.custom Intrinsic.distanceSquared) := by
      simp only [floatVectors, List.mem_cons, List.not_mem_nil, or_false] at short
      rw [Intrinsic.of?]
      rcases short with short | short | short <;> rw [short] <;> rfl
    refine lowered_of_call foreign (swizzle?_of_ne_one (by simp)) (absurd · quiet) known
      (fun os t fits written => ?_) h
    obtain ⟨l, r, rfl, _, left, right⟩ := fits.pair
    cases written
    exact .apply (by decide) (left.binary right) (.cons (left.binary right) .nil)
  case fusedMultiplyAdd owner _ _ _ _ _ _ _ foreign short separate =>
    have known :
        Intrinsic.of? owner "FusedMultiplyAdd" = some (.custom Intrinsic.fusedMultiplyAdd) := by
      rw [Intrinsic.of?, short]
      rfl
    refine lowered_of_call foreign (swizzle?_of_ne_one (by simp))
      (by simp [short, builtinsTypeName]) known (fun os t fits written => ?_) h
    rcases fits.left with _ | ⟨⟨first, _⟩, _ | ⟨⟨second, _⟩, _ | ⟨⟨third, _⟩, _ | _⟩⟩⟩
    simp only [Intrinsic.format, Intrinsic.fusedMultiplyAdd, separate] at written
    cases written
    exact ((first.binary second).binary third).group
  case clipToTextureCoordinates owner _ _ _ foreign builtin =>
    have short : shortName owner = builtinsTypeName := by simpa [isBuiltinsType] using builtin
    have known : Intrinsic.of? owner "ClipToTextureCoordinates" =
        some (.custom Intrinsic.clipToTextureCoordinates) := by
      rw [Intrinsic.of?, short]
      rfl
    exact lowered_of_call foreign (by decide : swizzle? "ClipToTextureCoordinates" 1 = none)
      (fun _ => rfl) known (spells_clip env.target) h
  case exchanged _ a b _ _ matrix either =>
    obtain ⟨l, r, lowered, written⟩ := exists_of_lower_binary h
    refine ⟨_, lowered, fun fits => ?_⟩
    obtain ⟨_, _, same, _, left, right⟩ := fits.pair
    cases same
    rw [written, binaryTerm_exchanged ⟨l, a.ty⟩ ⟨r, b.ty⟩ matrix either]
    exact right.binary left
  case binary _ _ a b _ _ scalar plain =>
    obtain ⟨l, r, lowered, written⟩ := exists_of_lower_binary h
    refine ⟨_, lowered, fun fits => ?_⟩
    obtain ⟨_, _, same, _, left, right⟩ := fits.pair
    cases same
    rw [written, binaryTerm_plain ⟨l, a.ty⟩ ⟨r, b.ty⟩ scalar plain]
    exact left.binary right

theorem grouped_binary {A B : Phrase} {op : BinaryOp} : (Phrase.binary op A B).Grouped ↔
    op.level ≤ A.level ∧ op.level + 1 ≤ B.level ∧ A.Grouped ∧ B.Grouped :=
  Iff.rfl

theorem grouped_narrowed {owner : String} {A : Phrase} (closed : Phrase.closed ≤ A.level) :
    (narrowed owner A).Grouped ↔ A.Grouped := by
  unfold narrowed
  split <;> simp [Grouped, closed]

theorem grouped_widened {ty : TypeRef} {A : Phrase} : (widened ty A).Grouped ↔ A.Grouped := by
  unfold widened
  split <;> simp [grouped_apply, Grouped, level, unary]

theorem lt_level_widened {ty : TypeRef} {A : Phrase} :
    BinaryOp.multiply.level + 1 ≤ (widened ty A).level ↔ widenedDemand ty ≤ A.level := by
  by_cases two : ty.short = "Vector2"
  case pos =>
    simp only [widened, widenedDemand, two]
    exact iff_of_true (Nat.le_succ 14) A.level_pos
  case neg =>
    by_cases three : ty.short = "Vector3"
    case pos =>
      simp only [widened, widenedDemand, three]
      exact iff_of_true (Nat.le_succ 14) A.level_pos
    case neg => simp [widened, widenedDemand]

theorem grouped_coordinate {A : Phrase} {component : String} (d : Phrase)
    (binds : BinaryOp.divide.level + 1 ≤ d.level) (grouped : d.Grouped) :
    (coordinate A component d).Grouped ↔ Phrase.closed ≤ A.level ∧ A.Grouped := by
  have below : BinaryOp.divide.level + 1 ≤ Phrase.closed := by decide
  constructor
  · rintro ⟨_, _, ⟨_, _, ⟨_, _, member, _⟩, _⟩, _⟩
    exact member
  · intro member
    refine ⟨Nat.le_succ 12, Nat.le_succ 13, ⟨Nat.le_of_succ_le below, binds, ?_, grouped⟩, trivial⟩
    exact ⟨Nat.le_of_succ_le below, below, member, member⟩

-- The grouping of the whole depends on the levels of its operands only.
theorem grouped_iff (w : Spliced env e splices whole) (grouped : ∀ p ∈ splices, p.phrase.Grouped) :
    whole.Grouped ↔ ∀ p ∈ splices, p.demand ≤ p.phrase.level := by
  cases w
  all_goals
    simp only [List.forall_mem_cons, List.not_mem_nil, false_imp_iff, implies_true, and_true]
      at grouped ⊢
  case operator => simp [Grouped, grouped_binary, grouped]
  case matrixMultiply => simp [Grouped, grouped_binary, grouped, and_comm]
  case transform =>
    rw [grouped_narrowed le_rfl, Grouped, grouped_binary, grouped_widened, lt_level_widened]
    simp [grouped, and_comm]
  case distanceSquared A B _ _ =>
    have level : 1 < (Phrase.binary .subtract A B).level := Nat.le_of_ble_eq_true rfl
    simp [grouped_apply, grouped_binary, grouped, level]
  case fusedMultiplyAdd A B C _ _ _ =>
    have level : BinaryOp.add.level ≤ (Phrase.binary .multiply A B).level := Nat.le_succ 12
    simp [Grouped, grouped_binary, grouped, level]
    tauto
  case clipToTextureCoordinates A _ _ =>
    have x : (coordinate A "x" (.number "2.0")).Grouped ↔ Phrase.closed ≤ A.level := by
      rw [grouped_coordinate _ (by decide) (by decide), and_iff_left grouped]
    have y : (coordinate A "y" (.leading .negate (.number "2.0"))).Grouped ↔
        Phrase.closed ≤ A.level := by
      rw [grouped_coordinate _ (by decide) (by decide), and_iff_left grouped]
    have level (d : Phrase) : 1 < (coordinate A "y" d).level := Nat.le_of_ble_eq_true rfl
    rw [grouped_apply]
    simp [x, y, level]
  case exchanged => simp [grouped_binary, grouped, and_comm]
  case binary => simp [grouped_binary, grouped]

end Spliced

theorem read_group_iff {t : Term} {A : Phrase} :
    Phrase.read (Term.group t).text = some (.group A) ↔ Phrase.read t.text = some A := by
  rw [Phrase.read_eq_some_iff, Phrase.read_eq_some_iff, Term.lex_group]
  refine and_congr Iff.rfl ?_
  simp [Phrase.tokens]

-- The text of what is spliced is read as it is meant iff each operand binds as tightly as its place
-- demands. Parentheses around an operand are kept, and meet each demand.
theorem read_spliced_iff (env : Emission) (s s' : Emitter) (e : Expr) (t : Term)
    (lowered : env.lower e s = .ok t s') :
    (∀ (splices : List Splice) (whole : Phrase), Spliced env e splices whole →
      ∃ os, env.lowerAll (splices.map Splice.expr) s = .ok os s' ∧
        (splices.Forall₂ (fun p o => Phrase.read o.term.text = some p.phrase) os →
          (Phrase.read t.text = some whole ↔ ∀ p ∈ splices, p.demand ≤ p.phrase.level))) ∧
    (∀ (node : Node) (inner : Expr), e = .paren node inner →
      ∃ t', env.lower inner s = .ok t' s' ∧ ∀ A : Phrase,
        Phrase.read t.text = some (.group A) ↔ Phrase.read t'.text = some A) := by
  constructor
  · intro splices whole w
    have ⟨os, operands, spells⟩ := w.lowered lowered
    refine ⟨os, operands, fun reads => ?_⟩
    have both : splices.Forall₂ (fun p o => p.phrase.Grouped ∧ p.phrase.Spells o.term) os :=
      reads.imp fun _ _ => Phrase.read_eq_some_iff.mp
    have ⟨grouped, spelled⟩ := (List.forall₂_and_left _ _).mp both
    have typed := List.forall₂_map_left_iff.mp (Emission.types_of_lowerAll operands)
    have fits := spelled.mp (fun _ _ h h' => And.intro h h') typed
    constructor
    · intro read
      exact (w.grouped_iff grouped).mp (Phrase.read_eq_some_iff.mp read).left
    · intro demands
      have spelled := spells ⟨fits, fun p mem same => same.symm.trans_le (demands p mem)⟩
      exact (Phrase.read_eq_some_iff_of_spells spelled).mpr ((w.grouped_iff grouped).mpr demands)
  · rintro node inner rfl
    rw [Emission.lower] at lowered
    have ⟨t', s₁, lowered, h⟩ := exists_of_bind_eq_ok (Emission.locate_eq_ok lowered)
    cases h
    exact ⟨t', lowered, fun A => read_group_iff⟩

def bare : Emission := ⟨{}, .empty, [], .fragment⟩

def spatial : Node := ⟨.primitive "Vector3" [], none⟩

def spatialLocal (name : String) : Expr := .name spatial ⟨"", name, .local⟩

-- The difference of `b` and `c`, subtracted from `a` by a call.
def difference : Expr := .binary spatial .subtract (spatialLocal "b") (spatialLocal "c")

def subtraction (second : Expr) : Expr :=
  .call spatial "Vector3" "Subtract" [spatialLocal "a", second]

theorem read_spliced_iff_subtraction :
    ∃ t, bare.lower (subtraction (.paren spatial difference)) {} = .ok t {} ∧
      t.text = "(a - (b - c))" ∧
      Phrase.read t.text = some (.group (.binary .subtract (.word "a")
        (.group (.binary .subtract (.word "b") (.word "c"))))) := by
  let splices : List Splice := [⟨spatialLocal "a", .word "a", 12⟩,
    ⟨.paren spatial difference, .group (.binary .subtract (.word "b") (.word "c")), 13⟩]
  have lowered : bare.lower (subtraction (.paren spatial difference)) {} =
      .ok (.group (.binary .subtract (.atom "a")
        (.group (.binary .subtract (.atom "b") (.atom "c"))))) {} := rfl
  have operands : bare.lowerAll (splices.map Splice.expr) {} = .ok
      [⟨.atom "a", spatial.ty⟩,
        ⟨.group (.binary .subtract (.atom "b") (.atom "c")), spatial.ty⟩] {} := rfl
  have spliced : Spliced bare (subtraction (.paren spatial difference)) splices
      (.group (.binary .subtract (.word "a")
        (.group (.binary .subtract (.word "b") (.word "c"))))) :=
    .operator rfl (.subtract (.inl rfl))
  obtain ⟨os, known, reads⟩ := (read_spliced_iff bare {} {} _ _ lowered).left splices _ spliced
  cases operands.symm.trans known
  have first : Phrase.read (Term.atom "a").text = some (.word "a") :=
    Phrase.read_eq_some_iff.mpr ⟨by decide, by decide⟩
  have second : Phrase.read (Term.group (.binary .subtract (.atom "b") (.atom "c"))).text =
      some (.group (.binary .subtract (.word "b") (.word "c"))) :=
    Phrase.read_eq_some_iff.mpr ⟨by decide, by decide⟩
  refine ⟨_, lowered, by decide, (reads (.cons first (.cons second .nil))).mpr ?_⟩
  decide

-- Without the parentheses `b` alone is subtracted, and then `c`.
theorem difference_regrouped :
    Phrase.read "b - c" = some (.binary .subtract (.word "b") (.word "c")) ∧
    ∃ t, bare.lower (subtraction difference) {} = .ok t {} ∧ t.text = "(a - b - c)" ∧
      Phrase.read t.text = some (.group (.binary .subtract
        (.binary .subtract (.word "a") (.word "b")) (.word "c"))) ∧
      Phrase.read t.text ≠ some (.group (.binary .subtract (.word "a")
        (.binary .subtract (.word "b") (.word "c")))) := by
  have lowered : bare.lower (subtraction difference) {} = .ok (.group (.binary .subtract (.atom "a")
      (.binary .subtract (.atom "b") (.atom "c")))) {} := rfl
  have read : Phrase.read "(a - b - c)" = some (.group (.binary .subtract
      (.binary .subtract (.word "a") (.word "b")) (.word "c"))) :=
    Phrase.read_eq_some_iff.mpr ⟨by decide, by decide⟩
  refine ⟨Phrase.read_eq_some_iff.mpr ⟨by decide, by decide⟩, _, lowered, by decide, read, ?_⟩
  intro other
  exact absurd (read.symm.trans other) (by decide)

end Shading
