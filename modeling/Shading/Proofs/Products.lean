import Shading.Proofs.Grouping
import Mathlib
/-!
Products with matrices on the host and on the device.

The host multiplies row vectors by matrices, and its matrices reach the device transposed. A product
that is written with its operands exchanged keeps its value. A compound assignment does not exchange
them, and yields the product in the other order.
-/

namespace Shading

open Glsl

namespace Glsl

-- A value of arithmetic. All matrices have four rows and columns.
inductive Value (R : Type*) where
  | scalar (r : R)
  | vector (n : Nat) (v : Fin n → R)
  | matrix (M : Matrix (Fin 4) (Fin 4) R)

namespace Value

variable {R : Type*} {x y z w : Value R} {M : Matrix (Fin 4) (Fin 4) R}

-- A value of the host as the device gets it.
def upload : Value R → Value R
  | matrix M => matrix M.transpose
  | x        => x

theorem upload_upload (x : Value R) : x.upload.upload = x := by
  cases x <;> rfl

theorem upload_inj : x.upload = y.upload ↔ x = y :=
  (Function.LeftInverse.injective upload_upload).eq_iff

-- The components of both values, one after the other.
def append : Value R → Value R → Option (Value R)
  | scalar r,   scalar q   => some (vector 2 ![r, q])
  | scalar r,   vector n v => some (vector (n + 1) (Fin.cons r v))
  | vector n v, scalar r   => some (vector (n + 1) (Fin.snoc v r))
  | vector n v, vector m w => some (vector (n + m) (Fin.append v w))
  | _,          _          => none

-- The first components of a vector.
def cut (k : Nat) : Value R → Option (Value R)
  | vector n v => if fewer : k ≤ n then some (vector k (v ∘ Fin.castLE fewer)) else none
  | _          => none

-- The four components that a vector is made of.
def four : Value R → Option (Value R)
  | vector 4 v => some (vector 4 v)
  | _          => none

theorem cut_upload {k : Nat} (h : x.cut k = some y) : x.upload.cut k = some y.upload := by
  cases x
  case vector n v =>
    by_cases fewer : k ≤ n
    case pos =>
      simp only [cut, fewer, dite_true, Option.some.injEq] at h
      subst h
      simp [upload, cut, fewer]
    case neg => simp [cut, fewer] at h
  all_goals cases h

variable [CommRing R]

-- The product, in which a vector is a row on the left and a column on the right of a matrix.
def times : Value R → Value R → Option (Value R)
  | scalar r,   scalar q   => some (scalar (r * q))
  | scalar r,   vector n v => some (vector n (r • v))
  | scalar r,   matrix M   => some (matrix (r • M))
  | vector n v, scalar r   => some (vector n (r • v))
  | vector n v, vector m w =>
    if same : n = m then some (vector n fun i => v i * w (i.cast same)) else none
  | vector 4 v, matrix M   => some (vector 4 (M.vecMul v))
  | vector _ _, matrix _   => none
  | matrix M,   scalar r   => some (matrix (r • M))
  | matrix M,   vector 4 v => some (vector 4 (M.mulVec v))
  | matrix _,   vector _ _ => none
  | matrix M,   matrix N   => some (matrix (M * N))

-- On the device the operands of each product have to be exchanged.
theorem times_upload (x y : Value R) : times y.upload x.upload = (times x y).map upload := by
  cases x <;> cases y
  case scalar.scalar r q => simp [times, upload, mul_comm]
  case scalar.vector => rfl
  case scalar.matrix => rfl
  case vector.scalar => rfl
  case matrix.scalar => rfl
  case matrix.matrix => simp [times, upload, Matrix.transpose_mul]
  case vector.vector n v m w =>
    by_cases same : n = m
    case pos =>
      subst same
      simp [times, upload, mul_comm]
    case neg => simp [times, upload, same, Ne.symm same]
  case vector.matrix n v M =>
    by_cases four : n = 4
    case pos =>
      subst four
      simp [times, upload, Matrix.mulVec_transpose]
    case neg => simp [times, upload, four]
  case matrix.vector M n v =>
    by_cases four : n = 4
    case pos =>
      subst four
      simp [times, upload, Matrix.vecMul_transpose]
    case neg => simp [times, upload, four]

-- Whether a matrix may be multiplied with the first of two factors instead of with their product.
def Associates : Value R → Value R → Prop
  | vector .., vector .. | vector .., matrix _ => False
  | _, _ => True

theorem exists_times_assoc (associates : Associates x y) (inner : times x y = some z)
    (outer : times (.matrix M) z = some w) :
    ∃ m, times (.matrix M) x = some m ∧ times m y = some w ∧ Associates m y := by
  cases x <;> cases y
  case scalar.scalar r q =>
    cases inner
    cases outer
    exact ⟨_, rfl, by simp [times, smul_smul, mul_comm], trivial⟩
  case scalar.vector r n v =>
    cases inner
    by_cases four : n = 4
    case pos =>
      subst four
      cases outer
      exact ⟨_, rfl, by simp [times, Matrix.smul_mulVec, Matrix.mulVec_smul], trivial⟩
    case neg => simp [times, four] at outer
  case scalar.matrix r N =>
    cases inner
    cases outer
    exact ⟨_, rfl, by simp [times], trivial⟩
  case vector.scalar n v r =>
    cases inner
    by_cases four : n = 4
    case pos =>
      subst four
      cases outer
      exact ⟨_, rfl, by simp [times, Matrix.mulVec_smul], trivial⟩
    case neg => simp [times, four] at outer
  case vector.vector => cases associates
  case vector.matrix => cases associates
  case matrix.scalar N r =>
    cases inner
    cases outer
    exact ⟨_, rfl, by simp [times], trivial⟩
  case matrix.vector N n v =>
    by_cases four : n = 4
    case pos =>
      subst four
      cases inner
      cases outer
      exact ⟨_, rfl, by simp [times], trivial⟩
    case neg => simp [times, four] at inner
  case matrix.matrix N K =>
    cases inner
    cases outer
    exact ⟨_, rfl, by simp [times, Matrix.mul_assoc], trivial⟩

-- What the host makes of a vector before it transforms it by a matrix, and of the result.
def widened (ty : TypeRef) (x : Value R) : Option (Value R) :=
  match ty.short, x with
  | "Vector2", vector 2 v => some (vector 4 ![v 0, v 1, 0, 1])
  | "Vector3", vector 3 v => some (vector 4 ![v 0, v 1, v 2, 1])
  | "Vector2", _ | "Vector3", _ => none
  | _, x => some x

def narrowed (owner : String) (x : Value R) : Option (Value R) :=
  match shortName owner with
  | "Vector2" => x.cut 2
  | "Vector3" => x.cut 3
  | _         => some x

end Value

namespace Phrase

open Value

variable {R : Type*} [CommRing R]

-- The value of a phrase, given those of its parts that no rule applies to. An assignment has the
-- value that its target gets.
def value (leaf : Phrase → Option (Value R)) : Phrase → Option (Value R)
  | number "0.0"                     => some (.scalar 0)
  | number "1.0"                     => some (.scalar 1)
  | group A                          => A.value leaf
  | joined (.operator .multiply) A B => do times (← A.value leaf) (← B.value leaf)
  | joined .comma A B                => do append (← A.value leaf) (← B.value leaf)
  | call (.word "vec4") args         => do four (← args.value leaf)
  | member A "xy"                    => do cut 2 (← A.value leaf)
  | member A "xyz"                   => do cut 3 (← A.value leaf)
  | assign .assign _ B               => B.value leaf
  | assign .multiply A B             => do times (← A.value leaf) (← B.value leaf)
  | A                                => leaf A

-- A product of several factors, of which a matrix on the left may be multiplied with the first.
inductive Chain (leaf : Phrase → Option (Value R)) : Phrase → Prop
  | single  : BinaryOp.multiply.level < A.level → Chain leaf A
  | product : Chain leaf A → A.value leaf = some x → B.value leaf = some y → Associates x y →
    Chain leaf (.binary .multiply A B)

-- What a phrase `B`, an asterisk and a phrase of factors are read as: `B` is the first factor.
def multiplied (B : Phrase) : Phrase → Phrase
  | joined (.operator .multiply) C D => .binary .multiply (multiplied B C) D
  | A                                => .binary .multiply B A

variable {leaf : Phrase → Option (Value R)} {A B C D : Phrase} {x y z : Value R}
  {M : Matrix (Fin 4) (Fin 4) R} {ty : TypeRef} {owner : String}

theorem value_widened (known : A.value leaf = some x.upload) (h : x.widened ty = some y) :
    (widened ty A).value leaf = some y.upload := by
  unfold Value.widened at h
  split at h
  case h_1 v short =>
    cases h
    have made : (Fin.snoc (Fin.snoc v 0) 1 : Fin 4 → R) = ![v 0, v 1, 0, 1] := by
      ext i
      fin_cases i <;> rfl
    rw [← made]
    simp [widened, short, apply, value, known, upload, append, four]
  case h_2 v short =>
    cases h
    have made : (Fin.snoc v 1 : Fin 4 → R) = ![v 0, v 1, v 2, 1] := by
      ext i
      fin_cases i <;> rfl
    rw [← made]
    simp [widened, short, apply, value, known, upload, append, four]
  case h_3 => cases h
  case h_4 => cases h
  case h_5 two three _ _ =>
    cases h
    simpa [widened, two, three] using known

theorem value_narrowed (known : A.value leaf = some x.upload) (h : x.narrowed owner = some y) :
    (narrowed owner A).value leaf = some y.upload := by
  unfold Value.narrowed at h
  split at h
  case h_1 short => simp [narrowed, short, value, known, cut_upload h]
  case h_2 short => simp [narrowed, short, value, known, cut_upload h]
  case h_3 =>
    cases h
    simp [narrowed, known]

theorem Chain.level_le (chain : Chain leaf A) : BinaryOp.multiply.level ≤ A.level := by
  cases chain
  case single binds => exact binds.le
  case product => exact le_rfl

theorem Chain.widened (chain : Chain leaf A) : Chain leaf (widened ty A) := by
  unfold Phrase.widened
  split
  case h_3 => exact chain
  all_goals exact .single (Nat.le_succ 14)

theorem multiplied_of_lt (binds : BinaryOp.multiply.level < A.level) :
    multiplied B A = .binary .multiply B A := by
  unfold multiplied
  split
  case h_1 => exact absurd binds (lt_irrefl _)
  case h_2 => rfl

theorem tokens_multiplied (A : Phrase) :
    (multiplied B A).tokens = (binary .multiply B A).tokens := by
  fun_induction multiplied B A
  case case1 C D hi => simp [binary, tokens, hi]
  case case2 => rfl

theorem level_multiplied (A : Phrase) : (multiplied B A).level = BinaryOp.multiply.level := by
  unfold multiplied
  split <;> rfl

theorem grouped_multiplied (chain : Chain leaf A) (binds : BinaryOp.multiply.level ≤ B.level)
    (first : B.Grouped) (second : A.Grouped) : (multiplied B A).Grouped := by
  induction chain
  case single tight =>
    rw [multiplied_of_lt tight]
    exact ⟨binds, tight, first, second⟩
  case product C _ _ _ _ _ _ _ hi =>
    have ⟨_, tight, grouped, grouped'⟩ := second
    exact ⟨(level_multiplied C).ge, tight, hi grouped, grouped'⟩

-- By induction on the factors: the product with the first factors has a value, and the last factor
-- is multiplied with it.
theorem value_multiplied (chain : Chain leaf A) (first : Chain leaf B)
    (matrix : B.value leaf = some (.matrix M)) (known : A.value leaf = some x)
    (h : times (.matrix M) x = some y) :
    (multiplied B A).value leaf = some y ∧ Chain leaf (multiplied B A) := by
  induction chain generalizing x y
  case single tight =>
    rw [multiplied_of_lt tight]
    exact ⟨by simp [binary, value, matrix, known, h], .product first matrix known trivial⟩
  case product C c d D _ left right associates hi =>
    have inner : times c d = some x := by simpa [binary, value, left, right] using known
    obtain ⟨m, outer, whole, associates⟩ := exists_times_assoc associates inner h
    obtain ⟨valued, chain⟩ := hi left outer
    refine ⟨?_, .product chain valued right associates⟩
    change (binary .multiply (multiplied B C) D).value leaf = _
    simp [binary, value, valued, right, whole]

theorem tokens_group (h : A.tokens = B.tokens) : A.group.tokens = B.group.tokens := by
  simp [tokens, h]

theorem tokens_narrowed (h : A.tokens = B.tokens) :
    (narrowed owner A).tokens = (narrowed owner B).tokens := by
  unfold narrowed
  split <;> simp [tokens, h]

theorem Spells.assign {a b : Term} {op : AssignOp} (left : A.Spells a) (right : B.Spells b) :
    (assign op A B).Spells (.assign op a b) := by
  rw [Spells, Term.lex_assign, ← left, ← right]
  rfl

-- A phrase for a value of the host that may be a factor of a further product.
structure Factor (leaf : Phrase → Option (Value R)) (A : Phrase) (x : Value R) : Prop where
  grouped : A.Grouped
  value   : A.value leaf = some x.upload
  chain   : Chain leaf A

namespace Factor

theorem multiplied (first : Factor leaf A x) (second : Factor leaf B (.matrix M))
    (h : times x (.matrix M) = some y) : Factor leaf (multiplied B A) y := by
  have exchanged : times (.matrix M.transpose) x.upload = some y.upload := by
    have := times_upload x (.matrix M)
    rwa [h] at this
  have grouped :=
    grouped_multiplied first.chain second.chain.level_le second.grouped first.grouped
  have ⟨value, chain⟩ :=
    value_multiplied first.chain second.chain second.value first.value exchanged
  exact ⟨grouped, value, chain⟩

theorem group (f : Factor leaf A x) : Factor leaf A.group x :=
  ⟨f.grouped, f.value, .single (Nat.le_succ 14)⟩

theorem widened (f : Factor leaf A x) (h : x.widened ty = some y) :
    Factor leaf (widened ty A) y where
  grouped := by
    rw [Spliced.grouped_widened]
    exact f.grouped
  value   := value_widened f.value h
  chain   := f.chain.widened

theorem narrowed (f : Factor leaf A.group x) (h : x.narrowed owner = some y) :
    Factor leaf (narrowed owner A.group) y where
  grouped := by
    rw [Spliced.grouped_narrowed le_rfl]
    exact f.grouped
  value   := value_narrowed f.value h
  chain   := by
    refine .single ?_
    unfold Phrase.narrowed
    split <;> exact Nat.le_succ 14

end Factor

-- The text of a term is read as a phrase that has a value of the host, as the device gets it.
structure Denotes (leaf : Phrase → Option (Value R)) (t : Term) (A : Phrase) (x : Value R) :
    Prop where
  read  : Phrase.read t.text = some A
  value : A.value leaf = some x.upload

theorem Denotes.factor {t : Term} (d : Denotes leaf t A x) (chain : Chain leaf A) :
    A.Spells t ∧ Factor leaf A x :=
  have ⟨grouped, spelled⟩ := read_eq_some_iff.mp d.read
  ⟨spelled, grouped, d.value, chain⟩

theorem Factor.denotes {t : Term} (f : Factor leaf A x) (spelled : A.Spells t) :
    Denotes leaf t A x :=
  ⟨(read_eq_some_iff_of_spells spelled).mpr f.grouped, f.value⟩

end Phrase
end Glsl

namespace Emission

variable {env : Emission} {node : Node} {t : Term} {s s' : Emitter}

theorem exists_of_lower_assign {op : AssignOp} {target value : Expr}
    (plain : op = .assign → ∀ node image position, target = .index node image position →
      isStorageImage image.ty = false)
    (h : env.lower (.assign node op target value) s = .ok t s') :
    ∃ l r s₁, env.lower target s = .ok l s₁ ∧ env.lower value s₁ = .ok r s' ∧
      t = .assign op l r := by
  have written (h : (do
      let t ← env.lower target
      let v ← env.lower value
      return .assign op t v : EmitM Term) s = .ok t s') :
      ∃ l r s₁, env.lower target s = .ok l s₁ ∧ env.lower value s₁ = .ok r s' ∧
        t = .assign op l r := by
    have ⟨l, s₁, left, h⟩ := exists_of_bind_eq_ok h
    have ⟨r, s₂, right, h⟩ := exists_of_bind_eq_ok h
    cases h
    exact ⟨l, r, s₁, left, right, rfl⟩
  by_cases element : ∃ node image position, target = .index node image position
  case pos =>
    obtain ⟨node, image, position, rfl⟩ := element
    have other : (op == .assign && isStorageImage image.ty) = false := by
      simpa using fun same => plain same node image position rfl
    rw [lower] at h
    have h := locate_eq_ok h
    simp only [other] at h
    exact written h
  case neg =>
    rw [lower] at h
    case x => exact fun node image position same => element ⟨node, image, position, same⟩
    exact written (locate_eq_ok h)

end Emission

namespace Spliced

variable {env : Emission} {e a b : Expr} {t : Term} {s s' : Emitter}

-- A splice of two operands of which none has to be closed is spelled as meant.
theorem exists_of_pair {n m : Nat} {whole : Phrase → Phrase → Phrase}
    (w : ∀ A B, Spliced env e [⟨a, A, n⟩, ⟨b, B, m⟩] (whole A B)) (left : n ≠ Phrase.closed)
    (right : m ≠ Phrase.closed) (h : env.lower e s = .ok t s') :
    ∃ l r s₁, env.lower a s = .ok l s₁ ∧ env.lower b s₁ = .ok r s' ∧
      ∀ A B : Phrase, A.Spells l → B.Spells r → (whole A B).Spells t := by
  have ⟨_, operands, _⟩ := (w (.word "") (.word "")).lowered h
  obtain ⟨l, s₁, _, first, rest, rfl⟩ := Emission.exists_of_lowerAll_cons operands
  obtain ⟨r, s₂, _, second, none, rfl⟩ := Emission.exists_of_lowerAll_cons rest
  cases Emission.lowerAll_nil.symm.trans none
  refine ⟨l, r, s₁, first, second, fun A B spelled spelled' => ?_⟩
  have ⟨_, operands', spells⟩ := (w A B).lowered h
  cases operands.symm.trans operands'
  refine spells ⟨.cons ⟨spelled, rfl⟩ (.cons ⟨spelled', rfl⟩ .nil), ?_⟩
  simp [left, right]

theorem widenedDemand_ne_closed (ty : TypeRef) : Phrase.widenedDemand ty ≠ Phrase.closed := by
  unfold Phrase.widenedDemand
  split <;> decide

end Spliced

section

open Phrase Value

variable {R : Type*} [CommRing R]

-- However an expression is lowered, its text denotes the value `x` by a phrase that fits.
def Denoted (env : Emission) (leaf : Phrase → Option (Value R)) (fits : Phrase → Prop) (e : Expr)
    (x : Value R) : Prop :=
  ∀ s t s', env.lower e s = .ok t s' → ∃ A, Denotes leaf t A x ∧ fits A

-- The values that the host gives to products with matrices, in all the ways to write them. An
-- operand is anything whose text denotes its value and may be a factor where it is spliced.
inductive HostValue (env : Emission) (leaf : Phrase → Option (Value R)) : Expr → Value R → Prop
  | operand   : Denoted env leaf (Chain leaf) e x → HostValue env leaf e x
  | paren     : HostValue env leaf e x → HostValue env leaf (.paren node e) x
  | binary    : isMatrixName b.ty.name → isMatrixName a.ty.name ∨ isVectorName a.ty.name →
    HostValue env leaf a x → HostValue env leaf b (.matrix M) → times x (.matrix M) = some y →
    HostValue env leaf (.binary node .multiply a b) y
  | multiply  : env.program.callee? owner "Multiply" = none → isMatrixName owner →
    HostValue env leaf a x → HostValue env leaf b (.matrix M) → times x (.matrix M) = some y →
    HostValue env leaf (.call node owner "Multiply" [a, b]) y
  | transform : env.program.callee? owner "Transform" = none → shortNameIn floatVectors owner →
    HostValue env leaf a x → HostValue env leaf b (.matrix M) → x.widened a.ty = some y →
    times y (.matrix M) = some z → z.narrowed owner = some w →
    HostValue env leaf (.call node owner "Transform" [a, b]) w

variable {env : Emission} {leaf : Phrase → Option (Value R)} {e a b target value : Expr}
  {x y z : Value R} {M : Matrix (Fin 4) (Fin 4) R}

-- The step of the induction: the phrase that the spliced operands are read as may be another one
-- than the one that is meant, as long as it has the tokens of that.
theorem denoted_of_spliced {n m : Nat} {whole : Phrase → Phrase → Phrase}
    (w : ∀ A B, Spliced env e [⟨a, A, n⟩, ⟨b, B, m⟩] (whole A B)) (left : n ≠ Phrase.closed)
    (right : m ≠ Phrase.closed) (first : Denoted env leaf (Chain leaf) a x)
    (second : Denoted env leaf (Chain leaf) b y)
    (made : ∀ A B, Factor leaf A x → Factor leaf B y →
      ∃ W, W.tokens = (whole A B).tokens ∧ Factor leaf W z) :
    Denoted env leaf (Chain leaf) e z := by
  intro s t s' lowered
  have ⟨l, r, s₁, lowered, lowered', spells⟩ := Spliced.exists_of_pair w left right lowered
  have ⟨A, known, chain⟩ := first _ _ _ lowered
  have ⟨B, known', chain'⟩ := second _ _ _ lowered'
  have ⟨spelled, factor⟩ := known.factor chain
  have ⟨spelled', factor'⟩ := known'.factor chain'
  have ⟨W, same, whole⟩ := made A B factor factor'
  exact ⟨W, whole.denotes (same.trans (spells A B spelled spelled')), whole.chain⟩

theorem HostValue.of_tight (h : Denoted env leaf (Phrase.unary ≤ ·.level) e x) :
    HostValue env leaf e x := by
  refine .operand fun s t s' lowered => ?_
  have ⟨A, known, tight⟩ := h s t s' lowered
  exact ⟨A, known, .single tight⟩

theorem HostValue.denoted (h : HostValue env leaf e x) : Denoted env leaf (Chain leaf) e x := by
  induction h
  case operand known => exact known
  case paren hi =>
    intro s t s' lowered
    rw [Emission.lower] at lowered
    have ⟨t', s₁, lowered, h⟩ := exists_of_bind_eq_ok (Emission.locate_eq_ok lowered)
    cases h
    have ⟨A, known, chain⟩ := hi _ _ _ lowered
    have ⟨spelled, factor⟩ := known.factor chain
    exact ⟨A.group, factor.group.denotes spelled.group, factor.group.chain⟩
  case binary matrix either _ _ product hi hi' =>
    refine denoted_of_spliced (fun _ _ => .exchanged matrix either) (by decide) (by decide)
      hi hi' ?_
    intro A B first second
    exact ⟨_, tokens_multiplied A, first.multiplied second product⟩
  case multiply foreign matrix _ _ product hi hi' =>
    refine denoted_of_spliced (fun _ _ => .matrixMultiply foreign matrix) (by decide) (by decide)
      hi hi' ?_
    intro A B first second
    exact ⟨_, tokens_group (tokens_multiplied A), (first.multiplied second product).group⟩
  case transform foreign vector _ _ wide product narrow hi hi' =>
    refine denoted_of_spliced (fun _ _ => .transform foreign vector)
      (Spliced.widenedDemand_ne_closed _) (by decide) hi hi' ?_
    intro A B first second
    have whole := ((first.widened wide).multiplied second product).group.narrowed narrow
    exact ⟨_, tokens_narrowed (tokens_group (tokens_multiplied _)), whole⟩

theorem read_assign {node : Node} {op : AssignOp} {t : Term} {s s' : Emitter}
    (plain : op = .assign → ∀ node image position, target = .index node image position →
      Emission.isStorageImage image.ty = false)
    (first : Denoted env leaf (Phrase.unary ≤ ·.level) target x)
    (second : Denoted env leaf (Chain leaf) value y)
    (lowered : env.lower (.assign node op target value) s = .ok t s') :
    ∃ A B, Phrase.read t.text = some (.assign op A B) ∧ A.value leaf = some x.upload ∧
      B.value leaf = some y.upload := by
  obtain ⟨l, r, s₁, left, right, rfl⟩ := Emission.exists_of_lower_assign plain lowered
  have ⟨A, known, binds⟩ := first _ _ _ left
  have ⟨B, known', chain⟩ := second _ _ _ right
  have ⟨grouped, spelled⟩ := Phrase.read_eq_some_iff.mp known.read
  have ⟨grouped', spelled'⟩ := Phrase.read_eq_some_iff.mp known'.read
  have binds' : 2 ≤ B.level := le_trans (by decide) chain.level_le
  refine ⟨A, B, ?_, known.value, known'.value⟩
  exact (Phrase.read_eq_some_iff_of_spells (.assign spelled spelled')).mpr
    ⟨binds, binds', grouped, grouped'⟩

-- A product of the host that is written as an operator or a call has the value of the host on the
-- device, and so has a value that is assigned. A compound assignment of a product has the value of
-- the product with its operands exchanged, which is the right one only if they commute.
theorem matrix_products_denoted (env : Emission) (leaf : Phrase → Option (Value R))
    (s s' : Emitter) (e : Expr) (t : Term) (lowered : env.lower e s = .ok t s') :
    (∀ x, HostValue env leaf e x → ∃ W, Denotes leaf t W x) ∧
    (∀ node target value x y, e = .assign node .assign target value →
      (∀ node image position, target = .index node image position →
        Emission.isStorageImage image.ty = false) →
      Denoted env leaf (Phrase.unary ≤ ·.level) target x → HostValue env leaf value y →
      ∃ W, Denotes leaf t W y) ∧
    (∀ node target value x M y, e = .assign node .multiply target value →
      Denoted env leaf (Phrase.unary ≤ ·.level) target x → HostValue env leaf value (.matrix M) →
      times x (.matrix M) = some y →
      ∃ W, Phrase.read t.text = some W ∧ W.value leaf = (times (.matrix M) x).map upload ∧
        (Denotes leaf t W y ↔ times (.matrix M) x = some y)) := by
  refine ⟨?_, ?_, ?_⟩
  · intro x h
    have ⟨W, known, _⟩ := h.denoted _ _ _ lowered
    exact ⟨W, known⟩
  · rintro node target value x y rfl plain first second
    have ⟨A, B, assigned, _, known⟩ := read_assign (fun _ => plain) first second.denoted lowered
    exact ⟨_, assigned, known⟩
  · rintro node target value x M y rfl first second product
    have ⟨A, B, assigned, known, known'⟩ := read_assign (by simp) first second.denoted lowered
    have valued : (Phrase.assign .multiply A B).value leaf = (times (.matrix M) x).map upload := by
      rw [← times_upload]
      simp [Phrase.value, known, known']
    refine ⟨_, assigned, valued, fun denotes => ?_, fun commutes => ⟨assigned, ?_⟩⟩
    · have ⟨y', exchanged, same⟩ := Option.map_eq_some_iff.mp (valued.symm.trans denotes.value)
      rwa [upload_inj.mp same] at exchanged
    · rw [valued, commutes]
      rfl

end

-- Moves each component of a row to the next place, and of a column to the one before.
def rotation : Matrix (Fin 4) (Fin 4) ℤ := fun i j => if j = i + 1 then 1 else 0

def axis (i : Fin 4) : Value ℤ := .vector 4 fun j => if j = i then 1 else 0

theorem times_rotation (i : Fin 4) :
    Value.times (axis i) (.matrix rotation) = some (axis (i + 1)) ∧
    Value.times (.matrix rotation) (axis i) = some (axis (i - 1)) := by
  have row : rotation.vecMul (fun j => if j = i then 1 else 0) =
      fun j => if j = i + 1 then 1 else 0 := by
    decide +revert
  have column : rotation.mulVec (fun j => if j = i then 1 else 0) =
      fun j => if j = i - 1 then 1 else 0 := by
    decide +revert
  exact ⟨congrArg (some ∘ Value.vector 4) row, congrArg (some ∘ Value.vector 4) column⟩

theorem axis_inj {i j : Fin 4} : axis i = axis j ↔ i = j := by
  refine ⟨fun same => ?_, congrArg axis⟩
  simp only [axis, Value.vector.injEq, heq_eq_eq, true_and] at same
  simpa using congrFun same i

-- The variables `x` and `M` on the device.
def interpretation : Phrase → Option (Value ℤ)
  | .word "x" => some (axis 0).upload
  | .word "M" => some (Value.matrix rotation).upload
  | _         => none

def rowNode : Node := ⟨.primitive "Vector4" [], none⟩

def rowLocal : Expr := .name rowNode ⟨"", "x", .local⟩

def matrixLocal : Expr := .name ⟨.primitive "Matrix4x4" [], none⟩ ⟨"", "M", .local⟩

theorem denoted_local {node : Node} {name : String} {x : Value ℤ}
    (spelled : Token.lex (identifier name) = [.word name])
    (known : interpretation (.word name) = some x.upload) :
    Denoted bare interpretation (Phrase.unary ≤ ·.level) (.name node ⟨"", name, .local⟩) x := by
  intro s t s' lowered
  rw [Emission.lower] at lowered
  have lowered := Emission.locate_eq_ok lowered
  cases lowered
  have spelled := Phrase.spells_atom (A := .word name) spelled.symm
  refine ⟨.word name, ⟨?_, known⟩, Nat.le_succ 14⟩
  exact (Phrase.read_eq_some_iff_of_spells spelled).mpr trivial

theorem denoted_rowLocal : Denoted bare interpretation (Phrase.unary ≤ ·.level) rowLocal (axis 0) :=
  denoted_local (by decide) rfl

theorem denoted_matrixLocal :
    Denoted bare interpretation (Phrase.unary ≤ ·.level) matrixLocal (.matrix rotation) :=
  denoted_local (by decide) rfl

-- The product of a row that has a value, and the matrix.
def rotated (row : Expr) : Expr := .binary rowNode .multiply row matrixLocal

theorem hostValue_rotated {row : Expr} {i : Fin 4} (named : isVectorName row.ty.name)
    (h : HostValue bare interpretation row (axis i)) :
    HostValue bare interpretation (rotated row) (axis (i + 1)) :=
  .binary (by decide) (.inr named) h (.of_tight denoted_matrixLocal) (times_rotation i).left

-- `x = x * M`, and `x *= M`.
def assigned : Expr := .assign rowNode .assign rowLocal (rotated rowLocal)

def compound : Expr := .assign rowNode .multiply rowLocal matrixLocal

theorem lower_assigned : bare.lower assigned {} =
    .ok (.assign .assign (.atom "x") (.binary .multiply (.atom "M") (.atom "x"))) {} :=
  rfl

theorem lower_compound : bare.lower compound {} =
    .ok (.assign .multiply (.atom "x") (.atom "M")) {} :=
  rfl

theorem matrix_products_denoted_rotations :
    (∃ t, bare.lower (rotated (rotated rowLocal)) {} = .ok t {} ∧ t.text = "M * M * x" ∧
      ∃ W, Phrase.Denotes interpretation t W (axis 2)) ∧
    (∃ t, bare.lower assigned {} = .ok t {} ∧ t.text = "x = M * x" ∧
      ∃ W, Phrase.Denotes interpretation t W (axis 1)) ∧
    (∃ t, bare.lower compound {} = .ok t {} ∧ t.text = "x *= M" ∧
      ∃ W, Phrase.Denotes interpretation t W (axis 3)) := by
  have once := hostValue_rotated (by decide) (.of_tight denoted_rowLocal)
  have twice := hostValue_rotated (by decide) once
  refine ⟨?_, ?_, ?_⟩
  · have lowered : bare.lower (rotated (rotated rowLocal)) {} =
        .ok (.binary .multiply (.atom "M") (.binary .multiply (.atom "M") (.atom "x"))) {} := rfl
    exact ⟨_, lowered, by decide,
      (matrix_products_denoted bare interpretation {} {} _ _ lowered).1 _ twice⟩
  · exact ⟨_, lower_assigned, by decide,
      (matrix_products_denoted bare interpretation {} {} _ _ lower_assigned).2.1 _ _ _ _ _ rfl
        (by simp [rowLocal]) denoted_rowLocal once⟩
  · obtain ⟨W, known, valued, _⟩ :=
      (matrix_products_denoted bare interpretation {} {} _ _ lower_compound).2.2 _ _ _ _ _ _ rfl
        denoted_rowLocal (.of_tight denoted_matrixLocal) (times_rotation 0).left
    rw [(times_rotation 0).right] at valued
    exact ⟨_, lower_compound, by decide, W, known, valued⟩

-- The product moves the row on, and so does its assignment. The compound assignment moves it back.
theorem compound_product_exchanged :
    Value.times (axis 0) (.matrix rotation) = some (axis 1) ∧
    (∃ t, bare.lower assigned {} = .ok t {} ∧ t.text = "x = M * x" ∧
      ∃ W, Phrase.Denotes interpretation t W (axis 1)) ∧
    (∃ t, bare.lower compound {} = .ok t {} ∧ t.text = "x *= M" ∧
      ∃ W, Phrase.Denotes interpretation t W (axis 3) ∧
        ¬Phrase.Denotes interpretation t W (axis 1)) := by
  have ⟨on, back⟩ := times_rotation 0
  have exchanged := Value.times_upload (axis 0) (.matrix rotation)
  have exchanged' := Value.times_upload (.matrix rotation) (axis 0)
  rw [on] at exchanged
  rw [back] at exchanged'
  refine ⟨on, ⟨_, lower_assigned, by decide, .assign .assign (.word "x")
    (.binary .multiply (.word "M") (.word "x")), ?_, exchanged⟩, ?_⟩
  · exact Phrase.read_eq_some_iff.mpr ⟨by decide, by decide⟩
  · refine ⟨_, lower_compound, by decide, .assign .multiply (.word "x") (.word "M"),
      ⟨?_, exchanged'⟩, ?_⟩
    · exact Phrase.read_eq_some_iff.mpr ⟨by decide, by decide⟩
    · intro denotes
      have same := Option.some.inj (exchanged'.symm.trans denotes.value)
      exact absurd (axis_inj.mp (Value.upload_inj.mp same)) (by decide)

end Shading
