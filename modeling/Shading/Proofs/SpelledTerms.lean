import Shading.Proofs.Calls
import Mathlib
/-!
Terms in which the variables for discarded outputs are spelled like any other variable.

What is made of terms is made of spelled terms in the same way, as nothing looks into the terms that
it is made of.
-/

namespace Shading
namespace Glsl

namespace Term

mutual

@[simp]
def spelled : Term → Term
  | atom text                           => atom text
  | discarded number                    => atom (discardName number)
  | apply function args                 => apply function (spelledAll args)
  | call function args                  => call function (spelledAll args)
  | binary op left right                => binary op left.spelled right.spelled
  | unary op operand                    => unary op operand.spelled
  | assign op target value              => assign op target.spelled value.spelled
  | select condition whenTrue whenFalse =>
    select condition.spelled whenTrue.spelled whenFalse.spelled
  | group inner                         => group inner.spelled
  | member target name                  => member target.spelled name
  | index target position               => index target.spelled position.spelled
  | element target row column           => element target.spelled row column

def spelledAll : List Term → List Term
  | []            => []
  | term :: terms => term.spelled :: spelledAll terms

end

@[simp]
theorem spelledAll_eq_map (terms : List Term) : spelledAll terms = terms.map spelled := by
  induction terms
  case nil     => rfl
  case cons hi => rw [spelledAll, hi, List.map_cons]

mutual

theorem text_spelled (term : Term) : term.spelled.text = term.text := by
  cases term
  all_goals simp only [spelled, text]
  case apply args | call args => rw [textArgs_spelledAll args]
  case binary left right | assign left right | index left right =>
    rw [text_spelled left, text_spelled right]
  case unary term | group term | member term _ | element term _ _ => rw [text_spelled term]
  case select condition whenTrue whenFalse =>
    rw [text_spelled condition, text_spelled whenTrue, text_spelled whenFalse]

theorem textArgs_spelledAll : ∀ terms : List Term, textArgs (spelledAll terms) = textArgs terms
  | []                    => rfl
  | [term]                => text_spelled term
  | first :: term :: terms => by
    have here := text_spelled first
    have rest := textArgs_spelledAll (term :: terms)
    simp only [spelledAll, textArgs] at rest ⊢
    rw [here, rest]

end

end Term

def Operand.spelled (o : Operand) : Operand := ⟨o.term.spelled, o.ty⟩

variable {t : Target} {ty : TypeRef} {args rest : List Operand} {term : Term}
  {owner name method : String} {texture sampler : Operand} {kind : ResourceKind}

@[simp]
theorem Operand.term_spelled (o : Operand) : o.spelled.term = o.term.spelled := rfl

@[simp]
theorem Operand.ty_spelled (o : Operand) : o.spelled.ty = o.ty := rfl

theorem Operand.map_term_spelled :
    (args.map Operand.spelled).map Operand.term = (args.map Operand.term).map Term.spelled := by
  simp

namespace Intrinsic

-- Spelled arguments yield what the arguments yield, spelled.
def Natural (format : Formatter) : Prop :=
  ∀ t args, format t (args.map Operand.spelled) = (format t args).map Term.spelled

variable {format : Formatter}

theorem natural_of_ofFloatVector? (h : ofFloatVector? method = some (.custom format)) :
    Natural format := by
  unfold ofFloatVector? at h
  split at h <;> cases h
  all_goals
    intro t args
    rcases args with _ | ⟨a, _ | ⟨b, _ | _⟩⟩ <;> rfl

theorem natural_transform : Natural transform := by
  intro t args
  rcases args with _ | ⟨vector, _ | ⟨matrix, _ | _⟩⟩
  case cons.cons.nil =>
    simp only [transform, List.map_cons, List.map_nil, Except.map, Operand.ty_spelled,
      Operand.term_spelled, Term.spelled]
    split <;> rfl
  all_goals rfl

theorem natural_transformTo (components : String) : Natural (transformTo components) := by
  intro t args
  simp only [transformTo, natural_transform t args]
  cases transform t args <;> rfl

theorem natural_matrixMultiply : Natural matrixMultiply := by
  intro t args
  rcases args with _ | ⟨a, _ | ⟨b, _ | _⟩⟩ <;> rfl

theorem natural_fusedMultiplyAdd : Natural fusedMultiplyAdd := by
  intro t args
  rcases args with _ | ⟨a, _ | ⟨b, _ | ⟨c, _ | _⟩⟩⟩
  case cons.cons.cons.nil =>
    simp only [fusedMultiplyAdd, List.map_cons, List.map_nil]
    split <;> rfl
  all_goals rfl

theorem natural_of_ofMath? (h : ofMath? method = some (.custom format)) : Natural format := by
  unfold ofMath? at h
  split at h <;> cases h
  case h_24 =>
    intro t args
    rcases args with _ | ⟨a, _ | _⟩ <;> rfl
  case h_25 => exact natural_fusedMultiplyAdd

theorem sampled_spelled : sampled t texture.spelled sampler.spelled =
    (sampled t texture sampler).map fun found => (found.1.spelled, found.2) := by
  simp only [sampled, Operand.ty_spelled, Operand.term_spelled, Term.text_spelled]
  split
  case h_1 => rfl
  case h_2 =>
    split
    case isTrue  => split <;> rfl
    case isFalse => rfl

theorem comparisonCoordinates_spelled :
    comparisonCoordinates kind (rest.map Operand.spelled) =
    (comparisonCoordinates kind rest).map Term.spelled := by
  rcases rest with _ | ⟨coordinates, _ | ⟨layer, _ | ⟨reference, _ | _⟩⟩⟩
  case cons.cons.nil | cons.cons.cons.nil =>
    simp only [comparisonCoordinates, List.map_cons, List.map_nil]
    split <;> rfl
  all_goals rfl

-- What is made of the sampled texture is made of the spelled one.
theorem sampled_bind_spelled {make make' : Term × ResourceKind → Except Refusal Term}
    (natural : ∀ found kind, make' (found.spelled, kind) = (make (found, kind)).map Term.spelled) :
    sampled t texture.spelled sampler.spelled >>= make' =
    (sampled t texture sampler >>= make).map Term.spelled := by
  rw [sampled_spelled]
  cases sampled t texture sampler
  case error    => rfl
  case ok found => exact natural found.1 found.2

theorem natural_sample : Natural sample := by
  intro t args
  rcases args with _ | ⟨texture, _ | ⟨sampler, _ | ⟨coordinates, _ | ⟨layer, _ | _⟩⟩⟩⟩
  case cons.cons.cons.nil | cons.cons.cons.cons.nil => exact sampled_bind_spelled fun _ _ => rfl
  all_goals rfl

theorem natural_sampleLevel : Natural sampleLevel := by
  intro t args
  rcases args with
    _ | ⟨texture, _ | ⟨sampler, _ | ⟨coordinates, _ | ⟨layer, _ | ⟨level, _ | _⟩⟩⟩⟩⟩
  case cons.cons.cons.cons.nil | cons.cons.cons.cons.cons.nil =>
    exact sampled_bind_spelled fun _ _ => rfl
  all_goals rfl

theorem natural_sampleGrad : Natural sampleGrad := by
  intro t args
  rcases args with
    _ | ⟨texture, _ | ⟨sampler, _ | ⟨coordinates, _ | ⟨ddx, _ | ⟨ddy, _ | _⟩⟩⟩⟩⟩
  case cons.cons.cons.cons.cons.nil => exact sampled_bind_spelled fun _ _ => rfl
  all_goals rfl

theorem natural_sampleComparison : Natural sampleComparison := by
  intro t args
  rcases args with _ | ⟨texture, _ | ⟨sampler, rest⟩⟩
  case cons.cons =>
    refine sampled_bind_spelled fun found kind => ?_
    simp only [comparisonCoordinates_spelled]
    cases comparisonCoordinates kind rest <;> rfl
  all_goals rfl

theorem natural_sampleComparisonLevelZero : Natural sampleComparisonLevelZero := by
  intro t args
  rcases args with _ | ⟨texture, _ | ⟨sampler, rest⟩⟩
  case cons.cons =>
    refine sampled_bind_spelled fun found kind => ?_
    simp only [comparisonCoordinates_spelled]
    cases comparisonCoordinates kind rest <;> rfl
  all_goals rfl

theorem natural_load : Natural load := by
  intro t args
  rcases args with _ | ⟨texture, _ | ⟨sampler, _ | ⟨coordinates, _ | ⟨level, _ | _⟩⟩⟩⟩
  case cons.cons.cons.cons.nil => exact sampled_bind_spelled fun _ _ => rfl
  all_goals rfl

theorem natural_of_ofBuiltins? (h : ofBuiltins? method = some (.custom format)) :
    Natural format := by
  unfold ofBuiltins? at h
  split at h <;> cases h
  case h_1  => exact natural_sample
  case h_2  => exact natural_sampleLevel
  case h_3  => exact natural_sampleGrad
  case h_4  => exact natural_sampleComparison
  case h_5  => exact natural_sampleComparisonLevelZero
  case h_6  => exact natural_load
  case h_11 => exact fun _ _ => rfl
  all_goals
    intro t args
    rcases args with _ | ⟨a, _ | ⟨b, _ | ⟨c, _ | _⟩⟩⟩ <;> rfl

theorem natural_of_of? (h : of? owner method = some (.custom format)) : Natural format := by
  unfold of? at h
  split at h
  case h_1 =>
    unfold ofVector2? at h
    split at h
    case h_1 => cases h; exact natural_transformTo _
    case h_2 => exact natural_of_ofFloatVector? h
  case h_2 =>
    unfold ofVector3? at h
    split at h
    case h_1 => cases h; exact natural_transformTo _
    case h_2 => cases h
    case h_3 => exact natural_of_ofFloatVector? h
  case h_3 =>
    unfold ofVector4? at h
    split at h
    case h_1 => cases h; exact natural_transform
    case h_2 => exact natural_of_ofFloatVector? h
  case h_10 =>
    unfold ofMatrix? at h
    split at h <;> cases h
    exact natural_matrixMultiply
  case h_11 => exact natural_of_ofMath? h
  case h_12 => exact natural_of_ofBuiltins? h
  case h_13 => cases h
  all_goals
    unfold ofIntegerVector? at h
    split at h <;> cases h

theorem format_spelled {intrinsic : Intrinsic} (h : of? owner method = some intrinsic) :
    intrinsic.format t (args.map Operand.spelled) = (intrinsic.format t args).map Term.spelled := by
  cases intrinsic
  case function => simp [format, Except.map]
  case operator => rcases args with _ | ⟨left, _ | ⟨right, _ | _⟩⟩ <;> rfl
  case custom   => exact natural_of_of? h t args

end Intrinsic

theorem binaryTerm_spelled (left : Operand) (op : BinaryOp) (right : Operand) :
    binaryTerm left.spelled op right.spelled = (binaryTerm left op right).spelled := by
  have vector (o : Operand) : o.spelled.isVector = o.isVector := rfl
  have matrix (o : Operand) : o.spelled.isMatrix = o.isMatrix := rfl
  simp only [binaryTerm, vector, matrix]
  split
  case h_1 => rfl
  case h_2 => split <;> rfl

theorem imageLoad_spelled (image position : Term) (element : TypeRef) :
    imageLoad image.spelled position.spelled element =
    (imageLoad image position element).spelled := by
  simp only [imageLoad]
  split <;> rfl

theorem imageStore_spelled (image position : Term) (value : Operand) :
    imageStore image.spelled position.spelled value.spelled =
    (imageStore image position value).spelled := by
  simp only [imageStore, Operand.ty_spelled]
  split <;> rfl

theorem Selector.select_spelled (target : Term) (selector : Selector) :
    selector.select target.spelled = (selector.select target).spelled := by
  cases selector <;> rfl

theorem spelled_staticMember? (h : staticMember? owner name = some term) :
    term.spelled = term := by
  have vector {type size} (h : vectorConstant? type size name = some term) :
      term.spelled = term := by
    unfold vectorConstant? at h
    split at h
    case h_1 | h_2 | h_3 | h_4 => cases h; simp [unitVector]
    case h_5 | h_6 => split at h <;> cases h; simp [unitVector]
    case h_7 => cases h
  unfold staticMember? at h
  split at h
  case h_1 | h_2 | h_3 => exact vector h
  case h_4 => split at h <;> cases h; simp
  case h_5 => split at h <;> cases h <;> simp
  case h_6 => cases h

namespace Target

theorem invocation_spelled (h : t.invocation owner method args = .ok term) :
    t.invocation owner method (args.map Operand.spelled) = .ok term.spelled := by
  simp only [invocation] at h ⊢
  split at h
  case h_1 => cases h
  case h_2 intrinsic known =>
    split at h <;> cases h
    case h_1 formatted => simp [Intrinsic.format_spelled known, formatted, Except.map]

theorem construction_spelled (h : t.construction ty args = .ok term) :
    t.construction ty (args.map Operand.spelled) = .ok term.spelled := by
  simp only [construction] at h ⊢
  split at h
  case h_3 => cases h
  all_goals
    obtain ⟨_, typed, h⟩ := bind_eq_ok_iff.mp h
    cases h
    simp only [typed, Operand.map_term_spelled, Term.spelled, Term.spelledAll_eq_map]
    rfl

theorem conversion_spelled {operand : Term} (h : t.conversion ty operand = .ok term) :
    t.conversion ty operand.spelled = .ok term.spelled := by
  have ⟨_, typed, h⟩ := bind_eq_ok_iff.mp h
  cases h
  simp only [conversion, typed]
  rfl

theorem spelled_builtinVariable (builtin : BuiltinVariable) :
    (t.builtinVariable builtin).spelled = t.builtinVariable builtin := by
  cases builtin <;> rfl

theorem spelled_zero (h : t.zero ty = .ok term) : term.spelled = term := by
  have ⟨_, _, h⟩ := bind_eq_ok_iff.mp h
  split at h
  case h_6 =>
    split at h
    case isTrue => cases h; rfl
    case isFalse =>
      split at h
      case isTrue => cases h; rfl
      case isFalse => split at h <;> cases h; rfl
  all_goals cases h; rfl

end Target
end Glsl

open Glsl

theorem spelled_defaultValue {t : Target} {p : Program} {path : List String} {ty : TypeRef}
    {term : Term} (h : defaultValue t p path ty = .ok term) : term.spelled = term := by
  fun_induction defaultValue t p path ty generalizing term
  case case1 | case2 => cases h
  case case4 | case5 => exact Target.spelled_zero h
  case case3 elements members =>
    obtain ⟨terms, known, h⟩ := bind_eq_ok_iff.mp h
    obtain ⟨_, _, h⟩ := bind_eq_ok_iff.mp h
    cases h
    suffices same : ∀ member ∈ terms, member.spelled = member by
      rw [Term.spelled, Term.spelledAll_eq_map, List.map_congr_left same, List.map_id']
    intro member mem
    obtain ⟨f, _, known⟩ := exists_left_of_mem (list_mapM_eq_ok_iff.mp known) mem
    split at known
    case h_2 => cases known
    case h_3 => exact members f known
    case h_1 element count _ _ =>
      obtain ⟨value, one, h⟩ := bind_eq_ok_iff.mp known
      obtain ⟨_, _, h⟩ := bind_eq_ok_iff.mp h
      cases h
      rw [Term.spelled, Term.spelledAll_eq_map, List.map_replicate, elements element one]

end Shading
