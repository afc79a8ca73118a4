import Shading.Emission
import Shading.Proofs.Packing
import Mathlib
/-!
The functions of the program that emitted code calls.

An intrinsic, a default value or a conversion calls no function of the program by itself, so all
calls in what it is written as are calls in its arguments.
-/

namespace Shading
namespace Glsl

namespace Term

mutual

@[simp]
def calls : Term → List MethodId
  | atom _ | discarded _                => []
  | apply _ args                        => callsAll args
  | call function args                  => function :: callsAll args
  | binary _ left right                 => left.calls ++ right.calls
  | assign _ target value               => target.calls ++ value.calls
  | select condition whenTrue whenFalse => condition.calls ++ whenTrue.calls ++ whenFalse.calls
  | index target position               => target.calls ++ position.calls
  | unary _ inner | group inner | member inner _ | element inner _ _ => inner.calls

def callsAll : List Term → List MethodId
  | []            => []
  | term :: terms => term.calls ++ callsAll terms

end

@[simp]
theorem callsAll_eq_flatMap (terms : List Term) : callsAll terms = terms.flatMap calls := by
  induction terms
  case nil     => rfl
  case cons hi => rw [callsAll, hi, List.flatMap_cons]

end Term

def Simple.calls : Simple → List MethodId
  | declare _ init => init.toList.flatMap Term.calls
  | term value     => value.calls
  | blank          => []

mutual

def Scope.calls : Scope → List MethodId
  | .mk _ _ _ items => Item.callsAll items

def Item.calls : Item → List MethodId
  | .simple statement => statement.calls
  | .ret value => value.toList.flatMap Term.calls
  | .scope scope => scope.calls
  | .branch condition thenScope none => condition.calls ++ thenScope.calls
  | .branch condition thenScope (some elseScope) =>
    condition.calls ++ thenScope.calls ++ elseScope.calls
  | .forLoop init condition step body =>
    init.flatMap Simple.calls ++ condition.toList.flatMap Term.calls ++ step.flatMap Term.calls ++
      body.calls
  | .whileLoop condition body => condition.calls ++ body.calls
  | .doLoop body condition => body.calls ++ condition.calls
  | .switch scrutinee sections => scrutinee.calls ++ callsSections sections
  | .breakLoop | .continueLoop => []

def Item.callsAll : List Item → List MethodId
  | []            => []
  | item :: items => item.calls ++ Item.callsAll items

def callsSections : List (List String × Scope) → List MethodId
  | []                 => []
  | (_, scope) :: rest => scope.calls ++ callsSections rest

end

def Definition.calls (d : Definition) : List MethodId := d.body.calls

variable {t : Target} {ty : TypeRef} {args rest : List Operand} {term : Term}
  {owner name method : String} {texture sampler : Operand} {kind : ResourceKind}

def Operand.callsAll (args : List Operand) : List MethodId := args.flatMap (·.term.calls)

@[simp]
theorem Operand.flatMap_calls_map_term :
    (args.map Operand.term).flatMap Term.calls = callsAll args :=
  List.flatMap_map ..

namespace Intrinsic

-- Whatever the arguments, a term that the formatter yields calls only what its arguments call.
def Neutral (format : Formatter) : Prop :=
  ∀ t args term, format t args = .ok term → term.calls ⊆ Operand.callsAll args

variable {format : Formatter}

theorem neutral_of_ofFloatVector? (h : ofFloatVector? method = some (.custom format)) :
    Neutral format := by
  unfold ofFloatVector? at h
  split at h <;> cases h
  all_goals
    intro t args term h
    simp only [distanceSquared, lengthSquared, negate] at h
    split at h <;> cases h
    simp [Operand.callsAll]

theorem neutral_transform : Neutral transform := by
  intro t args term h
  simp only [transform] at h
  split at h <;> cases h
  simp only [Term.calls]
  split <;> simp [Operand.callsAll]

theorem neutral_transformTo (components : String) : Neutral (transformTo components) := by
  intro t args term h
  have ⟨whole, transformed, h⟩ := bind_eq_ok_iff.mp h
  cases h
  exact neutral_transform t args whole transformed

theorem neutral_matrixMultiply : Neutral matrixMultiply := by
  intro t args term h
  simp only [matrixMultiply] at h
  split at h <;> cases h
  simp [Operand.callsAll]

theorem neutral_of_ofMath? (h : ofMath? method = some (.custom format)) : Neutral format := by
  unfold ofMath? at h
  split at h <;> cases h
  all_goals
    intro t args term h
    simp only [sign, fusedMultiplyAdd] at h
    split at h
  case h_1 => cases h; simp [Operand.callsAll]
  case h_2 => cases h
  case h_1 => split at h <;> cases h <;> simp [Operand.callsAll]
  case h_2 => cases h

theorem calls_sampled (h : sampled t texture sampler = .ok (term, kind)) :
    term.calls ⊆ texture.term.calls ++ sampler.term.calls := by
  simp only [sampled] at h
  split at h
  case h_1 => cases h
  case h_2 =>
    split at h
    case isTrue  => split at h <;> cases h; simp
    case isFalse => cases h; simp

theorem calls_comparisonCoordinates (h : comparisonCoordinates kind rest = .ok term) :
    term.calls ⊆ Operand.callsAll rest := by
  simp only [comparisonCoordinates] at h
  split at h
  case h_3 => cases h
  all_goals split at h <;> cases h; simp [Operand.callsAll]

-- What all sampling calls have in common: a texture, a sampler, and what is made of the rest.
theorem calls_apply_sampled {function : String} {terms : List Term}
    (h : sampled t texture sampler = .ok (term, kind))
    (others : ∀ other ∈ terms, other.calls ⊆ Operand.callsAll rest) :
    (Term.apply function (term :: terms)).calls ⊆
      Operand.callsAll (texture :: sampler :: rest) := by
  have first := calls_sampled h
  intro id mem
  simp only [Term.calls, Term.callsAll_eq_flatMap, List.flatMap_cons, List.mem_append,
    List.mem_flatMap] at mem
  simp only [Operand.callsAll, List.flatMap_cons, ← List.append_assoc]
  rcases mem with mem | ⟨other, mem', mem⟩
  · exact List.mem_append_left _ (first mem)
  · exact List.mem_append_right _ (others other mem' mem)

theorem neutral_sample : Neutral sample := by
  intro t args term h
  simp only [sample] at h
  split at h
  case h_3 => cases h
  all_goals
    have ⟨_, sampled, h⟩ := bind_eq_ok_iff.mp h
    cases h
    exact calls_apply_sampled sampled (by simp [layered, Operand.callsAll])

theorem neutral_sampleLevel : Neutral sampleLevel := by
  intro t args term h
  simp only [sampleLevel] at h
  split at h
  case h_3 => cases h
  all_goals
    have ⟨_, sampled, h⟩ := bind_eq_ok_iff.mp h
    cases h
    exact calls_apply_sampled sampled (by simp [layered, Operand.callsAll])

theorem neutral_sampleGrad : Neutral sampleGrad := by
  intro t args term h
  simp only [sampleGrad] at h
  split at h
  case h_2 => cases h
  case h_1 =>
    have ⟨_, sampled, h⟩ := bind_eq_ok_iff.mp h
    cases h
    exact calls_apply_sampled sampled (by simp [Operand.callsAll])

theorem neutral_sampleComparison : Neutral sampleComparison := by
  intro t args term h
  simp only [sampleComparison] at h
  split at h
  case h_2 => cases h
  case h_1 =>
    have ⟨_, sampled, h⟩ := bind_eq_ok_iff.mp h
    have ⟨_, compared, h⟩ := bind_eq_ok_iff.mp h
    cases h
    exact calls_apply_sampled sampled (by simp [calls_comparisonCoordinates compared])

theorem neutral_sampleComparisonLevelZero : Neutral sampleComparisonLevelZero := by
  intro t args term h
  simp only [sampleComparisonLevelZero] at h
  split at h
  case h_2 => cases h
  case h_1 =>
    have ⟨_, sampled, h⟩ := bind_eq_ok_iff.mp h
    have ⟨_, compared, h⟩ := bind_eq_ok_iff.mp h
    cases h
    exact calls_apply_sampled sampled (by simp [calls_comparisonCoordinates compared])

theorem neutral_load : Neutral load := by
  intro t args term h
  simp only [load] at h
  split at h
  case h_2 => cases h
  case h_1 =>
    have ⟨_, sampled, h⟩ := bind_eq_ok_iff.mp h
    cases h
    exact calls_apply_sampled sampled (by simp [Operand.callsAll])

theorem neutral_of_ofBuiltins? (h : ofBuiltins? method = some (.custom format)) :
    Neutral format := by
  unfold ofBuiltins? at h
  split at h <;> cases h
  case h_1 => exact neutral_sample
  case h_2 => exact neutral_sampleLevel
  case h_3 => exact neutral_sampleGrad
  case h_4 => exact neutral_sampleComparison
  case h_5 => exact neutral_sampleComparisonLevelZero
  case h_6 => exact neutral_load
  all_goals
    intro t args term h
    simp only [derivative, saturate, clipToTextureCoordinates, interlockedAdd] at h
  case h_11 => cases h; simp
  all_goals
    split at h <;> cases h
    simp [Operand.callsAll]

theorem neutral_of_of? (h : of? owner method = some (.custom format)) : Neutral format := by
  unfold of? at h
  split at h
  case h_1 =>
    unfold ofVector2? at h
    split at h
    case h_1 => cases h; exact neutral_transformTo _
    case h_2 => exact neutral_of_ofFloatVector? h
  case h_2 =>
    unfold ofVector3? at h
    split at h
    case h_1 => cases h; exact neutral_transformTo _
    case h_2 => cases h
    case h_3 => exact neutral_of_ofFloatVector? h
  case h_3 =>
    unfold ofVector4? at h
    split at h
    case h_1 => cases h; exact neutral_transform
    case h_2 => exact neutral_of_ofFloatVector? h
  case h_10 =>
    unfold ofMatrix? at h
    split at h <;> cases h
    exact neutral_matrixMultiply
  case h_11 => exact neutral_of_ofMath? h
  case h_12 => exact neutral_of_ofBuiltins? h
  case h_13 => cases h
  all_goals
    unfold ofIntegerVector? at h
    split at h <;> cases h

end Intrinsic

theorem Target.calls_invocation (h : t.invocation owner method args = .ok term) :
    term.calls ⊆ Operand.callsAll args := by
  simp only [Target.invocation] at h
  split at h
  case h_1 => cases h
  case h_2 intrinsic known =>
    split at h <;> cases h
    case h_1 formatted =>
      cases intrinsic
      case function =>
        cases formatted
        simp
      case operator =>
        simp only [Intrinsic.format] at formatted
        split at formatted <;> cases formatted
        simp [Operand.callsAll]
      case custom => exact Intrinsic.neutral_of_of? known _ _ _ formatted

theorem calls_binaryTerm (left : Operand) (op : BinaryOp) (right : Operand) :
    (binaryTerm left op right).calls ⊆ left.term.calls ++ right.term.calls := by
  simp only [binaryTerm]
  split
  case h_1 => simp
  case h_2 => split <;> simp

theorem calls_imageLoad (image position : Term) (element : TypeRef) :
    (imageLoad image position element).calls = image.calls ++ position.calls := by
  simp only [imageLoad]
  split <;> simp

theorem calls_imageStore (image position : Term) (value : Operand) :
    (imageStore image position value).calls =
    image.calls ++ position.calls ++ value.term.calls := by
  simp only [imageStore]
  split <;> simp

theorem Selector.calls_select (selector : Selector) :
    (selector.select term).calls = term.calls := by
  cases selector <;> rfl

theorem calls_staticMember? (h : staticMember? owner name = some term) : term.calls = [] := by
  have unit (type : String) (size axis : Nat) : (unitVector type size axis).calls = [] := by
    simp [unitVector]
  have vector {type size} (h : vectorConstant? type size name = some term) : term.calls = [] := by
    unfold vectorConstant? at h
    split at h
    case h_1 | h_2 => cases h; simp
    case h_3 | h_4 => cases h; exact unit ..
    case h_5 | h_6 => split at h <;> cases h; exact unit ..
    case h_7 => cases h
  unfold staticMember? at h
  split at h
  case h_1 | h_2 | h_3 => exact vector h
  case h_4 => split at h <;> cases h; simp
  case h_5 => split at h <;> cases h <;> simp
  case h_6 => cases h

namespace Target

theorem calls_builtinVariable (builtin : BuiltinVariable) :
    (t.builtinVariable builtin).calls = [] := by
  cases builtin <;> simp [builtinVariable]

theorem calls_construction (h : t.construction ty args = .ok term) :
    term.calls = Operand.callsAll args := by
  simp only [construction] at h
  split at h
  case h_3 => cases h
  all_goals
    have ⟨_, _, h⟩ := bind_eq_ok_iff.mp h
    cases h
    simp

theorem calls_conversion {operand : Term} (h : t.conversion ty operand = .ok term) :
    term.calls = operand.calls := by
  have ⟨_, _, h⟩ := bind_eq_ok_iff.mp h
  cases h
  simp

theorem calls_zero (h : t.zero ty = .ok term) : term.calls = [] := by
  have ⟨_, _, h⟩ := bind_eq_ok_iff.mp h
  split at h
  case h_6 =>
    split at h
    case isTrue => cases h; simp
    case isFalse =>
      split at h
      case isTrue => cases h; simp
      case isFalse => split at h <;> cases h; simp
  all_goals cases h; simp

end Target

end Glsl

open Glsl

theorem calls_defaultValue {t : Target} {p : Program} {path : List String} {ty : TypeRef}
    {term : Term} (h : defaultValue t p path ty = .ok term) : term.calls = [] := by
  fun_induction defaultValue t p path ty generalizing term
  case case1 | case2 => cases h
  case case4 | case5 => exact Target.calls_zero h
  case case3 elements members =>
    have ⟨terms, known, h⟩ := bind_eq_ok_iff.mp h
    have ⟨_, _, h⟩ := bind_eq_ok_iff.mp h
    cases h
    simp only [Term.calls, Term.callsAll_eq_flatMap, List.flatMap_eq_nil_iff]
    intro member mem
    have ⟨f, _, known⟩ := exists_left_of_mem (list_mapM_eq_ok_iff.mp known) mem
    split at known
    case h_2 => cases known
    case h_3 => exact members f known
    case h_1 element count _ _ =>
      obtain ⟨value, one, h⟩ := bind_eq_ok_iff.mp known
      obtain ⟨_, _, h⟩ := bind_eq_ok_iff.mp h
      cases h
      have none := elements element one
      simp only [Term.calls, Term.callsAll_eq_flatMap, List.flatMap_eq_nil_iff]
      intro copy mem
      rw [List.eq_of_mem_replicate mem, none]
end Shading
