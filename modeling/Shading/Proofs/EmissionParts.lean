import Shading.Proofs.Exclusion
import Shading.Proofs.LeadingMarks
import Shading.Proofs.Occurrences
import Mathlib
/-!
Emission is made of parts: what holds of the steps that it takes holds of all of it.

Most steps only spell something in the target language, which may be refused but always ends. The
one step that may not end is to take the default value of a type.
-/

namespace Shading

open Glsl

-- Only what does not end is excluded, so that nothing that is refused is. Where it was raised makes
-- no difference.
structure Error.OnlyEndless (Q : Error → Prop) : Prop where
  endless  : ∀ e, Q e → e.isEndless
  unplaced : ∀ location (e : Error), Q (e.locate location) → Q e

variable {Q : Error → Prop}

namespace Error.OnlyEndless

variable {location : Option Location}

theorem graph (only : OnlyEndless Q) {fault : GraphFault} : ¬Q (.graph fault location) :=
  fun h => Bool.noConfusion (only.endless _ h)

theorem layout (only : OnlyEndless Q) {fault : LayoutFault} : ¬Q (.layout fault location) :=
  fun h => Bool.noConfusion (only.endless _ h)

theorem resource (only : OnlyEndless Q) {fault : ResourceFault} : ¬Q (.resource fault location) :=
  fun h => Bool.noConfusion (only.endless _ h)

theorem stage (only : OnlyEndless Q) {fault : StageFault} : ¬Q (.stage fault location) :=
  fun h => Bool.noConfusion (only.endless _ h)

end Error.OnlyEndless

namespace Glsl

-- What is excluded where the arguments of an intrinsic are refused.
def Intrinsic.Refusal.With (Q : Error → Prop) : Refusal → Prop
  | .noOverload => False
  | .failed e   => Q e

namespace Intrinsic

variable {t : Target} {args : List Operand} {owner method : String} {format : Formatter}

theorem noOverload_excludes : Excludes (Refusal.With Q) (.error .noOverload : Except Refusal α) :=
  .error id

theorem sampled_excludes (only : Error.OnlyEndless Q) (t : Target) (texture sampler : Operand) :
    Excludes (Refusal.With Q) (sampled t texture sampler) := by
  rw [sampled]
  split
  case h_1 => exact noOverload_excludes
  case h_2 =>
    split
    case isFalse => exact .ok
    case isTrue =>
      split
      case h_1 => exact .ok
      case h_2 => exact .error only.resource

theorem comparisonCoordinates_excludes (kind : ResourceKind) (rest : List Operand) :
    Excludes (Refusal.With Q) (comparisonCoordinates kind rest) := by
  simp only [comparisonCoordinates]
  split
  case h_1 =>
    split
    case isTrue  => exact noOverload_excludes
    case isFalse => exact .ok
  case h_2 =>
    split
    case isTrue  => exact .ok
    case isFalse => exact noOverload_excludes
  case h_3 => exact noOverload_excludes

theorem ofBuiltins?_excludes (only : Error.OnlyEndless Q)
    (h : ofBuiltins? method = some (.custom format)) :
    Excludes (Refusal.With Q) (format t args) := by
  unfold ofBuiltins? at h
  split at h <;> cases h
  case h_1 | h_2 =>
    simp only [sample, sampleLevel]
    split
    case h_1 | h_2 => exact (sampled_excludes only _ _ _).bind fun _ _ => .ok
    case h_3       => exact noOverload_excludes
  case h_3 | h_6 =>
    simp only [sampleGrad, load]
    split
    case h_1 => exact (sampled_excludes only _ _ _).bind fun _ _ => .ok
    case h_2 => exact noOverload_excludes
  case h_4 | h_5 =>
    simp only [sampleComparison, sampleComparisonLevelZero]
    split
    case h_1 =>
      refine (sampled_excludes only _ _ _).bind fun _ _ => ?_
      exact (comparisonCoordinates_excludes _ _).bind fun _ _ => .ok
    case h_2 => exact noOverload_excludes
  case h_11 => exact .ok
  all_goals
    simp only [derivative, saturate, clipToTextureCoordinates, interlockedAdd]
    split
    case h_1 => exact .ok
    case h_2 => exact noOverload_excludes

theorem transform_excludes (t : Target) (args : List Operand) :
    Excludes (Refusal.With Q) (transform t args) := by
  simp only [transform]
  split
  case h_1 => exact .ok
  case h_2 => exact noOverload_excludes

theorem ofFloatVector?_excludes (h : ofFloatVector? method = some (.custom format)) :
    Excludes (Refusal.With Q) (format t args) := by
  unfold ofFloatVector? at h
  split at h <;> cases h
  all_goals
    simp only [distanceSquared, lengthSquared, negate]
    split
    case h_1 => exact .ok
    case h_2 => exact noOverload_excludes

theorem ofMath?_excludes (h : ofMath? method = some (.custom format)) :
    Excludes (Refusal.With Q) (format t args) := by
  unfold ofMath? at h
  split at h <;> cases h
  all_goals
    simp only [sign, fusedMultiplyAdd]
    split
  case h_1 => exact .ok
  case h_2 => exact noOverload_excludes
  case h_1 => split <;> exact .ok
  case h_2 => exact noOverload_excludes

theorem of?_excludes (only : Error.OnlyEndless Q) (h : of? owner method = some (.custom format)) :
    Excludes (Refusal.With Q) (format t args) := by
  unfold of? at h
  split at h
  case h_1 =>
    unfold ofVector2? at h
    split at h
    case h_1 => cases h; exact (transform_excludes _ _).bind fun _ _ => .ok
    case h_2 => exact ofFloatVector?_excludes h
  case h_2 =>
    unfold ofVector3? at h
    split at h
    case h_1 => cases h; exact (transform_excludes _ _).bind fun _ _ => .ok
    case h_2 => cases h
    case h_3 => exact ofFloatVector?_excludes h
  case h_3 =>
    unfold ofVector4? at h
    split at h
    case h_1 => cases h; exact transform_excludes _ _
    case h_2 => exact ofFloatVector?_excludes h
  case h_10 =>
    unfold ofMatrix? at h
    split at h <;> cases h
    simp only [matrixMultiply]
    split
    case h_1 => exact .ok
    case h_2 => exact noOverload_excludes
  case h_11 => exact ofMath?_excludes h
  case h_12 => exact ofBuiltins?_excludes only h
  case h_13 => cases h
  all_goals
    unfold ofIntegerVector? at h
    split at h <;> cases h

end Intrinsic

namespace Target

variable (only : Error.OnlyEndless Q) (t : Target)

include only

theorem typeName_excludes (ty : TypeRef) : Excludes Q (t.typeName ty) := by
  fun_induction typeName t ty
  case case1 | case2 | case4 | case7 => exact .ok
  case case5 hi | case6 hi => exact hi
  case case3 | case8 => exact .error only.layout

theorem zero_excludes (ty : TypeRef) : Excludes Q (t.zero ty) := by
  refine (t.typeName_excludes only ty).bind fun mapped _ => ?_
  split
  case h_6 =>
    split
    case isTrue => exact .ok
    case isFalse =>
      split
      case isTrue => exact .ok
      case isFalse =>
        split
        case isTrue  => exact .ok
        case isFalse => exact .error only.layout
  all_goals exact .ok

theorem invocation_excludes (owner method : String) (args : List Operand) :
    Excludes Q (t.invocation owner method args) := by
  simp only [invocation]
  split
  case h_1 => exact .error only.graph
  case h_2 intrinsic known =>
    split
    case h_1 => exact .ok
    case h_2 => exact .error only.graph
    case h_3 refused =>
      refine .error ?_
      cases intrinsic
      case function => cases refused
      case operator =>
        simp only [Intrinsic.format] at refused
        split at refused <;> cases refused
      case custom => exact Intrinsic.of?_excludes only known _ refused

theorem construction_excludes (ty : TypeRef) (args : List Operand) :
    Excludes Q (t.construction ty args) := by
  simp only [construction]
  split
  case h_1 | h_2 => exact (t.typeName_excludes only _).bind fun _ _ => .ok
  case h_3       => exact .error only.layout

theorem conversion_excludes (ty : TypeRef) (operand : Term) :
    Excludes Q (t.conversion ty operand) :=
  (t.typeName_excludes only ty).bind fun _ _ => .ok

end Target
end Glsl

-- A property that emission has if its parts do. Results that are lifted, and errors that are
-- thrown, have to be outside of what is excluded.
structure EmitM.Compositional (Q : Error → Prop) (P : {α : Type} → EmitM α → Prop) : Prop where
  pure        : ∀ {α} (a : α), P (Pure.pure a)
  bind        : ∀ {α β} {x : EmitM α} {k : α → EmitM β}, P x → (∀ a, P (k a)) → P (x >>= k)
  throw       : ∀ {α} {e : Error}, ¬Q e → P (throw e : EmitM α)
  lift        : ∀ {α} {r : Except Error α}, Excludes Q r → P (liftExcept r : EmitM α)
  locate      : ∀ {α} {x : EmitM α} {location}, P x → P (EmitM.locate location x)
  get         : P get
  touch       : ∀ flag, P (modify (Emitter.touch flag))
  useResource : ∀ r, P (modify (Emitter.useResource r))
  takeDiscard : P (modifyGet Emitter.takeDiscard)
  -- A number is set aside for a discard variable.
  reserve     : P (modifyGet fun s => (s.nextDiscard, { s with nextDiscard := s.nextDiscard + 1 }))
  -- The variables of a scope are there while the scope is walked.
  scope       : ∀ {α β} {x : EmitM α} {g : α → β} (numbers : List Nat), P x → P (do
    modify fun s => { s with discards := numbers :: s.discards }
    let a ← x
    modify fun s => { s with discards := s.discards.tail }
    return g a)

namespace EmitM.Compositional

variable {P : {α : Type} → EmitM α → Prop} (c : EmitM.Compositional Q P)

include c

theorem mapM {k : α → EmitM β} {as : List α} (each : ∀ a ∈ as, P (k a)) : P (as.mapM k) := by
  induction as
  case nil => exact c.pure _
  case cons a as hi =>
    have ⟨first, rest⟩ := List.forall_mem_cons.mp each
    rw [List.mapM_cons]
    exact c.bind first fun _ => c.bind (hi rest) fun _ => c.pure _

theorem option_mapM {k : α → EmitM β} {a : Option α} (each : ∀ b ∈ a, P (k b)) :
    P (a.mapM k) := by
  cases a
  case none   => exact c.pure _
  case some a => exact c.bind (each a rfl) fun _ => c.pure _

end EmitM.Compositional

namespace Emission

variable {env : Emission} {P : {α : Type} → EmitM α → Prop}

-- The default values of the types that the expressions construct values of are outside of what is
-- excluded.
def Bounded (env : Emission) (Q : Error → Prop) (es : List Expr) : Prop :=
  ∀ node args, .construct node args ∈ es →
    Excludes Q (defaultValue env.target env.program [] node.ty)

theorem Bounded.mono {es es' : List Expr} (h : env.Bounded Q es) (sub : es' ⊆ es) :
    env.Bounded Q es' :=
  fun node args mem => h node args (sub mem)

theorem Bounded.operand {e o : Expr} (h : env.Bounded Q e.subterms) (mem : o ∈ e.operands) :
    env.Bounded Q o.subterms :=
  h.mono fun _ inside => Expr.mem_subterms.mpr (.head mem (Expr.mem_subterms.mp inside))

theorem bounded_append {es es' : List Expr} :
    env.Bounded Q (es ++ es') ↔ env.Bounded Q es ∧ env.Bounded Q es' := by
  simp only [Bounded, List.mem_append, or_imp, forall_and]

theorem declaration_excludes (only : Error.OnlyEndless Q) (env : Emission) (name : String)
    (ty : TypeRef) : Excludes Q (env.declaration name ty) :=
  (env.target.typeName_excludes only ty).bind fun _ _ => .ok

variable (c : EmitM.Compositional Q P) (only : Error.OnlyEndless Q)

include c in
theorem lowerAll_of_parts {es : List Expr} (each : ∀ e ∈ es, P (env.lower e)) :
    P (env.lowerAll es) := by
  induction es
  case nil =>
    rw [lowerAll]
    exact c.pure _
  case cons e es hi =>
    have ⟨first, rest⟩ := List.forall_mem_cons.mp each
    rw [lowerAll]
    exact c.bind first fun _ => c.bind (hi rest) fun _ => c.pure _

include c only

theorem lowerBuiltin_of_parts (name : String) : P (env.lowerBuiltin name) := by
  rw [lowerBuiltin]
  split
  case h_1 => exact c.throw only.graph
  case h_2 =>
    dsimp only
    split
    case isTrue => exact c.bind (c.touch _) fun _ => c.pure _
    case isFalse =>
      exact c.bind (c.throw only.stage) fun _ => c.bind (c.touch _) fun _ => c.pure _

theorem lowerSymbol_of_parts (s : Symbol) : P (env.lowerSymbol s) := by
  rw [lowerSymbol]
  split
  case h_1 | h_2 | h_3 | h_4 => exact c.pure _
  case h_5 | h_6 =>
    split
    case isTrue => exact lowerBuiltin_of_parts c only _
    case isFalse =>
      split
      case h_1 => exact c.pure _
      case h_2 =>
        split
        case h_1 => exact c.bind (c.useResource _) fun _ => c.pure _
        case h_2 => exact c.pure _

theorem checkIntrinsic_of_parts (owner method : String) : P (env.checkIntrinsic owner method) := by
  rw [checkIntrinsic]
  split
  case isFalse => exact c.pure _
  case isTrue =>
    dsimp only
    split
    case isFalse => exact c.throw only.stage
    case isTrue =>
      split
      case isTrue  => exact c.touch _
      case isFalse => exact c.pure _

-- An assignment to an element of an image looks two steps inside.
theorem lower_of_inside {e : Expr} (h : env.Bounded Q e.subterms)
    (inside : ∀ o ∈ e.operands, ∀ o' ∈ o.subterms, P (env.lower o')) : P (env.lower e) := by
  have inner (o : Expr) (mem : o ∈ e.operands) : P (env.lower o) :=
    inside o mem o (Expr.mem_subterms.mpr .refl)
  cases e
  case literal | this | outVariable =>
    rw [lower]
    exact c.locate (c.pure _)
  case discard =>
    rw [lower]
    exact c.locate (c.bind c.takeDiscard fun _ => c.pure _)
  case name =>
    rw [lower]
    exact c.locate (lowerSymbol_of_parts c only _)
  case member target symbol =>
    rw [lower]
    refine c.locate ?_
    split
    case isTrue => exact lowerBuiltin_of_parts c only _
    case isFalse =>
      refine c.bind c.get fun _ => ?_
      split
      case isTrue  => exact lowerSymbol_of_parts c only _
      case isFalse => exact c.bind (inner target (by simp [Expr.operands])) fun _ => c.pure _
  case index target position =>
    rw [lower]
    refine c.locate (c.bind (inner target (by simp [Expr.operands])) fun _ => ?_)
    refine c.bind (inner position (by simp [Expr.operands])) fun _ => ?_
    split <;> exact c.pure _
  case binary left right =>
    rw [lower]
    refine c.locate (c.bind (inner left (by simp [Expr.operands])) fun _ => ?_)
    exact c.bind (inner right (by simp [Expr.operands])) fun _ => c.pure _
  case unary operand | paren operand =>
    rw [lower]
    exact c.locate (c.bind (inner operand (by simp [Expr.operands])) fun _ => c.pure _)
  case cast operand =>
    rw [lower]
    refine c.locate (c.bind (inner operand (by simp [Expr.operands])) fun _ => ?_)
    exact c.lift (env.target.conversion_excludes only _ _)
  case assign op target value =>
    have whole := inner target (by simp [Expr.operands])
    have given := inner value (by simp [Expr.operands])
    have part (o : Expr) (mem : o ∈ target.operands) : P (env.lower o) :=
      inside target (by simp [Expr.operands]) o (Expr.mem_subterms.mpr (.single mem))
    cases target
    case index node image position =>
      rw [lower]
      refine c.locate ?_
      split
      case isTrue =>
        refine c.bind (part image (by simp [Expr.operands])) fun _ => ?_
        refine c.bind (part position (by simp [Expr.operands])) fun _ => ?_
        exact c.bind given fun _ => c.pure _
      case isFalse => exact c.bind whole fun _ => c.bind given fun _ => c.pure _
    all_goals
      rw [lower]
      case x => simp
      exact c.locate (c.bind whole fun _ => c.bind given fun _ => c.pure _)
  case call node owner method args =>
    rw [lower.eq_def]
    refine c.locate ?_
    simp only
    split
    case h_1 => exact c.bind (lowerAll_of_parts c inner) fun _ => c.pure _
    case h_2 =>
      split
      case h_1 arg _ => exact c.bind (inner arg List.mem_cons_self) fun _ => c.pure _
      case h_2 =>
        refine c.bind (checkIntrinsic_of_parts c only owner method) fun _ => ?_
        refine c.bind (lowerAll_of_parts c inner) fun _ => ?_
        exact c.lift (env.target.invocation_excludes only _ _ _)
  case construct node args =>
    rw [lower]
    refine c.locate ?_
    split
    case h_1 => exact c.bind (lowerAll_of_parts c inner) fun _ => c.pure _
    case h_2 =>
      split
      case isTrue => exact c.lift (h node args (Expr.mem_subterms.mpr .refl))
      case isFalse =>
        refine c.bind (lowerAll_of_parts c inner) fun _ => ?_
        exact c.lift (env.target.construction_excludes only _ _)
  case conditional condition whenTrue whenFalse =>
    rw [lower]
    refine c.locate (c.bind (inner condition (by simp [Expr.operands])) fun _ => ?_)
    refine c.bind (inner whenTrue (by simp [Expr.operands])) fun _ => ?_
    exact c.bind (inner whenFalse (by simp [Expr.operands])) fun _ => c.pure _

theorem lower_of_parts (e : Expr) (h : env.Bounded Q e.subterms) :
    ∀ o ∈ e.subterms, P (env.lower o) := by
  induction e using Expr.operand_induction
  case step e hi =>
    have inside (o : Expr) (mem : o ∈ e.operands) := hi o mem (h.operand mem)
    intro o mem
    rw [Expr.subterms_eq] at mem
    rcases List.mem_cons.mp mem with rfl | mem
    case inl => exact lower_of_inside c only h inside
    case inr =>
      obtain ⟨operand, direct, mem⟩ := List.mem_flatMap.mp mem
      exact inside operand direct o mem

-- The expressions in the header of a statement are parts of it.
theorem lower_of_own {s : Stmt} (h : env.Bounded Q (s.ownExprs.flatMap Expr.subterms)) {e : Expr}
    (mem : e ∈ s.ownExprs) : P (env.lower e) := by
  have inside : env.Bounded Q e.subterms :=
    h.mono fun _ inner => List.mem_flatMap.mpr ⟨e, mem, inner⟩
  exact lower_of_parts c only e inside e (Expr.mem_subterms.mpr .refl)

theorem lowerSimple_of_parts {s : Stmt} (each : ∀ e ∈ s.ownExprs, P (env.lower e)) :
    P (env.lowerSimple s) := by
  cases s
  case declare name ty init =>
    cases init
    case none =>
      rw [lowerSimple]
      exact c.bind (c.lift (declaration_excludes only env name ty)) fun _ => c.pure _
    case some init =>
      rw [lowerSimple]
      refine c.bind (c.lift (declaration_excludes only env name ty)) fun _ => ?_
      exact c.bind (each init (by simp [Stmt.ownExprs])) fun _ => c.pure _
  case eval e =>
    rw [lowerSimple]
    exact c.bind (each e (by simp [Stmt.ownExprs])) fun _ => c.pure _
  all_goals exact c.pure _

theorem withScope_of_parts {target : Option String} {statements : List Stmt}
    {body : EmitM (List Item)} (h : P body) : P (env.withScope target statements body) := by
  refine c.bind (c.mapM fun v _ => c.lift (declaration_excludes only env v.1 v.2)) fun _ => ?_
  refine c.bind (c.mapM fun ty _ => ?_) fun _ => c.scope _ h
  refine c.bind c.reserve fun _ => ?_
  exact c.bind (c.lift (env.target.typeName_excludes only ty)) fun _ => c.pure _

omit c only

mutual

theorem lowerStmt_of_parts (c : EmitM.Compositional Q P) (only : Error.OnlyEndless Q) :
    ∀ s : Stmt, env.Bounded Q s.exprs → P (env.lowerStmt s)
  | .block body, h => by
    have ⟨_, inner⟩ := bounded_append.mp h
    rw [lowerStmt]
    exact c.bind (withScope_of_parts c only (lowerStmts_of_parts c only body inner)) fun _ =>
      c.pure _
  | .eval e, h => by
    have ⟨own, _⟩ := bounded_append.mp h
    rw [lowerStmt]
    exact c.bind (lower_of_own c only own (by simp [Stmt.ownExprs])) fun _ => c.pure _
  | .declare name ty init, h => by
    have ⟨own, _⟩ := bounded_append.mp h
    rw [lowerStmt]
    exact c.bind (lowerSimple_of_parts c only fun _ => lower_of_own c only own) fun _ => c.pure _
  | .ret none, _ => by
    rw [lowerStmt]
    exact c.pure _
  | .ret (some value), h => by
    have ⟨own, _⟩ := bounded_append.mp h
    rw [lowerStmt]
    exact c.bind (lower_of_own c only own (by simp [Stmt.ownExprs])) fun _ => c.pure _
  | .branch condition thenBody none, h => by
    have ⟨own, inner⟩ := bounded_append.mp h
    rw [lowerStmt]
    refine c.bind (lower_of_own c only own (by simp [Stmt.ownExprs])) fun _ => ?_
    exact c.bind (withScope_of_parts c only (lowerStmts_of_parts c only thenBody inner)) fun _ =>
      c.pure _
  | .branch condition thenBody (some elseBody), h => by
    have ⟨own, inner⟩ := bounded_append.mp h
    have ⟨first, second⟩ := bounded_append.mp inner
    rw [lowerStmt]
    refine c.bind (lower_of_own c only own (by simp [Stmt.ownExprs])) fun _ => ?_
    refine c.bind (withScope_of_parts c only (lowerStmts_of_parts c only thenBody first))
      fun _ => ?_
    exact c.bind (withScope_of_parts c only (lowerStmts_of_parts c only elseBody second)) fun _ =>
      c.pure _
  | .forLoop init condition step body, h => by
    have ⟨own, inner⟩ := bounded_append.mp h
    have header {e : Expr} (mem : e ∈ Stmt.ownExprsAll init ++ condition.toList ++ step) :
        P (env.lower e) := lower_of_own c only own mem
    have starts (s : Stmt) (mem : s ∈ init) : P (env.lowerSimple s) := by
      refine lowerSimple_of_parts c only fun e own => header ?_
      simp only [List.mem_append, Stmt.ownExprsAll_eq, List.mem_flatMap]
      exact .inl (.inl ⟨s, mem, own⟩)
    rw [lowerStmt]
    refine c.bind (c.mapM starts) fun _ => ?_
    refine c.bind (c.option_mapM fun e mem => header (by simp_all)) fun _ => ?_
    refine c.bind (lowerAll_of_parts c fun e mem => header (by simp [mem])) fun _ => ?_
    exact c.bind (withScope_of_parts c only (lowerStmts_of_parts c only body inner)) fun _ =>
      c.pure _
  | .whileLoop condition body, h => by
    have ⟨own, inner⟩ := bounded_append.mp h
    rw [lowerStmt]
    refine c.bind (lower_of_own c only own (by simp [Stmt.ownExprs])) fun _ => ?_
    exact c.bind (withScope_of_parts c only (lowerStmts_of_parts c only body inner)) fun _ =>
      c.pure _
  | .doLoop body condition, h => by
    have ⟨own, inner⟩ := bounded_append.mp h
    rw [lowerStmt]
    refine c.bind (withScope_of_parts c only (lowerStmts_of_parts c only body inner)) fun _ => ?_
    exact c.bind (lower_of_own c only own (by simp [Stmt.ownExprs])) fun _ => c.pure _
  | .switch scrutinee sections, h => by
    have ⟨own, inner⟩ := bounded_append.mp h
    rw [lowerStmt]
    refine c.bind (lower_of_own c only own (by simp [Stmt.ownExprs])) fun _ => ?_
    exact c.bind (lowerSections_of_parts c only sections inner) fun _ => c.pure _
  | .breakLoop, _ | .continueLoop, _ => by
    rw [lowerStmt]
    exact c.pure _

theorem lowerStmts_of_parts (c : EmitM.Compositional Q P) (only : Error.OnlyEndless Q) :
    ∀ ss : List Stmt, env.Bounded Q (Stmt.exprsAll ss) → P (env.lowerStmts ss)
  | [], _ => by
    rw [lowerStmts]
    exact c.pure _
  | s :: ss, h => by
    have ⟨first, rest⟩ := bounded_append.mp h
    rw [lowerStmts]
    refine c.bind (lowerStmt_of_parts c only s first) fun _ => ?_
    exact c.bind (lowerStmts_of_parts c only ss rest) fun _ => c.pure _

theorem lowerSections_of_parts (c : EmitM.Compositional Q P) (only : Error.OnlyEndless Q) :
    ∀ sections : List (List Label × List Stmt),
      env.Bounded Q (Stmt.exprsSections sections) → P (env.lowerSections sections)
  | [], _ => by
    rw [lowerSections]
    exact c.pure _
  | (labels, body) :: rest, h => by
    have ⟨first, later⟩ := bounded_append.mp h
    rw [lowerSections]
    refine c.bind (withScope_of_parts c only (lowerStmts_of_parts c only body first)) fun _ => ?_
    exact c.bind (lowerSections_of_parts c only rest later) fun _ => c.pure _

end

end Emission
end Shading
