import Shading.Proofs.Rendering
import Mathlib
/-!
Emission writes what is rendered of a body, and records exactly what is to be recorded of it.
-/

namespace Shading

open Glsl

variable {p : Program} {env : Emission} {c : Bool} {e : Expr} {parts rest : List Expr}

namespace Emission

variable {name owner method : String} {symbol : Symbol}

theorem lowerBuiltin_renders (h : e.Builtin name) :
    Renders env c [e] (·.calls = []) (env.lowerBuiltin name) := by
  simp only [lowerBuiltin]
  split
  case h_1 => exact .fail
  case h_2 builtin known =>
    intro s t s' ctor h'
    by_cases allowed : builtin.stages.allows env.stage
    case neg =>
      rw [if_neg (by simpa using allowed)] at h'
      cases h'
    case pos =>
      simp only [allowed] at h'
      cases h'
      refine ⟨?_, Target.calls_builtinVariable _⟩
      have touches (flag : Flag) :
          e.Touches env.program env.resources c flag ↔ flag = builtin.flag := by
        constructor
        · intro t
          cases t
          case builtin b known' =>
            cases known.symm.trans (h.unique b ▸ known')
            rfl
          case resource d _ => exact absurd d h.not_denotes
          case atomic i => exact absurd i h.not_intrinsic
        · rintro rfl
          exact .builtin h known
      have legal : e.Legal env.program env.stage := {
        builtin _ b   := ⟨builtin, h.unique b ▸ known, allowed⟩
        intrinsic _ i := absurd i h.not_intrinsic }
      exact .single ctor (by simp [Emitter.touch, touches]) (by simp [Emitter.touch])
        (by simp [Emitter.touch, h.not_denotes]) legal

theorem useResource_has (s : Emitter) (r : Resource) (flag : Flag) :
    (s.useResource r).usage.has flag ↔
    s.usage.has flag ∨ Emitter.resourceFlag? r.kind = some flag := by
  by_cases used : r.name ∈ s.resourcesUsed <;> cases known : Emitter.resourceFlag? r.kind
  all_goals simp [Emitter.useResource, Emitter.touch, used, known, @eq_comm _ flag]

theorem mem_useResource (s : Emitter) (r : Resource) (name : String) :
    name ∈ (s.useResource r).resourcesUsed ↔ name ∈ s.resourcesUsed ∨ r.name = name := by
  by_cases used : r.name ∈ s.resourcesUsed <;> cases known : Emitter.resourceFlag? r.kind
  all_goals simp [Emitter.useResource, Emitter.touch, used, known, @eq_comm _ name]
  all_goals exact fun h => h ▸ used

theorem inConstructor_useResource (s : Emitter) (r : Resource) :
    (s.useResource r).inConstructor = s.inConstructor := by
  by_cases used : r.name ∈ s.resourcesUsed <;> cases known : Emitter.resourceFlag? r.kind
  all_goals simp [Emitter.useResource, Emitter.touch, used, known]

theorem unnamed_useResource (s : Emitter) (r : Resource) :
    (s.useResource r).usage.unnamed = s.usage.unnamed := by
  by_cases used : r.name ∈ s.resourcesUsed <;> cases known : Emitter.resourceFlag? r.kind
  all_goals simp [Emitter.useResource, Emitter.touch, used, known]

theorem useResource_renders {r : Resource} (h : e.Denotes env.program env.resources c r) :
    Renders env c [e] (fun _ => True) (modify (Emitter.useResource r)) := by
  have ⟨_, _, ⟨symbol, names, _, other, _⟩, _⟩ := h
  have denotes (r' : Resource) : e.Denotes env.program env.resources c r' ↔ r = r' := by
    have known := names.denotes_iff.mp h
    rw [names.denotes_iff]
    simp_all
  have touches (flag : Flag) :
      e.Touches env.program env.resources c flag ↔ Emitter.resourceFlag? r.kind = some flag := by
    constructor
    · intro t
      cases t
      case builtin b _    => exact absurd (names.builtin_iff.mp b).2.1 other
      case resource d set => exact (denotes _).mp d ▸ set
      case atomic i       => exact absurd i names.not_intrinsic
    · exact .resource h
  intro s a s' ctor h'
  cases h'
  have legal : e.Legal env.program env.stage := {
    builtin _ b   := absurd (names.builtin_iff.mp b).2.1 other
    intrinsic _ i := absurd i names.not_intrinsic }
  refine ⟨.single ?_ ?_ (unnamed_useResource s r) ?_ legal, trivial⟩
  · exact (inConstructor_useResource s r).trans ctor
  · simp [useResource_has, touches]
  · simp [mem_useResource, denotes]

theorem lowerSymbol_renders (h : e.Names c symbol) :
    Renders env c [e] (·.calls = []) (env.lowerSymbol symbol) := by
  -- What is neither a builtin variable nor a resource leaves no trace.
  have other {t : Term} (ne : ∀ name, ¬e.Builtin name)
      (nr : ∀ r, ¬e.Denotes env.program env.resources c r) (calls : t.calls = []) :
      Renders env c [e] (·.calls = []) (pure t) :=
    .inert ⟨ne, nr, fun _ => h.not_intrinsic⟩ (.pure calls)
  simp only [lowerSymbol]
  split
  case h_1 | h_2 | h_3 | h_4 =>
    have noData : ¬symbol.isData := by simp_all [Symbol.isData]
    refine other (fun _ b => ?_) (fun _ d => ?_) (by simp)
    · exact noData (h.builtin_iff.mp b).1
    · exact noData (h.denotes_iff.mp d).1
  all_goals
    have data : symbol.isData := by simp_all [Symbol.isData]
    split
    case isTrue builtins => exact lowerBuiltin_renders (h.builtin_iff.mpr ⟨data, builtins, rfl⟩)
    case isFalse builtins =>
      have noBuiltin (name : String) : ¬e.Builtin name :=
        fun b => builtins (h.builtin_iff.mp b).2.1
      split
      case h_1 constant =>
        refine other noBuiltin (fun _ d => ?_) (by simp)
        exact nomatch constant.symm.trans (h.denotes_iff.mp d).2.2.1
      case h_2 constant =>
        split
        case h_1 r found =>
          exact (useResource_renders (h.denotes_iff.mpr ⟨data, builtins, constant, found⟩)).map
            fun _ _ => by simp
        case h_2 found =>
          refine other noBuiltin (fun _ d => ?_) ?_
          · exact nomatch found.symm.trans (h.denotes_iff.mp d).2.2.2
          · split
            case isFalse => simp
            case isTrue =>
              cases constant : staticMember? symbol.owner symbol.name
              case none => simp
              case some => exact calls_staticMember? constant

theorem length_eq_one_of_swizzle? {count : Nat} (h : swizzle? method count ≠ none) : count = 1 := by
  simp only [swizzle?] at h
  by_contra other
  simp [other] at h

theorem checkIntrinsic_renders {node : Node} {args : List Expr}
    (foreign : env.program.callee? owner method = none)
    (plain : swizzle? method args.length = none) :
    Renders env c [.call node owner method args] (fun _ => True)
      (env.checkIntrinsic owner method) := by
  have builtin (name : String) : ¬(Expr.call node owner method args).Builtin name := nofun
  have denotes (r : Resource) :
      ¬(Expr.call node owner method args).Denotes env.program env.resources c r :=
    fun ⟨_, _, ⟨_, h, _⟩, _⟩ => nomatch h
  rw [checkIntrinsic]
  split
  case isFalse other =>
    exact .inert ⟨builtin, denotes, fun _ (.call _ _ owned) => other owned⟩ (.pure trivial)
  case isTrue owned =>
    intro s a s' ctor h
    dsimp only at h
    split at h
    case isFalse => cases h
    case isTrue allowed =>
      have touches (flag : Flag) :
          (Expr.call node owner method args).Touches env.program env.resources c flag ↔
          method = "InterlockedAdd" ∧ flag = .interlockedAdd := by
        constructor
        · intro t
          cases t
          case builtin b _  => exact absurd b (builtin _)
          case resource d _ => exact absurd d (denotes _)
          case atomic i     => cases i; exact ⟨rfl, rfl⟩
        · rintro ⟨rfl, rfl⟩
          exact .atomic (.call foreign plain owned)
      have legal : (Expr.call node owner method args).Legal env.program env.stage := {
        builtin _ b   := absurd b (builtin _)
        intrinsic _ i := by cases i; exact allowed }
      refine ⟨?_, trivial⟩
      split at h <;> cases h
      case isTrue.refl atomic =>
        refine .single ctor (fun flag => ?_) (by simp [Emitter.touch])
          (by simp [Emitter.touch, denotes]) legal
        rw [touches flag]
        simp [Emitter.touch, beq_iff_eq.mp atomic]
      case isFalse.refl plain =>
        refine .single ctor (fun flag => ?_) rfl (by simp [denotes]) legal
        rw [touches flag]
        simp_all

theorem names_of_isImplicit {node : Node} {target : Expr} (h : isImplicit c target) :
    (Expr.member node target symbol).Names c symbol := by
  simp only [isImplicit] at h
  split at h
  case h_1 => exact .ofType (beq_iff_eq.mp h)
  case h_2 => exact .ofThis (Bool.not_eq_true' _ ▸ h)
  case h_3 => cases h

theorem isImplicit_of_names {node : Node} {target : Expr} {symbol' : Symbol}
    (h : (Expr.member node target symbol').Names c symbol) : isImplicit c target := by
  cases h
  case ofType kind => exact beq_iff_eq.mpr kind
  case ofThis ctor => exact ctor ▸ rfl

theorem takeDiscard_eq (s : Emitter) :
    ∃ discards nextDiscard, s.takeDiscard.2 = { s with discards, nextDiscard } := by
  simp only [Emitter.takeDiscard]
  split
  all_goals exact ⟨_, _, rfl⟩

theorem lowerAll_writes {es : List Expr}
    (each : ∀ e ∈ es, Writes env c (e.rendered c) Term.calls (env.lower e)) :
    Writes env c (Expr.renderedAll c es) Operand.callsAll (env.lowerAll es) := by
  induction es
  case nil =>
    rw [lowerAll, Expr.renderedAll]
    exact .pure (List.nil_subset _)
  case cons e es hi =>
    rw [lowerAll, Expr.renderedAll]
    refine (each e List.mem_cons_self).bind fun t h => ?_
    refine (hi fun e mem => each e (List.mem_cons_of_mem _ mem)).map fun operands h' => ?_
    exact Expr.append_subset_callees h h'

mutual

theorem lower_writes (env : Emission) (c : Bool) (e : Expr) :
    Writes env c (e.rendered c) Term.calls (env.lower e) := by
  cases e
  case literal | this | outVariable =>
    rw [lower, Expr.rendered]
    exact .locate (Writes.inert (.plain nofun nofun nofun) (.pure (by simp)))
  case discard =>
    rw [lower, Expr.rendered]
    refine .locate (Writes.inert (.plain nofun nofun nofun) ?_)
    exact (Renders.modifyGet takeDiscard_eq).map fun _ _ => by simp
  case name =>
    rw [lower, Expr.rendered]
    exact .locate (Writes.of_none (lowerSymbol_renders .bare))
  case member target symbol =>
    rw [lower, Expr.rendered]
    refine .locate ?_
    split
    case isTrue builtin =>
      have ⟨data, owner⟩ := Bool.and_eq_true_iff.mp builtin
      exact Writes.of_none (lowerBuiltin_renders (.member data owner rfl))
    case isFalse other =>
      refine Renders.get.before fun s ctor => ?_
      rw [ctor]
      split
      case isTrue implicit =>
        exact Writes.of_none (lowerSymbol_renders (names_of_isImplicit implicit))
      case isFalse explicit =>
        refine Writes.inert (.plain ?_ ?_ nofun) ?_
        · exact fun _ names => explicit (isImplicit_of_names names)
        · rintro _ (_ | ⟨data, owner, _⟩)
          exact other (Bool.and_eq_true_iff.mpr ⟨data, owner⟩)
        · refine (lower_writes env c target).map fun t h => ?_
          rw [Selector.calls_select]
          exact h
  case index target position =>
    rw [lower, Expr.rendered]
    refine .locate (Writes.inert (.plain nofun nofun nofun) ?_)
    refine (lower_writes env c target).bind fun image h => ?_
    split
    case isTrue =>
      refine (lower_writes env c position).map fun index h' => ?_
      rw [calls_imageLoad]
      exact Expr.append_subset_callees h h'
    case isFalse =>
      exact (lower_writes env c position).map fun index h' => Expr.append_subset_callees h h'
  case binary op left right =>
    rw [lower, Expr.rendered]
    refine .locate (Writes.inert (.plain nofun nofun nofun) ?_)
    refine (lower_writes env c left).bind fun l h => ?_
    refine (lower_writes env c right).map fun r h' => ?_
    exact List.Subset.trans (calls_binaryTerm ..) (Expr.append_subset_callees h h')
  case unary op operand =>
    rw [lower, Expr.rendered]
    refine .locate (Writes.inert (.plain nofun nofun nofun) ?_)
    exact (lower_writes env c operand).map fun _ => id
  case paren inner =>
    rw [lower, Expr.rendered]
    refine .locate (Writes.inert (.plain nofun nofun nofun) ?_)
    exact (lower_writes env c inner).map fun _ => id
  case cast node operand =>
    rw [lower, Expr.rendered]
    refine .locate (Writes.inert (.plain nofun nofun nofun) ?_)
    refine (lower_writes env c operand).thenLift fun t h term known => ?_
    rw [Target.calls_conversion known]
    exact h
  case assign op target value =>
    have whole := lower_writes env c target
    have given := lower_writes env c value
    cases target
    case index node image position =>
      rw [lower, Expr.rendered]
      refine .locate (Writes.inert (.plain nofun nofun nofun) ?_)
      split
      case isTrue =>
        rw [Expr.rendered, List.cons_append, List.append_assoc]
        refine Writes.inert (.plain nofun nofun nofun) ?_
        refine (lower_writes env c image).bind fun i hi => ?_
        refine (lower_writes env c position).bind fun p hp => ?_
        refine given.map fun v hv => ?_
        rw [calls_imageStore, List.append_assoc]
        exact Expr.append_subset_callees hi (Expr.append_subset_callees hp hv)
      case isFalse =>
        refine whole.bind fun t h => ?_
        exact given.map fun v h' => Expr.append_subset_callees h h'
    all_goals
      rw [lower, Expr.rendered]
      case x => exact nofun
      refine .locate (Writes.inert (.plain nofun nofun nofun) ?_)
      refine whole.bind fun t h => ?_
      exact given.map fun v h' => Expr.append_subset_callees h h'
  case call node owner method args =>
    have each := lower_writes_of_mem env c args
    rw [lower.eq_def, Expr.rendered]
    refine .locate ?_
    simp only
    split
    case h_1 id known =>
      refine Renders.inert (.plain nofun nofun ?_) ?_
      · rintro _ ⟨foreign, _⟩
        cases known.symm.trans foreign
      · refine (lowerAll_writes each).map fun operands h => ?_
        simp only [Term.calls, Term.callsAll_eq_flatMap, Operand.flatMap_calls_map_term]
        exact Expr.cons_subset_callees known h
    case h_2 foreign =>
      split
      case h_1 components arg swizzle =>
        refine Writes.inert (.plain nofun nofun ?_) ?_
        · rintro _ ⟨_, plain, _⟩
          cases swizzle.symm.trans plain
        · rw [Expr.renderedAll, Expr.renderedAll, List.append_nil]
          refine (each arg List.mem_cons_self).map fun t h => ?_
          split
          all_goals exact h
      case h_2 args _ _ plain =>
        refine (checkIntrinsic_renders foreign ?_).bind fun _ _ => ?_
        · by_contra some
          have ⟨arg, one⟩ := List.length_eq_one_iff.mp (length_eq_one_of_swizzle? some)
          have ⟨components, known⟩ := Option.ne_none_iff_exists'.mp some
          exact plain components arg known one
        · refine (lowerAll_writes each).thenLift fun operands h term known => ?_
          exact Expr.subset_callees_cons (List.Subset.trans (Target.calls_invocation known) h)
  case construct node args =>
    have each := lower_writes_of_mem env c args
    rw [lower, Expr.rendered]
    refine .locate ?_
    have inert : (Expr.construct node args).Inert env c := .plain nofun nofun nofun
    split
    case h_1 id known =>
      refine Renders.inert inert ((lowerAll_writes each).map fun operands h => ?_)
      simp only [Term.calls, Term.callsAll_eq_flatMap, Operand.flatMap_calls_map_term]
      exact Expr.cons_subset_callees known h
    case h_2 =>
      refine Writes.inert inert ?_
      split
      case isTrue empty =>
        rw [List.isEmpty_iff.mp empty, Expr.renderedAll]
        exact .liftExcept fun term known => calls_defaultValue known ▸ List.nil_subset _
      case isFalse =>
        refine (lowerAll_writes each).thenLift fun operands h term known => ?_
        rw [Target.calls_construction known]
        exact h
  case conditional condition whenTrue whenFalse =>
    rw [lower, Expr.rendered]
    refine .locate (Writes.inert (.plain nofun nofun nofun) ?_)
    refine (lower_writes env c condition).bind fun x hx => ?_
    refine (lower_writes env c whenTrue).bind fun y hy => ?_
    refine (lower_writes env c whenFalse).map fun z hz => ?_
    rw [Term.calls, List.append_assoc]
    exact Expr.append_subset_callees hx (Expr.append_subset_callees hy hz)

theorem lower_writes_of_mem (env : Emission) (c : Bool) :
    ∀ es : List Expr, ∀ e ∈ es, Writes env c (e.rendered c) Term.calls (env.lower e)
  | [], _, mem          => nomatch mem
  | first :: es, e, mem => by
    have here := lower_writes env c first
    have later := lower_writes_of_mem env c es e
    cases mem
    case head     => exact here
    case tail mem => exact later mem

end

theorem mapM_writes {calls : β → List MethodId} {f : α → EmitM β} {parts : α → List Expr}
    (each : ∀ a, Writes env c (parts a) calls (f a)) (as : List α) :
    Writes env c (as.flatMap parts) (·.flatMap calls) (as.mapM f) := by
  induction as
  case nil => exact .pure (List.nil_subset _)
  case cons a as hi =>
    rw [List.mapM_cons, List.flatMap_cons]
    refine (each a).bind fun b h => ?_
    exact hi.map fun bs h' => Expr.append_subset_callees h h'

theorem option_mapM_writes {calls : β → List MethodId} {f : α → EmitM β} {parts : α → List Expr}
    (each : ∀ a, Writes env c (parts a) calls (f a)) (a : Option α) :
    Writes env c (a.toList.flatMap parts) (·.toList.flatMap calls) (a.mapM f) := by
  cases a
  case none => exact .pure (List.nil_subset _)
  case some a =>
    simp only [Option.toList_some, List.flatMap_singleton]
    exact (each a).map fun b h => by simpa using h

theorem quiet_mapM {f : α → EmitM β} (each : ∀ a, Renders env c [] (fun _ => True) (f a))
    (as : List α) : Renders env c [] (fun _ => True) (as.mapM f) := by
  induction as
  case nil => exact .pure trivial
  case cons a as hi =>
    rw [List.mapM_cons]
    exact (each a).before fun _ _ => hi.map fun _ _ => trivial

theorem lowerSimple_writes :
    ∀ s : Stmt, Writes env c (s.renderedSimple c) Simple.calls (env.lowerSimple s)
  | .declare name ty none =>
    (Renders.liftExcept fun _ _ => trivial).map fun _ _ => List.nil_subset _
  | .declare name ty (some init) => by
    rw [lowerSimple, Stmt.renderedSimple, Option.toList_some, List.flatMap_singleton]
    refine (Renders.liftExcept fun _ _ => trivial).before fun _ _ => ?_
    refine (lower_writes env c init).map fun term h => ?_
    rwa [Simple.calls, Option.toList_some, List.flatMap_singleton]
  | .eval e => (lower_writes env c e).map fun _ h => h
  | .block _ | .ret _ | .branch .. | .forLoop .. | .whileLoop .. | .doLoop .. | .switch ..
  | .breakLoop | .continueLoop => .pure (List.nil_subset _)

theorem reserveDiscard_quiet (ty : TypeRef) :
    Renders env c [] (fun _ => True) (env.reserveDiscard ty) :=
  (Renders.modifyGet fun _ => ⟨_, _, rfl⟩).before fun _ _ =>
    (Renders.liftExcept fun _ _ => trivial).map fun _ _ => trivial

theorem withScope_writes {target : Option String} {statements : List Stmt}
    {body : EmitM (List Item)} (h : Writes env c parts Item.callsAll body) :
    Writes env c parts Scope.calls (env.withScope target statements body) := by
  have outputs : Renders env c [] (fun _ => True)
      ((outputVariables statements).mapM fun v => liftExcept (env.declaration v.1 v.2)) :=
    quiet_mapM (fun _ => .liftExcept fun _ _ => trivial) _
  have discards : Renders env c [] (fun _ => True)
      ((discardedTypes statements).mapM env.reserveDiscard) :=
    quiet_mapM reserveDiscard_quiet _
  refine outputs.before fun _ _ => discards.before fun _ _ => ?_
  refine (Renders.modifyGet fun _ => ⟨_, _, rfl⟩).before fun _ _ => ?_
  -- The scope ends with another change of the discard variables.
  rw [← List.append_nil parts]
  refine h.bind fun items calls => ?_
  refine (Renders.modifyGet fun _ => ⟨_, _, rfl⟩).map fun _ _ => ?_
  rwa [List.append_nil, Scope.calls]

mutual

theorem lowerStmt_writes (env : Emission) (c : Bool) :
    ∀ s : Stmt, Writes env c (s.rendered c) Item.calls (env.lowerStmt s)
  | .block body => by
    rw [lowerStmt, Stmt.rendered]
    refine (withScope_writes (lowerStmts_writes env c body)).map fun scope h => ?_
    rwa [Item.calls]
  | .eval e => by
    rw [lowerStmt, Stmt.rendered]
    refine (lower_writes env c e).map fun term h => ?_
    rwa [Item.calls, Simple.calls]
  | .declare name ty init => by
    rw [lowerStmt, Stmt.rendered]
    refine (lowerSimple_writes (.declare name ty init)).map fun statement h => ?_
    rwa [Item.calls]
  | .ret none => by
    rw [lowerStmt, Stmt.rendered]
    exact .pure (List.nil_subset _)
  | .ret (some value) => by
    rw [lowerStmt, Stmt.rendered, Option.toList_some, List.flatMap_singleton]
    refine (lower_writes env c value).map fun term h => ?_
    rwa [Item.calls, Option.toList_some, List.flatMap_singleton]
  | .branch condition thenBody none => by
    rw [lowerStmt, Stmt.rendered]
    refine (lower_writes env c condition).bind fun term h => ?_
    refine (withScope_writes (lowerStmts_writes env c thenBody)).map fun scope h' => ?_
    rw [Item.calls]
    exact Expr.append_subset_callees h h'
  | .branch condition thenBody (some elseBody) => by
    rw [lowerStmt, Stmt.rendered]
    refine (lower_writes env c condition).bind fun term h => ?_
    refine (withScope_writes (lowerStmts_writes env c thenBody)).bind fun scope h₁ => ?_
    refine (withScope_writes (lowerStmts_writes env c elseBody)).map fun scope' h₂ => ?_
    rw [Item.calls, List.append_assoc]
    exact Expr.append_subset_callees h (Expr.append_subset_callees h₁ h₂)
  | .forLoop init condition step body => by
    rw [lowerStmt, Stmt.rendered]
    refine (mapM_writes lowerSimple_writes init).bind fun _ h₁ => ?_
    refine (option_mapM_writes (lower_writes env c) condition).bind fun _ h₂ => ?_
    refine (lowerAll_writes fun e _ => lower_writes env c e).bind fun _ h₃ => ?_
    refine (withScope_writes (lowerStmts_writes env c body)).map fun _ h₄ => ?_
    rw [Item.calls, List.append_assoc, List.append_assoc, Operand.flatMap_calls_map_term]
    exact Expr.append_subset_callees h₁ <| Expr.append_subset_callees h₂ <|
      Expr.append_subset_callees h₃ h₄
  | .whileLoop condition body => by
    rw [lowerStmt, Stmt.rendered]
    refine (lower_writes env c condition).bind fun term h => ?_
    refine (withScope_writes (lowerStmts_writes env c body)).map fun scope h' => ?_
    rw [Item.calls]
    exact Expr.append_subset_callees h h'
  | .doLoop body condition => by
    rw [lowerStmt, Stmt.rendered]
    refine (withScope_writes (lowerStmts_writes env c body)).bind fun scope h => ?_
    refine (lower_writes env c condition).map fun term h' => ?_
    rw [Item.calls]
    exact Expr.append_subset_callees h h'
  | .switch scrutinee sections => by
    rw [lowerStmt, Stmt.rendered]
    refine (lower_writes env c scrutinee).bind fun term h => ?_
    refine (lowerSections_writes env c sections).map fun _ h' => ?_
    rw [Item.calls]
    exact Expr.append_subset_callees h h'
  | .breakLoop | .continueLoop => by
    rw [lowerStmt, Stmt.rendered]
    exact .pure (List.nil_subset _)

theorem lowerStmts_writes (env : Emission) (c : Bool) :
    ∀ ss : List Stmt, Writes env c (Stmt.renderedAll c ss) Item.callsAll (env.lowerStmts ss)
  | [] => by
    rw [lowerStmts, Stmt.renderedAll]
    exact .pure (List.nil_subset _)
  | s :: ss => by
    rw [lowerStmts, Stmt.renderedAll]
    refine (lowerStmt_writes env c s).bind fun item h => ?_
    refine (lowerStmts_writes env c ss).map fun items h' => ?_
    rw [Item.callsAll]
    exact Expr.append_subset_callees h h'

theorem lowerSections_writes (env : Emission) (c : Bool) :
    ∀ sections, Writes env c (Stmt.renderedSections c sections) callsSections
      (env.lowerSections sections)
  | [] => by
    rw [lowerSections, Stmt.renderedSections]
    exact .pure (List.nil_subset _)
  | (labels, body) :: rest => by
    rw [lowerSections, Stmt.renderedSections]
    refine (withScope_writes (lowerStmts_writes env c body)).bind fun scope h => ?_
    refine (lowerSections_writes env c rest).map fun scopes h' => ?_
    rw [callsSections]
    exact Expr.append_subset_callees h h'

end

-- What a function becomes. Its flags and resources are those of the expressions that are written of
-- its body, all of which are legal in the stage, and all that its definition calls is called by
-- them.
structure Emits (env : Emission) (id : MethodId) (f : EmittedFunction) : Prop where
  declared   : ∃ m body, env.program.method? id = some m ∧ m.body = some body
  name       : f.definition.name = functionName id
  parameters : ∀ m, env.program.method? id = some m →
    m.parameters.Forall₂ (fun q d => env.parameter q = .ok d) f.definition.parameters
  function   : f.function.id = id
  flags      : ∀ flag, f.function.usage.has flag ↔ env.program.Touches env.resources id flag
  unnamed    : f.function.usage.unnamed = 0
  resources  : ∀ name, name ∈ f.resourcesUsed ↔ env.program.Uses env.resources id name
  legal      : ∀ c e, env.program.Renders id c e → e.Legal env.program env.stage
  calls      : ∀ callee ∈ f.definition.calls,
    ∃ c e, env.program.Renders id c e ∧ e.callee? env.program = some callee

theorem emits_of_emit {id : MethodId} {s s' : Emitter} {f : EmittedFunction}
    (h : env.emit id s = .ok f s') : Emits env id f := by
  cases known : env.program.method? id
  case none =>
    simp only [emit, known] at h
    cases h
  case some m =>
    cases given : m.body
    case none =>
      simp only [emit, known, given] at h
      cases h
    case some body =>
      simp only [emit, known, given] at h
      have ⟨_, s₁, reset, h⟩ := exists_of_bind_eq_ok h
      cases reset
      have ⟨shape, s₂, typed, h⟩ := exists_of_bind_eq_ok h
      have ⟨scope, s₃, lowered, h⟩ := exists_of_bind_eq_ok h
      cases h
      have ⟨quiet, shaped⟩ : Recorded env m.isConstructor [] _ s₂ ∧ _ :=
        Renders.locate (.liftExcept fun _ made => made) _ _ _ rfl typed
      have ⟨_, _, shaped⟩ := bind_eq_ok_iff.mp shaped
      have ⟨_, listed, shaped⟩ := bind_eq_ok_iff.mp shaped
      cases shaped
      have ⟨recorded, calls⟩ := withScope_writes (lowerStmts_writes env m.isConstructor body)
        _ _ _ quiet.inConstructor lowered
      have recorded := quiet.append recorded
      exact {
        declared       := ⟨m, body, known, given⟩
        name           := rfl
        parameters _ h := Option.some.inj (known.symm.trans h) ▸ list_mapM_eq_ok_iff.mp listed
        function       := ShaderFunction.id_ofDecl known
        flags flag     := by
          rw [Program.Touches, Program.exists_renders_iff known given]
          simpa [ShaderFunction.mark, ShaderFunction.ofDecl] using recorded.flags flag
        unnamed        := by
          simpa [ShaderFunction.mark, ShaderFunction.ofDecl] using recorded.unnamed
        resources name := by
          rw [Program.Uses, Program.exists_renders_iff known given]
          simpa using recorded.resources name
        legal c e h    := recorded.legal e ((Program.renders_iff known given).mp h).2
        calls id mem   := by
          rw [Program.exists_renders_iff known given]
          exact List.mem_filterMap.mp (calls mem) }

end Emission
end Shading
