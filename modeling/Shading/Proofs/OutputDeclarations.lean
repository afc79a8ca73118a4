import Shading.Proofs.HoistedOutputs
import Mathlib
/-!
Outputs are declared where they are used.

Every output that a function throws away has a variable of its own, which the scope that it is
thrown away in declares with its type. Every output that a function declares inline is declared once
by the scope of its declaration. The two do not know of each other, so an output that is spelled
like a discard variable is declared along with it.
-/

namespace Shading

open Glsl Emission

theorem Glsl.discardName_inj {m n : Nat} : discardName m = discardName n ↔ m = n :=
  (String.append_right_inj _).trans Nat.repr_inj

namespace Stmt

variable {first next : Nat} {ss ss' body : List Stmt} {scopes : List (List Stmt)}
  {es : List Expr}

-- The name that has taken the place of an output that is thrown away, with the type of that.
def replacement? : Expr → Expr → Option (String × TypeRef)
  | .discard node, .name _ symbol => some (symbol.name, node.ty)
  | _, _                          => none

def replaced (before after : List Expr) : List (String × TypeRef) :=
  (before.zip after).filterMap fun places => replacement? places.1 places.2

theorem replaced_namedEach : replaced es (Expr.namedEach first es) =
    ((es.filterMap discardType?).zipIdx first).map fun d => (discardName d.2, d.1) := by
  induction es generalizing first
  case nil => rfl
  case cons e es hi =>
    simp only [replaced] at hi ⊢
    rw [Expr.namedEach, List.zip_cons_cons]
    cases e
    case discard node => exact congrArg ((discardName first, node.ty) :: ·) hi
    all_goals exact hi

-- A scope declares its output variables, and a variable for each output that is thrown away.
theorem declared_eq : declared next body =
    outputVariables body ++ replaced (headerExprs body) (headerExprs (hoistScope next body)) := by
  rw [headerExprs_hoistScope, replaced_namedEach]
  rfl

theorem map_fst_replaced : (replaced (headerExprs body) (headerExprs (hoistScope next body))).map
    Prod.fst = (List.range' next (own body)).map discardName := by
  rw [headerExprs_hoistScope, replaced_namedEach, own, ← List.zipIdx_map_snd next, List.map_map,
    List.map_map]
  rfl

-- The names of all outputs that are thrown away in scopes.
def discardNames (scopes : List (Nat × List Stmt)) : List String :=
  scopes.flatMap fun scope =>
    (replaced (headerExprs scope.2) (headerExprs (hoistScope scope.1 scope.2))).map Prod.fst

theorem discardNames_numbered (next : Nat) (scopes : List (List Stmt)) :
    discardNames (numbered next scopes) =
    (List.range' next (reserved scopes)).map discardName := by
  induction scopes generalizing next
  case nil => rfl
  case cons body scopes hi =>
    rw [numbered, reserved_cons, ← List.range'_append_1, List.map_append, ← hi, ← map_fst_replaced]
    rfl

theorem headerExprs_cons (s : Stmt) (ss : List Stmt) :
    headerExprs (s :: ss) = s.ownExprs.flatMap Expr.subterms ++ headerExprs ss := by
  rw [headerExprs, ownExprsAll, List.flatMap_append]
  rfl

-- The headers of the scopes of a body hold the expressions of the body.
mutual

theorem perm_exprs : ∀ s : Stmt,
    (s.ownExprs.flatMap Expr.subterms ++ s.scopes.flatMap headerExprs).Perm s.exprs
  | block body | forLoop _ _ _ body | whileLoop _ body | doLoop body _ | branch _ body none =>
    (perm_exprsAll body).append_left _
  | branch _ thenBody (some elseBody) => by
    have inside := (perm_exprsAll thenBody).append (perm_exprsAll elseBody)
    rw [scopes, exprs, List.flatMap_append]
    exact inside.append_left _
  | switch _ sections => (perm_exprsSections sections).append_left _
  | eval _ | declare .. | ret _ | breakLoop | continueLoop => .refl _

theorem perm_exprsAll : ∀ ss : List Stmt,
    ((ss :: scopesAll ss).flatMap headerExprs).Perm (exprsAll ss)
  | []      => .refl _
  | s :: ss => by
    have here := perm_exprs s
    have later := perm_exprsAll ss
    rw [List.flatMap_cons] at later ⊢
    rw [exprsAll, headerExprs_cons, scopesAll, List.flatMap_append, List.append_assoc]
    refine .trans ?_ (here.append later)
    rw [List.append_assoc]
    exact (List.perm_append_comm_assoc ..).append_left _

theorem perm_exprsSections : ∀ sections,
    ((scopesSections sections).flatMap headerExprs).Perm (exprsSections sections)
  | []                => .refl _
  | (_, body) :: rest => by
    have inside := (perm_exprsAll body).append (perm_exprsSections rest)
    rw [scopesSections, exprsSections, List.flatMap_append]
    exact inside

end

-- Of the variables that have one name the first is found.
theorem foldl_first (vs found : List (String × TypeRef)) (nodup : (found.map Prod.fst).Nodup) :
    let result := vs.foldl
      (fun found v => if found.any (·.1 == v.1) then found else found ++ [v]) found
    (result.map Prod.fst).Nodup ∧ ∀ v, v ∈ result ↔
      v ∈ found ∨ v.1 ∉ found.map Prod.fst ∧ vs.find? (·.1 == v.1) = some v := by
  induction vs generalizing found
  case nil => simpa using nodup
  case cons w vs hi =>
    have taken : found.any (·.1 == w.1) ↔ w.1 ∈ found.map Prod.fst := by simp
    rw [List.foldl_cons]
    by_cases known : w.1 ∈ found.map Prod.fst
    case pos =>
      have ⟨distinct, members⟩ := hi found nodup
      rw [if_pos (taken.mpr known)]
      refine ⟨distinct, fun v => (members v).trans (or_congr_right (and_congr_right ?_))⟩
      intro fresh
      rw [List.find?_cons_of_neg]
      intro same
      exact fresh (beq_iff_eq.mp same ▸ known)
    case neg =>
      have nodup' : ((found ++ [w]).map Prod.fst).Nodup := by
        rw [List.map_append]
        exact nodup.append (List.nodup_singleton _) (by simpa using known)
      have ⟨distinct, members⟩ := hi (found ++ [w]) nodup'
      rw [if_neg (mt taken.mp known)]
      refine ⟨distinct, fun v => (members v).trans ?_⟩
      simp only [List.mem_append, List.mem_singleton, List.map_append, List.map_singleton, not_or]
      by_cases same : w.1 = v.1
      case pos =>
        rw [List.find?_cons_of_pos (by simpa using same), Option.some_inj, ← same]
        grind
      case neg =>
        rw [List.find?_cons_of_neg (by simpa using same)]
        grind

theorem nodup_outputVariables : ((outputVariables body).map Prod.fst).Nodup :=
  (foldl_first _ [] List.nodup_nil).left

theorem mem_outputVariables {v : String × TypeRef} : v ∈ outputVariables body ↔
    ((headerExprs body).filterMap outVariable?).find? (·.1 == v.1) = some v := by
  have members := (foldl_first ((headerExprs body).filterMap outVariable?) [] List.nodup_nil).right
  refine (members v).trans ?_
  simp only [List.not_mem_nil, List.map_nil, not_false_eq_true, true_and, false_or]

-- The names that scopes declare at their tops, as they are spelled.
def declaredNames (scopes : List (Nat × List Stmt)) : List String :=
  scopes.flatMap fun scope => (declared scope.1 scope.2).map fun v => identifier v.1

def outputNames (scopes : List (List Stmt)) : List String :=
  (scopes.flatMap outputVariables).map fun v => identifier v.1

theorem map_identifier_replaced :
    ((replaced (headerExprs body) (headerExprs (hoistScope next body))).map
      fun v => identifier v.1) =
    (replaced (headerExprs body) (headerExprs (hoistScope next body))).map Prod.fst := by
  rw [headerExprs_hoistScope, replaced_namedEach, List.map_map, List.map_map]
  exact List.map_congr_left fun d _ => identifier_discardName d.2

theorem count_declaredNames (next : Nat) (scopes : List (List Stmt)) (name : String) :
    (declaredNames (numbered next scopes)).count name =
    (outputNames scopes).count name + (discardNames (numbered next scopes)).count name := by
  induction scopes generalizing next
  case nil => rfl
  case cons body scopes hi =>
    have later := hi (next + own body)
    simp only [declaredNames, outputNames, discardNames, numbered, List.flatMap_cons,
      List.map_append, declared_eq, map_identifier_replaced, List.count_append] at later ⊢
    omega

end Stmt

open Stmt

-- What becomes of the outputs in a body that is emitted as a function. The body is written as the
-- one that declares at the top of each scope the outputs that its headers declare inline, and a
-- variable for each that they throw away. A name for one that is thrown away is declared once, and
-- once more for each output of that name.
structure HoistsOutputs (env : Emission) (c : Bool) (body : List Stmt) (f : EmittedFunction)
    (s : Emitter) : Prop where
  written   : ∃ scope s', env.withScope f.definition.body.target (hoistScope 0 body)
      (env.lowerStmts (hoistScope 0 body)) { inConstructor := c } = .ok scope s' ∧
    scope.outputs = [] ∧ scope.discards = [] ∧ f.definition.body.Alike scope
  -- Hoisting goes from scope to scope, and every expression is in the header of one of them.
  scopes    : hoistScope 0 body :: scopesAll (hoistScope 0 body) =
    hoistEach 0 (body :: scopesAll body)
  partition : ((body :: scopesAll body).flatMap headerExprs).Perm (exprsAll body)
  -- A scope first declares what its headers name, and they come to no other outputs.
  tops      : ∀ scope ∈ numbered 0 (body :: scopesAll body), ∃ rest,
    hoistScope scope.1 scope.2 =
      ((outputVariables scope.2 ++ replaced (headerExprs scope.2) (headerExprs rest)).map
        fun v => .declare v.1 v.2 none) ++ rest ∧
    headerExprs rest = Expr.namedEach scope.1 (headerExprs scope.2)
  settled   : ∀ scope ∈ hoistScope 0 body :: scopesAll (hoistScope 0 body),
    outputVariables scope = [] ∧ discardedTypes scope = []
  names     : discardNames (numbered 0 (body :: scopesAll body)) =
    (List.range (reserved (body :: scopesAll body))).map discardName
  distinct  : (discardNames (numbered 0 (body :: scopesAll body))).Nodup
  -- No number is drawn that is not reserved at the top of a scope.
  drawn     : s.nextDiscard = reserved (body :: scopesAll body) ∧ s.discards = []
  outputs   : ∀ scope ∈ body :: scopesAll body, ((outputVariables scope).map Prod.fst).Nodup ∧
    ∀ v, v ∈ outputVariables scope ↔
      ((headerExprs scope).filterMap outVariable?).find? (·.1 == v.1) = some v
  once      : ∀ name ∈ discardNames (numbered 0 (body :: scopesAll body)),
    (declaredNames (numbered 0 (body :: scopesAll body))).count name =
    (outputNames (body :: scopesAll body)).count name + 1

theorem withScope_of_emit {env : Emission} {id : MethodId} {s s' : Emitter}
    {f : EmittedFunction} {m : MethodDecl} {body : List Stmt}
    (emitted : env.emit id s = .ok f s') (known : env.program.method? id = some m)
    (given : m.body = some body) :
    env.withScope (if m.isConstructor then some f.definition.returnType else none) body
      (env.lowerStmts body) { inConstructor := m.isConstructor } = .ok f.definition.body s' := by
  simp only [emit, known, given] at emitted
  obtain ⟨_, s₁, reset, h⟩ := exists_of_bind_eq_ok emitted
  cases reset
  obtain ⟨shape, s₂, typed, h⟩ := exists_of_bind_eq_ok h
  obtain ⟨scope, s₃, lowered, h⟩ := exists_of_bind_eq_ok h
  cases h
  obtain ⟨_, kept⟩ := liftExcept_eq_ok_iff.mp (locate_eq_ok_iff.mp typed)
  subst kept
  exact lowered

theorem exists_withScope_of_emit {env : Emission} {id : MethodId} {s s' : Emitter}
    {f : EmittedFunction} {m : MethodDecl} {body : List Stmt}
    (emitted : env.emit id s = .ok f s') (known : env.program.method? id = some m)
    (given : m.body = some body) : ∃ target,
    env.withScope target body (env.lowerStmts body) { inConstructor := m.isConstructor } =
      .ok f.definition.body s' :=
  ⟨_, withScope_of_emit emitted known given⟩

theorem hoistsOutputs_of_emit {env : Emission} {id : MethodId} {s s' : Emitter}
    {f : EmittedFunction} {m : MethodDecl} {body : List Stmt}
    (emitted : env.emit id s = .ok f s') (known : env.program.method? id = some m)
    (given : m.body = some body) (exposed : ExposedAll (body :: scopesAll body)) :
    HoistsOutputs env m.isConstructor body f s' := by
  obtain ⟨target, lowered⟩ := exists_withScope_of_emit emitted known given
  have hoists := lowerStmts_follows env body exposed.head exposed.tail
  have ⟨left, follow⟩ := scope_follows hoists _ _ _ rfl lowered
  have ⟨scope, run, alike⟩ := follow ⟨[], 0⟩
  have names := discardNames_numbered 0 (body :: scopesAll body)
  rw [← List.range_eq_range'] at names
  have ⟨queues, next⟩ : s'.discards = [] ∧ s'.nextDiscard = _ := Supply.mk.injEq .. ▸ left
  have nodup : (discardNames (numbered 0 (body :: scopesAll body))).Nodup := by
    rw [names]
    exact List.nodup_range.map fun _ _ => discardName_inj.mp
  have scopes_eq := scopesAll_hoistScope (scopesAll_hoistAll 0 (0 + own body) body)
  exact {
    written     := by
      obtain ⟨_, _, _, _, made, _, _, _, _⟩ := withScope_eq_ok lowered
      obtain ⟨outputs, discards, items, _, rfl, declares, reserves, _, _⟩ := withScope_eq_ok run
      rw [outputVariables_hoistScope] at declares
      rw [discardedTypes_hoistScope] at reserves
      cases declares
      cases reserves
      rw [made] at alike ⊢
      exact ⟨_, _, run, rfl, rfl, alike⟩
    scopes      := scopes_eq
    partition   := perm_exprsAll body
    tops        := by
      rintro ⟨number, body⟩ -
      refine ⟨hoistAll number (number + own body) body, ?_, headerExprs_hoistAll⟩
      rw [headerExprs_hoistAll, ← headerExprs_hoistScope, ← declared_eq]
      rfl
    settled     := by
      rw [scopes_eq]
      intro scope mem
      obtain ⟨⟨number, body⟩, -, rfl⟩ := List.mem_map.mp mem
      exact ⟨outputVariables_hoistScope, discardedTypes_hoistScope⟩
    names       := names
    distinct    := nodup
    drawn       := ⟨by simpa using next, queues⟩
    outputs _ _ := ⟨nodup_outputVariables, fun _ => mem_outputVariables⟩
    once _ mem  := by rw [count_declaredNames, List.count_eq_one_of_mem nodup mem] }

def split : MethodDecl where
  name       := "split"
  returnType := .void "void" []
  parameters := [
    { name := "over", ty := .primitive "float" [], direction := .output },
    { name := "under", ty := .primitive "float" [], direction := .output }]
  body       := some []

def level : MethodDecl where
  name       := "level"
  returnType := .primitive "bool" []
  parameters := [{ name := "depth", ty := .primitive "int" [], direction := .output }]
  body       := some [.ret (some (.literal ⟨.primitive "bool" [], none⟩ (.bool true)))]

def drainBody : List Stmt := [
  .eval (.call ⟨.void "void" [], none⟩ "Sluice" "split" [
    .outVariable ⟨.primitive "float" [], none⟩ "_discard0",
    .discard ⟨.primitive "float" [], none⟩]),
  .doLoop
    [.eval (.call ⟨.void "void" [], none⟩ "Sluice" "split" [
      .discard ⟨.primitive "float" [], none⟩, .discard ⟨.primitive "float" [], none⟩])]
    (.call ⟨.primitive "bool" [], none⟩ "Sluice" "level" [.discard ⟨.primitive "int" [], none⟩])]

def drain : MethodDecl where
  name       := "drain"
  returnType := .void "void" []
  body       := some drainBody

-- A sluice that drains until it is level. The loop throws its condition's output away after those
-- in its body, and one output is spelled like a discard variable.
def sluice : Program where
  types         := [{ name := "Sluice", kind := .object, methods := [split, level, drain] }]
  sets          := []
  types_nodup   := by decide
  methods_nodup := by decide

def sluiceEmission : Emission where
  target    := {}
  program   := sluice
  resources := []
  stage     := .fragment

def drained : EmittedFunction where
  function      := (ShaderFunction.ofDecl "Sluice" drain).mark .empty
  definition    := ⟨"void", "drain", [],
    .mk none [⟨"float", "_discard0"⟩] [("float", 0), ("int", 1)] [
      .simple (.term (.call ⟨"Sluice", "split"⟩ [.atom "_discard0", .discarded 0])),
      .doLoop
        (.mk none [] [("float", 2), ("float", 3)]
          [.simple (.term (.call ⟨"Sluice", "split"⟩ [.discarded 2, .discarded 3]))])
        (.call ⟨"Sluice", "level"⟩ [.discarded 1])]⟩
  resourcesUsed := []

theorem sluice_drained :
    sluiceEmission.emit ⟨"Sluice", "drain"⟩ {} = .ok drained { nextDiscard := 4 } := by rfl

example : drained.text =
    "void drain()\n\x7b\n    float _discard0;\n    float _discard0;\n    int _discard1;\n" ++
    "    split(_discard0, _discard0);\n    do\n    \x7b\n        float _discard2;\n" ++
    "        float _discard3;\n        split(_discard2, _discard3);\n    \x7d\n" ++
    "    while (level(_discard1));\n\x7d\n" := by
  decide +kernel

theorem drain_exposed : ExposedAll (drainBody :: scopesAll drainBody) := by
  have noMember {e : Expr} (h : ∀ e' ∈ e.subterms, ∀ node target symbol,
      e' ≠ .member node target symbol) : e.Reaches :=
    fun node target symbol mem => absurd rfl (h _ mem node target symbol)
  have each : ∀ s ∈ (drainBody :: scopesAll drainBody).flatten, s.initializers = [] ∧
      ∀ e ∈ s.ownExprs, ∀ e' ∈ e.subterms, ∀ node target symbol,
        e' ≠ .member node target symbol := by
    simp [drainBody, scopesAll, Stmt.scopes, initializers, ownExprs, Expr.subterms,
      Expr.subtermsAll]
  intro body mem s inside
  obtain ⟨starts, reaches⟩ := each s (List.mem_flatten.mpr ⟨body, mem, inside⟩)
  exact ⟨by simp [starts], fun e mem => noMember (reaches e mem)⟩

theorem hoistsOutputs_of_emit_sluice :
    sluiceEmission.emit ⟨"Sluice", "drain"⟩ {} = .ok drained { nextDiscard := 4 } ∧
    HoistsOutputs sluiceEmission drain.isConstructor drainBody drained { nextDiscard := 4 } :=
  ⟨sluice_drained, hoistsOutputs_of_emit sluice_drained rfl rfl drain_exposed⟩

-- The scope declares a variable for what it throws away, and an output of that name as well.
theorem sluice_declares_twice :
    sluiceEmission.emit ⟨"Sluice", "drain"⟩ {} = .ok drained { nextDiscard := 4 } ∧
    ExposedAll (drainBody :: scopesAll drainBody) ∧
    discardName 0 ∈ discardNames (numbered 0 (drainBody :: scopesAll drainBody)) ∧
    drained.definition.body.outputs = [⟨"float", discardName 0⟩] ∧
    drained.definition.body.discards = [("float", 0), ("int", 1)] ∧
    (declaredNames (numbered 0 (drainBody :: scopesAll drainBody))).count (discardName 0) = 2 :=
  ⟨sluice_drained, drain_exposed, by decide +kernel, by decide +kernel, by decide +kernel,
    by decide +kernel⟩

end Shading
