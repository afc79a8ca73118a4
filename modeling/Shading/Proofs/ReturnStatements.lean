import Shading.Proofs.OutputDeclarations
import Shading.Proofs.Occurrences
import Mathlib
/-!
What functions return.

The return statements of a body are written as they stand, each in its place. A constructor ends by
returning what it has constructed, and only there: where its body returns early, at whatever depth,
nothing is returned.
-/

open Relation

namespace Shading

open Glsl Emission

namespace Glsl

-- How a return statement is written that returns a value, or none.
def returnText : Option String → String
  | none       => "return;"
  | some value => "return " ++ value ++ ";"

mutual

-- What the return statements in a scope return, in the order in which they are written.
def Scope.returns : Scope → List (Option String)
  | .mk target _ _ items =>
    Item.returnsAll items ++ if target.isSome then [some constructorTarget] else []

def Item.returns : Item → List (Option String)
  | .ret value => [value.map Term.text]
  | .scope scope | .forLoop _ _ _ scope | .whileLoop _ scope | .doLoop scope _ => scope.returns
  | .branch _ thenScope none => thenScope.returns
  | .branch _ thenScope (some elseScope) => thenScope.returns ++ elseScope.returns
  | .switch _ sections => returnsSections sections
  | .simple _ | .breakLoop | .continueLoop => []

def Item.returnsAll : List Item → List (Option String)
  | []            => []
  | item :: items => item.returns ++ Item.returnsAll items

def returnsSections : List (List String × Scope) → List (Option String)
  | []                 => []
  | (_, scope) :: rest => scope.returns ++ returnsSections rest

end

-- A text in which return statements stand on lines of their own, one after the other.
inductive Returning : List (Option String) → String → Prop where
  | nil {text : String} : Returning [] text
  | cons {value : Option String} {values : List (Option String)} {before rest : String}
    (depth : Nat) (later : Returning values rest) :
    Returning (value :: values) (before ++ (line depth (returnText value) ++ rest))

namespace Returning

variable {values values' : List (Option String)} {text text' : String}

theorem after (h : Returning values text) (before : String) :
    Returning values (before ++ text) := by
  cases h
  case nil              => exact .nil
  case cons depth later =>
    rw [← String.append_assoc]
    exact .cons depth later

theorem append (h : Returning values text) (h' : Returning values' text') :
    Returning (values ++ values') (text ++ text') := by
  induction h
  case nil => exact h'.after _
  case cons depth _ hi =>
    rw [String.append_assoc, String.append_assoc]
    exact .cons depth hi

theorem before (h : Returning values text) (rest : String) : Returning values (text ++ rest) := by
  rw [← List.append_nil values]
  exact h.append .nil

theorem single (depth : Nat) (value : Option String) :
    Returning [value] (line depth (returnText value)) := by
  have alone : Returning [value] ("" ++ (line depth (returnText value) ++ "")) := .cons depth .nil
  rwa [String.empty_append, String.append_empty] at alone

end Returning

theorem scopeFooter_returning (depth : Nat) (target : Option String) :
    Returning (if target.isSome then [some constructorTarget] else [])
      (scopeFooter depth target) := by
  cases target
  case none => exact .nil
  case some => exact .single depth _

mutual

-- The return statements of a scope are written on lines of its text, wherever they are nested.
theorem Scope.text_returning (scope : Scope) (depth : Nat) :
    Returning scope.returns (scope.text depth) := by
  obtain ⟨target, outputs, discards, items⟩ := scope
  rw [Scope.returns, Scope.text]
  refine .before (.append ?_ (scopeFooter_returning _ target)) _
  exact (Item.textAll_returning items _).after _

theorem Item.text_returning (item : Item) (depth : Nat) :
    Returning item.returns (item.text depth) := by
  cases item
  case simple | breakLoop | continueLoop => exact .nil
  case ret value =>
    cases value
    case none => exact .single depth none
    case some => exact .single depth _
  case scope scope => exact scope.text_returning depth
  case branch thenScope elseScope =>
    cases elseScope
    case none => exact (thenScope.text_returning depth).after _
    case some elseScope =>
      rw [Item.returns, Item.text]
      exact (((thenScope.text_returning depth).after _).before _).append
        (elseScope.text_returning depth)
  case forLoop body   => exact (body.text_returning depth).after _
  case whileLoop body => exact (body.text_returning depth).after _
  case doLoop body _  => exact ((body.text_returning depth).after _).before _
  case switch sections => exact ((sectionsText_returning sections depth).after _).before _

theorem Item.textAll_returning (items : List Item) (depth : Nat) :
    Returning (Item.returnsAll items) (Item.textAll depth items) := by
  cases items
  case nil => exact .nil
  case cons item items =>
    rw [Item.returnsAll, Item.textAll]
    exact (item.text_returning depth).append (Item.textAll_returning items depth)

theorem sectionsText_returning (sections : List (List String × Scope)) (depth : Nat) :
    Returning (returnsSections sections) (sectionsText depth sections) := by
  cases sections
  case nil => exact .nil
  case cons first rest =>
    obtain ⟨labels, scope⟩ := first
    rw [returnsSections, sectionsText]
    exact ((scope.text_returning _).after _).append (sectionsText_returning rest depth)

end

end Glsl

namespace Stmt

mutual

-- What the return statements in the bodies of a statement return. One that stands in the header
-- of a loop is left out there.
def returns : Stmt → List (Option Expr)
  | ret value => [value]
  | block body | forLoop _ _ _ body | whileLoop _ body | doLoop body _ => returnsAll body
  | branch _ thenBody none => returnsAll thenBody
  | branch _ thenBody (some elseBody) => returnsAll thenBody ++ returnsAll elseBody
  | switch _ sections => returnsSections sections
  | eval _ | declare .. | breakLoop | continueLoop => []

def returnsAll : List Stmt → List (Option Expr)
  | []      => []
  | s :: ss => s.returns ++ returnsAll ss

def returnsSections : List (List Label × List Stmt) → List (Option Expr)
  | []                => []
  | (_, body) :: rest => returnsAll body ++ returnsSections rest

end

theorem returnsAll_eq (ss : List Stmt) : returnsAll ss = ss.flatMap returns := by
  induction ss
  case nil     => rfl
  case cons hi => rw [returnsAll, hi, List.flatMap_cons]

theorem returnsSections_eq (sections : List (List Label × List Stmt)) :
    returnsSections sections = (sections.flatMap Prod.snd).flatMap returns := by
  induction sections
  case nil => rfl
  case cons hi => rw [returnsSections, hi, returnsAll_eq, List.flatMap_cons, List.flatMap_append]

-- What a statement returns if it is a return statement.
def returned : Stmt → List (Option Expr)
  | ret value => [value]
  | _         => []

theorem returns_eq (s : Stmt) : s.returns = s.returned ++ s.children.flatMap returns := by
  cases s
  case branch otherwise => cases otherwise <;> simp [returns, returned, children, returnsAll_eq]
  all_goals simp [returns, returned, children, returnsAll_eq, returnsSections_eq]

theorem mem_returned {s : Stmt} {value : Option Expr} : value ∈ s.returned ↔ s = .ret value := by
  cases s <;> simp [returned, eq_comm]

-- A return statement inside a statement at any depth of blocks, branches, loops and sections.
theorem mem_returns {s : Stmt} {value : Option Expr} :
    value ∈ s.returns ↔ ReflTransGen (fun s s' => s' ∈ s.children) s (.ret value) := by
  have unfold (s : Stmt) (value : Option Expr) :
      value ∈ s.returns ↔ value ∈ s.returned ∨ ∃ s' ∈ s.children, value ∈ s'.returns := by
    simp [returns_eq s]
  refine (mem_iff_of_unfold unfold fun _ _ => sizeOf_child).trans ?_
  simp [mem_returned]

theorem mem_returnsAll {body : List Stmt} {value : Option Expr} : value ∈ returnsAll body ↔
    ∃ s ∈ body, ReflTransGen (fun s s' => s' ∈ s.children) s (.ret value) := by
  simp only [returnsAll_eq, List.mem_flatMap, mem_returns]

theorem returnsAll_eq_nil_iff {body : List Stmt} : returnsAll body = [] ↔
    ∀ s ∈ body, ∀ value, ¬ ReflTransGen (fun s s' => s' ∈ s.children) s (.ret value) := by
  simp only [List.eq_nil_iff_forall_not_mem, mem_returnsAll, not_exists, not_and]
  exact ⟨fun h s mem value => h value s mem, fun h value s mem => h s mem value⟩

end Stmt

namespace Emission

variable {env : Emission} {P : α → Prop} {Q : β → Prop} {x : EmitM α} {f : α → EmitM β}

-- What holds of whatever comes of emitting.
def Yields (Q : α → Prop) (x : EmitM α) : Prop :=
  ∀ s a s', x s = .ok a s' → Q a

namespace Yields

theorem any : Yields (fun _ => True) x := fun _ _ _ _ => trivial

theorem pure {a : α} (h : P a) : Yields P (Pure.pure a) := by
  rintro s _ s' ⟨⟩
  exact h

theorem bind (h : Yields P x) (next : ∀ a, P a → Yields Q (f a)) : Yields Q (x >>= f) := by
  intro s b s' run
  obtain ⟨a, s₁, first, run⟩ := exists_of_bind_eq_ok run
  exact next a (h s a s₁ first) s₁ b s' run

theorem withScope {target : Option String} {body : List Stmt} {lowered : EmitM (List Item)}
    {Q : List Item → Prop} (h : Yields Q lowered) :
    Yields (fun scope => scope.target = target ∧ Q scope.items)
      (env.withScope target body lowered) := by
  intro s scope s' run
  obtain ⟨outputs, discards, items, s₁, rfl, _, _, run, _⟩ := withScope_eq_ok run
  exact ⟨rfl, h _ _ _ run⟩

end Yields

-- How the value of an expression is written.
def Spelled (env : Emission) (e : Expr) (text : String) : Prop :=
  ∃ s t s', env.lower e s = .ok t s' ∧ t.text = text

-- Return statements are written one by one, and return the value that is written of theirs.
def Returned (env : Emission) : List (Option Expr) → List (Option String) → Prop :=
  List.Forall₂ (Option.Rel env.Spelled)

theorem lower_spelled (env : Emission) (e : Expr) :
    Yields (fun t => env.Spelled e t.text) (env.lower e) :=
  fun s t s' run => ⟨s, t, s', run, rfl⟩

theorem scope_returned {body : List Stmt} {values : List (Option Expr)}
    {lowered : EmitM (List Item)}
    (h : Yields (fun items => env.Returned values (Item.returnsAll items)) lowered) :
    Yields (fun scope => env.Returned values scope.returns) (env.withScope none body lowered) := by
  intro s scope s' run
  obtain ⟨plain, each⟩ := Yields.withScope h s scope s' run
  obtain ⟨target, outputs, discards, items⟩ := scope
  cases plain
  rwa [Scope.returns, Option.isSome_none, if_neg Bool.false_ne_true, List.append_nil]

mutual

theorem lowerStmt_returned (env : Emission) : ∀ s : Stmt,
    Yields (fun item => env.Returned s.returns item.returns) (env.lowerStmt s)
  | .block body => by
    rw [lowerStmt]
    exact (scope_returned (lowerStmts_returned env body)).bind fun _ h => .pure h
  | .eval e => by
    rw [lowerStmt]
    exact Yields.any.bind fun _ _ => .pure .nil
  | .declare name ty init => by
    rw [lowerStmt]
    exact Yields.any.bind fun _ _ => .pure .nil
  | .ret none => by
    rw [lowerStmt]
    exact .pure (.cons .none .nil)
  | .ret (some value) => by
    rw [lowerStmt]
    exact (lower_spelled env value).bind fun _ h => .pure (.cons (.some h) .nil)
  | .branch condition thenBody none => by
    rw [lowerStmt]
    refine Yields.any.bind fun _ _ => ?_
    exact (scope_returned (lowerStmts_returned env thenBody)).bind fun _ h => .pure h
  | .branch condition thenBody (some elseBody) => by
    rw [lowerStmt]
    refine Yields.any.bind fun _ _ => ?_
    refine (scope_returned (lowerStmts_returned env thenBody)).bind fun _ h => ?_
    refine (scope_returned (lowerStmts_returned env elseBody)).bind fun _ h' => ?_
    exact .pure (List.rel_append h h')
  | .forLoop init condition step body => by
    rw [lowerStmt]
    refine Yields.any.bind fun _ _ => Yields.any.bind fun _ _ => Yields.any.bind fun _ _ => ?_
    exact (scope_returned (lowerStmts_returned env body)).bind fun _ h => .pure h
  | .whileLoop condition body => by
    rw [lowerStmt]
    refine Yields.any.bind fun _ _ => ?_
    exact (scope_returned (lowerStmts_returned env body)).bind fun _ h => .pure h
  | .doLoop body condition => by
    rw [lowerStmt]
    refine (scope_returned (lowerStmts_returned env body)).bind fun _ h => ?_
    exact Yields.any.bind fun _ _ => .pure h
  | .switch scrutinee sections => by
    rw [lowerStmt]
    refine Yields.any.bind fun _ _ => ?_
    exact (lowerSections_returned env sections).bind fun _ h => .pure h
  | .breakLoop | .continueLoop => by
    rw [lowerStmt]
    exact .pure .nil

theorem lowerStmts_returned (env : Emission) : ∀ ss : List Stmt,
    Yields (fun items => env.Returned (Stmt.returnsAll ss) (Item.returnsAll items))
      (env.lowerStmts ss)
  | [] => by
    rw [lowerStmts]
    exact .pure .nil
  | s :: ss => by
    rw [lowerStmts]
    refine (lowerStmt_returned env s).bind fun _ h => ?_
    exact (lowerStmts_returned env ss).bind fun _ h' => .pure (List.rel_append h h')

theorem lowerSections_returned (env : Emission) : ∀ sections : List (List Label × List Stmt),
    Yields (fun scopes => env.Returned (Stmt.returnsSections sections) (returnsSections scopes))
      (env.lowerSections sections)
  | [] => by
    rw [lowerSections]
    exact .pure .nil
  | (labels, body) :: rest => by
    rw [lowerSections]
    refine (scope_returned (lowerStmts_returned env body)).bind fun _ h => ?_
    exact (lowerSections_returned env rest).bind fun _ h' => .pure (List.rel_append h h')

end

theorem returned_of_emit {id : MethodId} {s s' : Emitter} {f : EmittedFunction} {m : MethodDecl}
    {body : List Stmt} (emitted : env.emit id s = .ok f s')
    (known : env.program.method? id = some m) (given : m.body = some body) :
    ∃ values, env.Returned (Stmt.returnsAll body) values ∧ f.definition.body.returns =
      values ++ if m.isConstructor then [some constructorTarget] else [] := by
  have lowered := withScope_of_emit emitted known given
  obtain ⟨target, each⟩ := Yields.withScope (lowerStmts_returned env body) _ _ _ lowered
  refine ⟨_, each, ?_⟩
  generalize f.definition.body = scope at target
  obtain ⟨_, outputs, discards, items⟩ := scope
  cases target
  cases m.isConstructor
  all_goals rfl

namespace Returned

variable {before : List (Option Expr)} {after : List (Option String)}

theorem none_mem_iff (h : env.Returned before after) : none ∈ after ↔ none ∈ before := by
  induction h
  case nil => simp
  case cons value text _ _ here _ hi =>
    rw [List.mem_cons, List.mem_cons, hi]
    cases here <;> simp

-- Where nothing is returned in any place, nothing is written.
theorem eq_replicate (h : env.Returned before after) (bare : ∀ value ∈ before, value = none) :
    after = List.replicate before.length none := by
  rw [List.eq_replicate_iff]
  refine ⟨h.length_eq.symm, fun text mem => ?_⟩
  obtain ⟨value, mem, here⟩ := exists_left_of_mem h mem
  cases bare value mem
  cases here
  rfl

end Returned
end Emission

-- What the return statements in the definition of a function return.
structure ReturnsAsWritten (env : Emission) (m : MethodDecl) (body : List Stmt)
    (f : EmittedFunction) : Prop where
  -- They are those of the body, and in a constructor one more at the end.
  each     : ∃ values, env.Returned (Stmt.returnsAll body) values ∧ f.definition.body.returns =
    values ++ if m.isConstructor then [some constructorTarget] else []
  written  : Returning f.definition.body.returns f.text
  bare     : none ∈ f.definition.body.returns ↔
    ∃ s ∈ body, ReflTransGen (fun s s' => s' ∈ s.children) s (.ret none)
  -- A constructor that returns nothing by itself has as many empty return statements.
  early    : m.isConstructor → (∀ value ∈ Stmt.returnsAll body, value = none) →
    f.definition.body.returns =
      List.replicate (Stmt.returnsAll body).length none ++ [some constructorTarget]
  -- So it returns its target on all paths if and only if its body returns nowhere.
  complete : m.isConstructor → (∀ value ∈ Stmt.returnsAll body, value = none) →
    ((∀ value ∈ f.definition.body.returns, value = some constructorTarget) ↔
      ∀ s ∈ body, ∀ value, ¬ ReflTransGen (fun s s' => s' ∈ s.children) s (.ret value))

theorem returns_as_written {env : Emission} {id : MethodId} {s s' : Emitter}
    {f : EmittedFunction} {m : MethodDecl} {body : List Stmt}
    (emitted : env.emit id s = .ok f s') (known : env.program.method? id = some m)
    (given : m.body = some body) : ReturnsAsWritten env m body f := by
  obtain ⟨values, returned, all⟩ := returned_of_emit emitted known given
  have early (constructs : m.isConstructor)
      (bare : ∀ value ∈ Stmt.returnsAll body, value = none) : f.definition.body.returns =
      List.replicate (Stmt.returnsAll body).length none ++ [some constructorTarget] := by
    rw [all, returned.eq_replicate bare, if_pos constructs]
  exact {
    each     := ⟨values, returned, all⟩
    written  := (f.definition.body.text_returning 0).after _
    bare     := by
      rw [← Stmt.mem_returnsAll, ← returned.none_mem_iff, all]
      cases m.isConstructor <;> simp
    early    := early
    complete := by
      intro constructs bare
      rw [← Stmt.returnsAll_eq_nil_iff, early constructs bare, ← List.length_eq_zero_iff]
      cases (Stmt.returnsAll body).length <;> simp
  }

def beaconBody : List Stmt := [
  .branch (.name ⟨.primitive "bool" [], none⟩ ⟨"", "dark", .parameter⟩) [.ret none] none,
  .eval (.assign ⟨.primitive "int" [], none⟩ .assign
    (.member ⟨.primitive "int" [], none⟩ (.this ⟨.struct "Beacon" [], none⟩)
      ⟨"Beacon", "level", .field⟩)
    (.literal ⟨.primitive "int" [], none⟩ (.int 1)))]

def beaconInit : MethodDecl where
  name          := MethodId.constructorName
  isConstructor := true
  returnType    := .struct "Beacon" []
  parameters    := [{ name := "dark", ty := .primitive "bool" [] }]
  body          := some beaconBody

-- A beacon whose constructor leaves it as it is in the dark.
def beacon : Emission where
  target    := {}
  program   := {
    types         := [{
      name    := "Beacon"
      kind    := .struct
      fields  := [{ name := "level", ty := .primitive "int" [] }]
      methods := [beaconInit] }]
    sets          := []
    types_nodup   := by decide
    methods_nodup := by decide }
  resources := []
  stage     := .fragment

def beaconBuilt : EmittedFunction where
  function      := (ShaderFunction.ofDecl "Beacon" beaconInit).mark .empty
  definition    := ⟨"Beacon", "Beacon_ctor", [⟨.input, "bool", "dark"⟩],
    .mk (some "Beacon") [] [] [
      .branch (.atom "dark") (.mk none [] [] [.ret none]) none,
      .simple (.term (.assign .assign (.member (.atom "_this") "level") (.atom "1")))]⟩
  resourcesUsed := []

theorem beacon_built : beacon.emit ⟨"Beacon", MethodId.constructorName⟩ {} =
    .ok beaconBuilt { inConstructor := true } := by rfl

theorem returns_as_written_beacon :
    beacon.emit ⟨"Beacon", MethodId.constructorName⟩ {} =
      .ok beaconBuilt { inConstructor := true } ∧
    ReturnsAsWritten beacon beaconInit beaconBody beaconBuilt :=
  ⟨beacon_built, returns_as_written beacon_built rfl rfl⟩

-- The constructor returns nothing by itself, yet it does not return its target in the dark.
theorem beacon_returns_nothing :
    beacon.emit ⟨"Beacon", MethodId.constructorName⟩ {} =
      .ok beaconBuilt { inConstructor := true } ∧
    beaconInit.isConstructor ∧ Stmt.returnsAll beaconBody = [none] ∧
    beaconBuilt.definition.returnType = "Beacon" ∧
    beaconBuilt.definition.body.returns = [none, some constructorTarget] ∧
    beaconBuilt.text = "Beacon Beacon_ctor(bool dark)\n\x7b\n    Beacon _this;\n    if (dark)\n" ++
      "    \x7b\n        return;\n    \x7d\n    _this.level = 1;\n    return _this;\n\x7d\n" :=
  ⟨beacon_built, rfl, rfl, rfl, by decide +kernel, by decide +kernel⟩

end Shading
