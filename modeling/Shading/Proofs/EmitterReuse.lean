import Shading.Proofs.CallSequences
import Shading.Proofs.EmissionParts
import Shading.Proofs.LineWriter
import Shading.Proofs.OutputDeclarations
import Mathlib
/-!
An emitter can be used again.

Each scope that is opened while a body is walked is closed again if the walk succeeds. A walk that
fails leaves scopes open and a page half written, but the next function starts on an empty page and
without open scopes, and nothing else of what the emitter knows is looked at.
-/

namespace Shading

open Glsl Calls

namespace Emitter

theorem discards_touch (flag : Flag) (s : Emitter) : (s.touch flag).discards = s.discards := rfl

theorem discards_useResource (r : Resource) (s : Emitter) :
    (s.useResource r).discards = s.discards := by
  rw [useResource]
  cases resourceFlag? r.kind <;> dsimp only <;> split <;> rfl

theorem length_takeDiscard (s : Emitter) :
    s.takeDiscard.2.discards.length = s.discards.length := by
  simp only [takeDiscard]
  split
  case h_1 queues => simp [queues]
  case h_2        => rfl

end Emitter

-- Whenever the computation succeeds, as many scopes are open as before.
def Balanced (x : EmitM α) : Prop :=
  ∀ s a s', x s = .ok a s' → s'.discards.length = s.discards.length

namespace Balanced

variable {x : EmitM α} {f : α → EmitM β}

theorem pure (a : α) : Balanced (pure a) := by
  intro s _ _ h
  cases h
  rfl

theorem bind (first : Balanced x) (rest : ∀ a, Balanced (f a)) : Balanced (x >>= f) := by
  intro s b s'' h
  have ⟨a, s', ran, h⟩ := exists_of_bind_eq_ok h
  exact (rest a s' b s'' h).trans (first s a s' ran)

theorem fail (e : Error) : Balanced (throw e : EmitM α) := by
  intro s a s' h
  cases h

theorem lift (result : Except Error α) : Balanced (liftExcept result : EmitM α) := by
  intro s a s' h
  have ⟨_, kept⟩ := liftExcept_eq_ok_iff.mp h
  rw [kept]

theorem locate {location : Option Location} (h : Balanced x) :
    Balanced (EmitM.locate location x) :=
  fun s a s' ran => h s a s' (locate_eq_ok_iff.mp ran)

theorem get : Balanced get := by
  intro s _ _ h
  cases h
  rfl

theorem modifyGet {f : Emitter → α × Emitter}
    (h : ∀ s, (f s).2.discards.length = s.discards.length) : Balanced (modifyGet f) := by
  intro s _ _ ran
  cases ran
  exact h s

theorem modify {f : Emitter → Emitter} (h : ∀ s, (f s).discards = s.discards) :
    Balanced (modify f) :=
  modifyGet fun s => congrArg List.length (h s)

theorem compositional : EmitM.Compositional (fun _ => False) Balanced where
  pure          := pure
  bind          := bind
  throw _       := fail _
  lift _        := lift _
  locate        := locate
  get           := get
  touch flag    := modify (Emitter.discards_touch flag)
  useResource r := modify (Emitter.discards_useResource r)
  takeDiscard   := modifyGet Emitter.length_takeDiscard
  reserve       := modifyGet fun _ => rfl
  scope numbers h := by
    intro s b s' ran
    obtain ⟨_, s₁, opened, ran⟩ := exists_of_bind_eq_ok ran
    obtain ⟨a, s₂, walked, ran⟩ := exists_of_bind_eq_ok ran
    obtain ⟨_, s₃, closed, ran⟩ := exists_of_bind_eq_ok ran
    cases opened
    cases closed
    cases ran
    -- The body has run with one more scope open.
    have kept : s₂.discards.length = s.discards.length + 1 := h _ a s₂ walked
    rw [List.length_tail, kept, Nat.add_sub_cancel]

end Balanced

namespace Emission

variable (env : Emission)

-- Nothing is excluded here, so that all bodies are bounded.
theorem withScope_balanced {target : Option String} {statements body : List Stmt} :
    Balanced (env.withScope target statements (env.lowerStmts body)) := by
  have only : Error.OnlyEndless fun _ => False := ⟨fun _ => False.elim, fun _ _ => id⟩
  have bounded : env.Bounded (fun _ => False) (Stmt.exprsAll body) := fun _ _ _ _ _ => id
  exact withScope_of_parts Balanced.compositional only
    (lowerStmts_of_parts Balanced.compositional only body bounded)

-- What the emitter has done before is forgotten once the function is known to have a body.
theorem outcome_emit (id : MethodId) (s s' : Emitter) :
    outcome (env.emit id s) = outcome (env.emit id s') := by
  rw [emit]
  cases env.program.method? id
  case none => rfl
  case some m =>
    dsimp only
    cases m.body <;> rfl

variable {env} in
theorem discards_of_emit {id : MethodId} {s s' : Emitter} {f : EmittedFunction}
    (emitted : env.emit id s = .ok f s') : s'.discards = [] := by
  cases known : env.program.method? id
  case none =>
    rw [emit, known] at emitted
    cases emitted
  case some m =>
    cases given : m.body
    case none =>
      simp only [emit, known, given] at emitted
      cases emitted
    case some body =>
      have scope := withScope_of_emit emitted known given
      have closed := env.withScope_balanced _ _ _ scope
      exact List.eq_nil_of_length_eq_zero closed

theorem outcome_write (id : MethodId) (w : LineWriter) : outcome (env.write id w) =
    (outcome (env.emit id w.toEmitter)).map EmittedFunction.written := by
  have written := env.write_eq id w
  cases ran : env.emit id w.toEmitter
  case ok f s =>
    simp only [ran] at written
    rw [written]
    rfl
  case error e s =>
    simp only [ran] at written
    obtain ⟨p, written⟩ := written
    rw [written]
    rfl

variable {env} in
theorem left_of_write {id : MethodId} {w w' : LineWriter} {f : WrittenFunction}
    (h : env.write id w = .ok f w') : w'.toPage = {} ∧ w'.discards = [] := by
  have written := env.write_eq id w
  cases ran : env.emit id w.toEmitter
  case ok f' s =>
    simp only [ran, h] at written
    have closed : s.discards = [] := discards_of_emit ran
    cases written
    exact ⟨rfl, closed⟩
  case error e s =>
    simp only [ran, h] at written
    obtain ⟨p, written⟩ := written
    cases written

-- What an emitter can be asked for: a function, or an expression that stands alone.
inductive Job where
  | function (id : MethodId)
  | expression (e : Expr)

inductive Work where
  | function (f : WrittenFunction)
  | expression (text : String)

namespace Job

def write : Job → WriteM Work
  | function id  => return .function (← env.write id)
  | expression e => return .expression (← LineWriter.quietly (env.lower e)).text

def emit : Job → EmitM Work
  | function id  => return .function (← env.emit id).written
  | expression e => return .expression (← env.lower e).text

end Job

-- Whatever an emitter or a writer has been used for, it does what a new one does.
structure Renewed (env : Emission) (w : LineWriter) (s : Emitter) (id : MethodId) : Prop where
  writes  : outcome (env.write id w) = outcome (env.write id {})
  emits   : outcome (env.emit id s) = outcome (env.emit id {})
  alike   : outcome (env.write id w) = (outcome (env.emit id s)).map EmittedFunction.written
  -- When it succeeds, the indentation and the open scopes are as they were at the very start.
  closed  : ∀ f w', env.write id w = .ok f w' → w'.indent = 0 ∧ w'.discards = []
  emptied : ∀ f s', env.emit id s = .ok f s' → s'.discards = []

theorem renewed_after (jobs : List Job) (id : MethodId) :
    Renewed env (after (Job.write env) jobs {})
      (after (Job.emit env) jobs {}) id where
  writes := by
    rw [outcome_write, outcome_write, env.outcome_emit id _ ({} : LineWriter).toEmitter]
  emits := env.outcome_emit id _ _
  alike := by
    rw [outcome_write, env.outcome_emit id _ (after (Job.emit env) jobs {})]
  closed f w' h := by
    obtain ⟨page, scopes⟩ := left_of_write h
    exact ⟨congrArg Page.indent page, scopes⟩
  emptied f s' h := discards_of_emit h

end Emission

def vent : MethodDecl where
  name       := "vent"
  returnType := .void "void" []
  parameters := [
    { name := "heat", ty := .primitive "float" [] },
    { name := "smoke", ty := .primitive "float" [], direction := .output }]
  body       := some []

def venting (heat : Symbol) : Stmt :=
  .eval (.call ⟨.void "void" [], none⟩ "Kiln" "vent" [
    .name ⟨.primitive "float" [], none⟩ heat, .discard ⟨.primitive "float" [], none⟩])

-- There is no such builtin.
def ash : Symbol := ⟨builtinsTypeName, "Ash", .property⟩

def fire : MethodDecl where
  name       := "fire"
  returnType := .void "void" []
  body       := some [.block [venting ⟨"", "heat", .local⟩, .block [venting ash]]]

def cool : MethodDecl where
  name       := "cool"
  returnType := .void "void" []
  parameters := [{ name := "heat", ty := .primitive "float" [] }]
  body       := some [venting ⟨"", "heat", .parameter⟩]

-- A kiln that cannot be fired.
def kiln : Program where
  types         := [{ name := "Kiln", kind := .object, methods := [vent, fire, cool] }]
  sets          := []
  types_nodup   := by decide
  methods_nodup := by decide

def kilnEmission : Emission where
  target    := {}
  program   := kiln
  resources := []
  stage     := .fragment

def kilnJobs : List Emission.Job :=
  [.function ⟨"Kiln", "fire"⟩, .expression (.name ⟨.primitive "float" [], none⟩ ash)]

-- What is left of the fire: three open scopes, in the innermost of which a variable is not used.
def embers : LineWriter where
  output      := "void fire()\n\x7b\n    \x7b\n        float _discard0;\n" ++
    "        vent(heat, _discard0);\n        \x7b\n            float _discard1;\n"
  indent      := 3
  discards    := [[1], [], []]
  nextDiscard := 2

def cooled : WrittenFunction where
  function      := (ShaderFunction.ofDecl "Kiln" cool).mark .empty
  text          := "void cool(float heat)\n\x7b\n    float _discard0;\n" ++
    "    vent(heat, _discard0);\n\x7d\n"
  resourcesUsed := []

theorem renewed_after_fire :
    after (Emission.Job.write kilnEmission) kilnJobs {} = embers ∧
    kilnEmission.write ⟨"Kiln", "cool"⟩ embers = .ok cooled { nextDiscard := 1 } ∧
    kilnEmission.Renewed (after (Emission.Job.write kilnEmission) kilnJobs {})
      (after (Emission.Job.emit kilnEmission) kilnJobs {}) ⟨"Kiln", "cool"⟩ :=
  ⟨by rfl, by rfl, kilnEmission.renewed_after kilnJobs ⟨"Kiln", "cool"⟩⟩

end Shading
