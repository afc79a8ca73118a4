import Shading.Emission
import Mathlib
/-!
Emission line by line.

A writer is an emitter with a page. It puts each line on the page as soon as the line is known, so
that a failure leaves the page half written and indented. `Emission.emit` builds the definition of
a function instead, whose text is written as a whole. The two are run in step here: they end in the
same way with the same emitter, and the page of the one holds the text of the other.
-/

namespace Shading

open Glsl

-- What has been written, and the depth at which the next line stands.
structure Page where
  output : String := ""
  indent : Nat := 0
  deriving DecidableEq

namespace Page

def write (p : Page) (text : String) : Page := { p with output := p.output ++ text }

def line (p : Page) (text : String) : Page := p.write (Glsl.line p.indent text)

def lines (p : Page) (texts : List String) : Page := texts.foldl line p

def nest (p : Page) : Page := { p with indent := p.indent + 1 }

def unnest (p : Page) : Page := { p with indent := p.indent - 1 }

@[simp]
theorem indent_write (p : Page) (text : String) : (p.write text).indent = p.indent := rfl

@[simp]
theorem indent_nest (p : Page) : p.nest.indent = p.indent + 1 := rfl

@[simp]
theorem write_empty (p : Page) : p.write "" = p := by simp [write]

@[simp]
theorem write_write (p : Page) (t t' : String) : (p.write t).write t' = p.write (t ++ t') := by
  simp [write, String.append_assoc]

@[simp]
theorem unnest_write_nest (p : Page) (t : String) : (p.nest.write t).unnest = p.write t := rfl

theorem lines_eq (p : Page) (texts : List String) :
    p.lines texts = p.write (String.join (texts.map (Glsl.line p.indent))) := by
  induction texts generalizing p
  case nil => simp [lines]
  case cons text texts hi =>
    calc p.lines (text :: texts)
      _ = (p.line text).lines texts := rfl
      _ = (p.line text).write (String.join (texts.map (Glsl.line p.indent))) := hi _
      _ = _ := by simp [line]

end Page

-- An emitter that writes the function while it walks its body.
structure LineWriter extends Emitter, Page
  deriving DecidableEq

-- Writing of a part, which keeps what a failure leaves behind.
abbrev WriteM := EStateM Error LineWriter

-- What a writer returns: the function, marked with what its body touches, and its text.
structure WrittenFunction where
  function      : ShaderFunction
  text          : String
  resourcesUsed : List String

namespace LineWriter

-- Lets the emitter do something that writes nothing.
def quietly (x : EmitM α) : WriteM α := fun w =>
  match x w.toEmitter with
  | .ok a s    => .ok a ⟨s, w.toPage⟩
  | .error e s => .error e ⟨s, w.toPage⟩

def onPage (f : Page → Page) : WriteM Unit := modify fun w => ⟨w.toEmitter, f w.toPage⟩

def line (text : String) : WriteM Unit := onPage (·.line text)

def lines (texts : List String) : WriteM Unit := onPage (·.lines texts)

def nest : WriteM Unit := onPage Page.nest

def unnest : WriteM Unit := onPage Page.unnest

def takeOutput : WriteM String :=
  modifyGet fun w => (w.output, { w with output := "" })

end LineWriter

namespace Emission

open LineWriter

variable (env : Emission)

def writeOutput (v : String × TypeRef) : WriteM Unit := do
  let decl ← quietly (liftExcept (env.declaration v.1 v.2))
  line (decl.text ++ ";")

def writeDiscard (ty : TypeRef) : WriteM Nat := do
  let reserved ← quietly (env.reserveDiscard ty)
  line (reserved.1 ++ " " ++ discardName reserved.2 ++ ";")
  return reserved.2

-- A scope of statements, which `body` writes. `target` is as in `Glsl.Scope`.
def writeScope (target : Option String) (statements : List Stmt) (body : WriteM Unit) :
    WriteM Unit := do
  line "\x7b"
  nest
  lines (target.map fun ty => ty ++ " " ++ constructorTarget ++ ";").toList
  let _ ← (outputVariables statements).mapM env.writeOutput
  let numbers ← (discardedTypes statements).mapM env.writeDiscard
  quietly (modify fun s => { s with discards := numbers :: s.discards })
  body
  quietly (modify fun s => { s with discards := s.discards.tail })
  lines (target.map fun _ => "return " ++ constructorTarget ++ ";").toList
  unnest
  line "\x7d"

mutual

def writeStmt : Stmt → WriteM Unit
  | .block body => env.writeScope none body (writeStmts body)
  | .eval e => do
    let value ← quietly (env.lower e)
    line (value.text ++ ";")
  | .declare name ty init => do
    let statement ← quietly (env.lowerSimple (.declare name ty init))
    line (statement.text ++ ";")
  | .ret none => line "return;"
  | .ret (some value) => do
    let value ← quietly (env.lower value)
    line ("return " ++ value.text ++ ";")
  | .branch condition thenBody none => do
    let condition ← quietly (env.lower condition)
    line ("if (" ++ condition.text ++ ")")
    env.writeScope none thenBody (writeStmts thenBody)
  | .branch condition thenBody (some elseBody) => do
    let condition ← quietly (env.lower condition)
    line ("if (" ++ condition.text ++ ")")
    env.writeScope none thenBody (writeStmts thenBody)
    line "else"
    env.writeScope none elseBody (writeStmts elseBody)
  | .forLoop init condition step body => do
    let init ← quietly (init.mapM env.lowerSimple)
    let condition ← quietly (condition.mapM env.lower)
    let step ← quietly (env.lowerAll step)
    line ("for (" ++ String.intercalate ", " (init.map Simple.text) ++ "; " ++
      (condition.map Term.text).getD "" ++ "; " ++ Term.textArgs (step.map Operand.term) ++ ")")
    env.writeScope none body (writeStmts body)
  | .whileLoop condition body => do
    let condition ← quietly (env.lower condition)
    line ("while (" ++ condition.text ++ ")")
    env.writeScope none body (writeStmts body)
  | .doLoop body condition => do
    line "do"
    env.writeScope none body (writeStmts body)
    let condition ← quietly (env.lower condition)
    line ("while (" ++ condition.text ++ ");")
  | .switch scrutinee sections => do
    let scrutinee ← quietly (env.lower scrutinee)
    line ("switch (" ++ scrutinee.text ++ ")")
    line "\x7b"
    writeSections sections
    line "\x7d"
  | .breakLoop => line "break;"
  | .continueLoop => line "continue;"

def writeStmts : List Stmt → WriteM Unit
  | []      => pure ()
  | s :: ss => do
    writeStmt s
    writeStmts ss

def writeSections : List (List Label × List Stmt) → WriteM Unit
  | []                     => pure ()
  | (labels, body) :: rest => do
    lines (labels.map env.labelText)
    nest
    env.writeScope none body (writeStmts body)
    unnest
    writeSections rest

end

-- Writes the definition of a function on an empty page, and takes its text off the page.
def writeDefinition (id : MethodId) : WriteM WrittenFunction :=
  match env.program.method? id with
  | none => throw (.graph (.unresolvedCall id))
  | some m =>
    match m.body with
    | none => throw (.graph (.missingBody id) m.location)
    | some body => do
      onPage fun _ => {}
      quietly (set { inConstructor := m.isConstructor : Emitter })
      let header ← quietly (EmitM.locate m.location (liftExcept do
        return (← env.target.typeName m.returnType, ← m.parameters.mapM env.parameter)))
      line (header.1 ++ " " ++ functionName id ++ "(" ++
        String.intercalate ", " (header.2.map ParameterDecl.text) ++ ")")
      let target := if m.isConstructor then some header.1 else none
      env.writeScope target body (env.writeStmts body)
      let s ← quietly get
      let text ← takeOutput
      return ⟨(ShaderFunction.ofDecl id.owner m).mark s.usage, text, s.resourcesUsed⟩

-- Writes a function. The names of the resources that it uses are left to the caller.
def write (id : MethodId) : WriteM WrittenFunction := do
  let f ← env.writeDefinition id
  quietly (modify fun s => { s with resourcesUsed := [] })
  return f

end Emission

-- Run in step with `y`, `x` ends in the same way and leaves the same emitter, whatever the page. If
-- `y` returns `b` then `x`, which starts on the page `p`, returns `value b` and leaves the page
-- `page b`. What a failure leaves on the page is not said.
def Prints (p : Page) (x : WriteM α) (y : EmitM β) (value : β → α) (page : β → Page) : Prop :=
  ∀ s, match y s with
    | .ok b s'    => x ⟨s, p⟩ = .ok (value b) ⟨s', page b⟩
    | .error e s' => ∃ p', x ⟨s, p⟩ = .error e ⟨s', p'⟩

namespace Prints

open LineWriter

variable {p : Page} {x : WriteM α} {y : EmitM β} {value : β → α} {page : β → Page}

theorem pure {a : α} {b : β} (returned : value b = a) (left : page b = p) :
    Prints p (pure a) (pure b) value page := by
  subst returned left
  exact fun s => rfl

theorem quiet (y : EmitM β) : Prints p (quietly y) y id fun _ => p := by
  intro s
  cases ran : y s
  case ok b s'    => simp [quietly, ran]
  case error e s' => exact ⟨p, by simp [quietly, ran]⟩

theorem bind {f : α → WriteM γ} {g : β → EmitM δ} {value' : δ → γ} {page' : δ → Page}
    (first : Prints p x y value page)
    (rest : ∀ b, Prints (page b) (f (value b)) (g b) value' page') :
    Prints p (x >>= f) (y >>= g) value' page' := by
  intro s
  have first := first s
  cases ran : y s
  case ok b s' =>
    rw [ran] at first
    have rest := rest b s'
    simpa only [Bind.bind, EStateM.bind, ran, first] using rest
  case error e s' =>
    rw [ran] at first
    obtain ⟨p', first⟩ := first
    simp only [Bind.bind, EStateM.bind, ran, first]
    exact ⟨p', rfl⟩

theorem quiet_bind {f : β → WriteM α} (rest : ∀ b, Prints p (f b) (Pure.pure b) value page) :
    Prints p (quietly y >>= f) y value page := by
  have whole := (quiet (p := p) y).bind (g := Pure.pure) rest
  rwa [bind_pure] at whole

-- The other side has nothing to do for what happens on the page only.
theorem turn {f : Page → Page} {k : Unit → WriteM α} (rest : Prints (f p) (k ()) y value page) :
    Prints p (onPage f >>= k) y value page :=
  rest

theorem last {f : Page → Page} {b : β} {value : β → Unit} (left : page b = f p) :
    Prints p (onPage f) (Pure.pure b) value page := by
  intro s
  simp only [Pure.pure, EStateM.pure, left]
  rfl

theorem take {k : String → WriteM α}
    (rest : Prints { p with output := "" } (k p.output) y value page) :
    Prints p (takeOutput >>= k) y value page :=
  rest

theorem throw (e : Error) : Prints p (throw e) (throw e) value page :=
  fun _ => ⟨p, rfl⟩

theorem map {k : β → γ} {value' : γ → α} {page' : γ → Page} (h : Prints p x y value page)
    (returned : ∀ b, value' (k b) = value b) (left : ∀ b, page' (k b) = page b) :
    Prints p x (y >>= fun b => Pure.pure (k b)) value' page' := by
  intro s
  have h := h s
  cases ran : y s <;> simp_all [Bind.bind, EStateM.bind, Pure.pure, EStateM.pure]

theorem mapM {f : α → WriteM γ} {g : α → EmitM β} {value : β → γ} {t : Nat → β → String}
    (each : ∀ a p, Prints p (f a) (g a) value fun b => p.write (t p.indent b)) (as : List α)
    (p : Page) :
    Prints p (as.mapM f) (as.mapM g) (List.map value) fun bs =>
      p.write (String.join (bs.map (t p.indent))) := by
  induction as generalizing p
  case nil => exact .pure rfl (by simp)
  case cons a as hi =>
    simp only [List.mapM_cons]
    exact (each a p).bind fun b => (hi _).bind fun bs => .pure rfl (by simp)

end Prints

namespace Emission

open LineWriter

variable (env : Emission)

theorem writeOutputs_prints (vs : List (String × TypeRef)) (p : Page) :
    Prints p (vs.mapM env.writeOutput)
      (vs.mapM fun (name, ty) => liftExcept (env.declaration name ty)) (List.map fun _ => ())
      fun decls => p.write
        (String.join (decls.map fun d => Glsl.line p.indent (d.text ++ ";"))) := by
  refine Prints.mapM (t := fun depth (d : Declaration) => Glsl.line depth (d.text ++ ";"))
    (fun v p => ?_) vs p
  exact .quiet_bind fun decl => .last rfl

theorem writeDiscards_prints (tys : List TypeRef) (p : Page) :
    Prints p (tys.mapM env.writeDiscard) (tys.mapM env.reserveDiscard) (List.map Prod.snd)
      fun ds => p.write (String.join (ds.map fun d =>
        Glsl.line p.indent (d.1 ++ " " ++ discardName d.2 ++ ";"))) := by
  refine Prints.mapM (t := fun depth (d : String × Nat) =>
    Glsl.line depth (d.1 ++ " " ++ discardName d.2 ++ ";")) (fun ty p => ?_) tys p
  exact .quiet_bind fun d => .turn (.pure rfl rfl)

variable {env} in
theorem writeScope_prints {target : Option String} {statements : List Stmt} {body : WriteM Unit}
    {body' : EmitM (List Item)}
    (inner : ∀ p, Prints p body body' (fun _ => ()) fun items =>
      p.write (Item.textAll p.indent items)) (p : Page) :
    Prints p (env.writeScope target statements body) (env.withScope target statements body')
      (fun _ => ()) fun scope => p.write (scope.text p.indent) := by
  refine .turn (.turn (.turn ?_))
  refine (env.writeOutputs_prints _ _).bind fun outputs => ?_
  refine (env.writeDiscards_prints _ _).bind fun discards => ?_
  refine (Prints.quiet _).bind fun _ => (inner _).bind fun items => ?_
  refine (Prints.quiet _).bind fun _ => .turn (.turn (.last ?_))
  cases target <;>
    simp [Scope.text, scopeHeader, scopeFooter, Page.lines_eq, Page.line, String.append_assoc]

mutual

theorem writeStmt_prints : ∀ (s : Stmt) (p : Page),
    Prints p (env.writeStmt s) (env.lowerStmt s) (fun _ => ()) fun item =>
      p.write (item.text p.indent)
  | .block body, p => by
    rw [writeStmt, lowerStmt]
    exact (writeScope_prints (writeStmts_prints body) p).map (fun _ => rfl) fun _ => rfl
  | .eval e, p => by
    rw [writeStmt, lowerStmt]
    exact (Prints.quiet _).bind fun value => .last rfl
  | .declare name ty init, p => by
    rw [writeStmt, lowerStmt]
    exact (Prints.quiet _).bind fun statement => .last rfl
  | .ret none, p => by
    rw [writeStmt, lowerStmt]
    exact .last rfl
  | .ret (some value), p => by
    rw [writeStmt, lowerStmt]
    exact (Prints.quiet _).bind fun value => .last rfl
  | .branch condition thenBody none, p => by
    rw [writeStmt, lowerStmt]
    refine (Prints.quiet _).bind fun condition => .turn ?_
    refine (writeScope_prints (writeStmts_prints thenBody) _).map (fun _ => rfl) fun scope => ?_
    simp [Item.text, Page.line]
  | .branch condition thenBody (some elseBody), p => by
    rw [writeStmt, lowerStmt]
    refine (Prints.quiet _).bind fun condition => .turn ?_
    refine (writeScope_prints (writeStmts_prints thenBody) _).bind fun thenScope => .turn ?_
    refine (writeScope_prints (writeStmts_prints elseBody) _).map (fun _ => rfl) fun elseScope => ?_
    simp [Item.text, Page.line, String.append_assoc]
  | .forLoop init condition step body, p => by
    rw [writeStmt, lowerStmt]
    refine (Prints.quiet _).bind fun init => (Prints.quiet _).bind fun condition => ?_
    refine (Prints.quiet _).bind fun step => .turn ?_
    refine (writeScope_prints (writeStmts_prints body) _).map (fun _ => rfl) fun scope => ?_
    cases condition <;> simp [Item.text, Page.line, String.append_assoc]
  | .whileLoop condition body, p => by
    rw [writeStmt, lowerStmt]
    refine (Prints.quiet _).bind fun condition => .turn ?_
    refine (writeScope_prints (writeStmts_prints body) _).map (fun _ => rfl) fun scope => ?_
    simp [Item.text, Page.line]
  | .doLoop body condition, p => by
    rw [writeStmt, lowerStmt]
    refine .turn ((writeScope_prints (writeStmts_prints body) _).bind fun scope => ?_)
    refine (Prints.quiet _).bind fun condition => .last ?_
    simp [Item.text, Page.line, String.append_assoc]
  | .switch scrutinee sections, p => by
    rw [writeStmt, lowerStmt]
    refine (Prints.quiet _).bind fun scrutinee => .turn (.turn ?_)
    refine (writeSections_prints sections _).bind fun sections => .last ?_
    simp [Item.text, Page.line, String.append_assoc]
  | .breakLoop, p | .continueLoop, p => by
    rw [writeStmt, lowerStmt]
    exact .last rfl

theorem writeStmts_prints : ∀ (ss : List Stmt) (p : Page),
    Prints p (env.writeStmts ss) (env.lowerStmts ss) (fun _ => ()) fun items =>
      p.write (Item.textAll p.indent items)
  | [], p => by
    rw [writeStmts, lowerStmts]
    exact .pure rfl (by simp [Item.textAll])
  | s :: ss, p => by
    rw [writeStmts, lowerStmts]
    refine (writeStmt_prints s p).bind fun item => ?_
    refine (writeStmts_prints ss _).map (fun _ => rfl) fun items => ?_
    simp [Item.textAll]

theorem writeSections_prints : ∀ (sections : List (List Label × List Stmt)) (p : Page),
    Prints p (env.writeSections sections) (env.lowerSections sections) (fun _ => ()) fun written =>
      p.write (sectionsText p.indent written)
  | [], p => by
    rw [writeSections, lowerSections]
    exact .pure rfl (by simp [sectionsText])
  | (labels, body) :: rest, p => by
    rw [writeSections, lowerSections]
    refine .turn (.turn ((writeScope_prints (writeStmts_prints body) _).bind fun scope => .turn ?_))
    refine (writeSections_prints rest _).map (fun _ => rfl) fun sections => ?_
    simp [sectionsText, Page.lines_eq, String.append_assoc]

end

end Emission

def EmittedFunction.written (f : EmittedFunction) : WrittenFunction where
  function      := f.function
  text          := f.text
  resourcesUsed := f.resourcesUsed

namespace Emission

theorem writeDefinition_prints (env : Emission) (id : MethodId) (p : Page) :
    Prints p (env.writeDefinition id) (env.emit id) EmittedFunction.written fun _ => {} := by
  rw [writeDefinition, emit]
  cases env.program.method? id
  case none => exact .throw _
  case some m =>
    simp only
    cases m.body
    case none => exact .throw _
    case some body =>
      simp only
      refine .turn ?_
      refine (Prints.quiet _).bind fun _ => (Prints.quiet _).bind fun header => .turn ?_
      refine (writeScope_prints (env.writeStmts_prints body) _).bind fun scope => ?_
      refine (Prints.quiet _).bind fun s => .take (.pure ?text ?page)
      case text => rfl
      case page => rfl

-- Whether a function is built or written line by line, the call ends in the same way.
theorem write_eq (env : Emission) (id : MethodId) (w : LineWriter) :
    match env.emit id w.toEmitter with
    | .ok f s    => env.write id w = .ok f.written ⟨{ s with resourcesUsed := [] }, {}⟩
    | .error e s => ∃ p, env.write id w = .error e ⟨s, p⟩ := by
  have defined := env.writeDefinition_prints id w.toPage w.toEmitter
  cases ran : env.emit id w.toEmitter
  case ok f s =>
    rw [ran] at defined
    simp only [write, Bind.bind, EStateM.bind, defined]
    rfl
  case error e s =>
    rw [ran] at defined
    obtain ⟨p, defined⟩ := defined
    exact ⟨p, by simp only [write, Bind.bind, EStateM.bind, defined]⟩

end Emission
end Shading
