import Shading.Program
import Shading.Model
import Shading.Visit
import Shading.Glsl.Code
import Shading.Glsl.Intrinsic
/-!
Emission: method bodies become function definitions of the target language.

While a body is walked, builtins and intrinsics are checked to be legal in the stage, and what
the function touches is recorded. The state of an emitter survives a failure.
-/

namespace Shading

open Glsl

structure Emission where
  target    : Target
  program   : Program
  resources : List Resource
  stage     : Stage

structure Emitter where
  usage         : Usage := .empty
  -- The names of the resources referred to, in the order of their first use.
  resourcesUsed : List String := []
  inConstructor : Bool := false
  -- For each open scope, innermost first, the discard variables that are not used yet.
  discards      : List (List Nat) := []
  nextDiscard   : Nat := 0
  deriving DecidableEq

abbrev EmitM := EStateM Error Emitter

def EmitM.locate (location : Option Location) (x : EmitM α) : EmitM α :=
  EStateM.adaptExcept (·.locate location) x

namespace Emitter

def touch (flag : Flag) (s : Emitter) : Emitter :=
  { s with usage := s.usage.union (.only flag) }

def resourceFlag? : ResourceKind → Option Flag
  | .structuredBuffer | .rwStructuredBuffer | .atomicBuffer => some .structuredBuffer
  | .rwTexture2D => some .rwTexture2D
  | .texture2DMS => some .texture2DMS
  | _            => none

def useResource (r : Resource) (s : Emitter) : Emitter :=
  let s := match resourceFlag? r.kind with
    | some flag => s.touch flag
    | none      => s
  if r.name ∈ s.resourcesUsed then s
  else { s with resourcesUsed := s.resourcesUsed ++ [r.name] }

-- Takes the next discard variable of the innermost scope. If there is none, a number that no
-- variable has is taken.
def takeDiscard (s : Emitter) : Nat × Emitter :=
  match s.discards with
  | (number :: rest) :: outer => (number, { s with discards := rest :: outer })
  | _                         => (s.nextDiscard, { s with nextDiscard := s.nextDiscard + 1 })

end Emitter

-- The zero value of a type. A structure is expanded member by member, and an array member holds as
-- many copies of the zero of its elements as it declares. `path` names the structures around: one
-- of them that is come across again is expanded in the same way again and again.
def defaultValue (t : Target) (p : Program) (path : List String) (ty : TypeRef) :
    Except Error Term :=
  match ty with
  | .struct name args =>
    match found : p.type? name with
    | none => .error (.layout (.unknownType name))
    | some d =>
      if fresh : name ∈ path then .error ⟨.endless name, none⟩
      else do
        have := unvisited_cons_lt (Program.name_mem_of_type? found) fresh
        let members ← d.instanceFields.mapM fun f =>
          match f.ty.element?, f.arraySize with
          | some element, some count => do
            let value ← defaultValue t p (name :: path) element
            let mapped ← t.typeName element
            return Term.apply (mapped ++ "[" ++ toString count ++ "]") (List.replicate count value)
          | some _, none => .error (.layout (.missingArraySize name f.name))
          | none, _ => defaultValue t p (name :: path) f.ty
        return .apply (← t.typeName (.struct name args)) members
  | .enum _ underlying _ => t.zero underlying
  | ty => t.zero ty
termination_by unvisited (p.types.map TypeDecl.name) path

namespace Emission

variable (env : Emission)

def resource? (owner name : String) : Option Resource :=
  env.resources.find? fun r => r.owner == owner && r.name == name

def lowerBuiltin (name : String) : EmitM Term :=
  match BuiltinVariable.parse? name with
  | none => throw (.graph (.unknownIntrinsic builtinsTypeName name env.target.name))
  | some builtin => do
    unless builtin.stages.allows env.stage do
      throw (.stage (.builtinOutsideStage builtin.name env.stage builtin.stages))
    modify (Emitter.touch builtin.flag)
    return env.target.builtinVariable builtin

-- A field is a builtin variable, a constant, a resource, or a constant of a builtin type, in this
-- order. What is none of these keeps its name.
def lowerSymbol (s : Symbol) : EmitM Term :=
  match s.kind with
  | .local | .parameter | .method => return .atom (identifier s.name)
  | .type => return .atom (identifier (shortName s.name))
  | .field | .property =>
    if isBuiltinsType s.owner then env.lowerBuiltin s.name
    else
      match env.program.constant? s.owner s.name with
      | some value => return .atom (env.target.literal value)
      | none =>
        match env.resource? s.owner s.name with
        | some r => do
          modify (Emitter.useResource r)
          return .atom (identifier s.name)
        | none =>
          let constant := if (env.program.type? s.owner).isNone then
            staticMember? s.owner s.name else none
          return constant.getD (.atom (identifier s.name))

-- Whether a member of the expression is a name of its own: of a type, or of the shader itself.
def isImplicit (inConstructor : Bool) : Expr → Bool
  | .name _ s => s.kind == .type
  | .this _   => !inConstructor
  | _         => false

-- Whether a swizzle of the expression needs parentheses around it.
def needsGroup : Expr → Bool
  | .binary .. | .unary .. | .assign .. => true
  | _ => false

def isStorageImage (ty : TypeRef) : Bool := ty.short == "RWTexture2DResource"

-- Refuses an intrinsic of the builtins type outside its stages, and records atomic ones.
def checkIntrinsic (owner method : String) : EmitM Unit := do
  if isBuiltinsType owner then
    let allowed := intrinsicStages method
    unless allowed.allows env.stage do
      throw (.stage (.builtinOutsideStage (shortName owner ++ "." ++ method) env.stage allowed))
    if method == "InterlockedAdd" then modify (Emitter.touch .interlockedAdd)

mutual

-- An expression. What fails about it is located at it, unless it fails about a part of it.
def lower (e : Expr) : EmitM Term :=
  EmitM.locate e.location (match e with
    | .literal _ value => return .atom (env.target.literal value)
    | .name _ symbol => env.lowerSymbol symbol
    | .this _ => return .atom constructorTarget
    | .member _ target symbol => do
      if symbol.isData && isBuiltinsType symbol.owner then env.lowerBuiltin symbol.name
      else if isImplicit (← get).inConstructor target then env.lowerSymbol symbol
      else
        let target ← lower target
        return (Selector.ofSymbol symbol).select target
    | .index node target position => do
      let image ← lower target
      let index ← lower position
      if isStorageImage target.ty then return imageLoad image index node.ty
      else return .index image index
    | .binary _ op left right => do
      let l ← lower left
      let r ← lower right
      return binaryTerm ⟨l, left.ty⟩ op ⟨r, right.ty⟩
    | .unary _ op operand => return .unary op (← lower operand)
    | .assign _ op (.index node image position) value => do
      if op == .assign && isStorageImage image.ty then
        let i ← lower image
        let p ← lower position
        let v ← lower value
        return imageStore i p ⟨v, value.ty⟩
      else
        let t ← lower (.index node image position)
        let v ← lower value
        return .assign op t v
    | .assign _ op target value => do
      let t ← lower target
      let v ← lower value
      return .assign op t v
    | .call _ owner method args =>
      match env.program.callee? owner method with
      | some id => do return .call id ((← lowerAll args).map Operand.term)
      | none =>
        match swizzle? method args.length, args with
        | some components, [arg] => do
          let value ← lower arg
          return .member (if needsGroup arg then .group value else value) components
        | _, args => do
          env.checkIntrinsic owner method
          liftExcept (env.target.invocation owner method (← lowerAll args))
    | .construct node args =>
      match if node.ty.isStruct then env.program.callee? node.ty.name MethodId.constructorName
          else none with
      | some id => do return .call id ((← lowerAll args).map Operand.term)
      | none =>
        if args.isEmpty then liftExcept (defaultValue env.target env.program [] node.ty)
        else do liftExcept (env.target.construction node.ty (← lowerAll args))
    | .conditional _ condition whenTrue whenFalse => do
      return .select (← lower condition) (← lower whenTrue) (← lower whenFalse)
    | .cast node operand => do liftExcept (env.target.conversion node.ty (← lower operand))
    | .paren _ inner => return .group (← lower inner)
    | .outVariable _ name => return .atom (identifier name)
    | .discard _ => return .discarded (← modifyGet Emitter.takeDiscard))

def lowerAll : List Expr → EmitM (List Operand)
  | []      => return []
  | e :: es => do
    let term ← lower e
    return ⟨term, e.ty⟩ :: (← lowerAll es)

end

def declaration (name : String) (ty : TypeRef) : Except Error Declaration := do
  return ⟨← env.target.typeName ty, identifier name⟩

-- A statement that stands in a `for` header or before a semicolon. Any other is left out there.
def lowerSimple : Stmt → EmitM Simple
  | .declare name ty none => do
    return .declare (← liftExcept (env.declaration name ty)) none
  | .declare name ty (some init) => do
    let variableDecl ← liftExcept (env.declaration name ty)
    return .declare variableDecl (some (← env.lower init))
  | .eval e => return .term (← env.lower e)
  | _ => return .blank

-- All expressions in the headers of statements, without those of nested scopes.
def headerExprs (statements : List Stmt) : List Expr :=
  (Stmt.ownExprsAll statements).flatMap Expr.subterms

def outVariable? : Expr → Option (String × TypeRef)
  | .outVariable node name => some (name, node.ty)
  | _ => none

def discardType? : Expr → Option TypeRef
  | .discard node => some node.ty
  | _ => none

-- The output variables that the statements declare inline, the first of each name.
def outputVariables (statements : List Stmt) : List (String × TypeRef) :=
  ((headerExprs statements).filterMap outVariable?).foldl
    (fun found v => if found.any (·.1 == v.1) then found else found ++ [v]) []

def discardedTypes (statements : List Stmt) : List TypeRef :=
  (headerExprs statements).filterMap discardType?

def reserveDiscard (ty : TypeRef) : EmitM (String × Nat) := do
  let number ← modifyGet fun s => (s.nextDiscard, { s with nextDiscard := s.nextDiscard + 1 })
  return (← liftExcept (env.target.typeName ty), number)

-- A scope of statements, whose items `body` emits. `target` is as in `Glsl.Scope`.
def withScope (target : Option String) (statements : List Stmt) (body : EmitM (List Item)) :
    EmitM Scope := do
  let outputs ← (outputVariables statements).mapM fun (name, ty) =>
    liftExcept (env.declaration name ty)
  let discards ← (discardedTypes statements).mapM env.reserveDiscard
  modify fun s => { s with discards := discards.map Prod.snd :: s.discards }
  let items ← body
  modify fun s => { s with discards := s.discards.tail }
  return .mk target outputs discards items

def labelText : Label → String
  | .case value => "case " ++ env.target.literal value ++ ":"
  | .otherwise  => "default:"

mutual

def lowerStmt : Stmt → EmitM Item
  | .block body => return .scope (← env.withScope none body (lowerStmts body))
  | .eval e => return .simple (.term (← env.lower e))
  | .declare name ty init => return .simple (← env.lowerSimple (.declare name ty init))
  | .ret none => return .ret none
  | .ret (some value) => return .ret (some (← env.lower value))
  | .branch condition thenBody none => do
    let condition ← env.lower condition
    let thenScope ← env.withScope none thenBody (lowerStmts thenBody)
    return .branch condition thenScope none
  | .branch condition thenBody (some elseBody) => do
    let condition ← env.lower condition
    let thenScope ← env.withScope none thenBody (lowerStmts thenBody)
    let elseScope ← env.withScope none elseBody (lowerStmts elseBody)
    return .branch condition thenScope (some elseScope)
  | .forLoop init condition step body => do
    let init ← init.mapM env.lowerSimple
    let condition ← condition.mapM env.lower
    let step ← env.lowerAll step
    let scope ← env.withScope none body (lowerStmts body)
    return .forLoop init condition (step.map Operand.term) scope
  | .whileLoop condition body => do
    let condition ← env.lower condition
    let scope ← env.withScope none body (lowerStmts body)
    return .whileLoop condition scope
  | .doLoop body condition => do
    let scope ← env.withScope none body (lowerStmts body)
    return .doLoop scope (← env.lower condition)
  | .switch scrutinee sections => do
    let scrutinee ← env.lower scrutinee
    return .switch scrutinee (← lowerSections sections)
  | .breakLoop => return .breakLoop
  | .continueLoop => return .continueLoop

def lowerStmts : List Stmt → EmitM (List Item)
  | []      => return []
  | s :: ss => do
    let item ← lowerStmt s
    return item :: (← lowerStmts ss)

def lowerSections : List (List Label × List Stmt) → EmitM (List (List String × Scope))
  | []                     => return []
  | (labels, body) :: rest => do
    let scope ← env.withScope none body (lowerStmts body)
    return (labels.map env.labelText, scope) :: (← lowerSections rest)

end

end Emission

structure EmittedFunction where
  function      : ShaderFunction
  definition    : Definition
  resourcesUsed : List String

def EmittedFunction.text (f : EmittedFunction) : String := f.definition.text

namespace Emission

variable (env : Emission)

def parameter (p : Parameter) : Except Error ParameterDecl := do
  return ⟨p.direction, ← env.declaration p.name p.ty⟩

-- The state is reset once the function is known to have a body, so whatever the emitter has done
-- before has no influence on what it does now.
def emit (id : MethodId) : EmitM EmittedFunction :=
  match env.program.method? id with
  | none => throw (.graph (.unresolvedCall id))
  | some m =>
    match m.body with
    | none => throw (.graph (.missingBody id) m.location)
    | some body => do
      set { inConstructor := m.isConstructor : Emitter }
      let (returnType, parameters) ← EmitM.locate m.location (liftExcept do
        return (← env.target.typeName m.returnType, ← m.parameters.mapM env.parameter))
      let target := if m.isConstructor then some returnType else none
      let scope ← env.withScope target body (env.lowerStmts body)
      let s ← get
      return {
        function      := (ShaderFunction.ofDecl id.owner m).mark s.usage
        definition    := ⟨returnType, functionName id, parameters, scope⟩
        resourcesUsed := s.resourcesUsed
      }

end Emission
end Shading
