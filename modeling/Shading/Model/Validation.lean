import Shading.Model
/-!
The conditions that a finished model has to meet: what each stage demands of its entry point, and
that the memory of buffers looks the same from the host and from the device.
-/

namespace Shading
namespace Model

def checkBuiltins (stage : Stage) (f : ShaderFunction) : Except Error Unit :=
  BuiltinVariable.all.forM fun builtin =>
    if f.usage.has builtin.flag && !builtin.stages.allows stage then
      .error (.stage (.builtinOutsideStage builtin.name stage builtin.stages))
    else .ok ()

def invalidSignature (f : ShaderFunction) (reason : String) : Error :=
  .stage (.invalidEntrySignature f.id reason)

-- The structure that an entry point takes or returns. `role` says which, in messages.
def stageStructure (m : Model) (f : ShaderFunction) (ty : TypeRef) (role : String) :
    Except Error Structure :=
  if ty.isStruct then
    match m.structure? ty.name with
    | some s => .ok s
    | none   => .error (invalidSignature f (role ++ " `" ++ ty.text ++ "` was not discovered"))
  else .error (invalidSignature f (role ++ " `" ++ ty.text ++ "` must be a structure"))

def requireSemantics (f : ShaderFunction) (s : Structure) : Except Error Unit :=
  match s.withSemantic? .unspecified with
  | some field => .error (.stage (.missingSemantic f.id field.name))
  | none       => .ok ()

def checkInput (m : Model) (f : ShaderFunction) : Except Error Unit :=
  match f.parameters with
  | []      => .ok ()
  | [input] => do requireSemantics f (← m.stageStructure f input.ty "input")
  | _       => .error (invalidSignature f "at most one input structure is allowed")

def checkVertex (m : Model) (f : ShaderFunction) : Except Error Unit := do
  m.checkInput f
  if f.returnType.isVoid then throw (.stage (.missingSystemPosition f.id))
  let output ← m.stageStructure f f.returnType "output"
  requireSemantics f output
  if (output.withSemantic? .systemPosition).isNone then
    throw (.stage (.missingSystemPosition f.id))

def checkFragment (m : Model) (f : ShaderFunction) : Except Error Unit := do
  m.checkInput f
  if f.returnType.isVoid || f.returnType.short == "Vector4" then return
  let output ← m.stageStructure f f.returnType "output"
  requireSemantics f output
  match output.fields.find? (·.semantic != .colorTarget) with
  | some field =>
    throw (invalidSignature f ("output member `" ++ field.name ++ "` must be a color target"))
  | none => return

def checkCompute (f : ShaderFunction) : Except Error Unit := do
  unless f.parameters.isEmpty do
    throw (invalidSignature f "compute entry points take no parameters")
  unless f.returnType.isVoid do
    throw (invalidSignature f "compute entry points must return void")
  unless f.group.isValid do
    throw (.stage (.invalidComputeGroup f.id))

def checkStage (m : Model) (stage : Stage) : Except Error Unit :=
  match m.entry? stage with
  | none => .ok ()
  | some entry => do
    checkBuiltins stage entry.function
    match stage with
    | .vertex   => m.checkVertex entry.function
    | .fragment => m.checkFragment entry.function
    | .compute  => checkCompute entry.function

-- The first structure with different layouts on host and device among those of the pending names
-- and those they hold, in depth-first order. Names in `seen` are passed over.
def divergent? (m : Model) (seen : List String) : List String → Option Structure
  | [] => none
  | name :: pending =>
    if fresh : name ∈ seen then m.divergent? seen pending
    else
      match found : m.structure? name with
      | none => m.divergent? seen pending
      | some s =>
        if s.agrees then
          have := unvisited_cons_lt (name_mem_of_structure? found) fresh
          m.divergent? (name :: seen) (s.memberTypeNames ++ pending)
        else some s
termination_by pending => (unvisited m.structureNames seen, pending.length)

def checkResource (m : Model) (r : Resource) : Except Error Unit :=
  if r.kind.hasMemoryLayout then
    match m.divergent? [] [r.valueType.elementOrSelf.name] with
    | some s => .error (.resource (.layoutMismatch r.name s.name))
    | none   => .ok ()
  else .ok ()

def validate (m : Model) : Except Error Unit := do
  Stage.all.forM m.checkStage
  m.resources.forM m.checkResource

end Model
end Shading
