import Shading.Model
import Shading.Glsl.Spelling
/-!
The source of one stage: declarations of what the stage is given and yields, the functions, and
the `main` that copies inputs, calls the entry point and copies outputs.

A source is assembled as a value, from which its text is written.
-/

namespace Shading.Glsl

structure Member where
  ty     : String
  name   : String
  extent : Option Nat
  deriving DecidableEq

def Member.text (m : Member) : String :=
  match m.extent with
  | some extent => m.ty ++ " " ++ m.name ++ "[" ++ toString extent ++ "];"
  | none        => m.ty ++ " " ++ m.name ++ ";"

structure StructDecl where
  name    : String
  members : List Member
  deriving DecidableEq

def StructDecl.text (s : StructDecl) : String :=
  "struct " ++ s.name ++ "\n\x7b\n" ++
    String.join (s.members.map fun m => "    " ++ m.text ++ "\n") ++ "\x7d;\n\n"

def layoutText (qualifiers : List String) : String :=
  if qualifiers.isEmpty then "" else "layout(" ++ String.intercalate ", " qualifiers ++ ") "

inductive ResourceDecl where
  -- A block of memory with one member, which in a storage block is an array without extent.
  | block (qualifiers : List String) (storage blockName ty name : String) (isArray : Bool)
  | object (qualifiers : List String) (ty name : String)
  deriving DecidableEq

namespace ResourceDecl

def name : ResourceDecl → String
  | block _ _ _ _ name _ => name
  | object _ _ name      => name

def text : ResourceDecl → String
  | block qualifiers storage blockName ty name isArray =>
    layoutText qualifiers ++ storage ++ " " ++ blockName ++ "\n\x7b\n    " ++ ty ++ " " ++ name ++
      (if isArray then "[]" else "") ++ ";\n\x7d;\n\n"
  | object qualifiers ty name =>
    layoutText qualifiers ++ "uniform " ++ ty ++ " " ++ name ++ ";\n\n"

end ResourceDecl

structure InterfaceVariable where
  location : Option Nat
  -- Whether the value is not interpolated.
  isFlat   : Bool := false
  isInput  : Bool
  ty       : String
  name     : String
  extent   : Option Nat := none
  deriving DecidableEq

def InterfaceVariable.text (v : InterfaceVariable) : String :=
  let layout := match v.location with
    | some location => layoutText ["location = " ++ toString location]
    | none          => ""
  layout ++ (if v.isFlat then "flat " else "") ++ (if v.isInput then "in " else "out ") ++
    (Member.mk v.ty v.name v.extent).text ++ "\n"

inductive Interface where
  | exchange (inputs outputs : List InterfaceVariable)
  | group (size : GroupSize)
  deriving DecidableEq

def Interface.text : Interface → String
  | exchange inputs outputs => String.join ((inputs ++ outputs).map InterfaceVariable.text) ++ "\n"
  | group size              => groupDeclaration size ++ "\n\n"

inductive Place where
  | global (name : String)
  | inputMember (name : String)
  | outputMember (name : String)
  | output
  deriving DecidableEq

def Place.text : Place → String
  | global name       => name
  | inputMember name  => "_input." ++ name
  | outputMember name => "_output." ++ name
  | output            => "_output"

inductive MainStep where
  | copy (target source : Place)
  | flipPosition
  deriving DecidableEq

def MainStep.text : MainStep → String
  | copy target source => "    " ++ target.text ++ " = " ++ source.text ++ ";\n"
  | flipPosition       => "    gl_Position.y = -gl_Position.y;\n"

structure Main where
  inputType  : Option String
  before     : List MainStep
  function   : String
  outputType : Option String
  after      : List MainStep
  deriving DecidableEq

def Main.text (m : Main) : String :=
  let input := match m.inputType with
    | some ty => "    " ++ ty ++ " _input;\n"
    | none    => ""
  let call := m.function ++ (if m.inputType.isSome then "(_input)" else "()")
  let call := match m.outputType with
    | some ty => "    " ++ ty ++ " _output = " ++ call ++ ";\n"
    | none    => "    " ++ call ++ ";\n"
  "void main()\n\x7b\n" ++ input ++ String.join (m.before.map MainStep.text) ++ call ++
    String.join (m.after.map MainStep.text) ++ "\x7d\n"

structure StageSource where
  header     : List String
  structures : List StructDecl
  resources  : List ResourceDecl
  interface  : Interface
  functions  : List String
  main       : Main

def StageSource.text (s : StageSource) : String :=
  String.join (s.header.map (· ++ "\n")) ++ "\n" ++
    String.join (s.structures.map StructDecl.text) ++
    String.join (s.resources.map ResourceDecl.text) ++
    s.interface.text ++
    String.join (s.functions.map (· ++ "\n")) ++
    s.main.text

structure StageInput where
  stage      : Stage
  entry      : StageEntry
  structures : List Structure
  -- The definitions of the functions in call order, ending with the entry point.
  functions  : List String

namespace StageInput

def structure? (input : StageInput) (name : String) : Option Structure :=
  input.structures.find? (·.name == name)

def inputStructure? (input : StageInput) : Option Structure := do
  input.structure? (← input.entry.function.parameters.head?).ty.name

def outputStructure? (input : StageInput) : Option Structure :=
  let ty := input.entry.function.returnType
  if ty.isStruct then input.structure? ty.name else none

end StageInput

-- The members that travel from the vertex to the fragment stage, in order.
def varyings (s : Structure) : List Field :=
  s.fields.filter (·.semantic != .systemPosition)

def varyingName (location : Nat) : String := "fsin_" ++ toString location

def colorName (location : Nat) : String := "_outputColor_" ++ toString location

def isIntegral (ty : TypeRef) : Bool :=
  shortNameIn (["int", "uint"] ++ integerVectors) ty.name

def imageFormat (element : TypeRef) : String :=
  match element.short with
  | "float"   => "r32f"
  | "Vector2" => "rg32f"
  | _         => "rgba32f"

namespace Target

variable (t : Target)

-- Storage buffers and images are extensions of the desktop version without descriptor sets.
def extensionLines (entry : StageEntry) : List String :=
  if t.version.isEmbedded || t.version.usesDescriptorSets then []
  else
    let usage := entry.function.usage
    let kinds := entry.resources.map Resource.kind
    let buffers := usage.has .structuredBuffer || usage.has .interlockedAdd ||
      kinds.any fun kind =>
        kind == .structuredBuffer || kind == .rwStructuredBuffer || kind == .atomicBuffer
    let images := usage.has .rwTexture2D || kinds.contains .rwTexture2D
    (if buffers then ["#extension GL_ARB_shader_storage_buffer_object : enable"] else []) ++
      (if images then ["#extension GL_ARB_shader_image_load_store : enable"] else [])

-- Embedded systems have no default precision for these types.
def precisionLines : List String :=
  if t.version.isEmbedded then
    ["float", "int", "sampler2DArray", "sampler2DShadow", "sampler2DArrayShadow",
      "samplerCube"].map fun ty => "precision " ++ t.precision.text ++ " " ++ ty ++ ";"
  else []

def headerLines (entry : StageEntry) : List String :=
  t.version.directive :: t.extensionLines entry ++ t.precisionLines

def member (f : Field) : Except Error Member := do
  return ⟨← t.typeName f.ty, identifier f.name, if f.isArray then some f.count else none⟩

def structDecl (s : Structure) : Except Error StructDecl := do
  return ⟨identifier s.short, ← s.fields.mapM t.member⟩

def qualifiers (r : Resource) (given : List String) : List String :=
  if t.version.usesDescriptorSets then
    given ++ ["set = " ++ toString r.descriptorSet, "binding = " ++ toString r.binding]
  else given

def unsupported (r : Resource) : Error :=
  .resource (.unsupportedResource r.name r.kind t.name)

def opaqueType (r : Resource) : Except Error String :=
  match t.opaqueType? r.kind with
  | some ty => .ok ty
  | none    => .error (t.unsupported r)

-- The declaration of a resource. Without descriptor sets samplers are part of the textures they are
-- used with, and have none.
def resourceDecl? (r : Resource) : Except Error (Option ResourceDecl) := do
  unless t.supports r.kind do throw (t.unsupported r)
  let name := identifier r.name
  let blockName := r.name ++ "Buffer"
  match r.kind with
  | .uniform =>
    let ty ← t.typeName r.valueType
    return some (.block (t.qualifiers r ["std140"]) "uniform" blockName ty name false)
  | .sampler | .samplerComparison =>
    if t.version.usesDescriptorSets then
      return some (.object (t.qualifiers r []) (← t.opaqueType r) name)
    else return none
  | .structuredBuffer =>
    let ty ← t.typeName r.valueType
    return some (.block (t.qualifiers r ["std430"]) "readonly buffer" blockName ty name true)
  | .rwStructuredBuffer =>
    let ty ← t.typeName r.valueType
    return some (.block (t.qualifiers r ["std430"]) "buffer" blockName ty name true)
  | .atomicBuffer =>
    return some (.block (t.qualifiers r ["std430"]) "buffer" blockName "uint" name true)
  | .rwTexture2D =>
    return some
      (.object (t.qualifiers r [imageFormat r.valueType]) (← t.opaqueType r) name)
  | _ => return some (.object (t.qualifiers r []) (← t.opaqueType r) name)

-- A value that travels between the stages. Its location is written where the target has slots.
def varying (isInput : Bool) (location : Nat) (f : Field) : Except Error InterfaceVariable := do
  return {
    location := if t.version.usesDescriptorSets then some location else none
    isFlat   := isIntegral f.ty
    isInput  := isInput
    ty       := ← t.typeName f.ty
    name     := varyingName location
  }

def varyingVariables (isInput : Bool) (s : Option Structure) :
    Except Error (List InterfaceVariable) :=
  match s with
  | none   => .ok []
  | some s => (varyings s).zipIdx.mapM fun (f, location) => t.varying isInput location f

def vertexInput (location : Nat) (f : Field) : Except Error InterfaceVariable := do
  let m ← t.member f
  return {
    location := some location
    isInput  := true
    ty       := m.ty
    name     := m.name
    extent   := m.extent
  }

def vertexInputs (s : Option Structure) : Except Error (List InterfaceVariable) :=
  match s with
  | none   => .ok []
  | some s => s.fields.zipIdx.mapM fun (f, location) => t.vertexInput location f

end Target

def colorVariable (location : Nat) (name : String) : InterfaceVariable where
  location := some location
  isInput  := false
  ty       := "vec4"
  name     := name

def colorVariables (input : StageInput) : List InterfaceVariable :=
  match input.outputStructure? with
  | some s => (List.range s.fields.length).map fun i => colorVariable i (colorName i)
  | none   =>
    if input.entry.function.returnType.isVoid then [] else [colorVariable 0 "_outputColor_"]

-- Numbers the fields that satisfy a condition, and pairs each other field with nothing.
def numberFields (condition : Field → Bool) (next : Nat) : List Field → List (Field × Option Nat)
  | []          => []
  | f :: fields =>
    if condition f then (f, some next) :: numberFields condition (next + 1) fields
    else (f, none) :: numberFields condition next fields

def numberedVaryings (s : Structure) : List (Field × Option Nat) :=
  numberFields (·.semantic != .systemPosition) 0 s.fields

def inputSteps (stage : Stage) (s : Structure) : List MainStep :=
  (numberedVaryings s).map fun (f, number) =>
    let member := identifier f.name
    .copy (.inputMember member) (.global (match stage, number with
      | .fragment, some number => varyingName number
      | .fragment, none        => "gl_FragCoord"
      | _, _                   => member))

namespace Target

variable (t : Target)

def vertexOutputSteps (s : Structure) : List MainStep :=
  (numberedVaryings s).flatMap fun (f, number) =>
    let member := Place.outputMember (identifier f.name)
    match number with
    | some number => [.copy (.global (varyingName number)) member]
    | none =>
      .copy (.global "gl_Position") member :: if t.flipVertexY then [.flipPosition] else []

def outputSteps (input : StageInput) : List MainStep :=
  match input.stage, input.outputStructure? with
  | .vertex, some s => t.vertexOutputSteps s
  | .fragment, some s =>
    s.fields.zipIdx.map fun (f, i) =>
      .copy (.global (colorName i)) (.outputMember (identifier f.name))
  | .fragment, none => [.copy (.global "_outputColor_") .output]
  | _, _ => []

def stageInterface (input : StageInput) : Except Error Interface :=
  match input.stage with
  | .vertex => do
    let inputs ← t.vertexInputs input.inputStructure?
    return .exchange inputs (← t.varyingVariables false input.outputStructure?)
  | .fragment => do
    return .exchange (← t.varyingVariables true input.inputStructure?) (colorVariables input)
  | .compute => .ok (.group input.entry.function.group)

def stageMain (input : StageInput) : Except Error Main := do
  let f := input.entry.function
  let (inputType, before) ← (match f.parameters, input.inputStructure? with
    | parameter :: _, some s => do
      return (some (← t.typeName parameter.ty), inputSteps input.stage s)
    | _, _ => return (none, []) : Except Error (Option String × List MainStep))
  let (outputType, after) ← (if f.returnType.isVoid then return (none, [])
    else do return (some (← t.typeName f.returnType), t.outputSteps input) :
      Except Error (Option String × List MainStep))
  return ⟨inputType, before, functionName f.id, outputType, after⟩

-- The source of a stage. What fails first in the order of the source is what is reported.
def stageSource (input : StageInput) : Except Error StageSource := do
  if input.stage == .compute && !t.version.supportsCompute then
    throw (.stage (.unsupportedStage input.stage t.name))
  let structures ← input.structures.mapM t.structDecl
  let resources ← input.entry.resources.mapM t.resourceDecl?
  let interface ← t.stageInterface input
  let main ← t.stageMain input
  return {
    header     := t.headerLines input.entry
    structures := structures
    resources  := resources.filterMap id
    interface  := interface
    functions  := input.functions
    main       := main
  }

end Target
end Shading.Glsl
