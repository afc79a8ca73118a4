import Shading.Declaration
import Shading.Error
import Shading.Usage
import Shading.Decimal.Shortest
import Shading.Glsl.Target
import Shading.Glsl.Term
/-!
How types, names, literals and operators of a program are spelled in the target language.
-/

namespace Shading.Glsl

-- The variable that a constructor fills and returns.
def constructorTarget : String := "_this"

-- The zero-based row and column that a member name such as `M12` selects.
def matrixElement? (name : String) : Option (Nat × Nat) :=
  match name.toList with
  | ['M', row, column] =>
    if '1' ≤ row && row ≤ '4' && '1' ≤ column && column ≤ '4' then
      some (row.toNat - '1'.toNat, column.toNat - '1'.toNat)
    else none
  | _ => none

inductive Selector where
  | named (name : String)
  | element (row column : Nat)
  deriving DecidableEq

namespace Selector

def ofSymbol (s : Symbol) : Selector :=
  let plain := named (identifier s.name)
  if isVectorName s.owner then
    match s.name with
    | "X" => named "x"
    | "Y" => named "y"
    | "Z" => named "z"
    | "W" => named "w"
    | _   => plain
  else if isMatrixName s.owner then
    match matrixElement? s.name with
    | some (row, column) => element row column
    | none               => plain
  else plain

def text : Selector → String
  | named name         => name
  | element row column => elementText row column

def isIndexer : Selector → Bool
  | named _     => false
  | element _ _ => true

def select (target : Term) : Selector → Term
  | named name         => .member target name
  | element row column => .element target row column

end Selector

-- The components that a method such as `XZY` of one argument selects.
def swizzle? (method : String) (argumentCount : Nat) : Option String :=
  let letters := method.toList
  if argumentCount = 1 && !letters.isEmpty && letters.length ≤ 4 &&
      letters.all (['X', 'Y', 'Z', 'W'].contains ·) then
    some (String.ofList (letters.map Char.toLower))
  else none

-- A floating point value. What is not finite is written as the division that yields it.
def floatText : Decimal.Value → String
  | .nan                   => "(0.0 / 0.0)"
  | .infinite false        => "(1.0 / 0.0)"
  | .infinite true         => "(-1.0 / 0.0)"
  | .finite false magnitude => (Decimal.shortest magnitude).positional
  | .finite true magnitude  => "-" ++ (Decimal.shortest magnitude).positional

def directionKeyword : Direction → String
  | .input       => ""
  | .output      => "out"
  | .inputOutput => "inout"

def groupDeclaration (g : GroupSize) : String :=
  "layout(local_size_x = " ++ toString g.x ++ ", local_size_y = " ++ toString g.y ++
    ", local_size_z = " ++ toString g.z ++ ") in;"

-- Loading from a storage image yields four components, of which the element type takes some.
def imageLoad (image position : Term) (element : TypeRef) : Term :=
  let load := Term.apply "imageLoad" [image, .apply "ivec2" [position]]
  match element.short with
  | "float"   => .member load "x"
  | "Vector2" => .member load "xy"
  | "Vector3" => .member load "xyz"
  | _         => load

-- Storing to a storage image takes four components.
def imageStore (image position : Term) (value : Operand) : Term :=
  let four := match value.ty.short with
    | "Vector4" => value.term
    | "Vector3" => .apply "vec4" [value.term, .atom "1.0"]
    | "Vector2" => .apply "vec4" [value.term, .atom "0.0", .atom "1.0"]
    | _         => .apply "vec4" [value.term]
  .apply "imageStore" [image, .apply "ivec2" [position], four]

def vectorComparison? : BinaryOp → Option String
  | .less         => some "lessThan"
  | .lessEqual    => some "lessThanEqual"
  | .greater      => some "greaterThan"
  | .greaterEqual => some "greaterThanEqual"
  | _             => none

-- Matrices of the host are stored by rows and reach the device transposed, so a product with a
-- matrix on its right is written with its operands exchanged.
def binaryTerm (left : Operand) (op : BinaryOp) (right : Operand) : Term :=
  match vectorComparison? op, left.isVector with
  | some function, true => .apply function [left.term, right.term]
  | _, _ =>
    if op == .multiply && right.isMatrix && (left.isMatrix || left.isVector) then
      .binary .multiply right.term left.term
    else .binary op left.term right.term

namespace Target

variable (t : Target)

def unmapped (ty : TypeRef) : Error :=
  .layout (.unmappedType ty.text t.name)

def primitive? (name : String) : Option String :=
  match shortName name with
  | "bool"                               => some "bool"
  | "sbyte" | "short" | "int" | "long"   => some "int"
  | "byte" | "ushort" | "uint" | "ulong" => some "uint"
  | "float"                              => some "float"
  | "double"                             => if t.version.isEmbedded then none else some "double"
  | "Vector2"                            => some "vec2"
  | "Vector3"                            => some "vec3"
  | "Vector4"                            => some "vec4"
  | "Int2"                               => some "ivec2"
  | "Int3"                               => some "ivec3"
  | "Int4"                               => some "ivec4"
  | "UInt2"                              => some "uvec2"
  | "UInt3"                              => some "uvec3"
  | "UInt4"                              => some "uvec4"
  | "Matrix4x4"                          => some "mat4"
  | _                                    => none

def opaqueType? (kind : ResourceKind) : Option String :=
  if t.version.usesDescriptorSets then
    match kind with
    | .texture2D | .depthTexture2D           => some "texture2D"
    | .texture2DArray | .depthTexture2DArray => some "texture2DArray"
    | .textureCube                           => some "textureCube"
    | .texture2DMS                           => some "texture2DMS"
    | .sampler                               => some "sampler"
    | .samplerComparison                     => some "samplerShadow"
    | .rwTexture2D                           => some "image2D"
    | _                                      => none
  else
    match kind with
    | .texture2D           => some "sampler2D"
    | .texture2DArray      => some "sampler2DArray"
    | .textureCube         => some "samplerCube"
    | .texture2DMS         => if t.version.isEmbedded then none else some "sampler2DMS"
    | .depthTexture2D      => some "sampler2DShadow"
    | .depthTexture2DArray => some "sampler2DArrayShadow"
    | .rwTexture2D         => if t.version.supportsStorage then some "image2D" else none
    | _                    => none

def supports : ResourceKind → Bool
  | .uniform | .sampler | .samplerComparison => true
  | .structuredBuffer | .rwStructuredBuffer | .atomicBuffer => t.version.supportsStorage
  | kind => (t.opaqueType? kind).isSome

-- The name of a type. An array is named for its elements: its extent follows what it declares.
def typeName : TypeRef → Except Error String
  | .void .. => .ok "void"
  | .primitive name args =>
    match t.primitive? name with
    | some mapped => .ok mapped
    | none        => .error (t.unmapped (.primitive name args))
  | .struct name _ => .ok (identifier (shortName name))
  | .enum _ underlying _ => typeName underlying
  | .array _ element _ => typeName element
  | .object name args =>
    match (ResourceKind.ofTypeName? name).bind t.opaqueType? with
    | some mapped => .ok mapped
    | none        => .error (t.unmapped (.object name args))

-- A literal. Unsigned and finite double values carry a suffix, the latter where it exists.
def literal : Literal → String
  | .bool value => if value then "true" else "false"
  | .int value => toString value
  | .uint value => toString value ++ "u"
  | .float bits => floatText (Decimal.Format.single.decode bits.toNat)
  | .double bits =>
    let value := Decimal.Format.double.decode bits.toNat
    match value with
    | .finite .. => if t.version.isEmbedded then floatText value else floatText value ++ "lf"
    | _          => floatText value

def construction (ty : TypeRef) (args : List Operand) : Except Error Term :=
  match ty with
  | .primitive .. | .struct .. => do return .apply (← t.typeName ty) (args.map Operand.term)
  | _ => .error (t.unmapped ty)

def zero (ty : TypeRef) : Except Error Term := do
  let mapped ← t.typeName ty
  match mapped with
  | "bool"   => return .atom "false"
  | "int"    => return .atom "0"
  | "uint"   => return .atom "0u"
  | "float"  => return .atom "0.0"
  | "double" => return .atom "0.0lf"
  | _ =>
    if "ivec".toList.isPrefixOf mapped.toList then return .apply mapped [.atom "0"]
    else if "uvec".toList.isPrefixOf mapped.toList then return .apply mapped [.atom "0u"]
    else if "vec".toList.isPrefixOf mapped.toList || "mat".toList.isPrefixOf mapped.toList then
      return .apply mapped [.atom "0.0"]
    else throw (t.unmapped ty)

def conversion (ty : TypeRef) (operand : Term) : Except Error Term := do
  return .apply (← t.typeName ty) [operand]

-- A builtin variable. The two that count vertices are signed and are converted.
def builtinVariable : BuiltinVariable → Term
  | .vertexId =>
    .apply "uint" [.atom (if t.version.usesDescriptorSets then "gl_VertexIndex" else "gl_VertexID")]
  | .instanceId =>
    .apply "uint"
      [.atom (if t.version.usesDescriptorSets then "gl_InstanceIndex" else "gl_InstanceID")]
  | .dispatchThreadId => .atom "gl_GlobalInvocationID"
  | .groupThreadId => .atom "gl_LocalInvocationID"
  | .isFrontFace => .atom "gl_FrontFacing"

end Target
end Shading.Glsl
