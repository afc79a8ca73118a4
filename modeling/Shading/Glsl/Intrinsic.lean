import Shading.Glsl.Spelling
/-!
Intrinsics: methods and constants of builtin types, and what they are written as.
-/

namespace Shading.Glsl

inductive Refusal where
  | noOverload
  | failed (error : Error)

abbrev Formatter := Target → List Operand → Except Refusal Term

inductive Intrinsic where
  | function (name : String)
  | operator (op : BinaryOp)
  | custom (format : Formatter)

namespace Intrinsic

def distanceSquared : Formatter
  | _, [a, b] =>
    let difference := Term.binary .subtract a.term b.term
    .ok (.apply "dot" [difference, difference])
  | _, _ => .error .noOverload

def lengthSquared : Formatter
  | _, [a] => .ok (.apply "dot" [a.term, a.term])
  | _, _   => .error .noOverload

def negate : Formatter
  | _, [a] => .ok (.unary .negate (.group a.term))
  | _, _   => .error .noOverload

-- A vector transformed by a matrix, extended to four components if it has fewer.
def transform : Formatter
  | _, [vector, matrix] =>
    let extended := match vector.ty.short with
      | "Vector2" => Term.apply "vec4" [vector.term, .atom "0.0", .atom "1.0"]
      | "Vector3" => .apply "vec4" [vector.term, .atom "1.0"]
      | _         => vector.term
    .ok (.group (.binary .multiply matrix.term extended))
  | _, _ => .error .noOverload

def transformTo (components : String) : Formatter := fun t args => do
  return .member (← transform t args) components

-- The product of two matrices, with its operands exchanged as in `binaryTerm`.
def matrixMultiply : Formatter
  | _, [a, b] => .ok (.group (.binary .multiply b.term a.term))
  | _, _      => .error .noOverload

def sign : Formatter
  | _, [a] => .ok (.apply "int" [.apply "sign" [a.term]])
  | _, _   => .error .noOverload

def fusedMultiplyAdd : Formatter
  | t, [a, b, c] =>
    if t.version.usesDescriptorSets then .ok (.apply "fma" [a.term, b.term, c.term])
    else .ok (.group (.binary .add (.binary .multiply a.term b.term) c.term))
  | _, _ => .error .noOverload

def saturate : Formatter
  | _, [a] => .ok (.apply "clamp" [a.term, .atom "0.0", .atom "1.0"])
  | _, _   => .error .noOverload

-- A derivative, which has a fine variant only on some targets.
def derivative (coarse fine : String) : Formatter
  | t, [a] => .ok (.apply (if t.version.usesDescriptorSets then fine else coarse) [a.term])
  | _, _   => .error .noOverload

def clipToTextureCoordinates : Formatter
  | _, [clip] =>
    let coordinate (component divisor : String) : Term :=
      .binary .add
        (.binary .divide
          (.group (.binary .divide (.member clip.term component) (.member clip.term "w")))
          (.atom divisor))
        (.atom "0.5")
    .ok (.apply "vec2" [coordinate "x" "2.0", coordinate "y" "-2.0"])
  | _, _ => .error .noOverload

def interlockedAdd : Formatter
  | _, [buffer, position, value] =>
    .ok (.apply "atomicAdd" [.index buffer.term position.term, value.term])
  | _, _ => .error .noOverload

def combined? : ResourceKind → Option String
  | .texture2D           => some "sampler2D"
  | .texture2DArray      => some "sampler2DArray"
  | .textureCube         => some "samplerCube"
  | .texture2DMS         => some "sampler2DMS"
  | .depthTexture2D      => some "sampler2DShadow"
  | .depthTexture2DArray => some "sampler2DArrayShadow"
  | _                    => none

-- The texture that a sampling call reads, with its kind. Targets with descriptor sets combine the
-- separate texture and sampler where they are used.
def sampled (t : Target) (texture sampler : Operand) : Except Refusal (Term × ResourceKind) :=
  match ResourceKind.ofTypeName? texture.ty.name with
  | none => .error .noOverload
  | some kind =>
    if t.version.usesDescriptorSets then
      match combined? kind with
      | some type => .ok (.apply type [texture.term, sampler.term], kind)
      | none =>
        .error (.failed (.resource (.unsupportedResource texture.term.text kind t.name)))
    else .ok (texture.term, kind)

-- The coordinates in a texture array: the layer is one more coordinate.
def layered (coordinates layer : Operand) : Term :=
  .apply "vec3" [coordinates.term, .apply "float" [layer.term]]

def sample : Formatter
  | t, [texture, sampler, coordinates] => do
    let (texture, _) ← sampled t texture sampler
    return .apply "texture" [texture, coordinates.term]
  | t, [texture, sampler, coordinates, layer] => do
    let (texture, _) ← sampled t texture sampler
    return .apply "texture" [texture, layered coordinates layer]
  | _, _ => .error .noOverload

def sampleLevel : Formatter
  | t, [texture, sampler, coordinates, level] => do
    let (texture, _) ← sampled t texture sampler
    return .apply "textureLod" [texture, coordinates.term, level.term]
  | t, [texture, sampler, coordinates, layer, level] => do
    let (texture, _) ← sampled t texture sampler
    return .apply "textureLod" [texture, layered coordinates layer, level.term]
  | _, _ => .error .noOverload

def sampleGrad : Formatter
  | t, [texture, sampler, coordinates, ddx, ddy] => do
    let (texture, _) ← sampled t texture sampler
    return .apply "textureGrad" [texture, coordinates.term, ddx.term, ddy.term]
  | _, _ => .error .noOverload

-- The coordinates of a comparison: the reference value is the last of them.
def comparisonCoordinates (kind : ResourceKind) : List Operand → Except Refusal Term
  | [coordinates, reference] =>
    if kind == .texture2DArray || kind == .depthTexture2DArray then .error .noOverload
    else .ok (.apply "vec3" [coordinates.term, reference.term])
  | [coordinates, layer, reference] =>
    if kind == .texture2DArray || kind == .depthTexture2DArray then
      .ok (.apply "vec4" [coordinates.term, .apply "float" [layer.term], reference.term])
    else .error .noOverload
  | _ => .error .noOverload

def sampleComparison : Formatter
  | t, texture :: sampler :: rest => do
    let (texture, kind) ← sampled t texture sampler
    return .apply "texture" [texture, ← comparisonCoordinates kind rest]
  | _, _ => .error .noOverload

def sampleComparisonLevelZero : Formatter
  | t, texture :: sampler :: rest => do
    let (texture, kind) ← sampled t texture sampler
    let zero := Term.apply "vec2" [.atom "0.0"]
    return .apply "textureGrad" [texture, ← comparisonCoordinates kind rest, zero, zero]
  | _, _ => .error .noOverload

def load : Formatter
  | t, [texture, sampler, coordinates, level] => do
    let (texture, _) ← sampled t texture sampler
    return .apply "texelFetch"
      [texture, .apply "ivec2" [coordinates.term], .apply "int" [level.term]]
  | _, _ => .error .noOverload

def ofFloatVector? : String → Option Intrinsic
  | "Abs"             => some (.function "abs")
  | "Add"             => some (.operator .add)
  | "Clamp"           => some (.function "clamp")
  | "Distance"        => some (.function "distance")
  | "DistanceSquared" => some (.custom distanceSquared)
  | "Divide"          => some (.operator .divide)
  | "Dot"             => some (.function "dot")
  | "Length"          => some (.function "length")
  | "LengthSquared"   => some (.custom lengthSquared)
  | "Lerp"            => some (.function "mix")
  | "Max"             => some (.function "max")
  | "Min"             => some (.function "min")
  | "Multiply"        => some (.operator .multiply)
  | "Negate"          => some (.custom negate)
  | "Normalize"       => some (.function "normalize")
  | "Reflect"         => some (.function "reflect")
  | "SquareRoot"      => some (.function "sqrt")
  | "Subtract"        => some (.operator .subtract)
  | _                 => none

def ofVector2? : String → Option Intrinsic
  | "Transform" => some (.custom (transformTo "xy"))
  | method      => ofFloatVector? method

def ofVector3? : String → Option Intrinsic
  | "Transform" => some (.custom (transformTo "xyz"))
  | "Cross"     => some (.function "cross")
  | method      => ofFloatVector? method

def ofVector4? : String → Option Intrinsic
  | "Transform" => some (.custom transform)
  | method      => ofFloatVector? method

def ofIntegerVector? : String → Option Intrinsic
  | "Abs"      => some (.function "abs")
  | "Add"      => some (.operator .add)
  | "Clamp"    => some (.function "clamp")
  | "Divide"   => some (.operator .divide)
  | "Max"      => some (.function "max")
  | "Min"      => some (.function "min")
  | "Multiply" => some (.operator .multiply)
  | "Subtract" => some (.operator .subtract)
  | _          => none

def ofMatrix? : String → Option Intrinsic
  | "Add"       => some (.operator .add)
  | "Subtract"  => some (.operator .subtract)
  | "Multiply"  => some (.custom matrixMultiply)
  | "Transpose" => some (.function "transpose")
  | _           => none

def ofMath? : String → Option Intrinsic
  | "Abs"              => some (.function "abs")
  | "Acos"             => some (.function "acos")
  | "Asin"             => some (.function "asin")
  | "Atan" | "Atan2"   => some (.function "atan")
  | "Ceiling"          => some (.function "ceil")
  | "Clamp"            => some (.function "clamp")
  | "Cos"              => some (.function "cos")
  | "Cosh"             => some (.function "cosh")
  | "Exp"              => some (.function "exp")
  | "Floor"            => some (.function "floor")
  | "Log"              => some (.function "log")
  | "Log2"             => some (.function "log2")
  | "Max"              => some (.function "max")
  | "Min"              => some (.function "min")
  | "Pow"              => some (.function "pow")
  | "Round"            => some (.function "round")
  | "Sin"              => some (.function "sin")
  | "Sinh"             => some (.function "sinh")
  | "Sqrt"             => some (.function "sqrt")
  | "Tan"              => some (.function "tan")
  | "Tanh"             => some (.function "tanh")
  | "Truncate"         => some (.function "trunc")
  | "Sign"             => some (.custom sign)
  | "FusedMultiplyAdd" => some (.custom fusedMultiplyAdd)
  | _                  => none

def ofBuiltins? : String → Option Intrinsic
  | "Sample"                    => some (.custom sample)
  | "SampleLevel"               => some (.custom sampleLevel)
  | "SampleGrad"                => some (.custom sampleGrad)
  | "SampleComparison"          => some (.custom sampleComparison)
  | "SampleComparisonLevelZero" => some (.custom sampleComparisonLevelZero)
  | "Load"                      => some (.custom load)
  | "Ddx"                       => some (.function "dFdx")
  | "Ddy"                       => some (.function "dFdy")
  | "DdxFine"                   => some (.custom (derivative "dFdx" "dFdxFine"))
  | "DdyFine"                   => some (.custom (derivative "dFdy" "dFdyFine"))
  | "Discard"                   => some (.custom fun _ _ => .ok (.atom "discard"))
  | "Saturate"                  => some (.custom saturate)
  | "Abs"                       => some (.function "abs")
  | "Mod"                       => some (.function "mod")
  | "Frac"                      => some (.function "fract")
  | "Lerp"                      => some (.function "mix")
  | "ClipToTextureCoordinates"  => some (.custom clipToTextureCoordinates)
  | "InterlockedAdd"            => some (.custom interlockedAdd)
  | _                           => none

def of? (owner method : String) : Option Intrinsic :=
  match shortName owner with
  | "Vector2"        => ofVector2? method
  | "Vector3"        => ofVector3? method
  | "Vector4"        => ofVector4? method
  | "Int2" | "Int3" | "Int4" | "UInt2" | "UInt3" | "UInt4" => ofIntegerVector? method
  | "Matrix4x4"      => ofMatrix? method
  | "MathF"          => ofMath? method
  | "ShaderBuiltins" => ofBuiltins? method
  | _                => none

def format (t : Target) (args : List Operand) : Intrinsic → Except Refusal Term
  | function name => .ok (.apply name (args.map Operand.term))
  | operator op =>
    match args with
    | [left, right] => .ok (.group (.binary op left.term right.term))
    | _             => .error .noOverload
  | custom format => format t args

end Intrinsic

def unitVector (type : String) (size axis : Nat) : Term :=
  .apply type ((List.range size).map fun i => .atom (if i = axis then "1.0" else "0.0"))

def vectorConstant? (type : String) (size : Nat) : String → Option Term
  | "Zero"  => some (.apply type [.atom "0.0"])
  | "One"   => some (.apply type [.atom "1.0"])
  | "UnitX" => some (unitVector type size 0)
  | "UnitY" => some (unitVector type size 1)
  | "UnitZ" => if 2 < size then some (unitVector type size 2) else none
  | "UnitW" => if 3 < size then some (unitVector type size 3) else none
  | _       => none

def staticMember? (owner name : String) : Option Term :=
  match shortName owner with
  | "Vector2"   => vectorConstant? "vec2" 2 name
  | "Vector3"   => vectorConstant? "vec3" 3 name
  | "Vector4"   => vectorConstant? "vec4" 4 name
  | "Matrix4x4" => if name == "Identity" then some (.apply "mat4" [.atom "1.0"]) else none
  | "MathF"     =>
    match name with
    | "PI" => some (.atom "3.14159265")
    | "E"  => some (.atom "2.71828183")
    | _    => none
  | _ => none

def Target.invocation (t : Target) (owner method : String) (args : List Operand) :
    Except Error Term :=
  match Intrinsic.of? owner method with
  | none => .error (.graph (.unknownIntrinsic owner method t.name))
  | some intrinsic =>
    match intrinsic.format t args with
    | .ok term => .ok term
    | .error .noOverload =>
      .error (.graph (.unknownIntrinsic owner (method ++ " with these arguments") t.name))
    | .error (.failed e) => .error e

end Shading.Glsl
