import Shading.TypeRef
/-!
What types occupy in memory on the host and on the device.
-/

namespace Shading

structure Footprint where
  hostSize        : Nat
  deviceSize      : Nat
  hostAlignment   : Nat
  deviceAlignment : Nat
  deriving DecidableEq

-- Sizes and offsets are addresses of 32 bits, so all of them are below this bound.
def addressLimit : Nat := 0x100000000

def addressable? (n : Nat) : Option Nat :=
  if n < addressLimit then some n else none

-- The least number of bytes that brings an offset up to a multiple of the alignment.
def padding (offset alignment : Nat) : Nat :=
  if alignment = 0 then 0 else (alignment - offset % alignment) % alignment

namespace Footprint

def scalar (size : Nat) : Footprint := ⟨size, size, size, size⟩

def array? (f : Footprint) (count : Nat) : Option Footprint := do
  let hostSize ← addressable? (f.hostSize * count)
  let deviceSize ← addressable? (f.deviceSize * count)
  return { f with hostSize, deviceSize }

def builtin? (name : String) : Option Footprint :=
  match shortName name with
  | "bool"                        => some ⟨1, 4, 1, 4⟩
  | "sbyte" | "byte"              => some (scalar 1)
  | "short" | "ushort"            => some (scalar 2)
  | "int" | "uint" | "float"      => some (scalar 4)
  | "long" | "ulong" | "double"   => some (scalar 8)
  | "Vector2" | "Int2" | "UInt2"  => some ⟨8, 8, 4, 8⟩
  | "Vector3" | "Int3" | "UInt3"  => some ⟨12, 16, 4, 16⟩
  | "Vector4" | "Int4" | "UInt4"  => some ⟨16, 16, 4, 16⟩
  | "Matrix4x4"                   => some ⟨64, 64, 4, 16⟩
  | _                             => none

def integer? (name : String) : Option Footprint :=
  if shortNameIn integerScalars name then builtin? name else none

end Footprint
end Shading
