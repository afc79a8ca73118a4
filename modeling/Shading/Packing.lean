import Shading.Declaration
import Shading.Error
import Shading.Footprint
/-!
Packing the fields of a structure one after the other, on the host and on the device at once.

No padding follows the last field.
-/

namespace Shading

structure Offset where
  host   : Nat
  device : Nat
  deriving DecidableEq

structure Packer where
  host            : Nat := 0
  device          : Nat := 0
  hostAlignment   : Nat := 1
  deviceAlignment : Nat := 1
  aligned         : Bool := true
  deriving DecidableEq

namespace Packer

-- Places the next field, unless the structure outgrows the addressable range.
def push? (k : Packer) (f : Footprint) : Option (Offset × Packer) := do
  let host      ← addressable? (k.host + padding k.host f.hostAlignment)
  let device    ← addressable? (k.device + padding k.device f.deviceAlignment)
  let hostEnd   ← addressable? (host + f.hostSize)
  let deviceEnd ← addressable? (device + f.deviceSize)
  return (⟨host, device⟩, {
    host            := hostEnd
    device          := deviceEnd
    hostAlignment   := max k.hostAlignment f.hostAlignment
    deviceAlignment := max k.deviceAlignment f.deviceAlignment
    aligned         := k.aligned && host == device
  })

def footprint (k : Packer) : Footprint :=
  ⟨k.host, k.device, k.hostAlignment, k.deviceAlignment⟩

def agrees (k : Packer) : Bool :=
  k.aligned && k.host == k.device

def offsets (k : Packer) : List Footprint → List Offset
  | []        => []
  | f :: rest =>
    match k.push? f with
    | none             => []
    | some (offset, k) => offset :: k.offsets rest

end Packer

structure Field where
  name      : String
  ty        : TypeRef
  semantic  : Semantic
  -- The element count of an array member, and 0 for any other.
  count     : Nat
  footprint : Footprint
  deriving DecidableEq

namespace Field

def isArray (f : Field) : Bool := 0 < f.count

def elementType (f : Field) : TypeRef := f.ty.elementOrSelf

end Field

variable [Monad m] [MonadExcept Error m]

-- The footprint of a field within its structure and its element count. An array field has to
-- declare a positive count.
def fieldFootprint (footprintOf : TypeRef → m Footprint) (owner : String) (f : FieldDecl) :
    m (Footprint × Nat) :=
  match f.ty.element? with
  | none => do return (← footprintOf f.ty, 0)
  | some element =>
    match f.arraySize with
    | none | some 0 => throw (.layout (.missingArraySize owner f.name))
    | some count => do
      let one ← footprintOf element
      match one.array? count with
      | none     => throw (.layout (.sizeOverflow (owner ++ "." ++ f.name)))
      | some all => return (all, count)

-- Packs fields in order. What fails about a field is located at its declaration.
def packFields (footprintOf : TypeRef → m Footprint) (owner : String) :
    List FieldDecl → Packer → m (List Field × Packer)
  | [], k => return ([], k)
  | f :: rest, k => do
    let (footprint, count) ← locating f.location (fieldFootprint footprintOf owner f)
    match k.push? footprint with
    | none => throw (.layout (.sizeOverflow owner))
    | some (_, k) =>
      let (fields, k) ← packFields footprintOf owner rest k
      return (⟨f.name, f.ty, f.semantic, count, footprint⟩ :: fields, k)

end Shading
