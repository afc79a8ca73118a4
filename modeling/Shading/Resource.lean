import Shading.Declaration
import Shading.Error
/-!
Resources: the fields of entry point types that the host fills, and the slots they are bound to.
-/

namespace Shading

structure Resource where
  name          : String
  owner         : String
  descriptorSet : Nat
  binding       : Nat
  -- The element type of a generic wrapper, the type of a uniform, or the wrapper itself.
  valueType     : TypeRef
  kind          : ResourceKind
  deriving DecidableEq

namespace Resource

def classify (name : String) (ty : TypeRef) : Except Error (ResourceKind × TypeRef) :=
  match ResourceKind.ofTypeName? ty.name with
  | some kind =>
    if kind.isGeneric then
      match ty.args with
      | []           => .error (.resource (.missingTypeArgument name ty.name))
      | element :: _ => .ok (kind, element)
    else .ok (kind, ty)
  | none =>
    if ty.isObject then .error (.resource (.nonBlittableResource name ty.name))
    else .ok (.uniform, ty)

end Resource

-- Resource names share one namespace in the generated source, so each name has one owner. The slots
-- of each descriptor set are counted on their own.
structure Binder where
  nextBinding : List (Nat × Nat) := []
  owners      : List (String × String) := []

namespace Binder

def takeSlot (descriptorSet : Nat) (b : Binder) : Nat × Binder :=
  let slot := (b.nextBinding.lookup descriptorSet).getD 0
  (slot, { b with nextBinding := (descriptorSet, slot + 1) :: b.nextBinding })

def bind (owner : String) (f : FieldDecl) : EStateM Error Binder Resource := do
  let (kind, valueType) ←
    liftExcept ((Resource.classify f.name f.ty).mapError (·.locate f.location))
  match (← get).owners.lookup f.name with
  | some first => throw (.resource (.duplicateResource f.name first owner) f.location)
  | none =>
    modify fun b => { b with owners := (f.name, owner) :: b.owners }
    let descriptorSet := f.resourceSet.getD 0
    let binding ← modifyGet (takeSlot descriptorSet)
    return ⟨f.name, owner, descriptorSet, binding, valueType, kind⟩

end Binder
end Shading
