/-!
Dotted names: the short name of a type, and the identity of a method.
-/

namespace Shading

def shortName (name : String) : String :=
  String.ofList (name.toList.reverse.takeWhile (· ≠ '.')).reverse

-- Identity of a method: the full name of the type that declares it, and its own name.
structure MethodId where
  owner : String
  name  : String
  deriving DecidableEq

namespace MethodId

def constructorName : String := "ctor"

def isConstructor (id : MethodId) : Bool :=
  id.name == constructorName

def text (id : MethodId) : String :=
  id.owner ++ "." ++ id.name

-- The reference is cut at its last dot. Neither side of the cut may be empty.
def parse? (reference : String) : Option MethodId :=
  let backwards := reference.toList.reverse
  let name := backwards.takeWhile (· ≠ '.')
  match backwards.dropWhile (· ≠ '.') with
  | []         => none
  | _ :: owner =>
    if owner.isEmpty || name.isEmpty then none
    else some ⟨String.ofList owner.reverse, String.ofList name.reverse⟩

end MethodId
end Shading
