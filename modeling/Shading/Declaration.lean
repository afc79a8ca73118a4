import Shading.Stage
import Shading.Source
/-!
Declarations: fields, methods and types of a program, and explicitly declared shader sets.
-/

namespace Shading

inductive Semantic where
  | unspecified
  | position
  | normal
  | textureCoordinate
  | color
  | tangent
  | systemPosition
  | colorTarget
  deriving DecidableEq

inductive Direction where
  | input
  | output
  | inputOutput
  deriving DecidableEq

structure FieldDecl where
  name        : String
  ty          : TypeRef
  isStatic    : Bool := false
  constant    : Option Literal := none
  semantic    : Semantic := .unspecified
  arraySize   : Option Nat := none
  resourceSet : Option Nat := none
  location    : Option Location := none

-- Whether the field occupies storage in an instance.
def FieldDecl.isInstance (f : FieldDecl) : Bool :=
  !f.isStatic && f.constant.isNone

structure Parameter where
  name      : String
  ty        : TypeRef
  direction : Direction := .input
  deriving DecidableEq

structure MethodDecl where
  name          : String
  isConstructor : Bool := false
  returnType    : TypeRef
  parameters    : List Parameter := []
  stage         : Option Stage := none
  group         : Option GroupSize := none
  -- The resolved body. Methods without one are external.
  body          : Option (List Stmt) := none
  location      : Option Location := none

inductive TypeDeclKind where
  | struct
  | object
  | enum
  deriving DecidableEq

structure TypeDecl where
  name     : String
  kind     : TypeDeclKind
  fields   : List FieldDecl := []
  methods  : List MethodDecl := []
  location : Option Location := none

namespace TypeDecl

def short (t : TypeDecl) : String := shortName t.name

def structRef (t : TypeDecl) : TypeRef := .struct t.name []

def isObject (t : TypeDecl) : Bool := t.kind == .object

def method? (t : TypeDecl) (name : String) : Option MethodDecl :=
  t.methods.find? (·.name == name)

def field? (t : TypeDecl) (name : String) : Option FieldDecl :=
  t.fields.find? (·.name == name)

def instanceFields (t : TypeDecl) : List FieldDecl :=
  t.fields.filter FieldDecl.isInstance

end TypeDecl

structure SetDecl where
  name    : String
  entries : PerStage (Option String)

end Shading
