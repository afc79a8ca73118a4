import Shading.Source
import Shading.Stage
import Shading.Resource.Kind
/-!
The reasons for which a shader set can be refused, and what is said about each of them.

An error is a cause together with the place it was raised at. The wording of every cause stands
in this module and nowhere else.
-/

namespace Shading

inductive GraphFault where
  | recursion (function : MethodId)
  -- A function is reachable from one of its callees.
  | cycle (caller callee : MethodId)
  -- A call names a type of the program that does not declare the method.
  | unresolvedCall (target : MethodId)
  | unknownIntrinsic (owner method target : String)
  | missingBody (function : MethodId)
  deriving DecidableEq

inductive LayoutFault where
  | nonBlittable (type : String)
  | unknownUnderlyingType (type underlying : String)
  | emptyStructure (type : String)
  | unknownType (type : String)
  | noSize (type : String)
  | recursiveStructure (type : String)
  | missingArraySize (owner field : String)
  | unmappedType (type target : String)
  | sizeOverflow (type : String)
  deriving DecidableEq

inductive ResourceFault where
  | duplicateShaderSet (name : String)
  | nonBlittableResource (resource type : String)
  | missingTypeArgument (resource wrapper : String)
  -- Two types of one set declare a resource of the same name.
  | duplicateResource (resource first second : String)
  | layoutMismatch (resource type : String)
  | unsupportedResource (resource : String) (kind : ResourceKind) (target : String)
  deriving DecidableEq

inductive StageFault where
  | builtinOutsideStage (builtin : String) (stage : Stage) (allowed : StageMask)
  | missingSemantic (function : MethodId) (member : String)
  | missingSystemPosition (function : MethodId)
  | invalidEntryPointCount (owner : String) (stage : Stage) (count : Nat)
  | entryPointNotFound (set reference : String) (stage : Stage)
  | invalidEntrySignature (function : MethodId) (reason : String)
  | invalidComputeGroup (function : MethodId)
  | unsupportedStage (stage : Stage) (target : String)
  deriving DecidableEq

inductive ConfigFault where
  | contextNotInitialized (backend set : String)
  | contextAlreadyInitialized (backend set : String)
  | noBackends
  deriving DecidableEq

def GraphFault.message : GraphFault → String
  | recursion function =>
    "function `" ++ function.text ++ "` is recursive; recursion is not supported in shader code"
  | cycle caller callee =>
    "cyclical call graph involving `" ++ caller.text ++ "` and `" ++ callee.text ++ "`"
  | unresolvedCall target =>
    "call target `" ++ target.text ++ "` could not be resolved"
  | unknownIntrinsic owner method target =>
    "`" ++ owner ++ "." ++ method ++ "` is not a supported intrinsic for " ++ target
  | missingBody function =>
    "function `" ++ function.text ++ "` has no body"

def LayoutFault.message : LayoutFault → String
  | nonBlittable type =>
    "type `" ++ type ++ "` contains references and is not blittable"
  | unknownUnderlyingType type underlying =>
    "enum `" ++ type ++ "` has unsupported underlying type `" ++ underlying ++ "`"
  | emptyStructure type =>
    "cannot assess size of structure `" ++ type ++ "`: it has no instance fields"
  | unknownType type =>
    "type `" ++ type ++ "` is not declared in the program"
  | noSize type =>
    "type `" ++ type ++ "` has no size"
  | recursiveStructure type =>
    "structure `" ++ type ++ "` contains itself"
  | missingArraySize owner field =>
    "array field `" ++ owner ++ "." ++ field ++ "` must declare a constant element count"
  | unmappedType type target =>
    "type `" ++ type ++ "` cannot be expressed in " ++ target
  | sizeOverflow type =>
    "size of `" ++ type ++ "` exceeds the addressable range"

def ResourceFault.message : ResourceFault → String
  | duplicateShaderSet name =>
    "shader set `" ++ name ++ "` is declared more than once"
  | nonBlittableResource resource type =>
    "resource `" ++ resource ++ "` of type `" ++ type ++
      "` is invalid: uniform resources must be simple blittable structures"
  | missingTypeArgument resource wrapper =>
    "resource `" ++ resource ++ "` wraps `" ++ wrapper ++ "` without a type argument"
  | duplicateResource resource first second =>
    "resource `" ++ resource ++ "` is declared by both `" ++ first ++ "` and `" ++ second ++ "`"
  | layoutMismatch resource type =>
    "structure `" ++ type ++ "` used by resource `" ++ resource ++
      "` does not have the same layout on the host and the device"
  | unsupportedResource resource kind target =>
    "resource `" ++ resource ++ "` of kind " ++ kind.text ++ " is not supported by " ++ target

def StageFault.message : StageFault → String
  | builtinOutsideStage builtin stage allowed =>
    "`" ++ builtin ++ "` can only be used in " ++ allowed.text ++
      " shaders, but was used in a " ++ stage.text ++ " shader"
  | missingSemantic function member =>
    "`" ++ function.text ++ "` member `" ++ member ++ "` is missing a semantic"
  | missingSystemPosition function =>
    "vertex entry point `" ++ function.text ++
      "` must return a structure with a system position member"
  | invalidEntryPointCount owner stage count =>
    "`" ++ owner ++ "` declares " ++ toString count ++ " " ++ stage.text ++
      " entry points; exactly one is required"
  | entryPointNotFound set reference stage =>
    "shader set `" ++ set ++ "` references `" ++ reference ++ "`, which is not a " ++
      stage.text ++ " entry point"
  | invalidEntrySignature function reason =>
    "entry point `" ++ function.text ++ "` has an invalid signature: " ++ reason
  | invalidComputeGroup function =>
    "compute entry point `" ++ function.text ++ "` must declare a non-zero thread group size"
  | unsupportedStage stage target =>
    stage.text ++ " shaders are not supported by " ++ target

def ConfigFault.message : ConfigFault → String
  | contextNotInitialized backend set =>
    "no context was initialized for shader set `" ++ set ++ "` on backend `" ++ backend ++ "`"
  | contextAlreadyInitialized backend set =>
    "a context was already initialized for shader set `" ++ set ++ "` on backend `" ++ backend ++
      "`"
  | noBackends =>
    "no backends were registered"

inductive Cause where
  | graph (fault : GraphFault)
  | layout (fault : LayoutFault)
  | resource (fault : ResourceFault)
  | stage (fault : StageFault)
  | configuration (fault : ConfigFault)
  -- No fault that is reported: a structure is expanded inside itself, and nothing comes after that.
  | endless (type : String)
  deriving DecidableEq

def Cause.message : Cause → String
  | graph fault         => "call graph error: " ++ fault.message
  | layout fault        => "layout error: " ++ fault.message
  | resource fault      => "resource error: " ++ fault.message
  | stage fault         => "stage error: " ++ fault.message
  | configuration fault => "configuration error: " ++ fault.message
  | endless _           => ""

structure Error where
  cause    : Cause
  location : Option Location := none
  deriving DecidableEq

namespace Error

-- Attaches a location, unless the error has one already: the innermost place is the one kept.
def locate (e : Error) (location : Option Location) : Error :=
  { e with location := e.location.or location }

def message (e : Error) : String :=
  match e.location with
  | none          => e.cause.message
  | some location => location.text ++ ": " ++ e.cause.message

def graph (fault : GraphFault) (location : Option Location := none) : Error :=
  ⟨.graph fault, location⟩

def layout (fault : LayoutFault) (location : Option Location := none) : Error :=
  ⟨.layout fault, location⟩

def resource (fault : ResourceFault) (location : Option Location := none) : Error :=
  ⟨.resource fault, location⟩

def stage (fault : StageFault) (location : Option Location := none) : Error :=
  ⟨.stage fault, location⟩

def configuration (fault : ConfigFault) : Error :=
  ⟨.configuration fault, none⟩

-- Whether the error stands for a computation without an end.
def isEndless (e : Error) : Bool :=
  match e.cause with
  | .endless _ => true
  | _          => false

end Error

variable [Monad m] [MonadExcept Error m]

def liftExcept : Except Error α → m α
  | .ok a    => pure a
  | .error e => throw e

def locating (location : Option Location) (x : m α) : m α :=
  tryCatch x fun e => throw (e.locate location)

end Shading
