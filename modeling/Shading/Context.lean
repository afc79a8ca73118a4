import Shading.Model
/-!
Contexts: what is collected about one shader set while it is generated for one backend, and the
registry that keeps contexts apart.
-/

namespace Shading

structure StageUsage where
  entry     : MethodId
  functions : List MethodId
  resources : List String
  deriving DecidableEq

structure Context where
  backend    : String
  set        : String
  structures : List Structure := []
  resources  : List Resource := []
  functions  : List ShaderFunction := []
  stages     : PerStage (Option StageUsage) := .replicate none
  deriving DecidableEq

namespace Context

def hasStructure (c : Context) (name : String) : Bool :=
  c.structures.any (·.name == name)

def addStructure (c : Context) (s : Structure) : Context :=
  if c.hasStructure s.name then c else { c with structures := c.structures ++ [s] }

def addResource (c : Context) (r : Resource) : Context :=
  { c with resources := c.resources ++ [r] }

def function? (c : Context) (id : MethodId) : Option ShaderFunction :=
  c.functions.find? (·.id == id)

-- Adds a function, unless it is there: stages share the functions that both reach.
def addFunction (c : Context) (f : ShaderFunction) : Context :=
  if (c.function? f.id).isSome then c else { c with functions := c.functions ++ [f] }

def markFirst (id : MethodId) (usage : Usage) : List ShaderFunction → List ShaderFunction
  | []      => []
  | f :: fs => if f.id = id then f.mark usage :: fs else f :: markFirst id usage fs

def mark (c : Context) (id : MethodId) (usage : Usage) : Context :=
  { c with functions := markFirst id usage c.functions }

def setStage (c : Context) (stage : Stage) (usage : StageUsage) : Context :=
  { c with stages := c.stages.set stage (some usage) }

def entryFor? (c : Context) (stage : Stage) : Option StageEntry := do
  let usage ← c.stages.get stage
  let entry ← c.function? usage.entry
  let callees := usage.functions.filterMap c.function?
  return {
    function  := callees.foldl (fun f callee => f.mark callee.usage) entry
    functions := usage.functions
    resources := c.resources.filter (·.name ∈ usage.resources)
  }

def build (c : Context) : Model where
  structures := c.structures
  resources  := c.resources
  functions  := c.functions
  entries    := .ofFn c.entryFor?

end Context

structure Registry where
  contexts : List Context := []

namespace Registry

def isFor (backend set : String) (c : Context) : Bool :=
  c.backend == backend && c.set == set

def find? (r : Registry) (backend set : String) : Option Context :=
  r.contexts.find? (isFor backend set)

def get (r : Registry) (backend set : String) : Except Error Context :=
  match r.find? backend set with
  | some c => .ok c
  | none   => .error (.configuration (.contextNotInitialized backend set))

-- Starts an empty context. Each backend and set get one once.
def init (r : Registry) (backend set : String) : Except Error Registry :=
  match r.find? backend set with
  | some _ => .error (.configuration (.contextAlreadyInitialized backend set))
  | none   => .ok ⟨r.contexts ++ [{ backend, set }]⟩

def update (r : Registry) (backend set : String) (f : Context → Context) : Registry :=
  ⟨r.contexts.map fun c => if isFor backend set c then { f c with backend, set } else c⟩

end Registry
end Shading
