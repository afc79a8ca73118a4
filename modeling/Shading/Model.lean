import Shading.Resource
import Shading.Structure
import Shading.Usage
/-!
The model of a shader set: its structures, resources and functions, and what each of its entry
points reaches.
-/

namespace Shading

inductive FunctionKind where
  | normal
  | entryPoint (stage : Stage)
  deriving DecidableEq

namespace FunctionKind

def ofStage? : Option Stage → FunctionKind
  | none       => normal
  | some stage => entryPoint stage

def stage? : FunctionKind → Option Stage
  | normal           => none
  | entryPoint stage => some stage

end FunctionKind

structure ShaderFunction where
  owner         : String
  name          : String
  returnType    : TypeRef
  parameters    : List Parameter
  kind          : FunctionKind
  -- The thread group size, which is zero in each dimension unless it is declared.
  group         : GroupSize
  isConstructor : Bool
  usage         : Usage
  deriving DecidableEq

namespace ShaderFunction

def ofDecl (owner : String) (m : MethodDecl) : ShaderFunction where
  owner         := owner
  name          := m.name
  returnType    := m.returnType
  parameters    := m.parameters
  kind          := .ofStage? m.stage
  group         := m.group.getD ⟨0, 0, 0⟩
  isConstructor := m.isConstructor
  usage         := .empty

def id (f : ShaderFunction) : MethodId := ⟨f.owner, f.name⟩

theorem id_ofDecl {p : Program} {id : MethodId} {m : MethodDecl} (h : p.method? id = some m) :
    (ofDecl id.owner m).id = id :=
  congrArg (MethodId.mk id.owner) (Program.name_of_method? h)

def isEntryPoint (f : ShaderFunction) : Bool := f.kind != .normal

def mark (f : ShaderFunction) (usage : Usage) : ShaderFunction :=
  { f with usage := f.usage.union usage }

end ShaderFunction

structure StageEntry where
  -- The entry point, marked with what any function that it reaches touches.
  function  : ShaderFunction
  -- The functions it reaches, callees first, ending with the entry point.
  functions : List MethodId
  -- The resources that these functions use, in the order of their binding.
  resources : List Resource
  deriving DecidableEq

structure Model where
  structures : List Structure
  resources  : List Resource
  functions  : List ShaderFunction
  entries    : PerStage (Option StageEntry)
  deriving DecidableEq

namespace Model

def entry? (m : Model) (stage : Stage) : Option StageEntry := m.entries.get stage

def stageResources (m : Model) (stage : Stage) : List Resource :=
  match m.entry? stage with
  | some entry => entry.resources
  | none       => []

def structure? (m : Model) (name : String) : Option Structure :=
  m.structures.find? (·.name == name)

def resource? (m : Model) (name : String) : Option Resource :=
  m.resources.find? (·.name == name)

def function? (m : Model) (id : MethodId) : Option ShaderFunction :=
  m.functions.find? (·.id == id)

def structureNames (m : Model) : List String := m.structures.map Structure.name

theorem name_of_structure? {m : Model} {name : String} {s : Structure}
    (h : m.structure? name = some s) : s.name = name := by
  have := List.find?_some h
  simpa using this

theorem name_mem_of_structure? {m : Model} {name : String} {s : Structure}
    (h : m.structure? name = some s) : name ∈ m.structureNames :=
  List.mem_map.mpr ⟨s, List.mem_of_find?_eq_some h, name_of_structure? h⟩

-- The path holds the names on the way to the structure. A name that is on it or that has been
-- ordered is not visited again, so the walk also ends where containment is cyclic.
-- Extends `ordered` by the structure of a name, after the structures that its members hold.
def visit (m : Model) (path : List String) (name : String) (ordered : List Structure) :
    List Structure :=
  if fresh : name ∈ path then ordered
  else if ordered.any (·.name == name) then ordered
  else
    match found : m.structure? name with
    | none => ordered
    | some s =>
      have := unvisited_cons_lt (name_mem_of_structure? found) fresh
      s.memberTypeNames.foldl (fun ordered n => visit m (name :: path) n ordered) ordered ++ [s]
termination_by unvisited m.structureNames path

-- The structures, the first of each name, ordered such that each follows those it holds.
def dependencyOrder (m : Model) : List Structure :=
  m.structureNames.foldl (fun ordered name => m.visit [] name ordered) []

end Model
end Shading
