import Shading.Program
import Shading.Error
/-!
Shader sets: groups of entry points, at most one per stage, that are generated together.

Explicitly declared sets come first. Each type with entry points that no explicit set refers to
then forms a set of its own.
-/

namespace Shading

structure ShaderSet where
  name    : String
  entries : PerStage (Option MethodId)
  deriving DecidableEq

namespace ShaderSet

def entryPoints (s : ShaderSet) : List (Stage × MethodId) :=
  s.entries.present

def isEmpty (s : ShaderSet) : Bool :=
  s.entryPoints.isEmpty

-- The types whose fields are the resources of the set, in stage order, each once.
def resourceOwners (s : ShaderSet) : List String :=
  s.entryPoints.foldl (fun owners (_, id) =>
    if id.owner ∈ owners then owners else owners ++ [id.owner]) []

def resolveEntry (p : Program) (set : String) (stage : Stage) (reference : String) :
    Except Error MethodId :=
  let missing := StageFault.entryPointNotFound set reference stage
  match MethodId.parse? reference with
  | none => .error (.stage missing)
  | some id =>
    match p.method? id with
    | none => .error (.stage missing)
    | some m => if m.stage = some stage then .ok id else .error (.stage missing m.location)

-- Resolves an explicit declaration, stage by stage. A set without entry points is refused.
def ofDecl (p : Program) (d : SetDecl) : Except Error ShaderSet := do
  let vertex   ← d.entries.vertex.mapM (resolveEntry p d.name .vertex)
  let fragment ← d.entries.fragment.mapM (resolveEntry p d.name .fragment)
  let compute  ← d.entries.compute.mapM (resolveEntry p d.name .compute)
  let set : ShaderSet := ⟨d.name, ⟨vertex, fragment, compute⟩⟩
  if set.isEmpty then throw (.stage (.invalidEntryPointCount d.name .vertex 0))
  return set

def freeEntries (referenced : List MethodId) (t : TypeDecl) (stage : Stage) : List MethodId :=
  ((t.methods.filter (·.stage = some stage)).map fun m => ⟨t.name, m.name⟩).filter
    (· ∉ referenced)

def freeEntry (referenced : List MethodId) (t : TypeDecl) (stage : Stage) :
    Except Error (Option MethodId) :=
  match freeEntries referenced t stage with
  | []   => .ok none
  | [id] => .ok (some id)
  | ids  => .error (.stage (.invalidEntryPointCount t.name stage ids.length) t.location)

def ofType (referenced : List MethodId) (t : TypeDecl) : Except Error ShaderSet := do
  let vertex   ← freeEntry referenced t .vertex
  let fragment ← freeEntry referenced t .fragment
  let compute  ← freeEntry referenced t .compute
  return ⟨t.short, ⟨vertex, fragment, compute⟩⟩

-- All shader sets of a program. Their names have to be distinct.
def discover (p : Program) : Except Error (List ShaderSet) := do
  let explicit ← p.sets.mapM (ofDecl p)
  let referenced := explicit.flatMap fun s => s.entryPoints.map Prod.snd
  let implicit ← p.types.mapM (ofType referenced)
  let sets := explicit ++ implicit.filter (!·.isEmpty)
  match firstRepeat? [] (sets.map ShaderSet.name) with
  | some name => throw (.resource (.duplicateShaderSet name))
  | none      => return sets

end ShaderSet
end Shading
