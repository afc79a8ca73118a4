import Shading.ShaderSet
import Shading.CallGraph
import Shading.Context.Discovery
import Shading.Model.Validation
import Shading.Emission
import Shading.Glsl.StageSource
/-!
Generation of all shader sets of a program for a list of targets.

A set that fails for a target is reported and keeps no other from being generated. All sets share
the layouts of the program.
-/

namespace Shading

open Glsl

structure GeneratedSet where
  name    : String
  backend : String
  model   : Model
  sources : PerStage (Option String)

structure Failure where
  set     : String
  backend : String
  error   : Error

namespace Generation

variable (p : Program)

-- Types that the program does not declare are passed over.
def bindOwners (owners : List String) : EStateM Error Binder (List Resource) := do
  let bound ← owners.mapM fun owner =>
    match p.type? owner with
    | none   => return []
    | some t => t.instanceFields.mapM (Binder.bind owner)
  return bound.flatten

def bindResources (set : ShaderSet) : Except Error (List Resource) :=
  match bindOwners p set.resourceOwners {} with
  | .ok resources _ => .ok resources
  | .error e _      => .error e

def addFunctions (c : Context) (ids : List MethodId) : Context :=
  ids.foldl (fun c id =>
    match p.method? id with
    | some m => c.addFunction (.ofDecl id.owner m)
    | none   => c) c

-- Records the functions that each entry point reaches, callees first.
def collectFunctions (set : ShaderSet) (c : Context) : Except Error Context :=
  set.entryPoints.foldlM (fun c (stage, entry) => do
    let functions ← CallGraph.order p entry
    return (addFunctions p c functions).setStage stage ⟨entry, functions, []⟩) c

def emitStage (t : Target) (c : Context) (stage : Stage) :
    Except Error (List EmittedFunction × Context) :=
  match c.stages.get stage with
  | none => .ok ([], c)
  | some usage =>
    match usage.functions.mapM (Emission.emit ⟨t, p, c.resources, stage⟩) {} with
    | .error e _ => .error e
    | .ok emitted _ =>
      let marked := emitted.foldl (fun c f => c.mark f.function.id f.function.usage) c
      let resources := (emitted.flatMap EmittedFunction.resourcesUsed).eraseDups
      .ok (emitted, marked.setStage stage { usage with resources })

def emitStages (t : Target) : List Stage → Context →
    Except Error (List (Stage × List EmittedFunction) × Context)
  | [], c => .ok ([], c)
  | stage :: stages, c => do
    let (emitted, c) ← emitStage p t c stage
    let (rest, c) ← emitStages t stages c
    return ((stage, emitted) :: rest, c)

def writeStages (t : Target) (m : Model) :
    List (Stage × List EmittedFunction) → Except Error (PerStage (Option String))
  | [] => .ok (.replicate none)
  | (stage, emitted) :: rest => do
    match m.entry? stage with
    | none => writeStages t m rest
    | some entry =>
      let functions := emitted.map EmittedFunction.text
      let source ← t.stageSource ⟨stage, entry, m.dependencyOrder, functions⟩
      return (← writeStages t m rest).set stage (some source.text)

def assemble (set : ShaderSet) (t : Target) :
    Access (List (Stage × List EmittedFunction) × Context) := do
  let resources ← liftExcept (bindResources p set)
  let collected ← liftExcept
    (collectFunctions p set { backend := t.name, set := set.name, resources })
  let (outcome, discovered) ← Context.discoverAll p collected (collected.touchedTypes p)
  liftExcept outcome
  liftExcept (emitStages p t (set.entryPoints.map Prod.fst) discovered)

def generateFor (set : ShaderSet) (t : Target) : Access GeneratedSet := do
  let (emitted, c) ← assemble p set t
  let model := c.build
  liftExcept model.validate
  let sources ← liftExcept (writeStages t model emitted)
  return ⟨set.name, t.name, model, sources⟩

abbrev Result := Except Failure GeneratedSet

-- A failure is reported for the set and the target, unless there is no coming back from it.
def settle (set : ShaderSet) (t : Target) : Except Error GeneratedSet → Access Result
  | .ok g    => return .ok g
  | .error e => if e.isEndless then throw e else return .error ⟨set.name, t.name, e⟩

-- Generates a set for targets in order, each in a context of its own. A target whose name has had a
-- context for the set fails.
def generateSet (set : ShaderSet) (r : Registry) : List Target → Access (List Result)
  | [] => return []
  | t :: targets =>
    match r.init t.name set.name with
    | .error e => do return .error ⟨set.name, t.name, e⟩ :: (← generateSet set r targets)
    | .ok r => do
      let result ← settle set t (← (generateFor p set t).attempt)
      return result :: (← generateSet set r targets)

def generateSets (targets : List Target) : List ShaderSet → Access (List Result)
  | [] => return []
  | set :: sets => do
    let results ← generateSet p set {} targets
    return results ++ (← generateSets targets sets)

end Generation

-- What a processor is told about a generated set.
structure ProcessorInput where
  set       : String
  backend   : String
  functions : PerStage (Option ShaderFunction)
  model     : Model

def GeneratedSet.processorInput (g : GeneratedSet) : ProcessorInput where
  set       := g.name
  backend   := g.backend
  functions := .ofFn fun stage => (g.model.entry? stage).map StageEntry.function
  model     := g.model

-- A processor acts on a state that all processors share.
abbrev Processor (σ : Type) := ProcessorInput → σ → σ

structure Outcome where
  sets     : List GeneratedSet := []
  failures : List Failure := []

namespace Outcome

def find? (o : Outcome) (backend set : String) : Option GeneratedSet :=
  o.sets.find? fun g => g.backend == backend && g.name == set

def isSuccess (o : Outcome) : Bool := o.failures.isEmpty

-- Processors run on a generated set as soon as its turn comes, and not at all on a failure.
def add (processors : List (Processor σ)) : Outcome × σ → Generation.Result → Outcome × σ
  | (o, s), .ok g =>
    ({ o with sets := o.sets ++ [g] },
      processors.foldl (fun s process => process g.processorInput s) s)
  | (o, s), .error failure => ({ o with failures := o.failures ++ [failure] }, s)

def collect (processors : List (Processor σ)) (results : List Generation.Result) (s : σ) :
    Outcome × σ :=
  results.foldl (add processors) ({}, s)

def ofResults (results : List Generation.Result) : Outcome :=
  (collect [] results ()).1

end Outcome

-- Generates all shader sets for all targets, of which there has to be one, and runs processors on
-- what has come out.
def generateWith (processors : List (Processor σ)) (p : Program) (targets : List Target) (s : σ) :
    LayoutM (Outcome × σ) := do
  if targets.isEmpty then throw (.configuration .noBackends)
  let sets ← liftExcept (ShaderSet.discover p)
  let results ← (Generation.generateSets p targets sets).run
  return Outcome.collect processors results s

def generate (p : Program) (targets : List Target) : LayoutM Outcome :=
  Prod.fst <$> generateWith [] p targets ()

end Shading
