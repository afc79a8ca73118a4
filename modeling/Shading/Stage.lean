/-!
Pipeline stages, values that exist once per stage, and sets of stages.
-/

namespace Shading

inductive Stage where
  | vertex
  | fragment
  | compute
  deriving DecidableEq

namespace Stage

-- Every stage, in the order in which stages are processed and their sources are written.
def all : List Stage := [vertex, fragment, compute]

def text : Stage → String
  | vertex   => "vertex"
  | fragment => "fragment"
  | compute  => "compute"

def parse? : String → Option Stage
  | "vertex" | "vert" | "vs"               => some vertex
  | "fragment" | "frag" | "fs" | "pixel"   => some fragment
  | "compute" | "comp" | "cs"              => some compute
  | _                                      => none

end Stage

structure PerStage (α : Type) where
  vertex   : α
  fragment : α
  compute  : α
  deriving DecidableEq

namespace PerStage

def get (p : PerStage α) : Stage → α
  | .vertex   => p.vertex
  | .fragment => p.fragment
  | .compute  => p.compute

def set (p : PerStage α) (stage : Stage) (a : α) : PerStage α :=
  match stage with
  | .vertex   => { p with vertex := a }
  | .fragment => { p with fragment := a }
  | .compute  => { p with compute := a }

def replicate (a : α) : PerStage α := ⟨a, a, a⟩

def ofFn (f : Stage → α) : PerStage α := ⟨f .vertex, f .fragment, f .compute⟩

def present (p : PerStage (Option α)) : List (Stage × α) :=
  Stage.all.filterMap fun stage => (p.get stage).map (stage, ·)

@[simp]
theorem get_ofFn (f : Stage → α) (stage : Stage) : (ofFn f).get stage = f stage := by
  cases stage <;> rfl

@[simp]
theorem get_replicate (a : α) (stage : Stage) : (replicate a).get stage = a := by
  cases stage <;> rfl

@[simp]
theorem get_set_self (p : PerStage α) (stage : Stage) (a : α) : (p.set stage a).get stage = a := by
  cases stage <;> rfl

theorem get_set_of_ne (p : PerStage α) {s t : Stage} (a : α) (h : t ≠ s) :
    (p.set s a).get t = p.get t := by
  cases s <;> cases t <;> simp_all [set, get]

end PerStage

structure StageMask where
  vertex   : Bool := false
  fragment : Bool := false
  compute  : Bool := false
  deriving DecidableEq

namespace StageMask

def any : StageMask := ⟨true, true, true⟩

def only : Stage → StageMask
  | .vertex   => { vertex := true }
  | .fragment => { fragment := true }
  | .compute  => { compute := true }

def union (m n : StageMask) : StageMask :=
  ⟨m.vertex || n.vertex, m.fragment || n.fragment, m.compute || n.compute⟩

def ofList (stages : List Stage) : StageMask :=
  stages.foldl (fun mask stage => mask.union (only stage)) {}

def allows (m : StageMask) : Stage → Bool
  | .vertex   => m.vertex
  | .fragment => m.fragment
  | .compute  => m.compute

def text (m : StageMask) : String :=
  match Stage.all.filter m.allows with
  | []     => "no"
  | stages => String.intercalate " or " (stages.map Stage.text)

end StageMask

structure GroupSize where
  x : Nat
  y : Nat
  z : Nat
  deriving DecidableEq

def GroupSize.isValid (g : GroupSize) : Bool :=
  0 < g.x && 0 < g.y && 0 < g.z

end Shading
