import Shading.Program
import Shading.Packing
import Shading.Visit
/-!
The footprints of types, computed from their declarations and remembered by name.

Several computations may use the same layouts at the same time. A computation is therefore given
by the accesses that it makes to them. Whatever a failing computation has remembered on its way
stays.
-/

namespace Shading

structure Layouts where
  overrides : List (String × Nat) := []
  known     : List (String × Footprint) := []

namespace Layouts

-- Replaces the device alignment of a structure type. The last replacement counts.
def withDeviceAlignment (l : Layouts) (name : String) (alignment : Nat) : Layouts :=
  { l with overrides := (name, max alignment 1) :: l.overrides }

def known? (l : Layouts) (name : String) : Option Footprint :=
  l.known.lookup name

-- The footprint of a structure with its device alignment replaced, if an override says so.
def adjust (l : Layouts) (name : String) (f : Footprint) : Footprint :=
  match l.overrides.lookup name with
  | some deviceAlignment => { f with deviceAlignment }
  | none                 => f

-- Remembers a footprint. A footprint that is known under the name already stays and counts.
def remember (l : Layouts) (name : String) (f : Footprint) : Footprint × Layouts :=
  match l.known? name with
  | some known => (known, l)
  | none       => (f, { l with known := (name, f) :: l.known })

end Layouts

-- A computation on layouts, as the accesses that it makes to them. An access is a single step,
-- while others may use the layouts between two of them.
inductive Access (α : Type) where
  | done (outcome : Except Error α)
  | consult (name : String) (next : Option Footprint → Access α)
  -- Offers a footprint, and goes on with the one that is known under the name from then on.
  | remember (name : String) (f : Footprint) (next : Footprint → Access α)
  | adjust (name : String) (f : Footprint) (next : Footprint → Access α)

namespace Access

def bind (x : Access α) (k : α → Access β) : Access β :=
  match x with
  | .done (.ok a)         => k a
  | .done (.error e)      => .done (.error e)
  | .consult name next    => .consult name fun f => (next f).bind k
  | .remember name f next => .remember name f fun f => (next f).bind k
  | .adjust name f next   => .adjust name f fun f => (next f).bind k

-- The same accesses, with a failure as an answer.
def attempt : Access α → Access (Except Error α)
  | .done outcome         => .done (.ok outcome)
  | .consult name next    => .consult name fun f => (next f).attempt
  | .remember name f next => .remember name f fun f => (next f).attempt
  | .adjust name f next   => .adjust name f fun f => (next f).attempt

instance : Monad Access where
  pure a := .done (.ok a)
  bind   := bind

instance : MonadExcept Error Access where
  throw e       := .done (.error e)
  tryCatch x handle := x.attempt.bind fun
    | .ok a    => pure a
    | .error e => handle e

end Access

abbrev LayoutM := EStateM Error Layouts

def Access.run : Access α → LayoutM α
  | .done (.ok a), l         => .ok a l
  | .done (.error e), l      => .error e l
  | .consult name next, l    => (next (l.known? name)).run l
  | .remember name f next, l => (next (l.remember name f).1).run (l.remember name f).2
  | .adjust name f next, l   => (next (l.adjust name f)).run l

namespace Layouts

mutual

-- The footprint of a type, inside the structures named in `visiting`. A known footprint is returned
-- whatever the shape of the type.
def compute (p : Program) (visiting : List String) (ty : TypeRef) : Access Footprint :=
  .consult ty.name fun
  | some known => pure known
  | none => do .remember ty.name (← derive p visiting ty) pure
termination_by (unvisited (p.types.map TypeDecl.name) visiting, sizeOf ty, 1)

-- An array by itself has no element count, so its footprint is that of one element.
def derive (p : Program) (visiting : List String) : TypeRef → Access Footprint
  | .void name _ => throw (.layout (.noSize name))
  | .object name _ => throw (.layout (.nonBlittable name))
  | .primitive name _ =>
    match Footprint.builtin? name with
    | some f => pure f
    | none   => throw (.layout (.unknownType name))
  | .enum name underlying _ =>
    match Footprint.integer? underlying.name with
    | some f => pure f
    | none   => throw (.layout (.unknownUnderlyingType name underlying.name))
  | .array _ element _ => compute p visiting element
  | .struct name _ =>
    match found : p.type? name with
    | none => throw (.layout (.unknownType name))
    | some t =>
      if t.isObject then throw (.layout (.nonBlittable name))
      else if fresh : name ∈ visiting then throw (.layout (.recursiveStructure name))
      else do
        have := unvisited_cons_lt (Program.name_mem_of_type? found) fresh
        let (_, packer) ← packFields (compute p (name :: visiting)) name t.instanceFields {}
        if t.instanceFields.isEmpty then throw (.layout (.emptyStructure name) t.location)
        .adjust name packer.footprint pure
termination_by ty => (unvisited (p.types.map TypeDecl.name) visiting, sizeOf ty, 0)

end

def footprintOf (p : Program) (ty : TypeRef) : LayoutM Footprint :=
  (compute p [] ty).run

end Layouts
end Shading
