import Shading.Stage
import Shading.Name
import Shading.Text.Blank
import Shading.Text.Hexadecimal
/-!
What a function touches: builtin variables and features, recorded as flags that are only ever
added, and the stages from which each builtin may be used.
-/

namespace Shading

inductive Flag where
  | vertexId
  | instanceId
  | dispatchThreadId
  | groupThreadId
  | frontFace
  | interlockedAdd
  | texture2DMS
  | structuredBuffer
  | rwTexture2D
  deriving DecidableEq

namespace Flag

def all : List Flag :=
  [vertexId, instanceId, dispatchThreadId, groupThreadId, frontFace, interlockedAdd, texture2DMS,
    structuredBuffer, rwTexture2D]

def text : Flag → String
  | vertexId         => "VERTEX_ID"
  | instanceId       => "INSTANCE_ID"
  | dispatchThreadId => "DISPATCH_THREAD_ID"
  | groupThreadId    => "GROUP_THREAD_ID"
  | frontFace        => "FRONT_FACE"
  | interlockedAdd   => "INTERLOCKED_ADD"
  | texture2DMS      => "TEXTURE_2D_MS"
  | structuredBuffer => "STRUCTURED_BUFFER"
  | rwTexture2D      => "RW_TEXTURE_2D"

def parse? (text : String) : Option Flag :=
  all.find? (·.text == text)

def position : Flag → Nat
  | vertexId         => 0
  | instanceId       => 1
  | dispatchThreadId => 2
  | groupThreadId    => 3
  | frontFace        => 4
  | interlockedAdd   => 5
  | texture2DMS      => 6
  | structuredBuffer => 7
  | rwTexture2D      => 8

end Flag

-- A set of flags, kept as a word. The bits above those of the flags have no name, yet they are kept
-- and written back.
structure Usage where
  bits : BitVec 16
  deriving DecidableEq

namespace Usage

def empty : Usage := ⟨0⟩

def has (u : Usage) (flag : Flag) : Bool := u.bits.getLsbD flag.position

def only (flag : Flag) : Usage := ⟨.twoPow 16 flag.position⟩

def union (u v : Usage) : Usage := ⟨u.bits ||| v.bits⟩

def unnamed (u : Usage) : BitVec 16 := u.bits &&& 0xfe00#16

@[simp]
theorem has_empty (flag : Flag) : empty.has flag = false := by
  simp [has, empty]

@[simp]
theorem has_only (flag flag' : Flag) : (only flag).has flag' = (flag' == flag) := by
  cases flag <;> cases flag' <;> rfl

@[simp]
theorem has_union (u v : Usage) (flag : Flag) :
    (u.union v).has flag = (u.has flag || v.has flag) := by
  simp [has, union]

@[simp]
theorem unnamed_empty : empty.unnamed = 0 := rfl

@[simp]
theorem unnamed_only (flag : Flag) : (only flag).unnamed = 0 := by
  cases flag <;> rfl

@[simp]
theorem unnamed_union (u v : Usage) : (u.union v).unnamed = u.unnamed ||| v.unnamed := by
  refine BitVec.eq_of_getLsbD_eq fun i _ => ?_
  simp [unnamed, union, Bool.and_or_distrib_right]

-- A word is fixed by its flags and by what lies above them.
theorem ext_has {u v : Usage} (h : ∀ flag, u.has flag = v.has flag) (hu : u.unnamed = v.unnamed) :
    u = v := by
  have above (i : Nat) (hi : (0xfe00#16).getLsbD i = true) :
      u.bits.getLsbD i = v.bits.getLsbD i := by
    simpa [unnamed, hi] using congrArg (·.getLsbD i) hu
  suffices u.bits = v.bits by cases u; cases v; simp_all
  refine BitVec.eq_of_getLsbD_eq fun i hi => ?_
  match i with
  | 0  => exact h .vertexId
  | 1  => exact h .instanceId
  | 2  => exact h .dispatchThreadId
  | 3  => exact h .groupThreadId
  | 4  => exact h .frontFace
  | 5  => exact h .interlockedAdd
  | 6  => exact h .texture2DMS
  | 7  => exact h .structuredBuffer
  | 8  => exact h .rwTexture2D
  | 9  => exact above 9 rfl
  | 10 => exact above 10 rfl
  | 11 => exact above 11 rfl
  | 12 => exact above 12 rfl
  | 13 => exact above 13 rfl
  | 14 => exact above 14 rfl
  | 15 => exact above 15 rfl
  | i + 16 => omega

def usesStorage (u : Usage) : Bool :=
  u.has .structuredBuffer || u.has .interlockedAdd || u.has .rwTexture2D

-- What the text of a usage is joined from: the names of the flags, then the unnamed bits as one
-- number in base sixteen, if there are any.
def pieces (u : Usage) : List String :=
  (Flag.all.filter u.has).map Flag.text ++
    if u.unnamed = 0 then [] else ["0x" ++ String.ofList (Text.hexDigits u.unnamed.toNat)]

def text (u : Usage) : String :=
  String.intercalate " | " u.pieces

def piece? : List Char → Option Usage
  | '0' :: 'x' :: digits => do
    let n ← Text.hexNumber? digits
    if n < 0x10000 then some ⟨.ofNat 16 n⟩ else none
  | name => (Flag.parse? (String.ofList name)).map only

-- Reads pieces that are separated by bars and adds them up. A blank text is the empty set.
def parse? (text : String) : Option Usage :=
  if (Text.trim text.toList).isEmpty then some empty
  else (Text.cutAt '|' text.toList).foldlM
    (fun u piece => (piece? (Text.trim piece)).map u.union) empty

end Usage

inductive BuiltinVariable where
  | vertexId
  | instanceId
  | dispatchThreadId
  | groupThreadId
  | isFrontFace
  deriving DecidableEq

namespace BuiltinVariable

def all : List BuiltinVariable :=
  [vertexId, instanceId, dispatchThreadId, groupThreadId, isFrontFace]

def name : BuiltinVariable → String
  | vertexId         => "VertexID"
  | instanceId       => "InstanceID"
  | dispatchThreadId => "DispatchThreadID"
  | groupThreadId    => "GroupThreadID"
  | isFrontFace      => "IsFrontFace"

def parse? (text : String) : Option BuiltinVariable :=
  all.find? (·.name == text)

def stages : BuiltinVariable → StageMask
  | vertexId | instanceId            => .only .vertex
  | dispatchThreadId | groupThreadId => .only .compute
  | isFrontFace                      => .only .fragment

def flag : BuiltinVariable → Flag
  | vertexId         => .vertexId
  | instanceId       => .instanceId
  | dispatchThreadId => .dispatchThreadId
  | groupThreadId    => .groupThreadId
  | isFrontFace      => .frontFace

end BuiltinVariable

def builtinsTypeName : String := "ShaderBuiltins"

def isBuiltinsType (name : String) : Bool :=
  shortName name == builtinsTypeName

def intrinsicStages : String → StageMask
  | "Ddx" | "Ddy" | "DdxFine" | "DdyFine" | "Discard" | "SampleComparison" => .only .fragment
  | "InterlockedAdd" => .union (.only .fragment) (.only .compute)
  | _ => .any

end Shading
