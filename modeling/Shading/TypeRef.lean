import Shading.Name
/-!
References to resolved types, and the names of the builtin ones.
-/

namespace Shading

-- A reference to a resolved type by its full name, together with the shape of that type and its
-- generic arguments.
--
-- The element count of an array is no part of its type: it lives on the field that declares it.
inductive TypeRef where
  | void      (name : String) (args : List TypeRef)
  | primitive (name : String) (args : List TypeRef)
  | struct    (name : String) (args : List TypeRef)
  | object    (name : String) (args : List TypeRef)
  | enum      (name : String) (underlying : TypeRef) (args : List TypeRef)
  | array     (name : String) (element : TypeRef) (args : List TypeRef)

namespace TypeRef

mutual

def decEq : (a b : TypeRef) → Decidable (a = b)
  | .void n as, .void m bs | .primitive n as, .primitive m bs
  | .struct n as, .struct m bs | .object n as, .object m bs =>
    match decEqAll as bs with
    | .isTrue h  => if hn : n = m then .isTrue (by rw [hn, h]) else .isFalse (by simp [hn])
    | .isFalse h => .isFalse (by simp [h])
  | .enum n a as, .enum m b bs | .array n a as, .array m b bs =>
    match decEq a b, decEqAll as bs with
    | .isTrue ha, .isTrue h =>
      if hn : n = m then .isTrue (by rw [hn, ha, h]) else .isFalse (by simp [hn])
    | .isFalse h, _ => .isFalse (by simp [h])
    | _, .isFalse h => .isFalse (by simp [h])
  | .void .., .primitive .. | .void .., .struct .. | .void .., .object .. | .void .., .enum ..
  | .void .., .array .. | .primitive .., .void .. | .primitive .., .struct ..
  | .primitive .., .object .. | .primitive .., .enum .. | .primitive .., .array ..
  | .struct .., .void .. | .struct .., .primitive .. | .struct .., .object .. | .struct .., .enum ..
  | .struct .., .array .. | .object .., .void .. | .object .., .primitive ..
  | .object .., .struct .. | .object .., .enum .. | .object .., .array .. | .enum .., .void ..
  | .enum .., .primitive .. | .enum .., .struct .. | .enum .., .object .. | .enum .., .array ..
  | .array .., .void .. | .array .., .primitive .. | .array .., .struct .. | .array .., .object ..
  | .array .., .enum .. => .isFalse nofun

def decEqAll : (as bs : List TypeRef) → Decidable (as = bs)
  | [], []                  => .isTrue rfl
  | [], _ :: _ | _ :: _, [] => .isFalse nofun
  | a :: as, b :: bs        =>
    match decEq a b, decEqAll as bs with
    | .isTrue ha, .isTrue h => .isTrue (by rw [ha, h])
    | .isFalse h, _ => .isFalse (by simp [h])
    | _, .isFalse h => .isFalse (by simp [h])

end

instance : DecidableEq TypeRef := decEq

def name : TypeRef → String
  | .void n _ | .primitive n _ | .struct n _ | .object n _ | .enum n _ _ | .array n _ _ => n

def args : TypeRef → List TypeRef
  | .void _ as | .primitive _ as | .struct _ as | .object _ as | .enum _ _ as | .array _ _ as => as

def withArgs (args : List TypeRef) : TypeRef → TypeRef
  | .void n _      => .void n args
  | .primitive n _ => .primitive n args
  | .struct n _    => .struct n args
  | .object n _    => .object n args
  | .enum n u _    => .enum n u args
  | .array n e _   => .array n e args

def unit : TypeRef := .void "void" []

def arrayOf (element : TypeRef) : TypeRef := .array (element.name ++ "[]") element []

def short (t : TypeRef) : String := shortName t.name

def isVoid : TypeRef → Bool
  | .void .. => true
  | _        => false

def isStruct : TypeRef → Bool
  | .struct .. => true
  | _          => false

def isObject : TypeRef → Bool
  | .object .. => true
  | _          => false

def element? : TypeRef → Option TypeRef
  | .array _ e _ => some e
  | _            => none

-- The type of one element: of an array its element type, and of anything else itself.
def elementOrSelf (t : TypeRef) : TypeRef := t.element?.getD t

mutual

def text : TypeRef → String
  | .void n as | .primitive n as | .struct n as | .object n as | .enum n _ as | .array n _ as =>
    n ++ match as with
      | []        => ""
      | a :: rest => "<" ++ a.text ++ textRest rest ++ ">"

def textRest : List TypeRef → String
  | []        => ""
  | a :: rest => ", " ++ a.text ++ textRest rest

end

end TypeRef

def shortNameIn (names : List String) (name : String) : Bool :=
  names.contains (shortName name)

-- The signed and unsigned integer scalars, which are the types that can underlie an enumeration.
def integerScalars : List String :=
  ["sbyte", "byte", "short", "ushort", "int", "uint", "long", "ulong"]

def floatVectors : List String := ["Vector2", "Vector3", "Vector4"]

def integerVectors : List String := ["Int2", "Int3", "Int4", "UInt2", "UInt3", "UInt4"]

def isVectorName (name : String) : Bool :=
  shortNameIn (floatVectors ++ integerVectors) name

def isMatrixName (name : String) : Bool :=
  shortName name == "Matrix4x4"

end Shading
