import Shading.Stage
import Shading.Glsl.Target
/-!
Reading names that the user writes, with what is said about the unknown ones.
-/

namespace Shading

inductive UnknownName where
  | stage (text : String)
  | version (text : String)
  | precision (text : String)
  deriving DecidableEq

def UnknownName.message : UnknownName → String
  | stage text     => "unknown shader stage `" ++ text ++ "`"
  | version text   => "unknown GLSL version `" ++ text ++ "`"
  | precision text => "unknown float precision `" ++ text ++ "`"

def readStage (text : String) : Except UnknownName Stage :=
  match Stage.parse? text with
  | some stage => .ok stage
  | none       => .error (.stage text)

def readVersion (text : String) : Except UnknownName Glsl.Version :=
  match Glsl.Version.parse? text with
  | some version => .ok version
  | none         => .error (.version text)

def readPrecision (text : String) : Except UnknownName Glsl.Precision :=
  match Glsl.Precision.parse? text with
  | some precision => .ok precision
  | none           => .error (.precision text)

end Shading
