import Shading.Text.Blank
/-!
Targets: the version of the shading language that source is written in, with its options.
-/

namespace Shading.Glsl

inductive Version where
  | core330
  | es300
  | desktop450
  deriving DecidableEq

namespace Version

def text : Version → String
  | core330    => "330"
  | es300      => "300es"
  | desktop450 => "450"

def directive : Version → String
  | core330    => "#version 330 core"
  | es300      => "#version 300 es"
  | desktop450 => "#version 450"

def isEmbedded (v : Version) : Bool := v == es300

def usesDescriptorSets (v : Version) : Bool := v == desktop450

def supportsCompute (v : Version) : Bool := v == desktop450

def supportsStorage (v : Version) : Bool := !v.isEmbedded

-- Reads a version. White space at the ends and the case of ASCII letters do not matter.
def parse? (text : String) : Option Version :=
  match String.ofList ((Text.trim text.toList).map Char.toLower) with
  | "330" | "330core" | "glsl330"             => some core330
  | "300es" | "300 es" | "es300" | "essl300"  => some es300
  | "450" | "glsl450" | "vulkan"              => some desktop450
  | _                                         => none

end Version

inductive Precision where
  | low
  | medium
  | high
  deriving DecidableEq

namespace Precision

def text : Precision → String
  | low    => "lowp"
  | medium => "mediump"
  | high   => "highp"

def parse? : String → Option Precision
  | "low" | "lowp"       => some low
  | "medium" | "mediump" => some medium
  | "high" | "highp"     => some high
  | _                    => none

end Precision

structure Target where
  version     : Version := .desktop450
  flipVertexY : Bool := false
  precision   : Precision := .high
  deriving DecidableEq

def Target.name (t : Target) : String := "glsl" ++ t.version.text

end Shading.Glsl
