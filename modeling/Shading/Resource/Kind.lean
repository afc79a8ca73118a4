import Shading.Name
/-!
The kinds of resource that a shader can be given.
-/

namespace Shading

inductive ResourceKind where
  | uniform
  | texture2D
  | texture2DArray
  | textureCube
  | texture2DMS
  | sampler
  | samplerComparison
  | structuredBuffer
  | rwStructuredBuffer
  | rwTexture2D
  | depthTexture2D
  | depthTexture2DArray
  | atomicBuffer
  deriving DecidableEq

namespace ResourceKind

def all : List ResourceKind :=
  [uniform, texture2D, texture2DArray, textureCube, texture2DMS, sampler, samplerComparison,
    structuredBuffer, rwStructuredBuffer, rwTexture2D, depthTexture2D, depthTexture2DArray,
    atomicBuffer]

def text : ResourceKind → String
  | uniform             => "Uniform"
  | texture2D           => "Texture2D"
  | texture2DArray      => "Texture2DArray"
  | textureCube         => "TextureCube"
  | texture2DMS         => "Texture2DMS"
  | sampler             => "Sampler"
  | samplerComparison   => "SamplerComparison"
  | structuredBuffer    => "StructuredBuffer"
  | rwStructuredBuffer  => "RWStructuredBuffer"
  | rwTexture2D         => "RWTexture2D"
  | depthTexture2D      => "DepthTexture2D"
  | depthTexture2DArray => "DepthTexture2DArray"
  | atomicBuffer        => "AtomicBuffer"

def parse? (text : String) : Option ResourceKind :=
  all.find? (·.text == text)

def ofTypeName? (name : String) : Option ResourceKind :=
  match shortName name with
  | "Texture2DResource"           => some texture2D
  | "Texture2DArrayResource"      => some texture2DArray
  | "TextureCubeResource"         => some textureCube
  | "Texture2DMSResource"         => some texture2DMS
  | "SamplerResource"             => some sampler
  | "SamplerComparisonResource"   => some samplerComparison
  | "StructuredBuffer"            => some structuredBuffer
  | "RWStructuredBuffer"          => some rwStructuredBuffer
  | "RWTexture2DResource"         => some rwTexture2D
  | "DepthTexture2DResource"      => some depthTexture2D
  | "DepthTexture2DArrayResource" => some depthTexture2DArray
  | "AtomicBufferUInt32"          => some atomicBuffer
  | _                             => none

def isGeneric : ResourceKind → Bool
  | structuredBuffer | rwStructuredBuffer | rwTexture2D => true
  | _ => false

def hasMemoryLayout : ResourceKind → Bool
  | uniform | structuredBuffer | rwStructuredBuffer => true
  | _ => false

def isTexture : ResourceKind → Bool
  | texture2D | texture2DArray | textureCube | texture2DMS | depthTexture2D
  | depthTexture2DArray => true
  | _ => false

def isSampler : ResourceKind → Bool
  | sampler | samplerComparison => true
  | _ => false

end ResourceKind
end Shading
