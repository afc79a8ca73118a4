import Shading.Name
/-!
How the names of a program are spelled in the target language.
-/

namespace Shading.Glsl

-- Words that cannot be identifiers in the target language, or could not in some version.
def reservedWords : List String :=
  ["active", "asm", "atomic_uint", "attribute", "bool", "break", "buffer", "case", "cast",
    "centroid", "class", "coherent", "common", "const", "continue", "default", "discard",
    "do", "double", "else", "enum", "extern", "external", "false", "filter", "fixed",
    "flat", "float", "for", "goto", "half", "highp", "if", "image2D", "in", "inline",
    "inout", "input", "int", "interface", "invariant", "layout", "long", "lowp", "main",
    "mat2", "mat3", "mat4", "mediump", "namespace", "noinline", "noperspective", "out",
    "output", "packed", "partition", "patch", "precise", "precision", "public", "readonly",
    "resource", "restrict", "return", "sample", "sampler", "sampler2D", "samplerCube",
    "shared", "short", "sizeof", "smooth", "static", "struct", "subroutine", "superp",
    "switch", "template", "texture", "texture2D", "this", "true", "typedef", "uint",
    "uniform", "union", "unsigned", "using", "vec2", "vec3", "vec4", "void", "volatile",
    "while", "writeonly"]

-- An identifier that collides with a reserved word or a reserved range gets a trailing bar.
def identifier (name : String) : String :=
  if reservedWords.contains name || "gl_".toList.isPrefixOf name.toList then name ++ "_" else name

-- Constructors are named for their type, all other functions for themselves.
def functionName (id : MethodId) : String :=
  if id.isConstructor then identifier (shortName id.owner) ++ "_ctor" else identifier id.name

end Shading.Glsl
