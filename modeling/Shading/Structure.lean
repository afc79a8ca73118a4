import Shading.Layouts
/-!
Structures: value types of the program with what their members occupy.
-/

namespace Shading

structure Structure where
  name      : String
  fields    : List Field
  footprint : Footprint
  -- Whether every member starts at the same offset on the host and on the device, and the structure
  -- has the same size on both.
  agrees    : Bool
  deriving DecidableEq

namespace Structure

def describe (p : Program) (t : TypeDecl) : Access { s : Structure // s.name = t.name } := do
  let (fields, packer) ← packFields (Layouts.compute p []) t.name t.instanceFields {}
  let footprint ← Layouts.compute p [] t.structRef
  return ⟨⟨t.name, fields, footprint, packer.agrees⟩, rfl⟩

def ofDecl (p : Program) (t : TypeDecl) : LayoutM Structure :=
  (Subtype.val <$> describe p t).run

def short (s : Structure) : String := shortName s.name

def field? (s : Structure) (name : String) : Option Field :=
  s.fields.find? (·.name == name)

def withSemantic? (s : Structure) (semantic : Semantic) : Option Field :=
  s.fields.find? (·.semantic == semantic)

def offsets (s : Structure) : List Offset :=
  ({} : Packer).offsets (s.fields.map Field.footprint)

def memberTypeNames (s : Structure) : List String :=
  s.fields.map (·.elementType.name)

end Structure
end Shading
