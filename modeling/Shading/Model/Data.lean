import Shading.Data
import Shading.Model
import Shading.ShaderSet
import Shading.Glsl.Target
/-!
Models and their parts as data, and models read back from data.
-/

namespace Shading

def ofLabel? (all : List α) (label : α → String) (text : String) : Option α :=
  all.find? (label · == text)

namespace Stage

def label : Stage → String
  | vertex   => "Vertex"
  | fragment => "Fragment"
  | compute  => "Compute"

end Stage

namespace Semantic

def all : List Semantic :=
  [unspecified, position, normal, textureCoordinate, color, tangent, systemPosition, colorTarget]

def label : Semantic → String
  | unspecified       => "None"
  | position          => "Position"
  | normal            => "Normal"
  | textureCoordinate => "TextureCoordinate"
  | color             => "Color"
  | tangent           => "Tangent"
  | systemPosition    => "SystemPosition"
  | colorTarget       => "ColorTarget"

def ofData? (d : Data) : Option Semantic := do
  ofLabel? all label (← d.text?)

end Semantic

namespace Direction

def all : List Direction := [input, output, inputOutput]

def label : Direction → String
  | input       => "In"
  | output      => "Out"
  | inputOutput => "InOut"

def ofData? (d : Data) : Option Direction := do
  ofLabel? all label (← d.text?)

end Direction

namespace FunctionKind

def all : List FunctionKind := normal :: Stage.all.map entryPoint

def label : FunctionKind → String
  | normal           => "Normal"
  | entryPoint stage => stage.label ++ "EntryPoint"

def ofData? (d : Data) : Option FunctionKind := do
  ofLabel? all label (← d.text?)

end FunctionKind

namespace StageMask

def flagText (m : StageMask) : String :=
  String.intercalate " | " ((Stage.all.filter m.allows).map fun
    | .vertex   => "VERTEX"
    | .fragment => "FRAGMENT"
    | .compute  => "COMPUTE")

end StageMask

namespace TypeRef

mutual

def toData : TypeRef → Data
  | void name args =>
    .record
      [("name", .text name), ("kind", .text "Void"), ("type_arguments", .list (toDataAll args))]
  | primitive name args =>
    .record [
      ("name", .text name), ("kind", .text "Primitive"),
      ("type_arguments", .list (toDataAll args))]
  | struct name args =>
    .record
      [("name", .text name), ("kind", .text "Struct"), ("type_arguments", .list (toDataAll args))]
  | object name args =>
    .record
      [("name", .text name), ("kind", .text "Class"), ("type_arguments", .list (toDataAll args))]
  | enum name underlying args =>
    .record [("name", .text name),
      ("kind", .record [("Enum", .record [("underlying", underlying.toData)])]),
      ("type_arguments", .list (toDataAll args))]
  | array name element args =>
    .record [("name", .text name),
      ("kind", .record [("Array", .record [("element", element.toData)])]),
      ("type_arguments", .list (toDataAll args))]

def toDataAll : List TypeRef → List Data
  | []      => []
  | t :: ts => t.toData :: toDataAll ts

end

-- Where the data of a type that is nested in the kind of another one is found.
def nestedData? (kind : Data) (shape role : String) : Option Data := do
  (← kind.field? shape).field? role

theorem sizeOf_lt_of_nestedData? {kind value : Data} {shape role : String}
    (h : nestedData? kind shape role = some value) : sizeOf value < sizeOf kind := by
  obtain ⟨inner, h₁, h₂⟩ := Option.bind_eq_some_iff.mp h
  exact Nat.lt_trans (Data.sizeOf_lt_of_field? h₂) (Data.sizeOf_lt_of_field? h₁)

theorem sizeOf_lt_of_item {d item : Data} {key : String} {items : List Data}
    (h : d.field? key = some (.list items)) (mem : item ∈ items) : sizeOf item < sizeOf d := by
  have := List.sizeOf_lt_of_mem mem
  have := Data.sizeOf_lt_of_field? h
  simp only [Data.list.sizeOf_spec] at this
  omega

def ofData? (d : Data) : Option TypeRef :=
  match d.field? "name", hk : d.field? "kind", ha : d.field? "type_arguments" with
  | some (.text name), some kind, some (.list items) => do
    let args ← items.attach.mapM fun ⟨item, mem⟩ =>
      have := sizeOf_lt_of_item ha mem
      ofData? item
    match kind.text? with
    | some "Void"      => return .void name args
    | some "Primitive" => return .primitive name args
    | some "Struct"    => return .struct name args
    | some "Class"     => return .object name args
    | some _           => none
    | none =>
      match hu : nestedData? kind "Enum" "underlying" with
      | some underlying =>
        have : sizeOf underlying < sizeOf d :=
          Nat.lt_trans (sizeOf_lt_of_nestedData? hu) (Data.sizeOf_lt_of_field? hk)
        return .enum name (← ofData? underlying) args
      | none =>
        match he : nestedData? kind "Array" "element" with
        | some element =>
          have : sizeOf element < sizeOf d :=
            Nat.lt_trans (sizeOf_lt_of_nestedData? he) (Data.sizeOf_lt_of_field? hk)
          return .array name (← ofData? element) args
        | none => none
  | _, _, _ => none
termination_by sizeOf d

end TypeRef

namespace Footprint

def toData (f : Footprint) : Data :=
  .record [("host_size", .number f.hostSize), ("device_size", .number f.deviceSize),
    ("host_alignment", .number f.hostAlignment), ("device_alignment", .number f.deviceAlignment)]

def ofData? (d : Data) : Option Footprint := do
  return {
    hostSize        := ← (← d.field? "host_size").number?
    deviceSize      := ← (← d.field? "device_size").number?
    hostAlignment   := ← (← d.field? "host_alignment").number?
    deviceAlignment := ← (← d.field? "device_alignment").number?
  }

end Footprint

def Offset.toData (o : Offset) : Data :=
  .record [("host", .number o.host), ("device", .number o.device)]

namespace MethodId

def toData (id : MethodId) : Data :=
  .record [("declaring_type", .text id.owner), ("name", .text id.name)]

def ofData? (d : Data) : Option MethodId := do
  return ⟨← (← d.field? "declaring_type").text?, ← (← d.field? "name").text?⟩

end MethodId

namespace GroupSize

def toData (g : GroupSize) : Data :=
  .record [("x", .number g.x), ("y", .number g.y), ("z", .number g.z)]

def ofData? (d : Data) : Option GroupSize := do
  return ⟨← (← d.field? "x").number?, ← (← d.field? "y").number?, ← (← d.field? "z").number?⟩

end GroupSize

namespace Field

def toData (f : Field) : Data :=
  .record [("name", .text f.name), ("ty", f.ty.toData), ("semantic", .text f.semantic.label),
    ("array_element_count", .number f.count), ("alignment", f.footprint.toData)]

def ofData? (d : Data) : Option Field := do
  return {
    name      := ← (← d.field? "name").text?
    ty        := ← TypeRef.ofData? (← d.field? "ty")
    semantic  := ← Semantic.ofData? (← d.field? "semantic")
    count     := ← (← d.field? "array_element_count").number?
    footprint := ← Footprint.ofData? (← d.field? "alignment")
  }

end Field

namespace Structure

def toData (s : Structure) : Data :=
  .record [("name", .text s.name), ("fields", .list (s.fields.map Field.toData)),
    ("alignment", s.footprint.toData), ("host_matches_device_layout", .bool s.agrees)]

def ofData? (d : Data) : Option Structure := do
  return {
    name      := ← (← d.field? "name").text?
    fields    := ← (← d.field? "fields").items? Field.ofData?
    footprint := ← Footprint.ofData? (← d.field? "alignment")
    agrees    := ← (← d.field? "host_matches_device_layout").bool?
  }

end Structure

namespace Resource

def toData (r : Resource) : Data :=
  .record [("name", .text r.name), ("owner", .text r.owner),
    ("descriptor_set", .number r.descriptorSet), ("binding", .number r.binding),
    ("value_type", r.valueType.toData), ("kind", .text r.kind.text)]

def ofData? (d : Data) : Option Resource := do
  return {
    name          := ← (← d.field? "name").text?
    owner         := ← (← d.field? "owner").text?
    descriptorSet := ← (← d.field? "descriptor_set").number?
    binding       := ← (← d.field? "binding").number?
    valueType     := ← TypeRef.ofData? (← d.field? "value_type")
    kind          := ← ResourceKind.parse? (← (← d.field? "kind").text?)
  }

end Resource

namespace Parameter

def toData (p : Parameter) : Data :=
  .record [("name", .text p.name), ("ty", p.ty.toData), ("direction", .text p.direction.label)]

def ofData? (d : Data) : Option Parameter := do
  return {
    name      := ← (← d.field? "name").text?
    ty        := ← TypeRef.ofData? (← d.field? "ty")
    direction := ← Direction.ofData? (← d.field? "direction")
  }

end Parameter

namespace ShaderFunction

def toData (f : ShaderFunction) : Data :=
  .record [("declaring_type", .text f.owner), ("name", .text f.name),
    ("return_type", f.returnType.toData), ("parameters", .list (f.parameters.map Parameter.toData)),
    ("kind", .text f.kind.label), ("compute_group", f.group.toData),
    ("is_constructor", .bool f.isConstructor), ("usage", .text f.usage.text)]

def ofData? (d : Data) : Option ShaderFunction := do
  return {
    owner         := ← (← d.field? "declaring_type").text?
    name          := ← (← d.field? "name").text?
    returnType    := ← TypeRef.ofData? (← d.field? "return_type")
    parameters    := ← (← d.field? "parameters").items? Parameter.ofData?
    kind          := ← FunctionKind.ofData? (← d.field? "kind")
    group         := ← GroupSize.ofData? (← d.field? "compute_group")
    isConstructor := ← (← d.field? "is_constructor").bool?
    usage         := ← Usage.parse? (← (← d.field? "usage").text?)
  }

end ShaderFunction

namespace StageEntry

def toData (e : StageEntry) : Data :=
  .record [("function", e.function.toData), ("functions", .list (e.functions.map MethodId.toData)),
    ("resources", .list (e.resources.map Resource.toData))]

def ofData? (d : Data) : Option StageEntry := do
  return {
    function  := ← ShaderFunction.ofData? (← d.field? "function")
    functions := ← (← d.field? "functions").items? MethodId.ofData?
    resources := ← (← d.field? "resources").items? Resource.ofData?
  }

end StageEntry

namespace Model

def toData (m : Model) : Data :=
  .record [("structures", .list (m.structures.map Structure.toData)),
    ("all_resources", .list (m.resources.map Resource.toData)),
    ("functions", .list (m.functions.map ShaderFunction.toData)),
    ("vertex", .ofOption StageEntry.toData m.entries.vertex),
    ("fragment", .ofOption StageEntry.toData m.entries.fragment),
    ("compute", .ofOption StageEntry.toData m.entries.compute)]

def ofData? (d : Data) : Option Model := do
  return {
    structures := ← (← d.field? "structures").items? Structure.ofData?
    resources  := ← (← d.field? "all_resources").items? Resource.ofData?
    functions  := ← (← d.field? "functions").items? ShaderFunction.ofData?
    entries    := {
      vertex   := ← d.optional? "vertex" StageEntry.ofData?
      fragment := ← d.optional? "fragment" StageEntry.ofData?
      compute  := ← d.optional? "compute" StageEntry.ofData?
    }
  }

end Model

def ShaderSet.toData (s : ShaderSet) : Data :=
  .record [("name", .text s.name), ("vertex", .ofOption MethodId.toData s.entries.vertex),
    ("fragment", .ofOption MethodId.toData s.entries.fragment),
    ("compute", .ofOption MethodId.toData s.entries.compute)]

namespace Glsl

def Version.label : Version → String
  | core330    => "Glsl330"
  | es300      => "Glsl300Es"
  | desktop450 => "Glsl450"

def Precision.label : Precision → String
  | low    => "Low"
  | medium => "Medium"
  | high   => "High"

def Target.toData (t : Target) : Data :=
  .record [("version", .text t.version.label), ("flip_vertex_y", .bool t.flipVertexY),
    ("float_precision", .text t.precision.label)]

end Glsl
end Shading
