import Shading.Proofs.UsageText
/-!
Models are read back from the data that they are written as: no part of a model is lost or changed
on the way, whatever types, stages and usages occur in it.
-/

namespace Shading

-- Whatever is written is read back.
def ReadsBack (write : α → Data) (read : Data → Option α) : Prop :=
  ∀ a, read (write a) = some a

namespace Data

@[simp]
theorem field?_record (fields : List (String × Data)) (key : String) :
    (record fields).field? key = fields.lookup key := rfl

@[simp]
theorem text?_text (value : String) : (text value).text? = some value := rfl

@[simp]
theorem number?_number (value : Nat) : (number value).number? = some value := rfl

@[simp]
theorem bool?_bool (value : Bool) : (bool value).bool? = some value := rfl

end Data

namespace ReadsBack

variable {write : α → Data} {read : Data → Option α}

theorem items (h : ReadsBack write read) (as : List α) :
    (Data.list (as.map write)).items? read = some as := by
  change (as.map write).mapM read = some as
  induction as
  case nil          => rfl
  case cons a as hi => simp [h a, hi]

-- A value that is missing is told from all that are written.
theorem optional {d : Data} {key : String} {o : Option α} (h : ReadsBack write read)
    (present : ∀ a, write a ≠ .null) (found : d.field? key = some (.ofOption write o)) :
    d.optional? key read = some o := by
  simp only [Data.optional?, found]
  cases o
  case none   => rfl
  case some a =>
    simp only [Data.ofOption]
    split
    case h_1 none => cases none
    case h_2 null => cases present a (Option.some.inj null)
    case h_3 same => cases same; simp [h a]

end ReadsBack

namespace TypeRef

-- The items carry the proofs by which reading ends, and are read regardless of them.
theorem mapM_attach_ofData? (items : List Data) :
    items.attach.mapM (fun item => ofData? item.val) = items.mapM ofData? := by
  rw [List.mapM_subtype fun _ _ => rfl, List.unattach_attach]

mutual

theorem readsBack : ∀ t : TypeRef, ofData? t.toData = some t
  | .void _ args | .primitive _ args | .struct _ args | .object _ args => by
    rw [toData, ofData?]
    change ((toDataAll args).attach.mapM (fun item => ofData? item.val) >>= _) = _
    rw [mapM_attach_ofData?, mapM_toDataAll args]
    rfl
  | .enum _ inner args | .array _ inner args => by
    rw [toData, ofData?]
    change ((toDataAll args).attach.mapM (fun item => ofData? item.val) >>= _) = _
    rw [mapM_attach_ofData?, mapM_toDataAll args]
    change (ofData? inner.toData >>= _) = _
    rw [readsBack inner]
    rfl

theorem mapM_toDataAll : ∀ ts : List TypeRef, (toDataAll ts).mapM ofData? = some ts
  | []      => rfl
  | t :: ts => by
    rw [toDataAll, List.mapM_cons, readsBack t, mapM_toDataAll ts]
    rfl

end

end TypeRef

theorem Semantic.readsBack : ReadsBack (.text ·.label) ofData? := by
  intro s
  cases s <;> rfl

theorem Direction.readsBack : ReadsBack (.text ·.label) ofData? := by
  intro d
  cases d <;> rfl

theorem FunctionKind.readsBack : ReadsBack (.text ·.label) ofData? := by
  rintro (_ | stage)
  case normal     => rfl
  case entryPoint => cases stage <;> decide +kernel

theorem ResourceKind.parse?_text (kind : ResourceKind) : parse? kind.text = some kind := by
  cases kind <;> rfl

theorem Footprint.readsBack : ReadsBack toData ofData? :=
  fun _ => rfl

theorem MethodId.readsBack : ReadsBack toData ofData? :=
  fun _ => rfl

theorem GroupSize.readsBack : ReadsBack toData ofData? :=
  fun _ => rfl

theorem Field.readsBack : ReadsBack toData ofData? := by
  intro f
  simp [toData, ofData?, List.lookup, TypeRef.readsBack f.ty, Semantic.readsBack f.semantic,
    Footprint.readsBack f.footprint]

theorem Structure.readsBack : ReadsBack toData ofData? := by
  intro s
  simp [toData, ofData?, List.lookup, Field.readsBack.items s.fields,
    Footprint.readsBack s.footprint]

theorem Resource.readsBack : ReadsBack toData ofData? := by
  intro r
  simp [toData, ofData?, List.lookup, TypeRef.readsBack r.valueType,
    ResourceKind.parse?_text r.kind]

theorem Parameter.readsBack : ReadsBack toData ofData? := by
  intro p
  simp [toData, ofData?, List.lookup, TypeRef.readsBack p.ty, Direction.readsBack p.direction]

theorem ShaderFunction.readsBack : ReadsBack toData ofData? := by
  intro f
  simp [toData, ofData?, List.lookup, TypeRef.readsBack f.returnType,
    Parameter.readsBack.items f.parameters, FunctionKind.readsBack f.kind,
    GroupSize.readsBack f.group, Usage.parse?_text f.usage]

theorem StageEntry.readsBack : ReadsBack toData ofData? := by
  intro e
  simp [toData, ofData?, List.lookup, ShaderFunction.readsBack e.function,
    MethodId.readsBack.items e.functions, Resource.readsBack.items e.resources]

-- A model that is written is read back as it was: with its structures, resources and functions, the
-- usages of the functions (and bits in them that no flag has), types nested to any depth, and the
-- stages that it has and lacks.
theorem model_read_back (m : Model) : Model.ofData? m.toData = some m := by
  have stage {key : String} {entry : Option StageEntry}
      (found : m.toData.field? key = some (.ofOption StageEntry.toData entry)) :
      m.toData.optional? key StageEntry.ofData? = some entry :=
    StageEntry.readsBack.optional nofun found
  have vertex : m.toData.optional? "vertex" StageEntry.ofData? = some m.entries.vertex :=
    stage rfl
  have fragment : m.toData.optional? "fragment" StageEntry.ofData? = some m.entries.fragment :=
    stage rfl
  have compute : m.toData.optional? "compute" StageEntry.ofData? = some m.entries.compute :=
    stage rfl
  simp only [Model.ofData?, vertex, fragment, compute]
  simp [Model.toData, List.lookup, Structure.readsBack.items m.structures,
    Resource.readsBack.items m.resources, ShaderFunction.readsBack.items m.functions]

end Shading
