import Shading.Proofs.GlobalNames
import Shading.Proofs.InterfaceLocations
import Mathlib
/-!
Which varyings are flat.

Integers are not interpolated. Whether a varying is flat depends on the name of the type alone,
whereas the type that it is declared with is found by looking through enumerations and arrays.
-/

namespace Shading

-- The vectors of integers, as they are written.
def integerVectorWords : List String := ["ivec2", "ivec3", "ivec4", "uvec2", "uvec3", "uvec4"]

-- The types of the target language whose values are not interpolated.
def integerWords : List String := ["int", "uint"] ++ integerVectorWords

-- The scalars that are written as an integer of another width.
def foldedScalars : List String := ["sbyte", "byte", "short", "ushort", "long", "ulong"]

-- The names that make a varying flat.
def flatNames : List String := ["int", "uint"] ++ integerVectors

namespace TypeRef

-- The types that are written as integers. A structure can only be named like one of them.
def isInteger : TypeRef → Bool
  | void .. | object ..   => false
  | primitive name _      => shortNameIn (integerScalars ++ integerVectors) name
  | struct name _         => shortNameIn integerVectorWords name
  | enum _ underlying _   => underlying.isInteger
  | array _ element _     => element.isInteger

-- The types whose names do not tell whether they are written as integers.
def misjudged : TypeRef → Bool
  | void name _ | object name _ => shortNameIn flatNames name
  | primitive name _            => shortNameIn foldedScalars name
  | struct name _               => shortNameIn (flatNames ++ integerVectorWords) name
  | enum name underlying _      => shortNameIn flatNames name != underlying.isInteger
  | array name element _        => shortNameIn flatNames name != element.isInteger

end TypeRef

theorem mem_shortNameIn {names : List String} {name : String} :
    shortNameIn names name ↔ shortName name ∈ names := by
  rw [shortNameIn, List.contains_iff_mem]

-- The brackets of an array are part of its short name.
theorem shortName_brackets (name : String) : shortName (name ++ "[]") = shortName name ++ "[]" := by
  simp [shortName]

namespace Glsl

variable {t : Target} {isInput : Bool} {k : Nat} {f : Field} {ty : TypeRef} {mapped : String}
  {input : StageInput} {source : StageSource} {v : InterfaceVariable}

theorem primitive?_integer {name : String} (h : t.primitive? name = some mapped) :
    mapped ∈ integerWords ↔ shortName name ∈ integerScalars ++ integerVectors := by
  unfold Target.primitive? at h
  split at h
  case h_11 short =>
    rw [Option.ite_none_left_eq_some] at h
    cases h.right
    rw [short]
    decide
  case h_22 => cases h
  all_goals
    rename shortName name = _ => short
    cases h
    rw [short]
    decide

theorem opaqueType?_integer {kind : ResourceKind} (h : t.opaqueType? kind = some mapped) :
    mapped ∉ integerWords := by
  unfold Target.opaqueType? at h
  split at h <;> split at h
  all_goals grind [integerWords, integerVectorWords]

-- A reserved word is given a bar, so that no structure is written as a scalar.
theorem identifier_integer (name : String) :
    identifier name ∈ integerWords ↔ name ∈ integerVectorWords := by
  have free : ∀ word ∈ integerVectorWords, identifier word = word := by decide +kernel
  have barred : ∀ word ∈ integerWords, word.toList.getLast? ≠ some '_' := by decide +kernel
  constructor
  case mp =>
    intro mem
    rcases identifier_eq_or name with same | ⟨bar, _⟩
    case inl =>
      have reserved : ∀ word ∈ integerWords, identifier word = word →
          word ∈ integerVectorWords := by decide +kernel
      exact reserved name (same ▸ mem) same
    case inr => exact absurd (by simp [bar]) (barred _ mem)
  case mpr =>
    intro mem
    rw [free name mem]
    exact List.mem_append_right _ mem

-- By induction on the type, as its name is found.
theorem typeName_integer (h : t.typeName ty = .ok mapped) :
    mapped ∈ integerWords ↔ ty.isInteger := by
  fun_induction Target.typeName t ty
  case case1 =>
    cases h
    simp [integerWords, integerVectorWords, TypeRef.isInteger]
  case case2 known =>
    cases h
    rw [primitive?_integer known, TypeRef.isInteger, mem_shortNameIn]
  case case4 =>
    cases h
    rw [identifier_integer, TypeRef.isInteger, mem_shortNameIn]
  case case5 hi => exact hi h
  case case6 hi => exact hi h
  case case7 known =>
    cases h
    obtain ⟨kind, _, known⟩ := Option.bind_eq_some_iff.mp known
    simp [opaqueType?_integer known, TypeRef.isInteger]
  all_goals cases h

theorem isIntegral_iff : isIntegral ty ↔ shortName ty.name ∈ flatNames := by
  rw [isIntegral, mem_shortNameIn, flatNames]

theorem isIntegral_iff_isInteger : (isIntegral ty ↔ ty.isInteger) ↔ ¬ty.misjudged := by
  rw [isIntegral_iff]
  cases ty
  case void | object => simp [TypeRef.isInteger, TypeRef.misjudged, TypeRef.name, mem_shortNameIn]
  case enum name inner _ | array name inner _ =>
    cases integer : inner.isInteger
    all_goals
      simp [TypeRef.isInteger, TypeRef.misjudged, TypeRef.name, integer, ← mem_shortNameIn]
  case primitive name _ =>
    rw [TypeRef.isInteger, TypeRef.misjudged, mem_shortNameIn, mem_shortNameIn, TypeRef.name]
    have folded : integerScalars ++ integerVectors ⊆ flatNames ++ foldedScalars := by decide
    have covered : flatNames ++ foldedScalars ⊆ integerScalars ++ integerVectors := by decide
    have apart : ∀ word ∈ foldedScalars, word ∉ flatNames := by decide
    grind
  case struct name _ =>
    rw [TypeRef.isInteger, TypeRef.misjudged, mem_shortNameIn, mem_shortNameIn, TypeRef.name]
    have apart : ∀ word ∈ integerVectorWords, word ∉ flatNames := by decide
    grind

-- An array that is named for its elements is never flat.
theorem isIntegral_arrayOf (element : TypeRef) : ¬isIntegral element.arrayOf := by
  have closed : ∀ word ∈ flatNames, word.toList.getLast? ≠ some ']' := by decide
  rw [isIntegral_iff, TypeRef.arrayOf, TypeRef.name, shortName_brackets]
  exact fun mem => closed _ mem (by simp)

theorem varyingVariable_isFlat : (t.varyingVariable isInput k f).isFlat = isIntegral f.ty := rfl

theorem varying_eq_ok (h : t.typeName f.ty = .ok mapped) :
    t.varying isInput k f = .ok (t.varyingVariable isInput k f) := by
  rw [Target.varyingVariable, spelled_of_typeName h, Target.varying, h]
  rfl

theorem varyingVariable_text (h : t.typeName f.ty = .ok mapped) :
    (t.varyingVariable isInput k f).text =
      (if t.version.usesDescriptorSets then "layout(location = " ++ toString k ++ ") " else "") ++
      (if isIntegral f.ty then "flat " else "") ++ (if isInput then "in " else "out ") ++
      mapped ++ " fsin_" ++ toString k ++ ";\n" := by
  rw [Target.varyingVariable, spelled_of_typeName h]
  cases sets : t.version.usesDescriptorSets
  all_goals simp [InterfaceVariable.text, Member.text, layoutText, varyingName, ← String.toList_inj]

theorem varying_of_mem {s : Option Structure} {vs : List InterfaceVariable}
    (h : t.varyingVariables isInput s = .ok vs) (mem : v ∈ vs) :
    ∃ k f, t.varying isInput k f = .ok v := by
  cases s
  case none =>
    cases h
    cases mem
  case some s =>
    obtain ⟨part, _, made⟩ := exists_left_of_mem (list_mapM_eq_ok_iff.mp h) mem
    exact ⟨part.2, part.1, made⟩

-- All varyings of a source are declared alike.
theorem varying_of_stageSource (h : t.stageSource input = .ok source)
    (mem : v ∈ source.varyings input.stage) : ∃ isInput k f, t.varying isInput k f = .ok v := by
  have interface := (Target.sourceParts_of_stageSource h).interface
  rw [Target.stageInterface] at interface
  split at interface
  case h_1 stage =>
    obtain ⟨_, _, interface⟩ := bind_eq_ok_iff.mp interface
    obtain ⟨_, outputs, interface⟩ := bind_eq_ok_iff.mp interface
    rw [stage, StageSource.varyings, ← Except.ok.inj interface] at mem
    exact ⟨false, varying_of_mem outputs mem⟩
  case h_2 stage =>
    obtain ⟨_, inputs, interface⟩ := bind_eq_ok_iff.mp interface
    rw [stage, StageSource.varyings, ← Except.ok.inj interface] at mem
    exact ⟨true, varying_of_mem inputs mem⟩
  case h_3 stage =>
    rw [stage] at mem
    cases mem

end Glsl

open Glsl Generation

theorem varyings_flat_by_name (t : Target) :
    (∀ isInput k f mapped, t.typeName f.ty = .ok mapped → ∃ v, t.varying isInput k f = .ok v ∧
      v.text = (if t.version.usesDescriptorSets then "layout(location = " ++ toString k ++ ") "
        else "") ++ (if v.isFlat then "flat " else "") ++ (if isInput then "in " else "out ") ++
        mapped ++ " fsin_" ++ toString k ++ ";\n" ∧
      (v.isFlat ↔ shortName f.ty.name ∈ flatNames) ∧
      (mapped ∈ integerWords ↔ f.ty.isInteger) ∧
      ((v.isFlat ↔ mapped ∈ integerWords) ↔ ¬f.ty.misjudged) ∧
      ∀ element, f.ty = .arrayOf element → ¬v.isFlat) ∧
    ∀ input source v, t.stageSource input = .ok source → v ∈ source.varyings input.stage →
      ∃ isInput k f, t.varying isInput k f = .ok v := by
  refine ⟨fun isInput k f mapped typed => ⟨t.varyingVariable isInput k f, varying_eq_ok typed,
    ?_, ?_, typeName_integer typed, ?_, ?_⟩,
    fun _ _ _ written mem => varying_of_stageSource written mem⟩
  · rw [varyingVariable_isFlat]
    exact varyingVariable_text typed
  · rw [varyingVariable_isFlat]
    exact isIntegral_iff
  · rw [varyingVariable_isFlat, typeName_integer typed]
    exact isIntegral_iff_isInteger
  · intro element named
    rw [varyingVariable_isFlat, named]
    exact isIntegral_arrayOf element

def shine : MethodDecl where
  name       := "shine"
  returnType := .unit
  parameters := [{ name := "tide", ty := .struct "Tide" [] }]
  stage      := some .fragment
  body       := some []

-- A lagoon that shines with the tide, of which all members are integers.
def lagoon : Program where
  types         := [
    { name := "Tide", kind := .struct, fields := [
      { name := "depth", ty := .primitive "short" [], semantic := .textureCoordinate },
      { name := "phase", ty := .enum "Phase" (.primitive "int" []) [],
        semantic := .textureCoordinate },
      { name := "marks", ty := .arrayOf (.primitive "int" []), semantic := .textureCoordinate,
        arraySize := some 3 }] },
    { name := "Lagoon", kind := .object, methods := [shine] }]
  sets          := []
  types_nodup   := by decide
  methods_nodup := by decide

def lagoonContext (structures : List Structure) : Context where
  backend    := Target.name {}
  set        := "Lagoon"
  structures := structures
  functions  := [.ofDecl "Lagoon" shine]
  stages     := ⟨none, some ⟨⟨"Lagoon", "shine"⟩, [⟨"Lagoon", "shine"⟩], []⟩, none⟩

def phaseField : Field where
  name      := "phase"
  ty        := .enum "Phase" (.primitive "int" []) []
  semantic  := .textureCoordinate
  count     := 0
  footprint := ⟨4, 4, 4, 4⟩

def tideStructure : Structure where
  name      := "Tide"
  fields    := [
    ⟨"depth", .primitive "short" [], .textureCoordinate, 0, ⟨2, 2, 2, 2⟩⟩,
    phaseField,
    ⟨"marks", .arrayOf (.primitive "int" []), .textureCoordinate, 3, ⟨12, 12, 4, 4⟩⟩]
  footprint := ⟨20, 20, 4, 4⟩
  agrees    := true

def lagoonLayouts : Layouts where
  known := [("Tide", ⟨20, 20, 4, 4⟩), ("int", ⟨4, 4, 4, 4⟩), ("Phase", ⟨4, 4, 4, 4⟩),
    ("short", ⟨2, 2, 2, 2⟩)]

def lagoonModel : Model := (lagoonContext [tideStructure]).build

def shineSource : String :=
  "#version 450\n\n" ++
  "struct Tide\n\x7b\n    int depth;\n    int phase;\n    int marks[3];\n\x7d;\n\n" ++
  "layout(location = 0) in int fsin_0;\n" ++
  "layout(location = 1) in int fsin_1;\n" ++
  "layout(location = 2) in int fsin_2;\n\n" ++
  "void shine(Tide tide)\n\x7b\n\x7d\n\n" ++
  "void main()\n\x7b\n    Tide _input;\n    _input.depth = fsin_0;\n" ++
  "    _input.phase = fsin_1;\n    _input.marks = fsin_2;\n    shine(_input);\n\x7d\n"

theorem varyings_flat_by_name_phase :
    Target.typeName {} phaseField.ty = .ok "int" ∧
    ∃ v, Target.varying {} true 1 phaseField = .ok v ∧
      v.text = "layout(location = 1) " ++ (if v.isFlat then "flat " else "") ++
        "in int fsin_1;\n" ∧ ¬(v.isFlat ↔ "int" ∈ integerWords) := by
  have typed : Target.typeName {} phaseField.ty = .ok "int" := rfl
  obtain ⟨v, made, text, _, _, judged, _⟩ :=
    (varyings_flat_by_name {}).left true 1 phaseField "int" typed
  have misjudged : ¬¬phaseField.ty.misjudged := by decide +kernel
  refine ⟨typed, v, made, ?_, judged.not.mpr misjudged⟩
  rw [text]
  cases v.isFlat <;> rfl

def lagoonSet : ShaderSet where
  name    := "Lagoon"
  entries := ⟨none, some ⟨"Lagoon", "shine"⟩, none⟩

def shineEntry : StageEntry where
  function  := .ofDecl "Lagoon" shine
  functions := [⟨"Lagoon", "shine"⟩]
  resources := []

theorem lagoon_emitted : ∃ fs source,
    emitStages lagoon {} [.fragment] (lagoonContext [tideStructure]) =
      .ok ([(.fragment, fs)], lagoonContext [tideStructure]) ∧
    Target.stageSource {} ⟨.fragment, shineEntry, [tideStructure], fs.map EmittedFunction.text⟩ =
      .ok source ∧
    source.text = shineSource ∧
    (source.varyings .fragment).map (fun v => (v.ty, v.isFlat)) =
      [("int", false), ("int", false), ("int", false)] :=
  ⟨_, _, rfl, rfl, by decide +kernel, by decide +kernel⟩

-- The stages exchange three integers, none of which is flat.
theorem lagoon_interpolates :
    ∃ source, generate lagoon [{}] {} = .ok ⟨[⟨"Lagoon", Target.name {}, lagoonModel,
        ⟨none, some (StageSource.text source), none⟩⟩], []⟩ lagoonLayouts ∧
      source.text = shineSource ∧
      (source.varyings .fragment).map (fun v => (v.ty, v.isFlat)) =
        [("int", false), ("int", false), ("int", false)] := by
  have discovered : ShaderSet.discover lagoon = .ok [lagoonSet] := by cbv
  have collected : collectFunctions lagoon lagoonSet
      { backend := Target.name {}, set := "Lagoon", resources := [] } =
      .ok (lagoonContext []) := by cbv
  have found : (Context.discoverAll lagoon (lagoonContext [])
      ((lagoonContext []).touchedTypes lagoon)).run {} =
      .ok (.ok (), lagoonContext [tideStructure]) lagoonLayouts := by cbv
  have order : lagoonModel.dependencyOrder = [tideStructure] := by cbv
  have valid : lagoonModel.validate = .ok () := by cbv
  obtain ⟨fs, source, emission, made, text, varyings⟩ := lagoon_emitted
  exact ⟨source, generate_eq_ok discovered (run_assemble rfl collected found emission) valid
    (writeStages_eq_ok rfl order made), text, varyings⟩

end Shading
