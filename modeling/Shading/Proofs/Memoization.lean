import Shading.Structure
import Shading.Proofs.CanonicalNames
import Mathlib
/-!
Remembering footprints is transparent: no query can tell what has been asked before it.

Describing a declaration asks for a structure of its name, to which there need be no reference. If
the name means something else where it is referred to, each of the two is taken for the other.
-/

namespace Shading

-- What can be asked about layouts.
inductive Query
  | type (ty : TypeRef)
  | field (owner : String) (f : FieldDecl)
  | declaration (t : TypeDecl)

inductive Answer
  | type (f : Footprint)
  | field (f : Footprint) (count : Nat)
  | declaration (s : Structure)

namespace Query

-- The types that occur in a query.
def types : Query → List TypeRef
  | type ty       => [ty]
  | field _ f     => [f.ty]
  | declaration t => t.instanceFields.map FieldDecl.ty

def described? : Query → Option TypeDecl
  | declaration t => some t
  | _             => none

-- The types that a query asks for. Describing a declaration includes its footprint as a structure.
def asks (q : Query) : List TypeRef :=
  q.types ++ q.described?.toList.map TypeDecl.structRef

def ask (p : Program) : Query → LayoutM Answer
  | type ty       => .type <$> Layouts.footprintOf p ty
  | field owner f => (fun (all, count) => .field all count) <$>
    fieldFootprint (Layouts.footprintOf p) owner f
  | declaration t => .declaration <$> Structure.ofDecl p t

-- The answers to queries that are asked one after the other, each with the layouts that it leaves.
def askAll (p : Program) : List Query → Layouts → List (EStateM.Result Error Layouts Answer)
  | [], _      => []
  | q :: qs, l => q.ask p l :: askAll p qs (leftover (q.ask p l))

def accesses (p : Program) : Query → Access Answer
  | type ty       => .type <$> Layouts.compute p [] ty
  | field owner f => (fun (all, count) => .field all count) <$>
    fieldFootprint (Layouts.compute p []) owner f
  | declaration t => (.declaration ·.val) <$> Structure.describe p t

variable {p : Program} {overrides : List (String × Nat)} {q : Query} {qs : List Query}
  {roots : List TypeRef} {l : Layouts}

theorem run_accesses : (q.accesses p).run = q.ask p := by
  cases q
  case type        => exact Access.run_map ..
  case field       => exact (Access.run_map ..).trans (congrArg _ run_fieldFootprint)
  case declaration =>
    refine (Access.run_map ..).trans ?_
    rw [ask, Structure.ofDecl, Access.run_map]
    funext l
    change EStateM.map _ _ l = EStateM.map _ (EStateM.map _ _) l
    simp only [EStateM.map]
    cases Access.run _ l <;> rfl

-- The types that queries ask for, if those that occur in them are given.
theorem asks_mem (mem : ∀ q ∈ qs, ∀ ty ∈ q.types, ty ∈ TypeRef.refsAll roots) :
    ∀ q ∈ qs, ∀ ty ∈ q.asks, ty ∈ TypeRef.refsAll
      (roots ++ (qs.filterMap described?).map TypeDecl.structRef) := by
  intro q hq ty hty
  rcases List.mem_append.mp hty with occurs | described
  case inl =>
    obtain ⟨root, known, inside⟩ := TypeRef.mem_refsAll.mp (mem q hq ty occurs)
    exact TypeRef.mem_refsAll.mpr ⟨root, List.mem_append_left _ known, inside⟩
  case inr =>
    obtain ⟨t, known, rfl⟩ := List.mem_map.mp described
    have known := List.mem_filterMap.mpr ⟨q, hq, Option.mem_toList.mp known⟩
    exact TypeRef.mem_refsAll.mpr
      ⟨_, List.mem_append_right _ (List.mem_map_of_mem known), TypeRef.self_mem_refs _⟩

-- Among all that is asked for names are canonical, if those of described declarations mean them.
theorem universe_of_meant {types : List TypeRef} (canonical : Canonical (p.fieldTypes ++ types))
    (meant : ∀ t ∈ qs.filterMap described?, Structural (p.fieldTypes ++ types) t.name) :
    Universe p (p.fieldTypes ++ types ++ (qs.filterMap described?).map TypeDecl.structRef) := by
  have canonical := canonical.append_structs meant
  rw [List.append_assoc] at canonical ⊢
  exact .of_canonical canonical

-- A query asks for the types that occur in it, or for one element of them.
theorem accesses_of_parts {P : {α : Type} → Access α → Prop} (c : Access.Compositional P)
    (each : ∀ ty ∈ q.types, P (Layouts.compute p [] ty) ∧ P (Layouts.compute p [] ty.elementOrSelf))
    (whole : ∀ t, q.described? = some t → P (Layouts.compute p [] t.structRef)) :
    P (q.accesses p) := by
  cases q
  case type ty => exact c.bind (each ty List.mem_cons_self).left fun _ => c.pure _
  case field owner f =>
    have part := (each f.ty List.mem_cons_self).right
    exact c.bind (fieldFootprint_of_parts c owner part) fun _ => c.pure _
  case declaration t =>
    refine c.bind (describe_of_parts c (fun f hf => ?_) (whole t rfl)) fun _ => c.pure _
    exact (each f.ty (List.mem_map_of_mem hf)).right

theorem accesses_steady (u : Universe p roots) (mem : ∀ ty ∈ q.asks, ty ∈ TypeRef.refsAll roots) :
    Access.Steady overrides (Fitting p overrides roots) (q.accesses p) := by
  have steady {ty} (h : ty ∈ TypeRef.refsAll roots) :
      Access.Steady overrides (Fitting p overrides roots) (Layouts.compute p [] ty) :=
    u.compute_steady h (by simp)
  refine accesses_of_parts Access.Steady.compositional (fun ty occurs => ?_) fun t known => ?_
  · have known := mem ty (List.mem_append_left _ occurs)
    exact ⟨steady known, steady (Universe.elementOrSelf_mem known)⟩
  · refine steady (mem _ (List.mem_append_right _ (List.mem_map_of_mem ?_)))
    exact Option.mem_toList.mpr known

-- What one query returns on layouts that fit, and what it leaves.
theorem ask_fit (u : Universe p roots) (mem : ∀ ty ∈ q.asks, ty ∈ TypeRef.refsAll roots)
    (h : l.Fit overrides (Fitting p overrides roots)) :
    outcome (q.ask p l) = (q.accesses p).alone overrides ∧
    (leftover (q.ask p l)).Fit overrides (Fitting p overrides roots) :=
  run_accesses ▸ u.run_steady (accesses_steady u mem) h

theorem askAll_fit (u : Universe p roots)
    (mem : ∀ q ∈ qs, ∀ ty ∈ q.asks, ty ∈ TypeRef.refsAll roots)
    (h : l.Fit overrides (Fitting p overrides roots)) :
    (askAll p qs l).map outcome = qs.map (fun q => (q.accesses p).alone overrides) ∧
    ∀ r ∈ askAll p qs l, (leftover r).Fit overrides (Fitting p overrides roots) := by
  induction qs generalizing l
  case nil => exact ⟨rfl, nofun⟩
  case cons q qs hi =>
    have ⟨returned, left⟩ := ask_fit u (mem q List.mem_cons_self) h
    have ⟨rest, fits⟩ := hi (fun q hq => mem q (List.mem_cons_of_mem _ hq)) left
    refine ⟨List.cons_eq_cons.mpr ⟨returned, rest⟩, ?_⟩
    rintro r (_ | ⟨_, hr⟩)
    · exact left
    · exact fits r hr

theorem types_mem {roots : List TypeRef} :
    ∀ q ∈ qs, ∀ ty ∈ q.types, ty ∈ TypeRef.refsAll (roots ++ qs.flatMap Query.types) := by
  intro q hq ty hty
  have asked := List.mem_flatMap.mpr ⟨q, hq, hty⟩
  exact TypeRef.mem_refsAll.mpr ⟨ty, List.mem_append_right _ asked, ty.self_mem_refs⟩

end Query

-- If the names of described declarations mean structures wherever they occur, then each query is
-- answered as if it were the first one, and all that is known is as if it were asked for first.
theorem memoization_transparent (p : Program) (overrides : List (String × Nat)) (qs : List Query)
    (canonical : Canonical (p.fieldTypes ++ qs.flatMap Query.types))
    (meant : ∀ t ∈ qs.filterMap Query.described?,
      Structural (p.fieldTypes ++ qs.flatMap Query.types) t.name) :
    (Query.askAll p qs { overrides }).map outcome =
      qs.map (fun q => outcome (q.ask p { overrides })) ∧
    ∀ r ∈ Query.askAll p qs { overrides }, (leftover r).overrides = overrides ∧
      (leftover r).Faithful p (p.fieldTypes ++ qs.flatMap Query.types ++
        (qs.filterMap Query.described?).map TypeDecl.structRef) := by
  have u := Query.universe_of_meant canonical meant
  have mem : ∀ q ∈ qs, ∀ ty ∈ q.asks, ty ∈ TypeRef.refsAll
      (p.fieldTypes ++ qs.flatMap Query.types ++ _) := Query.asks_mem Query.types_mem
  have ⟨returned, fits⟩ := Query.askAll_fit u mem (.empty overrides)
  refine ⟨returned.trans (List.map_congr_left fun q hq => ?_), fun r hr => ?_⟩
  · exact (Query.ask_fit u (mem q hq) (.empty _)).left.symm
  · exact ⟨(fits r hr).overrides_eq, (fits r hr).faithful u⟩

-- Lights within a scene, and a type that contains itself by way of an array.
def litScene : Program where
  types         := [
    { name := "Light", kind := .struct, fields := [
      { name := "direction", ty := .primitive "Vector3" [] },
      { name := "power", ty := .primitive "float" [] }] },
    { name := "Scene", kind := .struct, fields := [
      { name := "lights", ty := .arrayOf (.struct "Light" []), arraySize := some 4 },
      { name := "main", ty := .struct "Light" [] }] },
    { name := "Chain", kind := .struct, fields := [
      { name := "head", ty := .struct "Light" [] },
      { name := "links", ty := .arrayOf (.struct "Chain" []), arraySize := some 2 }] }]
  sets          := []
  types_nodup   := by decide
  methods_nodup := by decide

-- The scene among the types of the program.
def sceneDecl : TypeDecl := litScene.types.get ⟨1, by decide⟩

-- The chain fails on each side of the scene, and leaves the lights known.
theorem memoization_transparent_litScene :
    let qs := [.type (.struct "Chain" []), .declaration sceneDecl, .type (.struct "Chain" []),
      .field "Scene" { name := "lights", ty := .arrayOf (.struct "Light" []) }]
    Canonical (litScene.fieldTypes ++ qs.flatMap Query.types) ∧
    (Query.askAll litScene qs { overrides := [("Light", 32)] }).map outcome =
      qs.map fun q => outcome (q.ask litScene { overrides := [("Light", 32)] }) :=
  ⟨by decide, (memoization_transparent litScene [("Light", 32)] _ (by decide) (by decide)).left⟩

-- The options of an enumeration, which occupy nothing.
def modeDecl : TypeDecl where
  name   := "Mode"
  kind   := .enum
  fields := [{ name := "Off", ty := .primitive "int" [], isStatic := true }]

-- A box with a mode. The name of the mode means the enumeration.
def modes : Program where
  types         := [modeDecl, { name := "Box", kind := .struct, fields := [
    { name := "mode", ty := .enum "Mode" (.primitive "int" []) [] }] }]
  sets          := []
  types_nodup   := by decide
  methods_nodup := by decide

-- Once the box is known, its mode is taken for a structure without members.
theorem mode_mistaken :
    let qs := [.type (.struct "Box" []), .declaration modeDecl]
    Canonical (modes.fieldTypes ++ qs.flatMap Query.types) ∧
    (Query.askAll modes qs {}).map outcome =
      [.ok (.type ⟨4, 4, 4, 4⟩), .ok (.declaration ⟨"Mode", [], ⟨4, 4, 4, 4⟩, true⟩)] ∧
    qs.map (fun q => outcome (q.ask modes {})) =
      [.ok (.type ⟨4, 4, 4, 4⟩), .error (.layout (.emptyStructure "Mode"))] :=
  ⟨by decide, by cbv, by cbv⟩

end Shading
