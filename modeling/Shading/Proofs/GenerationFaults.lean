import Shading.Proofs.DefaultValues
import Shading.Proofs.LayoutFaults
import Shading.Proofs.StageEntries
import Shading.Proofs.StructureDiscovery
import Shading.Proofs.Validation
import Mathlib
/-!
What generation does not fail on.

All that goes wrong with a set is refused by some check, but for default values that have no end. If
those of all constructed values have one, then so has the generation of the set.
-/

open Relation

namespace Shading

open Glsl

variable {Q : Error → Prop} {p : Program} {t : Target} {c c' : Context} {set : ShaderSet}

section Emission

theorem RunExcludes.compositional (only : Error.OnlyEndless Q) :
    EmitM.Compositional Q (RunExcludes Q) where
  pure        := pure
  bind        := bind
  throw       := throw
  lift        := liftExcept
  get         := get
  touch _     := modifyGet _
  useResource _ := modifyGet _
  takeDiscard := modifyGet _
  reserve     := modifyGet _
  scope _ h   := (modifyGet _).bind fun _ => h.bind fun _ => (modifyGet _).bind fun _ => pure _
  locate      := by
    intro α x location h s e failed
    have here := h s
    simp only [EmitM.locate, EStateM.adaptExcept] at failed
    split at failed
    case h_1 e' s' known =>
      cases failed
      rw [known] at here
      exact fun excluded => here e' rfl (only.unplaced location e' excluded)
    case h_2 => cases failed

theorem Emission.emit_excludes (only : Error.OnlyEndless Q) {env : Emission} {id : MethodId}
    (h : ∀ m body, env.program.method? id = some m → m.body = some body →
      env.Bounded Q (Stmt.exprsAll body)) : RunExcludes Q (env.emit id) := by
  have parts := RunExcludes.compositional only
  rw [emit]
  split
  case h_1 => exact .throw only.graph
  case h_2 m known =>
    split
    case h_1 => exact .throw only.graph
    case h_2 body given =>
      have signature : Excludes Q (do
          return (← env.target.typeName m.returnType, ← m.parameters.mapM env.parameter)) := by
        refine (env.target.typeName_excludes only _).bind fun _ _ => ?_
        refine (Excludes.mapM fun q _ => ?_).bind fun _ _ => .ok
        exact (declaration_excludes only env q.name q.ty).bind fun _ _ => .ok
      have lowered := lowerStmts_of_parts parts only body (h m body known given)
      refine (RunExcludes.set _).bind fun _ => ?_
      refine (parts.locate (.liftExcept signature)).bind fun _ => ?_
      refine (withScope_of_parts parts only lowered).bind fun _ => ?_
      exact RunExcludes.get.bind fun _ => .pure _

-- The types that the functions of the stages construct values of.
def Context.Constructs (p : Program) (c : Context) (ty : TypeRef) : Prop :=
  ∃ stage u, c.stages.get stage = some u ∧ ∃ id ∈ u.functions, ∃ m body, p.method? id = some m ∧
    m.body = some body ∧ ∃ node args, .construct node args ∈ Stmt.exprsAll body ∧ node.ty = ty

namespace Generation

variable {stage : Stage} {stages : List Stage} {fs : List EmittedFunction} {ty : TypeRef}

theorem emitStage_excludes (only : Error.OnlyEndless Q)
    (h : ∀ ty, c.Constructs p ty → Excludes Q (defaultValue t p [] ty)) :
    Excludes Q (emitStage p t c stage) := by
  rw [emitStage]
  split
  case h_1 => exact .ok
  case h_2 u used =>
    have each (id : MethodId) (mem : id ∈ u.functions) :
        RunExcludes Q (Emission.emit ⟨t, p, c.resources, stage⟩ id) :=
      Emission.emit_excludes only fun m body known given node args made =>
        h _ ⟨stage, u, used, id, mem, m, body, known, given, node, args, made, rfl⟩
    have all := RunExcludes.mapM each {}
    split
    case h_2 => exact .ok
    case h_1 e _ failed =>
      rw [failed] at all
      exact .error (all e rfl)

-- Emitting a stage leaves the functions of all stages as they are.
theorem constructs_of_emitStage (h : emitStage p t c stage = .ok (fs, c'))
    (made : c'.Constructs p ty) : c.Constructs p ty := by
  obtain ⟨other, u, used, id, mem, rest⟩ := made
  have emitted := Emitted.of_emitStage h
  by_cases same : other ∈ [stage] ∧ ∃ u, c.stages.get other = some u
  case neg =>
    have apart : other ∉ [stage] ∨ c.stages.get other = none := by
      rw [Option.eq_none_iff_forall_ne_some]
      simpa only [not_and_or, not_exists] using same
    exact ⟨other, u, emitted.others other apart ▸ used, id, mem, rest⟩
  case pos =>
    obtain ⟨here, u', known⟩ := same
    obtain ⟨_, _, _, now, _⟩ := emitted.each other here u' known
    cases used.symm.trans now
    exact ⟨other, u', known, id, mem, rest⟩

theorem emitStages_excludes (only : Error.OnlyEndless Q)
    (h : ∀ ty, c.Constructs p ty → Excludes Q (defaultValue t p [] ty)) :
    Excludes Q (emitStages p t stages c) := by
  induction stages generalizing c
  case nil => exact .ok
  case cons stage stages hi =>
    refine (emitStage_excludes only h).bind fun (_, c') made => ?_
    have later := hi fun ty constructs => h ty (constructs_of_emitStage made constructs)
    exact later.bind fun _ _ => .ok

end Generation

end Emission

-- The other steps on the way to a generated set refuse what they cannot do.
section Steps

variable (only : Error.OnlyEndless Q)

include only

theorem Resource.classify_excludes (name : String) (ty : TypeRef) :
    Excludes Q (classify name ty) := by
  rw [classify]
  split
  case h_1 =>
    split
    case isFalse => exact .ok
    case isTrue =>
      split
      case h_1 => exact .error only.resource
      case h_2 => exact .ok
  case h_2 =>
    split
    case isTrue  => exact .error only.resource
    case isFalse => exact .ok

theorem Binder.bind_excludes (owner : String) (f : FieldDecl) :
    RunExcludes Q (Binder.bind owner f) := by
  have classified :
      Excludes Q ((Resource.classify f.name f.ty).mapError (·.locate f.location)) := by
    have h := Resource.classify_excludes only f.name f.ty
    cases made : Resource.classify f.name f.ty
    case ok      => exact .ok
    case error e => exact .error fun excluded => h e made (only.unplaced _ e excluded)
  refine (RunExcludes.liftExcept classified).bind fun _ => RunExcludes.get.bind fun _ => ?_
  split
  case h_1 => exact .throw only.resource
  case h_2 =>
    refine (RunExcludes.modifyGet _).bind fun _ => (RunExcludes.modifyGet _).bind fun _ => ?_
    exact RunExcludes.pure _

theorem Generation.bindResources_excludes : Excludes Q (bindResources p set) := by
  have owners : RunExcludes Q (bindOwners p set.resourceOwners) := by
    refine (RunExcludes.mapM fun owner _ => ?_).bind fun _ => .pure _
    split
    case h_1 => exact .pure _
    case h_2 => exact .mapM fun f _ => Binder.bind_excludes only owner f
  have bound := owners {}
  rw [bindResources]
  split
  case h_1 => exact .ok
  case h_2 e _ failed =>
    rw [failed] at bound
    exact .error (bound e rfl)

theorem CallGraph.order_excludes (entry : MethodId) : Excludes Q (order p entry) := by
  intro e failed
  cases fault_of_order failed
  case unresolved known =>
    rcases callSites_error known with ⟨_, _, rfl⟩ | ⟨_, _, rfl⟩ <;> exact only.graph
  case recursion => exact only.graph
  case cycle     => exact only.graph

theorem Generation.collectFunctions_excludes : Excludes Q (collectFunctions p set c) :=
  .foldlM fun _ (_, entry) _ => (CallGraph.order_excludes only entry).bind fun _ _ => .ok

theorem Structure.describe_excludes (d : TypeDecl) : (describe p d).Excludes Q := by
  have quiet (fault : LayoutFault) (location : Option Location)
      (_ : ∀ name, fault ≠ .recursiveStructure name) : ¬Q (.layout fault location) := only.layout
  have each (ty : TypeRef) : (Layouts.compute p [] ty).Excludes Q :=
    compute_excludes ⟨quiet, only.unplaced, fun _ _ _ _ _ => only.layout⟩ (by simp)
  have parts := Access.Excludes.compositional quiet only.unplaced
  exact describe_of_parts parts (fun _ _ => each _) (each _)

-- Discovery does not fail by itself. It hands on what describing a structure fails with.
omit only in
theorem Context.discoverAll_excludes (c : Context) (pending : List TypeRef) :
    (discoverAll p c pending).Excludes Q := by
  fun_induction discoverAll p c pending
  case case1 => exact .pure _
  case case2 hi | case3 hi | case4 hi => exact hi
  case case5 hi =>
    refine Access.Excludes.attempt_excludes.bind fun r => ?_
    cases r
    case error => exact .pure _
    case ok d  => exact hi d.val d.property

theorem Context.discoverAll_hands_on (c : Context) (pending : List TypeRef) :
    (discoverAll p c pending).Ensures fun r => Excludes Q r.1 := by
  fun_induction discoverAll p c pending
  case case1 => exact Excludes.ok
  case case2 hi | case3 hi | case4 hi => exact hi
  case case5 t _ hi =>
    refine (Structure.describe_excludes only t).attempt.bind fun r h => ?_
    cases r
    case error e => exact Excludes.error (h e rfl)
    case ok d    => exact hi d.val d.property

theorem Model.atMostOutside : Model.AtMostOutside Q where
  stage _ _ _  := only.stage
  resource _ _ := only.resource

theorem Model.validate_ends (m : Model) : Excludes Q m.validate := by
  refine validate_excludes (atMostOutside only) fun stage entry _ => .forM fun builtin _ => ?_
  split
  case isTrue  => exact .error only.stage
  case isFalse => exact .ok

namespace Glsl.Target

theorem opaqueType_excludes (r : Resource) : Excludes Q (t.opaqueType r) := by
  rw [opaqueType]
  split
  case h_1 => exact .ok
  case h_2 => exact .error only.resource

theorem resourceDecl?_excludes (r : Resource) : Excludes Q (t.resourceDecl? r) := by
  have typed := t.typeName_excludes only r.valueType
  have written := opaqueType_excludes (t := t) only r
  rw [resourceDecl?]
  split
  case isFalse => exact .error only.resource
  case isTrue =>
    dsimp only
    split
    case h_1 | h_4 | h_5 => exact typed.bind fun _ _ => .ok
    case h_6 => exact .ok
    case h_7 | h_8 => exact written.bind fun _ _ => .ok
    case h_2 | h_3 =>
      split
      case isTrue  => exact written.bind fun _ _ => .ok
      case isFalse => exact .ok

theorem member_excludes (f : Field) : Excludes Q (t.member f) :=
  (t.typeName_excludes only _).bind fun _ _ => .ok

theorem varyingVariables_excludes (isInput : Bool) (s : Option Structure) :
    Excludes Q (t.varyingVariables isInput s) := by
  cases s
  case none   => exact .ok
  case some s => exact .mapM fun _ _ => (t.typeName_excludes only _).bind fun _ _ => .ok

theorem stageInterface_excludes (input : StageInput) : Excludes Q (t.stageInterface input) := by
  rw [stageInterface]
  split
  case h_1 =>
    refine Excludes.bind ?_ fun _ _ => (varyingVariables_excludes only _ _).bind fun _ _ => .ok
    cases input.inputStructure?
    case none => exact .ok
    case some => exact .mapM fun _ _ => (member_excludes only _).bind fun _ _ => .ok
  case h_2 => exact (varyingVariables_excludes only _ _).bind fun _ _ => .ok
  case h_3 => exact .ok

theorem stageMain_excludes (input : StageInput) : Excludes Q (t.stageMain input) := by
  rw [stageMain]
  refine Excludes.bind ?_ fun _ _ => Excludes.bind ?_ fun _ _ => .ok
  case refine_1 =>
    split
    case h_1 => exact (t.typeName_excludes only _).bind fun _ _ => .ok
    case h_2 => exact .ok
  case refine_2 =>
    split
    case isTrue  => exact .ok
    case isFalse => exact (t.typeName_excludes only _).bind fun _ _ => .ok

theorem stageSource_excludes (input : StageInput) : Excludes Q (t.stageSource input) := by
  rw [stageSource]
  split
  case isTrue => exact .error only.stage
  case isFalse =>
    refine (Excludes.mapM fun s _ => ?_).bind fun _ _ => ?_
    case refine_1 =>
      exact (Excludes.mapM fun f _ => member_excludes only f).bind fun _ _ => .ok
    case refine_2 =>
      refine (Excludes.mapM fun r _ => resourceDecl?_excludes only r).bind fun _ _ => ?_
      refine (stageInterface_excludes only input).bind fun _ _ => ?_
      exact (stageMain_excludes only input).bind fun _ _ => .ok

end Glsl.Target

theorem Generation.writeStages_excludes {m : Model} (fs : List (Stage × List EmittedFunction)) :
    Excludes Q (writeStages t m fs) := by
  induction fs
  case nil => exact .ok
  case cons f fs hi =>
    rw [writeStages]
    split
    case h_1 => exact hi
    case h_2 =>
      exact (Target.stageSource_excludes only _).bind fun _ _ => hi.bind fun _ _ => .ok

-- So a set is generated without any of the excluded errors, if default values are.
theorem Generation.generateFor_excludes (h : ∀ ty, Excludes Q (defaultValue t p [] ty)) :
    (generateFor p set t).Excludes Q := by
  have assembled : (assemble p set t).Excludes Q := by
    refine (Access.Excludes.liftExcept (bindResources_excludes only)).bind fun _ => ?_
    refine (Access.Excludes.liftExcept (collectFunctions_excludes only)).bind fun c => ?_
    refine (c.discoverAll_excludes _).bind_ensured (c.discoverAll_hands_on only _) fun r found => ?_
    refine (Access.Excludes.liftExcept found).bind fun _ => ?_
    exact .liftExcept (emitStages_excludes only fun ty _ => h ty)
  refine assembled.bind fun (fs, c) => ?_
  refine (Access.Excludes.liftExcept (c.build.validate_ends only)).bind fun _ => ?_
  exact (Access.Excludes.liftExcept (writeStages_excludes only fs)).bind fun _ => .pure _

end Steps

-- Without an end are only the default values of structures that are embedded in themselves.
theorem Generation.embedded_of_endless : (generateFor p set t).Excludes fun e =>
    ∃ name, e.cause = .endless name ∧ ¬TransGen (Embeds p) name name := by
  have only : Error.OnlyEndless fun e =>
      ∃ name, e.cause = .endless name ∧ ¬TransGen (Embeds p) name name := by
    refine ⟨?_, fun _ _ => id⟩
    rintro ⟨_, _⟩ ⟨_, rfl, _⟩
    rfl
  refine generateFor_excludes only fun ty => defaultValue_excludes only (by simp) ?_
  rintro name _ _ cycle ⟨_, ⟨⟩, acyclic⟩
  exact acyclic cycle

section Trellis

open Generation

def grow : MethodDecl where
  name       := "grow"
  returnType := .unit
  stage      := some .fragment
  body       := some [
    .eval (.construct ⟨.struct "Pot" [], none⟩ []), .eval (.construct ⟨.struct "Vine" [], none⟩ [])]

-- A vine without an end. The name of an enumeration hides that from discovery.
def trellis : Program where
  types         := [
    { name := "Vine", kind := .struct, fields := [{ name := "next", ty := .struct "Vine" [] }] },
    { name := "Pot", kind := .struct, fields := [
      { name := "kind", ty := .enum "Vine" (.primitive "int" []) [] }] },
    { name := "Trellis", kind := .object, methods := [grow] }]
  sets          := []
  types_nodup   := by decide
  methods_nodup := by decide

def trellisSet : ShaderSet where
  name    := "Trellis"
  entries := ⟨none, some ⟨"Trellis", "grow"⟩, none⟩

def trellisContext (structures : List Structure) : Context where
  backend    := Target.name {}
  set        := "Trellis"
  structures := structures
  functions  := [.ofDecl "Trellis" grow]
  stages     := ⟨none, some ⟨⟨"Trellis", "grow"⟩, [⟨"Trellis", "grow"⟩], []⟩, none⟩

def potStructure : Structure where
  name      := "Pot"
  fields    := [⟨"kind", .enum "Vine" (.primitive "int" []) [], .unspecified, 0, ⟨4, 4, 4, 4⟩⟩]
  footprint := ⟨4, 4, 4, 4⟩
  agrees    := true

def vineStructure : Structure where
  name      := "Vine"
  fields    := [⟨"next", .struct "Vine" [], .unspecified, 0, ⟨4, 4, 4, 4⟩⟩]
  footprint := ⟨4, 4, 4, 4⟩
  agrees    := true

def trellisLayouts : Layouts where
  known := [("Pot", ⟨4, 4, 4, 4⟩), ("Vine", ⟨4, 4, 4, 4⟩)]

theorem trellis_discovered : ShaderSet.discover trellis = .ok [trellisSet] := by cbv

theorem trellis_collected : collectFunctions trellis trellisSet
    { backend := Target.name {}, set := "Trellis", resources := [] } =
    .ok (trellisContext []) := by
  cbv

theorem trellis_structures :
    (Context.discoverAll trellis (trellisContext [])
      ((trellisContext []).touchedTypes trellis)).run {} =
    .ok (.ok (), trellisContext [potStructure, vineStructure]) trellisLayouts := by
  cbv

theorem trellis_emission :
    emitStages trellis {} [.fragment] (trellisContext [potStructure, vineStructure]) =
    .error ⟨.endless "Vine", none⟩ := by
  cbv

-- The pot has the name of the vine cached when the vine is described.
theorem trellis_run : (generateFor trellis trellisSet {}).run {} =
    .error ⟨.endless "Vine", none⟩ trellisLayouts := by
  have assembled : (assemble trellis trellisSet {}).run {} =
      .error ⟨.endless "Vine", none⟩ trellisLayouts := by
    refine (Access.run_bind_of_ok (run_liftExcept (a := []) rfl _)).trans ?_
    refine (Access.run_bind_of_ok (run_liftExcept trellis_collected _)).trans ?_
    refine (Access.run_bind_of_ok trellis_structures).trans ?_
    change (liftExcept (emitStages trellis {} [.fragment] _) : Access _).run trellisLayouts = _
    rw [trellis_emission]
    rfl
  exact Access.run_bind_of_error assembled

end Trellis

-- Discovery has gone through all structures that default values are taken of. Among canonical
-- names, their footprints are their own, so that none of them is embedded in itself.
section Canonical

open Context

variable {l l' : Layouts} {name : String} {args : List TypeRef} {ty part : TypeRef} {d : TypeDecl}
  {s : Structure} {overrides : List (String × Nat)}

-- The footprint of a structure that has been described is known.
theorem Context.Describes.exists_known? (described : Describes p l s) :
    ∃ f, l.known? s.name = some f := by
  obtain ⟨t, found, replays⟩ := described
  obtain ⟨d, _, run, made⟩ := Access.run_bind_eq_ok (replays l (.refl l))
  cases made
  obtain ⟨_, _, _, rest⟩ := Access.run_bind_eq_ok run
  obtain ⟨f, _, whole, rest⟩ := Access.run_bind_eq_ok rest
  cases rest
  exact ⟨f, known?_of_run_compute whole⟩

namespace Generation

-- A set has been collected for a target and its structures have been discovered, while others may
-- have used the layouts. What is left to do is to emit its functions, in the context that has come
-- out.
def Starts (p : Program) (set : ShaderSet) (t : Target) (l : Layouts) (c : Context) (l' : Layouts) :
    Prop :=
  ∃ resources collected, bindResources p set = .ok resources ∧
    collectFunctions p set { backend := t.name, set := set.name, resources } = .ok collected ∧
    (discoverAll p collected (collected.touchedTypes p)).Ends l (.ok (.ok (), c)) l'

theorem mem_types_of_construct {m : MethodDecl} {body : List Stmt} {node : Node}
    {args : List Expr} (given : m.body = some body)
    (made : .construct node args ∈ Stmt.exprsAll body) : node.ty ∈ m.types := by
  rw [MethodDecl.types, given]
  refine List.mem_append_right _ (List.mem_flatMap.mpr ⟨body, Option.mem_toList.mpr rfl, ?_⟩)
  exact List.mem_append_left _ (List.mem_filterMap.mpr ⟨_, made, rfl⟩)

-- Discovery starts from all types that the functions of the stages construct values of.
theorem Starts.exists_discovered (h : Starts p set t l c l') :
    ∃ c₁, c₁.structures = [] ∧ c₁.Mentioned p ∧
      (∀ ty, c.Constructs p ty → ty ∈ c₁.touchedTypes p) ∧
      (discoverAll p c₁ (c₁.touchedTypes p)).run l' = .ok (.ok (), c) l' := by
  obtain ⟨resources, c₁, bound, collection, ends⟩ := h
  have found := discoverAll_replays ends l' (.refl l')
  have start : Context.Mentioned p { backend := t.name, set := set.name, resources } :=
    ⟨mentioned_of_bindResources bound, by simp⟩
  have mentioned := start.collectFunctions collection
  have collected := collected_of_collectFunctions (nodup_entryPoints set) collection
  obtain ⟨_, _, stages⟩ := (discoverAll_frame p c₁ _).of_run found
  refine ⟨c₁, collected.structures_eq, mentioned, fun ty made => ?_, found⟩
  obtain ⟨stage, u, used, id, mem, m, body, known, given, node, args, made, rfl⟩ := made
  have used : c₁.stages.get stage = some u := stages ▸ used
  refine mentioned.mem_touchedTypes.mpr (.inr ⟨id, m, ?_, known, mem_types_of_construct given made⟩)
  refine (collected.isSome_iff id).mpr (.inr ?_)
  by_cases entered : stage ∈ set.entryPoints.map Prod.fst
  case neg =>
    rw [collected.others stage entered] at used
    cases stage <;> cases used
  case pos =>
    obtain ⟨⟨_, entry⟩, point, rfl⟩ := List.mem_map.mp entered
    obtain ⟨functions, ordered, now⟩ := collected.each _ entry point
    cases used.symm.trans now
    exact ⟨_, point, functions, ordered, mem, Option.isSome_of_eq_some known⟩

-- Whatever default values are expanded to is among the structures of the context.
theorem Starts.hasStructure (h : Starts p set t l c l') (made : c.Constructs p ty)
    (path : ReflTransGen (ExpandsTo p) ty (.struct name args)) (declared : p.type? name = some d) :
    c.hasStructure name := by
  obtain ⟨c₁, empty, _, touched, found⟩ := h.exists_discovered
  refine (hasStructure_iff_reached empty found).mpr ?_
  generalize last : TypeRef.struct name args = part at path
  induction path generalizing name args d
  case refl =>
    cases last
    exact .start (touched _ made) rfl declared
  case tail step hi =>
    obtain ⟨outer, mem⟩ := step
    exact .member (hi outer rfl) outer mem (structName?_eq_some_iff.mpr ⟨args, last.symm⟩) declared

theorem Starts.exists_known? (h : Starts p set t l c l') (has : c.hasStructure name) :
    ∃ f, l'.known? name = some f := by
  obtain ⟨c₁, empty, _, _, found⟩ := h.exists_discovered
  obtain ⟨s, mem, rfl⟩ := hasStructure_iff.mp has
  rcases (discovered_of_run found).structures s mem with old | ⟨described, _⟩
  case inl => simp [empty] at old
  case inr => exact described.exists_known?

-- Among canonical names, the structures of the context have footprints of their own.
theorem Starts.exists_measure (h : Starts p set t l c l') (u : Universe p p.mentionedTypes)
    (fit : l'.Fit overrides (Fitting p overrides p.mentionedTypes)) (has : c.hasStructure name)
    (args : List TypeRef) : ∃ f, measure p overrides [] (.struct name args) = .ok f := by
  obtain ⟨c₁, empty, mentioned, _, found⟩ := h.exists_discovered
  obtain ⟨s, mem, rfl⟩ := hasStructure_iff.mp has
  have known (ty : TypeRef) (mem : ty ∈ c₁.touchedTypes p) := mentioned.touchedTypes mem
  have alone := (u.run_steady (u.discoverAll_steady c₁ known) fit).left
  rw [found] at alone
  have recorded := u.recorded_of_alone_discoverAll known alone.symm mem
  obtain ⟨⟨d, _, declared, described, rfl⟩, _⟩ := recorded.resolve_left (by simp [empty])
  obtain ⟨_, _, measured, _⟩ := alone_describe_eq_ok_iff.mp described
  refine ⟨_, (congrArg (Access.alone overrides) (compute_congr ?_)).trans measured⟩
  exact congrArg (TypeRef.struct · []) (Program.name_eq_of_type? declared).symm

theorem Starts.excludes (h : Starts p set t l c l') (u : Universe p p.mentionedTypes)
    (fit : l'.Fit overrides (Fitting p overrides p.mentionedTypes)) (made : c.Constructs p ty)
    (path : ReflTransGen (ExpandsTo p) ty part) (t' : Target) :
    Excludes (·.isEndless) (defaultValue t' p [] part) := by
  refine defaultValue_excludes onlyEndless (by simp) fun name args further cycle => ?_
  -- Only a declared structure is embedded in anything.
  obtain ⟨_, ⟨d, declared, _⟩, _⟩ := TransGen.head'_iff.mp cycle
  have has := h.hasStructure made (path.trans further) declared
  obtain ⟨_, measured⟩ := h.exists_measure u fit has args
  have acyclic := not_cyclic_of_acc (acc_of_measure measured rfl)
  exact absurd (TransGen.mono (fun _ _ => Embeds.holds) _ _ cycle) acyclic

-- Among canonical names, generation has an end.
theorem alone_generateFor_excludes (u : Universe p p.mentionedTypes) :
    Excludes (·.isEndless) ((generateFor p set t).alone overrides) := by
  have only := onlyEndless
  simp only [generateFor, assemble, Access.alone_bind, Access.alone_liftExcept]
  refine Excludes.bind ?_ fun (fs, c) _ => ?_
  case refine_2 =>
    refine (c.build.validate_ends only).bind fun _ _ => ?_
    exact (writeStages_excludes only fs).bind fun _ _ => .ok
  case refine_1 =>
    refine (bindResources_excludes only).bind fun resources bound => ?_
    refine (collectFunctions_excludes only).bind fun collected collection => ?_
    refine (collected.discoverAll_excludes _).of_alone.bind fun (found, c) discovered => ?_
    refine ((collected.discoverAll_hands_on only _).of_alone discovered).bind fun _ succeeded => ?_
    refine emitStages_excludes only fun ty made => ?_
    have start : Context.Mentioned p { backend := t.name, set := set.name, resources } :=
      ⟨mentioned_of_bindResources bound, by simp⟩
    have mentioned := start.collectFunctions collection
    have steady : (discoverAll p collected _).Steady overrides _ :=
      u.discoverAll_steady collected fun ty mem => mentioned.touchedTypes mem
    obtain ⟨returned, fit⟩ := u.run_steady steady (.empty overrides)
    have run := eq_ok_of_outcome (returned.trans discovered)
    cases succeeded
    have starts : Starts p set t { overrides } c _ :=
      ⟨resources, collected, bound, collection, .of_run run⟩
    exact starts.excludes u fit made .refl t

end Generation
end Canonical
end Shading
