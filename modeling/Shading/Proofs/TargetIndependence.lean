import Shading.Proofs.SetDiscovery
import Shading.Proofs.StageEntries
import Mathlib
/-!
The model of a shader set does not depend on the target that the set is generated for.

A target decides how functions are spelled, and whether they can be. What is recorded about a
function is a property of the program, so two targets for which a function can be spelled record the
same.
-/

namespace Shading

open Glsl

variable {p : Program} {t t' : Target} {c c' c₁ c₁' : Context} {id : MethodId} {stage : Stage}
  {fs fs' : List EmittedFunction} {set : ShaderSet} {overrides : List (String × Nat)}

-- Two emitted functions that put the same marks on a context.
structure EmittedFunction.Agrees (f f' : EmittedFunction) : Prop where
  id    : f.function.id = f'.function.id
  usage : f.function.usage = f'.function.usage

theorem Emission.Emits.agrees {resources : List Resource} {f f' : EmittedFunction}
    (h : Emits ⟨t, p, resources, stage⟩ id f) (h' : Emits ⟨t', p, resources, stage⟩ id f') :
    f.Agrees f' where
  id    := h.function.trans h'.function.symm
  usage := by
    refine Usage.ext_has (fun flag => ?_) (h.unnamed.trans h'.unnamed.symm)
    exact Bool.eq_iff_iff.mpr ((h.flags flag).trans (h'.flags flag).symm)

theorem Generation.EmitsAll.agrees {resources : List Resource} {ids : List MethodId}
    (h : EmitsAll ⟨t, p, resources, stage⟩ ids fs)
    (h' : EmitsAll ⟨t', p, resources, stage⟩ ids fs') :
    List.Forall₂ EmittedFunction.Agrees fs fs' := by
  induction h generalizing fs'
  case nil =>
    cases h'
    exact .nil
  case cons first _ hi =>
    cases h'
    case cons first' rest' =>
      obtain ⟨_, _, first⟩ := first
      obtain ⟨_, _, first'⟩ := first'
      exact .cons ((Emission.emits_of_emit first).agrees (Emission.emits_of_emit first')) (hi rest')

-- Two records of what the entry point of a stage reaches, up to the order of resources.
structure StageUsage.Agrees (u u' : StageUsage) : Prop where
  entry     : u.entry = u'.entry
  functions : u.functions = u'.functions
  resources : ∀ name, name ∈ u.resources ↔ name ∈ u'.resources

-- Two contexts that know the same, of whatever backends.
structure Context.Agrees (c c' : Context) : Prop where
  structures : c.structures = c'.structures
  resources  : c.resources = c'.resources
  functions  : c.functions = c'.functions
  stages     : ∀ stage, Option.Rel StageUsage.Agrees (c.stages.get stage) (c'.stages.get stage)

namespace Context.Agrees

theorem function?_eq (h : c.Agrees c') : c.function? = c'.function? :=
  funext fun _ => congrArg (List.find? _) h.functions

theorem touchedTypes_eq (h : c.Agrees c') : c.touchedTypes p = c'.touchedTypes p := by
  simp only [touchedTypes, resourceTypes, h.resources, h.functions]

theorem hasStructure_eq (h : c.Agrees c') : c.hasStructure = c'.hasStructure := by
  funext name
  simp only [hasStructure, h.structures]

theorem entryFor?_eq (h : c.Agrees c') (stage : Stage) :
    c.entryFor? stage = c'.entryFor? stage := by
  have same := h.stages stage
  simp only [entryFor?]
  cases used : c.stages.get stage <;> cases used' : c'.stages.get stage <;>
    rw [used, used'] at same <;> cases same
  case none.none => rfl
  case some.some u u' same =>
    have resources : c.resources.filter (·.name ∈ u.resources) =
        c'.resources.filter (·.name ∈ u'.resources) := by
      rw [h.resources]
      exact List.filter_congr fun r _ => by simp [same.resources]
    simp only [Option.bind_eq_bind, Option.bind_some, h.function?_eq, same.entry, same.functions,
      resources]

theorem build_eq (h : c.Agrees c') : c.build = c'.build := by
  simp only [build]
  rw [h.structures, h.resources, h.functions, funext h.entryFor?_eq]

theorem addFunction (h : c.Agrees c') (f : ShaderFunction) :
    (c.addFunction f).Agrees (c'.addFunction f) := by
  simp only [Context.addFunction]
  rw [h.function?_eq]
  split
  case isTrue  => exact h
  case isFalse => exact { h with functions := congrArg (· ++ [f]) h.functions }

theorem addStructure (h : c.Agrees c') (s : Structure) :
    (c.addStructure s).Agrees (c'.addStructure s) := by
  simp only [Context.addStructure]
  rw [h.hasStructure_eq]
  split
  case isTrue  => exact h
  case isFalse => exact { h with structures := congrArg (· ++ [s]) h.structures }

theorem markAll (h : c.Agrees c') (all : List.Forall₂ EmittedFunction.Agrees fs fs') :
    Agrees (fs.foldl (fun c f => c.mark f.function.id f.function.usage) c)
      (fs'.foldl (fun c f => c.mark f.function.id f.function.usage) c') := by
  induction all generalizing c c'
  case nil => exact h
  case cons f f' _ _ same _ hi =>
    refine hi ?_
    dsimp only
    rw [same.id, same.usage]
    exact { h with functions := congrArg (markFirst _ _) h.functions }

theorem setStage {u u' : StageUsage} (h : c.Agrees c') (same : u.Agrees u') :
    (c.setStage stage u).Agrees (c'.setStage stage u') := by
  refine { h with stages := fun other => ?_ }
  rw [Context.setStage, Context.setStage]
  by_cases eq : other = stage
  case pos =>
    rw [eq, PerStage.get_set_self, PerStage.get_set_self]
    exact .some same
  case neg =>
    rw [PerStage.get_set_of_ne _ _ eq, PerStage.get_set_of_ne _ _ eq]
    exact h.stages other

theorem addFunctions (h : c.Agrees c') (ids : List MethodId) :
    (Generation.addFunctions p c ids).Agrees (Generation.addFunctions p c' ids) := by
  induction ids generalizing c c'
  case nil => exact h
  case cons id ids hi =>
    rw [Generation.addFunctions_cons, Generation.addFunctions_cons]
    split
    case h_1 => exact hi (h.addFunction _)
    case h_2 => exact hi h

end Context.Agrees

namespace Generation

theorem agrees_collectFunctions (h : c.Agrees c') (run : collectFunctions p set c = .ok c₁)
    (run' : collectFunctions p set c' = .ok c₁') : c₁.Agrees c₁' := by
  simp only [collectFunctions] at run run'
  generalize set.entryPoints = entryPoints at run run'
  induction entryPoints generalizing c c'
  case nil =>
    cases run
    cases run'
    exact h
  case cons e entryPoints hi =>
    obtain ⟨_, first, run⟩ := bind_eq_ok_iff.mp run
    obtain ⟨_, first', run'⟩ := bind_eq_ok_iff.mp run'
    obtain ⟨functions, ordered, first⟩ := bind_eq_ok_iff.mp first
    obtain ⟨functions', ordered', first'⟩ := bind_eq_ok_iff.mp first'
    cases first
    cases first'
    cases ordered.symm.trans ordered'
    exact hi ((h.addFunctions functions).setStage ⟨rfl, rfl, fun _ => Iff.rfl⟩) run run'

-- What discovery finds depends on the structures of the context only.
theorem agrees_discoverAll {pending : List TypeRef} {r r' : Except Error Unit} (h : c.Agrees c')
    (run : (Context.discoverAll p c pending).alone overrides = .ok (r, c₁))
    (run' : (Context.discoverAll p c' pending).alone overrides = .ok (r', c₁')) :
    c₁.Agrees c₁' := by
  fun_induction Context.discoverAll p c pending generalizing c'
  case case1 =>
    rw [Context.discoverAll] at run'
    cases run
    cases run'
    exact h
  case case2 none hi =>
    simp only [Context.discoverAll, none] at run'
    exact hi h run run'
  case case3 some has hi =>
    rw [h.hasStructure_eq] at has
    simp only [Context.discoverAll, some, has, dif_pos] at run'
    exact hi h run run'
  case case4 some has undeclared hi =>
    rw [h.hasStructure_eq] at has
    rw [Context.discoverAll] at run'
    simp only [some] at run'
    rw [dif_neg has] at run'
    split at run'
    case h_1   => exact hi h run run'
    case h_2 d => cases undeclared.symm.trans d
  case case5 name some has t found hi =>
    rw [h.hasStructure_eq] at has
    rw [Context.discoverAll] at run'
    simp only [some] at run'
    rw [dif_neg has] at run'
    split at run'
    case h_1 d => cases found.symm.trans d
    case h_2 d =>
      cases found.symm.trans d
      rw [Access.alone_bind, Access.alone_attempt] at run run'
      obtain ⟨described, first, run⟩ := bind_eq_ok_iff.mp run
      obtain ⟨described', first', run'⟩ := bind_eq_ok_iff.mp run'
      cases first.symm.trans first'
      cases described
      case error =>
        cases run
        cases run'
        exact h
      case ok s => exact hi s.val s.property (h.addStructure s.val) run run'

theorem agrees_emitStage (h : c.Agrees c') (run : emitStage p t c stage = .ok (fs, c₁))
    (run' : emitStage p t' c' stage = .ok (fs', c₁')) : c₁.Agrees c₁' := by
  have same := h.stages stage
  simp only [emitStage] at run run'
  cases used : c.stages.get stage <;> cases used' : c'.stages.get stage <;>
    rw [used, used'] at same <;> cases same <;> simp only [used, used'] at run run'
  case none.none =>
    cases run
    cases run'
    exact h
  case some.some u u' same =>
    split at run
    case h_1 => cases run
    case h_2 emission =>
      split at run'
      case h_1 => cases run'
      case h_2 emission' =>
        cases run
        cases run'
        rw [← h.resources, ← same.functions] at emission'
        have all  := emitsAll_of_mapM emission
        have all' := emitsAll_of_mapM emission'
        refine (h.markAll (all.agrees all')).setStage ⟨same.entry, same.functions, fun name => ?_⟩
        exact (all.mem_resourcesUsed_iff name).trans (all'.mem_resourcesUsed_iff name).symm

theorem agrees_emitStages {stages : List Stage}
    {emitted emitted' : List (Stage × List EmittedFunction)} (h : c.Agrees c')
    (run : emitStages p t stages c = .ok (emitted, c₁))
    (run' : emitStages p t' stages c' = .ok (emitted', c₁')) : c₁.Agrees c₁' := by
  induction stages generalizing c c' emitted emitted'
  case nil =>
    cases run
    cases run'
    exact h
  case cons stage stages hi =>
    have ⟨(_, d), first, run⟩ := bind_eq_ok_iff.mp run
    have ⟨(_, d'), first', run'⟩ := bind_eq_ok_iff.mp run'
    have ⟨(_, _), second, run⟩ := bind_eq_ok_iff.mp run
    have ⟨(_, _), second', run'⟩ := bind_eq_ok_iff.mp run'
    cases run
    cases run'
    exact hi (agrees_emitStage h first first') second second'

-- Both contexts start with the same resources, and each step keeps them in agreement.
theorem agrees_assemble {emitted emitted' : List (Stage × List EmittedFunction)}
    (run : (assemble p set t).alone overrides = .ok (emitted, c))
    (run' : (assemble p set t').alone overrides = .ok (emitted', c')) : c.Agrees c' := by
  simp only [assemble, Access.alone_bind, Access.alone_liftExcept] at run run'
  have ⟨resources, bound, run⟩ := bind_eq_ok_iff.mp run
  have ⟨resources', bound', run'⟩ := bind_eq_ok_iff.mp run'
  have ⟨c₁, collected, run⟩ := bind_eq_ok_iff.mp run
  have ⟨c₁', collected', run'⟩ := bind_eq_ok_iff.mp run'
  have ⟨(r, c₂), found, run⟩ := bind_eq_ok_iff.mp run
  have ⟨(r', c₂'), found', run'⟩ := bind_eq_ok_iff.mp run'
  have ⟨_, _, emission⟩ := bind_eq_ok_iff.mp run
  have ⟨_, _, emission'⟩ := bind_eq_ok_iff.mp run'
  cases bound.symm.trans bound'
  have start : Context.Agrees { backend := t.name, set := set.name, resources }
      { backend := t'.name, set := set.name, resources } := {
    structures   := rfl
    resources    := rfl
    functions    := rfl
    stages stage := by
      rw [PerStage.get_replicate]
      exact .none }
  have h := agrees_collectFunctions start collected collected'
  rw [h.touchedTypes_eq] at found
  exact agrees_emitStages (agrees_discoverAll h found found') emission emission'

theorem exists_assemble_of_generateFor {g : GeneratedSet}
    (h : (generateFor p set t).alone overrides = .ok g) :
    ∃ emitted c, (assemble p set t).alone overrides = .ok (emitted, c) ∧ g.model = c.build ∧
      g.name = set.name := by
  simp only [generateFor, Access.alone_bind, Access.alone_liftExcept] at h
  have ⟨(emitted, c), assembled, h⟩ := bind_eq_ok_iff.mp h
  have ⟨_, _, h⟩ := bind_eq_ok_iff.mp h
  have ⟨_, _, h⟩ := bind_eq_ok_iff.mp h
  cases h
  exact ⟨emitted, c, assembled, rfl, rfl⟩

end Generation

open Generation in
theorem model_independent_of_target (p : Program) (targets targets' : List Target)
    (l l' k k' : Layouts) (o o' : Outcome) (g g' : GeneratedSet)
    (canonical : Canonical p.mentionedTypes) (faithful : l.Faithful p p.mentionedTypes)
    (faithful' : l'.Faithful p p.mentionedTypes) (overrides : l'.overrides = l.overrides)
    (generated : generate p targets l = .ok o k) (generated' : generate p targets' l' = .ok o' k')
    (mem : g ∈ o.sets) (mem' : g' ∈ o'.sets) (same : g.name = g'.name) : g.model = g'.model := by
  obtain ⟨sets, discovered, set, known, t, _, made⟩ :=
    alone_of_generate canonical faithful generated mem
  obtain ⟨sets', discovered', set', known', t', _, made'⟩ :=
    alone_of_generate canonical faithful' generated' mem'
  cases discovered.symm.trans discovered'
  obtain ⟨emitted, c, assembled, built, name⟩ := exists_assemble_of_generateFor made
  obtain ⟨emitted', c', assembled', built', name'⟩ := exists_assemble_of_generateFor made'
  have distinct := (ShaderSet.discover_eq_ok_iff.mp discovered).left
  have one : set = set' :=
    List.inj_on_of_nodup_map distinct known known' (name.symm.trans (same.trans name'))
  rw [overrides, ← one] at assembled'
  rw [built, built']
  exact (agrees_assemble assembled assembled').build_eq

theorem model_independent_of_target_candle :
    ∃ o o' l' g g', generate candle [{}] {} = .ok o l' ∧
      generate candle [{ version := .core330 }] {} = .ok o' l' ∧ g ∈ o.sets ∧ g' ∈ o'.sets ∧
      g.backend ≠ g'.backend ∧ g.model.structures = [flameStructure] ∧ g.model = g'.model := by
  have generated := candle_generated {} rfl rfl
  have generated' := candle_generated { version := .core330 } rfl rfl
  have same := model_independent_of_target candle [{}] [{ version := .core330 }] {} {} _ _ _ _ _ _
    (by decide) nofun nofun rfl generated generated' List.mem_cons_self List.mem_cons_self rfl
  exact ⟨_, _, _, _, _, generated, generated', List.mem_cons_self, List.mem_cons_self, by decide,
    rfl, same⟩

end Shading
