import Shading.Proofs.StageEntries
import Shading.Proofs.SetDiscovery
import Mathlib
/-!
A generated set has the stages that its shader set declares and no others, and lists each function
that one of them reaches once.
-/

namespace Shading

open Glsl

variable {p : Program} {t : Target} {c c' : Context} {set : ShaderSet} {stage : Stage}
  {emitted : List (Stage × List EmittedFunction)}

theorem Access.Ensures.and {x : Access α} {Q R : α → Prop} (h : x.Ensures Q) (h' : x.Ensures R) :
    x.Ensures fun a => Q a ∧ R a := by
  induction x
  case done r =>
    cases r
    case ok    => exact ⟨h, h'⟩
    case error => trivial
  case consult hi | remember hi | adjust hi => exact fun f => hi f (h f) (h' f)

namespace Context

-- The functions of a context by name.
def functionIds (c : Context) : List MethodId :=
  c.functions.map ShaderFunction.id

theorem mem_functionIds {id : MethodId} : id ∈ c.functionIds ↔ (c.function? id).isSome := by
  simp [functionIds, function?, List.find?_isSome]

theorem map_id_markFirst (id : MethodId) (usage : Usage) (fs : List ShaderFunction) :
    (markFirst id usage fs).map ShaderFunction.id = fs.map ShaderFunction.id := by
  induction fs
  case nil => rfl
  case cons f fs hi =>
    simp only [markFirst]
    split
    · rfl
    · rw [List.map_cons, List.map_cons, hi]

theorem functionIds_markAll (fs : List EmittedFunction) (c : Context) :
    (fs.foldl (fun c f => c.mark f.function.id f.function.usage) c).functionIds =
    c.functionIds := by
  induction fs generalizing c
  case nil          => rfl
  case cons f fs hi => exact (hi _).trans (map_id_markFirst ..)

theorem nodup_addFunction (f : ShaderFunction) (h : c.functionIds.Nodup) :
    (c.addFunction f).functionIds.Nodup := by
  simp only [addFunction]
  split
  case isTrue        => exact h
  case isFalse fresh =>
    simp only [functionIds, List.map_append]
    refine List.nodup_append_comm.mp (List.nodup_cons.mpr ⟨?_, h⟩)
    exact fun mem => fresh (mem_functionIds.mp mem)

end Context

namespace Generation

open Context

theorem nodup_addFunctions (ids : List MethodId) (h : c.functionIds.Nodup) :
    (addFunctions p c ids).functionIds.Nodup := by
  induction ids generalizing c
  case nil => exact h
  case cons id ids hi =>
    rw [addFunctions_cons]
    split
    case h_1 => exact hi (nodup_addFunction _ h)
    case h_2 => exact hi h

theorem nodup_collectFunctions (h : collectFunctions p set c = .ok c')
    (start : c.functionIds.Nodup) : c'.functionIds.Nodup := by
  refine foldlM_invariant (P := fun c => c.functionIds.Nodup) ?_ h start
  intro e _ c c' h start
  have ⟨functions, _, h⟩ := bind_eq_ok_iff.mp h
  cases h
  exact nodup_addFunctions functions start

theorem functionIds_emitStage {fs : List EmittedFunction}
    (h : emitStage p t c stage = .ok (fs, c')) : c'.functionIds = c.functionIds := by
  simp only [emitStage] at h
  split at h
  case h_1 => cases h; rfl
  case h_2 =>
    split at h <;> cases h
    exact functionIds_markAll fs c

theorem functionIds_emitStages {stages : List Stage}
    (h : emitStages p t stages c = .ok (emitted, c')) : c'.functionIds = c.functionIds := by
  induction stages generalizing c emitted
  case nil => cases h; rfl
  case cons stage stages hi =>
    have ⟨(_, _), first, h⟩ := bind_eq_ok_iff.mp h
    have ⟨(_, _), rest, h⟩ := bind_eq_ok_iff.mp h
    cases h
    exact (hi rest).trans (functionIds_emitStage first)

-- The stages of a context are those of the set, each with the entry point that the set declares.
structure StagesOf (set : ShaderSet) (emitted : List (Stage × List EmittedFunction)) (c : Context) :
    Prop where
  emitted : emitted.map Prod.fst = set.entryPoints.map Prod.fst
  entries : ∀ stage, (c.stages.get stage).map StageUsage.entry = set.entries.get stage
  nodup   : c.functionIds.Nodup

theorem assemble_stagesOf (p : Program) (set : ShaderSet) (t : Target) :
    (assemble p set t).Ensures fun r => StagesOf set r.1 r.2 := by
  refine (Access.Ensures.intro fun _ => trivial).bind fun resources _ => ?_
  refine (Access.Ensures.liftExcept fun _ => id).bind fun c₁ run₁ => ?_
  refine (discoverAll_frame p c₁ _).bind fun (found, c₂) ⟨_, functions_eq, stages_eq⟩ => ?_
  refine (Access.Ensures.intro fun _ => trivial).bind fun _ _ => ?_
  refine .liftExcept fun (emitted, c) run => ?_
  have collected := collected_of_collectFunctions (nodup_entryPoints set) run₁
  have emission := Emitted.of_emitStages (nodup_entryPoints set) run
  refine ⟨emission.stages_eq, fun stage => ?_, ?_⟩
  · cases declared : set.entries.get stage
    case none =>
      have unused : stage ∉ set.entryPoints.map Prod.fst := by
        simp [ShaderSet.entryPoints, PerStage.mem_present, declared]
      rw [emission.others stage (.inl unused), stages_eq, collected.others stage unused,
        PerStage.get_replicate]
      rfl
    case some entry =>
      have mem : (stage, entry) ∈ set.entryPoints := PerStage.mem_present.mpr declared
      obtain ⟨functions, _, here⟩ := collected.each stage entry mem
      obtain ⟨_, _, _, here, _⟩ :=
        emission.each stage (List.mem_map_of_mem mem) _ (stages_eq ▸ here)
      rw [here]
      rfl
  · have ids : c₂.functionIds = c₁.functionIds := congrArg (List.map _) functions_eq
    rw [functionIds_emitStages run, ids]
    exact nodup_collectFunctions run₁ List.nodup_nil

-- A stage that has been collected is entered by its entry point, which is one of its functions.
theorem Assembled.exists_entry {u : StageUsage} (a : Assembled p set t emitted c)
    (used : c.stages.get stage = some u) :
    ∃ entry, c.build.entry? stage = some entry ∧ entry.function.id = u.entry ∧
      entry.functions = u.functions := by
  have ⟨_, _, staged⟩ := a.each stage u used
  have last := List.mem_of_getLast? (CallGraph.order_orders staged.ordered).entry_last
  have ⟨f, found⟩ := Option.isSome_iff_exists.mp ((a.functions u.entry).mpr ⟨stage, u, used, last⟩)
  have same : f.id = u.entry := by simpa using List.find?_some found
  have built : c.build.entry? stage = c.entryFor? stage := PerStage.get_ofFn ..
  rw [built, Context.entryFor?, used, Option.bind_eq_bind, Option.bind_some, found]
  exact ⟨_, rfl, (ShaderFunction.id_foldl_mark ..).trans same, rfl⟩

-- Sources are written for the stages that have been emitted and have an entry.
theorem isSome_of_writeStages {m : Model} {sources : PerStage (Option String)}
    (h : writeStages t m emitted = .ok sources) :
    (sources.get stage).isSome ↔ stage ∈ emitted.map Prod.fst ∧ (m.entry? stage).isSome := by
  induction emitted generalizing sources
  case nil =>
    cases h
    simp
  case cons first emitted hi =>
    obtain ⟨stage', fs⟩ := first
    rw [writeStages] at h
    split at h
    case h_1 none =>
      rw [hi h, List.map_cons, List.mem_cons]
      refine and_congr_left fun some => (or_iff_right ?_).symm
      rintro rfl
      simp [none] at some
    case h_2 entry known =>
      obtain ⟨source, _, h⟩ := bind_eq_ok_iff.mp h
      obtain ⟨rest, written, h⟩ := bind_eq_ok_iff.mp h
      cases h
      by_cases same : stage = stage'
      case pos => simp [same, known]
      case neg => simp [PerStage.get_set_of_ne _ _ same, hi written, same]

-- What a generated set consists of: the declared stages with their entries and sources, and the
-- functions that they reach, each once.
structure Complete (p : Program) (set : ShaderSet) (g : GeneratedSet) : Prop where
  entries  : ∀ stage, (g.model.entry? stage).map (·.function.id) = set.entries.get stage
  sources  : ∀ stage, (g.sources.get stage).isSome ↔ (set.entries.get stage).isSome
  ordered  : ∀ stage entry, g.model.entry? stage = some entry →
    CallGraph.order p entry.function.id = .ok entry.functions
  distinct : (g.model.functions.map ShaderFunction.id).Nodup
  union    : ∀ id, id ∈ g.model.functions.map ShaderFunction.id ↔
    ∃ stage entry, g.model.entry? stage = some entry ∧ id ∈ entry.functions

theorem complete_of_stagesOf {sources : PerStage (Option String)} (a : Assembled p set t emitted c)
    (stages : StagesOf set emitted c) (written : writeStages t c.build emitted = .ok sources) :
    Complete p set ⟨set.name, t.name, c.build, sources⟩ := by
  have entries (stage : Stage) :
      (c.build.entry? stage).map (·.function.id) = set.entries.get stage := by
    rw [← stages.entries]
    cases used : c.stages.get stage
    case none =>
      have built : c.build.entry? stage = c.entryFor? stage := PerStage.get_ofFn ..
      rw [built, Context.entryFor?, used]
      rfl
    case some u =>
      obtain ⟨entry, known, same, _⟩ := a.exists_entry used
      rw [known]
      exact congrArg some same
  refine ⟨entries, fun stage => ?_, fun stage entry known => ?_, stages.nodup, fun id => ?_⟩
  · rw [isSome_of_writeStages written, stages.emitted, ← entries, Option.isSome_map]
    refine and_iff_right_of_imp fun some => ?_
    obtain ⟨entry, known⟩ := Option.isSome_iff_exists.mp some
    refine List.mem_map.mpr ⟨(stage, entry.function.id), PerStage.mem_present.mpr ?_, rfl⟩
    rw [← entries, known]
    rfl
  · obtain ⟨_, _, compiled⟩ := a.compiled known
    exact compiled.ordered
  · refine Context.mem_functionIds.trans ((a.functions id).trans ?_)
    constructor
    · rintro ⟨stage, u, used, mem⟩
      obtain ⟨entry, known, _, same⟩ := a.exists_entry used
      exact ⟨stage, entry, known, same ▸ mem⟩
    · rintro ⟨stage, entry, known, mem⟩
      have known : c.entryFor? stage = some entry := (PerStage.get_ofFn ..).symm.trans known
      obtain ⟨u, used, made⟩ := Option.bind_eq_some_iff.mp known
      obtain ⟨_, _, made⟩ := Option.bind_eq_some_iff.mp made
      cases made
      exact ⟨stage, u, used, mem⟩

theorem generateFor_complete (p : Program) (set : ShaderSet) (t : Target) :
    (generateFor p set t).Ensures fun g =>
      g.name = set.name ∧ g.backend = t.name ∧ Complete p set g := by
  have both := (assemble_ensures p set t).and (assemble_stagesOf p set t)
  refine both.bind fun (emitted, c) ⟨assembled, stages⟩ => ?_
  refine (Access.Ensures.intro fun _ => trivial).bind fun _ _ => ?_
  refine (Access.Ensures.liftExcept fun _ => id).bind fun sources written => ?_
  exact ⟨rfl, rfl, complete_of_stagesOf assembled stages written⟩

end Generation
end Shading
