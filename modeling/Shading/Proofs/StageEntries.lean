import Shading.Proofs.Assembly
import Mathlib
/-!
What is known about the stages of a generated set: the order of their functions, the resources and
the flags of their entries, and the functions in their sources.
-/

namespace Shading

open Glsl

variable {p : Program} {t : Target} {stage : Stage} {entry : StageEntry} {c : Context}
  {emitted : List (Stage × List EmittedFunction)} {g : GeneratedSet} {set : ShaderSet}

theorem ShaderFunction.has_foldl_mark (fs : List ShaderFunction) (f : ShaderFunction)
    (flag : Flag) :
    (fs.foldl (fun f callee => f.mark callee.usage) f).usage.has flag ↔
    f.usage.has flag ∨ ∃ callee ∈ fs, callee.usage.has flag := by
  induction fs generalizing f
  case nil => simp
  case cons callee fs hi =>
    rw [List.foldl_cons, hi]
    simp [mark, or_assoc]

theorem ShaderFunction.id_foldl_mark (fs : List ShaderFunction) (f : ShaderFunction) :
    (fs.foldl (fun f callee => f.mark callee.usage) f).id = f.id := by
  induction fs generalizing f
  case nil => rfl
  case cons callee fs hi => exact hi (f.mark callee.usage)

namespace Outcome

def failure? : Generation.Result → Option Failure
  | .ok _    => none
  | .error e => some e

-- Processors are called on the generated sets, on each by all of them in order.
def call (s : σ) (c : GeneratedSet × Processor σ) : σ := c.2 c.1.processorInput s

theorem foldl_add (processors : List (Processor σ)) (results : List Generation.Result) (o : Outcome)
    (s : σ) : results.foldl (add processors) (o, s) =
    (⟨o.sets ++ results.filterMap Except.toOption, o.failures ++ results.filterMap failure?⟩,
      (results.filterMap Except.toOption ×ˢ processors).foldl call s) := by
  induction results generalizing o s
  case nil => simp
  case cons r results hi =>
    rw [List.foldl_cons]
    cases r
    case ok g =>
      have made : (Except.ok g :: results).filterMap Except.toOption =
        g :: results.filterMap Except.toOption := rfl
      have failed : (Except.ok g :: results).filterMap failure? = results.filterMap failure? := rfl
      rw [add, hi, made, failed]
      simp [List.product_cons, List.foldl_map, call]
    case error e =>
      have made : (Except.error e :: results).filterMap Except.toOption =
        results.filterMap Except.toOption := rfl
      have failed : (Except.error e :: results).filterMap failure? =
        e :: results.filterMap failure? := rfl
      rw [add, hi, made, failed]
      simp

theorem ofResults_eq (results : List Generation.Result) :
    ofResults results = ⟨results.filterMap Except.toOption, results.filterMap failure?⟩ :=
  congrArg Prod.fst (foldl_add [] results {} ())

theorem collect_eq (processors : List (Processor σ)) (results : List Generation.Result) (s : σ) :
    collect processors results s =
    (ofResults results, ((ofResults results).sets ×ˢ processors).foldl call s) := by
  rw [ofResults_eq]
  exact foldl_add processors results {} s

theorem mem_sets {results : List Generation.Result} {g : GeneratedSet} :
    g ∈ (ofResults results).sets ↔ .ok g ∈ results := by
  rw [ofResults_eq, List.mem_filterMap]
  constructor
  case mp =>
    rintro ⟨r, mem, same⟩
    cases r <;> cases same
    exact mem
  case mpr => exact fun mem => ⟨_, mem, rfl⟩

end Outcome

namespace Generation

open Classical in
-- The entry of a stage, and what has been emitted for it.
structure Compiled (p : Program) (t : Target) (resources : List Resource) (stage : Stage)
    (entry : StageEntry) (fs : List EmittedFunction) : Prop where
  distinct  : (resources.map Resource.name).Nodup
  ordered   : CallGraph.order p entry.function.id = .ok entry.functions
  emitted   : EmitsAll ⟨t, p, resources, stage⟩ entry.functions fs
  flags     : ∀ flag, entry.function.usage.has flag ↔
    ∃ id ∈ entry.functions, p.Touches resources id flag
  resources : entry.resources =
    resources.filter fun r => ∃ id ∈ entry.functions, p.Uses resources id r.name

theorem Assembled.compiled (a : Assembled p set t emitted c)
    (h : c.build.entry? stage = some entry) :
    ∃ fs, (stage, fs) ∈ emitted ∧ Compiled p t c.resources stage entry fs := by
  have h : c.entryFor? stage = some entry := (PerStage.get_ofFn ..).symm.trans h
  have ⟨u, used, h⟩ := Option.bind_eq_some_iff.mp h
  have ⟨f, found, h⟩ := Option.bind_eq_some_iff.mp h
  cases h
  have ⟨fs, there, staged⟩ := a.each stage u used
  have same : f.id = u.entry := by simpa using List.find?_some found
  refine ⟨fs, there, {
    distinct := (assigned_of_bindResources a.bound).names
    ordered  := by
      rw [ShaderFunction.id_foldl_mark, same]
      exact staged.ordered
    emitted  := staged.emitted
    flags    := fun flag => ?_
    resources := List.filter_congr fun r _ => by simp [staged.resources] }⟩
  rw [ShaderFunction.has_foldl_mark]
  have entry_mem := List.mem_of_getLast? (CallGraph.order_orders staged.ordered).entry_last
  constructor
  · rintro (has | ⟨callee, mem, has⟩)
    · exact ⟨u.entry, entry_mem, (staged.marked _ entry_mem flag).mp ⟨f, found, has⟩⟩
    · have ⟨id, mem, found⟩ := List.mem_filterMap.mp mem
      exact ⟨id, mem, (staged.marked id mem flag).mp ⟨callee, found, has⟩⟩
  · intro ⟨id, mem, touches⟩
    have ⟨callee, found, has⟩ := (staged.marked id mem flag).mpr touches
    exact .inr ⟨callee, List.mem_filterMap.mpr ⟨id, mem, found⟩, has⟩

-- What has come out of generating a set for a target.
structure Produced (p : Program) (set : ShaderSet) (t : Target) (g : GeneratedSet) : Prop where
  name    : g.name = set.name
  backend : g.backend = t.name
  written : ∃ emitted c, Assembled p set t emitted c ∧ g.model = c.build ∧
    writeStages t g.model emitted = .ok g.sources

theorem generateFor_ensures (p : Program) (set : ShaderSet) (t : Target) :
    (generateFor p set t).Ensures (Produced p set t) := by
  refine (assemble_ensures p set t).bind fun (emitted, c) assembled => ?_
  refine (Access.Ensures.intro fun _ => trivial).bind fun _ _ => ?_
  refine (Access.Ensures.liftExcept fun _ => id).bind fun sources written => ?_
  exact ⟨rfl, rfl, emitted, c, assembled, rfl, written⟩

-- A property of layouts that generating any set for any target preserves.
def Preserved (p : Program) (P : Layouts → Prop) : Prop :=
  ∀ set t l, P l → P (leftover ((generateFor p set t).run l))

variable {P : Layouts → Prop} {targets : List Target} {sets : List ShaderSet} {r : Registry}
  {results : List Result} {l l' : Layouts}

-- What is reported of a set for a target: the outcome of a run on layouts with the property, unless
-- the set has had a context for a target of the same name.
inductive Reported (p : Program) (P : Layouts → Prop) (set : ShaderSet) (t : Target) :
    Result → Prop
  | run {l : Layouts} : (P l) → Reported p P set t
    ((outcome ((generateFor p set t).run l)).mapError (⟨set.name, t.name, ·⟩))
  | refused : Reported p P set t (.error ⟨set.name, t.name,
    .configuration (.contextAlreadyInitialized t.name set.name)⟩)

theorem Reported.exists_run (h : Reported p P set t (.ok g)) :
    ∃ l₁ l₂, P l₁ ∧ (generateFor p set t).run l₁ = .ok g l₂ := by
  generalize same : (Except.ok g : Result) = result at h
  cases h
  case refused => cases same
  case run l holds => exact ⟨l, _, holds, eq_ok_of_outcome (mapError_eq_ok_iff.mp same.symm)⟩

theorem run_settle_eq_ok {made : Except Error GeneratedSet} {result : Result}
    (h : (settle set t made).run l = .ok result l') :
    result = made.mapError (⟨set.name, t.name, ·⟩) ∧ l' = l := by
  cases made
  case ok =>
    cases h
    exact ⟨rfl, rfl⟩
  case error e =>
    rw [settle] at h
    split at h <;> cases h
    exact ⟨rfl, rfl⟩

-- All that is reported comes from runs for one target each, on layouts that the runs before have
-- left.
theorem reported_of_generateSet (kept : Preserved p P) (start : P l)
    (h : (generateSet p set r targets).run l = .ok results l') :
    (P l') ∧ ∀ result ∈ results, ∃ t ∈ targets, Reported p P set t result := by
  induction targets generalizing r l results
  case nil =>
    cases h
    exact ⟨start, fun _ mem => absurd mem List.not_mem_nil⟩
  case cons t targets hi =>
    simp only [generateSet] at h
    split at h
    case h_1 taken =>
      obtain ⟨rest, _, later, h⟩ := Access.run_bind_eq_ok h
      cases h
      obtain ⟨finish, each⟩ := hi start later
      refine ⟨finish, fun result mem => ?_⟩
      rcases List.mem_cons.mp mem with rfl | mem
      case inl =>
        simp only [Registry.init] at taken
        split at taken <;> cases taken
        exact ⟨t, List.mem_cons_self, .refused⟩
      case inr =>
        obtain ⟨t', mem, reported⟩ := each result mem
        exact ⟨t', List.mem_cons_of_mem _ mem, reported⟩
    case h_2 =>
      obtain ⟨result, _, first, h⟩ := Access.run_bind_eq_ok h
      obtain ⟨_, _, settled, h⟩ := Access.run_bind_eq_ok h
      obtain ⟨rest, _, later, h⟩ := Access.run_bind_eq_ok h
      cases h
      rw [Access.run_attempt] at first
      cases first
      obtain ⟨rfl, rfl⟩ := run_settle_eq_ok settled
      obtain ⟨finish, each⟩ := hi (kept set t l start) later
      refine ⟨finish, fun result mem => ?_⟩
      rcases List.mem_cons.mp mem with rfl | mem
      case inl => exact ⟨t, List.mem_cons_self, .run start⟩
      case inr =>
        obtain ⟨t', mem, reported⟩ := each result mem
        exact ⟨t', List.mem_cons_of_mem _ mem, reported⟩

theorem reported_of_generateSets (kept : Preserved p P) (start : P l)
    (h : (generateSets p targets sets).run l = .ok results l') :
    (P l') ∧ ∀ result ∈ results, ∃ set ∈ sets, ∃ t ∈ targets, Reported p P set t result := by
  induction sets generalizing l results
  case nil =>
    cases h
    exact ⟨start, fun _ mem => absurd mem List.not_mem_nil⟩
  case cons set sets hi =>
    obtain ⟨_, _, first, h⟩ := Access.run_bind_eq_ok h
    obtain ⟨_, _, later, h⟩ := Access.run_bind_eq_ok h
    cases h
    obtain ⟨next, each⟩ := reported_of_generateSet kept start first
    obtain ⟨finish, others⟩ := hi next later
    refine ⟨finish, fun result mem => ?_⟩
    rcases List.mem_append.mp mem with mem | mem
    case inl => exact ⟨set, List.mem_cons_self, each result mem⟩
    case inr =>
      obtain ⟨set', mem, reported⟩ := others result mem
      exact ⟨set', List.mem_cons_of_mem _ mem, reported⟩

-- Generation is discovery, then the generation of what has been discovered.
theorem generateWith_eq {processors : List (Processor σ)} {state : σ} (filled : targets ≠ [])
    (discovered : ShaderSet.discover p = .ok sets) :
    generateWith processors p targets state l =
    ((Outcome.collect processors · state) <$> (generateSets p targets sets).run) l := by
  rw [generateWith, discovered]
  simp only [List.isEmpty_iff, filled, if_false]
  rfl

theorem exists_of_generateWith {processors : List (Processor σ)} {state : σ} {r : Outcome × σ}
    (h : generateWith processors p targets state l = .ok r l') :
    ∃ sets results, targets ≠ [] ∧ ShaderSet.discover p = .ok sets ∧
      (generateSets p targets sets).run l = .ok results l' ∧
      r = Outcome.collect processors results state := by
  by_cases filled : targets = []
  case pos =>
    rw [generateWith, filled] at h
    cases h
  case neg =>
    cases discovered : ShaderSet.discover p
    case error =>
      rw [generateWith, discovered] at h
      simp only [List.isEmpty_iff, filled, if_false] at h
      cases h
    case ok sets =>
      rw [generateWith_eq filled discovered] at h
      change EStateM.map _ (generateSets p targets sets).run l = _ at h
      rw [EStateM.map] at h
      split at h <;> cases h
      case h_1.refl _ results run => exact ⟨sets, results, filled, rfl, run, rfl⟩

theorem generate_eq_ok_iff {o : Outcome} : generate p targets l = .ok o l' ↔
    generateWith [] p targets () l = .ok (o, ()) l' := by
  change EStateM.map Prod.fst (generateWith [] p targets ()) l = _ ↔ _
  rw [EStateM.map]
  cases generateWith [] p targets () l <;> simp [Prod.ext_iff]

theorem exists_of_generate {o : Outcome} (h : generate p targets l = .ok o l') :
    ∃ sets results, ShaderSet.discover p = .ok sets ∧
      (generateSets p targets sets).run l = .ok results l' ∧ o = .ofResults results := by
  obtain ⟨sets, results, _, discovered, run, same⟩ :=
    exists_of_generateWith (generate_eq_ok_iff.mp h)
  exact ⟨sets, results, discovered, run, congrArg Prod.fst same⟩

theorem generate_of_run {results : List Result} (filled : targets ≠ [])
    (discovered : ShaderSet.discover p = .ok sets)
    (run : (generateSets p targets sets).run l = .ok results l') :
    generate p targets l = .ok (.ofResults results) l' := by
  rw [generate_eq_ok_iff, generateWith_eq filled discovered]
  change EStateM.map _ (generateSets p targets sets).run l = _
  rw [EStateM.map, run]
  rfl

theorem reported_of_generate {o : Outcome} (kept : Preserved p P) (start : P l)
    (h : generate p targets l = .ok o l') :
    ∃ sets results, ShaderSet.discover p = .ok sets ∧ o = .ofResults results ∧ P l' ∧
      ∀ result ∈ results, ∃ set ∈ sets, ∃ t ∈ targets, Reported p P set t result := by
  obtain ⟨sets, results, discovered, run, rfl⟩ := exists_of_generate h
  exact ⟨sets, results, discovered, rfl, reported_of_generateSets kept start run⟩

theorem exists_run_of_generate {o : Outcome} (kept : Preserved p P) (start : P l)
    (h : generate p targets l = .ok o l') (mem : g ∈ o.sets) :
    ∃ sets, ShaderSet.discover p = .ok sets ∧ ∃ set ∈ sets, ∃ t ∈ targets, ∃ l₁ l₂,
      P l₁ ∧ (generateFor p set t).run l₁ = .ok g l₂ := by
  obtain ⟨sets, results, discovered, rfl, _, each⟩ := reported_of_generate kept start h
  obtain ⟨set, known, t, target, reported⟩ := each _ (Outcome.mem_sets.mp mem)
  exact ⟨sets, discovered, set, known, t, target, reported.exists_run⟩

theorem produced_of_generate {o : Outcome} (h : generate p targets l = .ok o l')
    (mem : g ∈ o.sets) :
    ∃ sets, ShaderSet.discover p = .ok sets ∧
      ∃ set ∈ sets, ∃ t ∈ targets, Produced p set t g := by
  obtain ⟨sets, discovered, set, known, t, target, l₁, l₂, _, run⟩ :=
    exists_run_of_generate (P := fun _ => True) (fun _ _ _ _ => trivial) trivial h mem
  exact ⟨sets, discovered, set, known, t, target, (generateFor_ensures p set t).of_run run⟩

-- Among canonical names, each generated set is what one target gives for one set by itself.
theorem alone_of_generate {o : Outcome} (canonical : Canonical p.mentionedTypes)
    (faithful : l.Faithful p p.mentionedTypes) (h : generate p targets l = .ok o l')
    (mem : g ∈ o.sets) :
    ∃ sets, ShaderSet.discover p = .ok sets ∧ ∃ set ∈ sets, ∃ t ∈ targets,
      (generateFor p set t).alone l.overrides = .ok g := by
  have u : Universe p p.mentionedTypes := .of_canonical canonical
  have kept : Preserved p (Layouts.Fit l.overrides (Fitting p l.overrides p.mentionedTypes)) :=
    fun set t l₁ fit => (u.run_steady (generateFor_steady u) fit).right
  obtain ⟨sets, discovered, set, known, t, target, l₁, l₂, fit, run⟩ :=
    exists_run_of_generate kept (faithful.fit u) h mem
  refine ⟨sets, discovered, set, known, t, target, ?_⟩
  have steady : outcome ((generateFor p set t).run l₁) = _ :=
    (u.run_steady (generateFor_steady u) fit).left
  rw [run] at steady
  exact steady.symm

-- The source of a stage holds what has been emitted for it.
theorem source_of_writeStages {m : Model} {sources : PerStage (Option String)}
    {fs : List EmittedFunction} (distinct : (emitted.map Prod.fst).Nodup)
    (h : writeStages t m emitted = .ok sources) (there : (stage, fs) ∈ emitted)
    (known : m.entry? stage = some entry) :
    ∃ source, t.stageSource ⟨stage, entry, m.dependencyOrder, fs.map EmittedFunction.text⟩ =
      .ok source ∧ sources.get stage = some source.text := by
  induction emitted generalizing sources
  case nil => cases there
  case cons first emitted hi =>
    obtain ⟨stage', fs'⟩ := first
    have ⟨fresh, distinct⟩ := List.nodup_cons.mp distinct
    rw [writeStages] at h
    rcases List.mem_cons.mp there with same | later
    case inl =>
      cases same
      simp only [known] at h
      have ⟨source, made, h⟩ := bind_eq_ok_iff.mp h
      have ⟨rest, _, h⟩ := bind_eq_ok_iff.mp h
      cases h
      exact ⟨source, made, PerStage.get_set_self ..⟩
    case inr =>
      have ne : stage ≠ stage' := fun same =>
        fresh (List.mem_map.mpr ⟨(stage, fs), later, same⟩)
      split at h
      case h_1 => exact hi distinct h later
      case h_2 =>
        have ⟨source, made, h⟩ := bind_eq_ok_iff.mp h
        have ⟨rest, written, h⟩ := bind_eq_ok_iff.mp h
        cases h
        rw [PerStage.get_set_of_ne _ _ ne]
        exact hi distinct written later

theorem Produced.compiled (produced : Produced p set t g)
    (known : g.model.entry? stage = some entry) :
    bindResources p set = .ok g.model.resources ∧ ∃ fs source,
      Compiled p t g.model.resources stage entry fs ∧
      t.stageSource ⟨stage, entry, g.model.dependencyOrder, fs.map EmittedFunction.text⟩ =
        .ok source ∧
      g.sources.get stage = some source.text := by
  have ⟨emitted, c, assembled, built, written⟩ := produced.written
  have ⟨fs, there, compiled⟩ := assembled.compiled (built ▸ known)
  have ⟨source, made, text⟩ := source_of_writeStages assembled.stages written there known
  have resources : g.model.resources = c.resources := built ▸ rfl
  rw [resources]
  exact ⟨assembled.bound, fs, source, compiled, made, text⟩

-- A stage of a generated set that has an entry has been compiled, and has a source.
theorem compiled_of_generate {o : Outcome} (h : generate p targets l = .ok o l') (mem : g ∈ o.sets)
    (known : g.model.entry? stage = some entry) :
    ∃ t ∈ targets, ∃ fs source, Compiled p t g.model.resources stage entry fs ∧
      t.stageSource ⟨stage, entry, g.model.dependencyOrder, fs.map EmittedFunction.text⟩ =
        .ok source ∧
      g.sources.get stage = some source.text := by
  have ⟨_, _, _, _, t, mem, produced⟩ := produced_of_generate h mem
  exact ⟨t, mem, (produced.compiled known).right⟩

theorem run_liftExcept {r : Except Error α} {a : α} (h : r = .ok a) (l : Layouts) :
    (liftExcept r : Access α).run l = .ok a l := by
  rw [h]
  rfl

theorem run_assemble {l l' : Layouts} {resources : List Resource} {c₁ c₂ : Context}
    (bound : bindResources p set = .ok resources)
    (collected : collectFunctions p set { backend := t.name, set := set.name, resources } = .ok c₁)
    (found : (Context.discoverAll p c₁ (c₁.touchedTypes p)).run l = .ok (.ok (), c₂) l')
    (emission : emitStages p t (set.entryPoints.map Prod.fst) c₂ = .ok (emitted, c)) :
    (assemble p set t).run l = .ok (emitted, c) l' := by
  refine (Access.run_bind_of_ok (run_liftExcept bound l)).trans ?_
  refine (Access.run_bind_of_ok (run_liftExcept collected l)).trans ?_
  exact (Access.run_bind_of_ok found).trans (run_liftExcept emission l')

theorem writeStages_eq_ok {m : Model} {fs : List EmittedFunction} {order : List Structure}
    {source : StageSource} (known : m.entry? stage = some entry)
    (ordered : m.dependencyOrder = order)
    (made : t.stageSource ⟨stage, entry, order, fs.map EmittedFunction.text⟩ = .ok source) :
    writeStages t m [(stage, fs)] =
    .ok ((PerStage.replicate none).set stage (some source.text)) := by
  simp only [writeStages, known]
  rw [ordered, made]
  rfl

theorem run_generateFor {l l' : Layouts} {sources : PerStage (Option String)}
    (assembled : (assemble p set t).run l = .ok (emitted, c) l')
    (valid : c.build.validate = .ok ()) (written : writeStages t c.build emitted = .ok sources) :
    (generateFor p set t).run l = .ok ⟨set.name, t.name, c.build, sources⟩ l' := by
  refine (Access.run_bind_of_ok assembled).trans ?_
  refine (Access.run_bind_of_ok (run_liftExcept valid l')).trans ?_
  exact Access.run_bind_of_ok (run_liftExcept written l')

theorem run_attempt_of_ok {x : Access α} {l l' : Layouts} {a : α} (h : x.run l = .ok a l') :
    x.attempt.run l = .ok (.ok a) l' := by
  rw [Access.run_attempt, h]
  rfl

-- A set that is alone in its program comes out if each step on the way succeeds.
theorem generate_eq_ok {l l' : Layouts} {sources : PerStage (Option String)}
    (discovered : ShaderSet.discover p = .ok [set])
    (assembled : (assemble p set t).run l = .ok (emitted, c) l')
    (valid : c.build.validate = .ok ()) (written : writeStages t c.build emitted = .ok sources) :
    generate p [t] l = .ok ⟨[⟨set.name, t.name, c.build, sources⟩], []⟩ l' := by
  have made := run_attempt_of_ok (run_generateFor assembled valid written)
  have one : (generateSet p set {} [t]).run l =
      .ok [.ok ⟨set.name, t.name, c.build, sources⟩] l' :=
    (Access.run_bind_of_ok made).trans (Access.run_bind_of_ok rfl)
  have all : (generateSets p [t] [set]).run l =
      .ok [.ok ⟨set.name, t.name, c.build, sources⟩] l' :=
    Access.run_bind_of_ok one
  exact generate_of_run (List.cons_ne_nil _ _) discovered all

end Generation

-- A lantern that a fragment and a compute stage share a function of.
def lantern : Program where
  types         := [{
    name    := "Lantern"
    kind    := .object
    fields  := [{ name := "glass", ty := .object "RWTexture2DResource" [.primitive "Vector4" []] }]
    methods := [
      { name := "shade", returnType := .unit, stage := some .fragment, body := some [
        .eval (.call ⟨.unit, none⟩ "Lantern" "glow" [])] },
      { name := "flicker", returnType := .unit, stage := some .compute, group := some ⟨8, 8, 1⟩,
        body := some [
          .eval (.name ⟨.unit, none⟩ ⟨"ShaderBuiltins", "DispatchThreadID", .property⟩),
          .eval (.call ⟨.unit, none⟩ "Lantern" "glow" [])] },
      { name := "glow", returnType := .unit, body := some [
        .eval (.name ⟨.unit, none⟩ ⟨"Lantern", "glass", .field⟩)] }] }]
  sets          := []
  types_nodup   := by decide
  methods_nodup := by decide

def lanternSet : ShaderSet where
  name    := "Lantern"
  entries := ⟨none, some ⟨"Lantern", "shade"⟩, some ⟨"Lantern", "flicker"⟩⟩

def lanternGlass : Resource :=
  ⟨"glass", "Lantern", 0, 0, .primitive "Vector4" [], .rwTexture2D⟩

-- What is collected about the lantern before its functions are emitted.
def lanternContext : Context where
  backend   := Target.name {}
  set       := "Lantern"
  resources := [lanternGlass]
  functions := ["glow", "shade", "flicker"].filterMap fun name =>
    (lantern.method? ⟨"Lantern", name⟩).map (.ofDecl "Lantern")
  stages    := ⟨none,
    some ⟨⟨"Lantern", "shade"⟩, [⟨"Lantern", "glow"⟩, ⟨"Lantern", "shade"⟩], []⟩,
    some ⟨⟨"Lantern", "flicker"⟩, [⟨"Lantern", "glow"⟩, ⟨"Lantern", "flicker"⟩], []⟩⟩

def lanternCompute : String :=
  "#version 450\n\n" ++
  "layout(rgba32f, set = 0, binding = 0) uniform image2D glass;\n\n" ++
  "layout(local_size_x = 8, local_size_y = 8, local_size_z = 1) in;\n\n" ++
  "void glow()\n\x7b\n    glass;\n\x7d\n\n" ++
  "void flicker()\n\x7b\n    gl_GlobalInvocationID;\n    glow();\n\x7d\n\n" ++
  "void main()\n\x7b\n    flicker();\n\x7d\n"

theorem lantern_generated :
    ∃ emitted c o l' g fragment compute,
      (Generation.assemble lantern lanternSet {}).run {} = .ok (emitted, c) l' ∧
      generate lantern [{}] {} = .ok o l' ∧ g ∈ o.sets ∧
      g.model.entry? .fragment = some fragment ∧ g.model.entry? .compute = some compute ∧
      fragment.functions = [⟨"Lantern", "glow"⟩, ⟨"Lantern", "shade"⟩] ∧
      compute.functions = [⟨"Lantern", "glow"⟩, ⟨"Lantern", "flicker"⟩] ∧
      fragment.resources = [lanternGlass] ∧
      compute.function.usage.has .dispatchThreadId ∧
      g.sources.get .compute = some lanternCompute := by
  have discovered : ShaderSet.discover lantern = .ok [lanternSet] := by cbv
  have collected : Generation.collectFunctions lantern lanternSet
      { backend := Target.name {}, set := "Lantern", resources := [lanternGlass] } =
      .ok lanternContext := by cbv
  have found : (Context.discoverAll lantern lanternContext
      (lanternContext.touchedTypes lantern)).run {} = .ok (.ok (), lanternContext) {} := by cbv
  have assembled := Generation.run_assemble (by cbv) collected found rfl
  have generated := Generation.generate_eq_ok discovered assembled rfl rfl
  exact ⟨_, _, _, _, _, _, _, assembled, generated, List.mem_cons_self, rfl, rfl, rfl, rfl, rfl,
    rfl, by decide +kernel⟩

def burn : MethodDecl where
  name       := "burn"
  returnType := .unit
  stage      := some .fragment
  body       := some [
    .eval (.name ⟨.struct "Flame" [], none⟩ ⟨"Candle", "flame", .field⟩),
    .eval (.name ⟨.unit, none⟩ ⟨"ShaderBuiltins", "IsFrontFace", .property⟩)]

-- A candle whose flame is a uniform resource.
def candle : Program where
  types         := [
    { name := "Flame", kind := .struct, fields := [
      { name := "color", ty := .primitive "Vector4" [] }] },
    { name := "Candle", kind := .object, fields := [{ name := "flame", ty := .struct "Flame" [] }],
      methods := [burn] }]
  sets          := []
  types_nodup   := by decide
  methods_nodup := by decide

def candleSet : ShaderSet where
  name    := "Candle"
  entries := ⟨none, some ⟨"Candle", "burn"⟩, none⟩

def candleFlame : Resource :=
  ⟨"flame", "Candle", 0, 0, .struct "Flame" [], .uniform⟩

-- What is collected about the candle before its functions are emitted.
def candleContext (t : Target) (structures : List Structure) : Context where
  backend    := t.name
  set        := "Candle"
  structures := structures
  resources  := [candleFlame]
  functions  := [.ofDecl "Candle" burn]
  stages     := ⟨none, some ⟨⟨"Candle", "burn"⟩, [⟨"Candle", "burn"⟩], []⟩, none⟩

def flameStructure : Structure where
  name      := "Flame"
  fields    := [⟨"color", .primitive "Vector4" [], .unspecified, 0, ⟨16, 16, 4, 16⟩⟩]
  footprint := ⟨16, 16, 4, 16⟩
  agrees    := true

def candleLayouts : Layouts where
  known := [("Flame", ⟨16, 16, 4, 16⟩), ("Vector4", ⟨16, 16, 4, 16⟩)]

theorem candle_discovered : ShaderSet.discover candle = .ok [candleSet] := by cbv

theorem candle_collected (t : Target) :
    Generation.collectFunctions candle candleSet
      { backend := t.name, set := "Candle", resources := [candleFlame] } =
    .ok (candleContext t []) := by
  cbv

theorem candle_structures (t : Target) :
    (Context.discoverAll candle (candleContext t [])
      ((candleContext t []).touchedTypes candle)).run {} =
    .ok (.ok (), candleContext t [flameStructure]) candleLayouts := by
  cbv

-- The candle once it is emitted: its function is marked, and the resource that it uses is known.
def candleEmitted (t : Target) : Context :=
  { candleContext t [flameStructure] with
    functions := [(ShaderFunction.ofDecl "Candle" burn).mark (.only .frontFace)]
    stages    := ⟨none, some ⟨⟨"Candle", "burn"⟩, [⟨"Candle", "burn"⟩], ["flame"]⟩, none⟩ }

theorem candle_order (t : Target) : (candleEmitted t).build.dependencyOrder = [flameStructure] := by
  cbv

theorem candle_valid (t : Target) : (candleEmitted t).build.validate = .ok () := by
  cbv

def candleEntry : StageEntry where
  function  := ((ShaderFunction.ofDecl "Candle" burn).mark (.only .frontFace)).mark
    (.only .frontFace)
  functions := [⟨"Candle", "burn"⟩]
  resources := [candleFlame]

theorem candle_assembled (t : Target) {fs : List EmittedFunction}
    (emission : Generation.emitStages candle t [.fragment] (candleContext t [flameStructure]) =
      .ok ([(.fragment, fs)], candleEmitted t)) :
    (Generation.assemble candle candleSet t).run {} =
    .ok ([(.fragment, fs)], candleEmitted t) candleLayouts :=
  Generation.run_assemble rfl (candle_collected t) (candle_structures t) emission

theorem candle_generated (t : Target) {fs : List EmittedFunction} {source : StageSource}
    (emission : Generation.emitStages candle t [.fragment] (candleContext t [flameStructure]) =
      .ok ([(.fragment, fs)], candleEmitted t))
    (made : t.stageSource ⟨.fragment, candleEntry, [flameStructure], fs.map EmittedFunction.text⟩ =
      .ok source) :
    generate candle [t] {} = .ok ⟨[⟨"Candle", t.name, (candleEmitted t).build,
      ⟨none, some source.text, none⟩⟩], []⟩ candleLayouts :=
  Generation.generate_eq_ok candle_discovered (candle_assembled t emission) (candle_valid t)
    (Generation.writeStages_eq_ok rfl (candle_order t) made)

end Shading
