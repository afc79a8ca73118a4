import Shading.Proofs.CallOrder
import Shading.Proofs.Mentions
import Shading.Proofs.Lowering
import Mathlib
/-!
What the context of a shader set holds once all of its functions are emitted.

A function may belong to several stages. What it touches does not depend on the stage, so the marks
that it collects from all stages are those that each stage alone would have given it.
-/

namespace Shading

open Glsl

variable {p : Program} {t : Target} {c c' c'' : Context} {id id' : MethodId} {flag : Flag}
  {usage : Usage}

namespace Context

-- Whether a collected function is marked with a flag.
def Marked (c : Context) (id : MethodId) (flag : Flag) : Prop :=
  ∃ f, c.function? id = some f ∧ f.usage.has flag

theorem find?_markFirst (fs : List ShaderFunction) :
    (markFirst id usage fs).find? (·.id == id') =
    (fs.find? (·.id == id')).map fun f => if id' = id then f.mark usage else f := by
  induction fs
  case nil => rfl
  case cons f fs hi =>
    have same : (f.mark usage).id = f.id := rfl
    simp only [markFirst]
    by_cases marked : f.id = id <;> by_cases found : f.id = id'
    case neg =>
      have ne : id' ≠ id := fun h => found (marked.trans h.symm)
      simp [same, marked, ne, ne.symm]
    all_goals simp_all

theorem function?_mark (c : Context) :
    (c.mark id usage).function? id' =
    (c.function? id').map fun f => if id' = id then f.mark usage else f :=
  find?_markFirst c.functions

theorem marked_mark : (c.mark id usage).Marked id' flag ↔
    c.Marked id' flag ∨ id' = id ∧ (c.function? id').isSome ∧ usage.has flag := by
  simp only [Marked]
  rw [function?_mark]
  cases c.function? id'
  case none => simp
  case some f =>
    by_cases same : id' = id
    case pos => simp [same, ShaderFunction.mark]
    case neg => simp [same]

-- Marking functions one after the other.
theorem isSome_markAll (fs : List EmittedFunction) (c : Context) :
    ((fs.foldl (fun c f => c.mark f.function.id f.function.usage) c).function? id).isSome =
    (c.function? id).isSome := by
  induction fs generalizing c
  case nil => rfl
  case cons f fs hi => rw [List.foldl_cons, hi, function?_mark, Option.isSome_map]

theorem marked_markAll (fs : List EmittedFunction) (c : Context) :
    (fs.foldl (fun c f => c.mark f.function.id f.function.usage) c).Marked id flag ↔
    c.Marked id flag ∨
      ∃ f ∈ fs, f.function.id = id ∧ (c.function? id).isSome ∧ f.function.usage.has flag := by
  induction fs generalizing c
  case nil => simp
  case cons f fs hi =>
    rw [List.foldl_cons, hi, marked_mark]
    simp only [function?_mark, Option.isSome_map, List.exists_mem_cons_iff, or_assoc, eq_comm]

theorem frame_markAll (fs : List EmittedFunction) (c : Context) :
    (fs.foldl (fun c f => c.mark f.function.id f.function.usage) c).structures = c.structures ∧
    (fs.foldl (fun c f => c.mark f.function.id f.function.usage) c).resources = c.resources ∧
    (fs.foldl (fun c f => c.mark f.function.id f.function.usage) c).stages = c.stages := by
  induction fs generalizing c
  case nil          => exact ⟨rfl, rfl, rfl⟩
  case cons f fs hi => exact hi (c.mark f.function.id f.function.usage)

theorem function?_addFunction (f : ShaderFunction) (c : Context) :
    (c.addFunction f).function? id =
    (c.function? id).or (if f.id = id then some f else none) := by
  simp only [addFunction]
  split
  case isTrue known =>
    split
    case isTrue same => rw [Option.or_of_isSome (same ▸ known)]
    case isFalse     => rw [Option.or_none]
  case isFalse =>
    simp [function?, List.find?_append, beq_iff_eq]

theorem marked_addFunction {f : ShaderFunction} (empty : f.usage = .empty) :
    (c.addFunction f).Marked id flag ↔ c.Marked id flag := by
  simp only [Marked]
  rw [function?_addFunction]
  cases c.function? id <;> simp [empty]

end Context

namespace Generation

open Context

theorem addFunctions_cons (i : MethodId) (ids : List MethodId) (c : Context) :
    addFunctions p c (i :: ids) = addFunctions p (match p.method? i with
      | some m => c.addFunction (.ofDecl i.owner m)
      | none   => c) ids := rfl

theorem frame_addFunctions (c : Context) (ids : List MethodId) :
    (addFunctions p c ids).structures = c.structures ∧
    (addFunctions p c ids).resources = c.resources ∧ (addFunctions p c ids).stages = c.stages := by
  induction ids generalizing c
  case nil => exact ⟨rfl, rfl, rfl⟩
  case cons i ids hi =>
    rw [addFunctions_cons]
    split
    case h_2 => exact hi c
    case h_1 m _ =>
      have ⟨structures, resources, stages⟩ := hi (c.addFunction (.ofDecl i.owner m))
      rw [structures, resources, stages, addFunction]
      split <;> exact ⟨rfl, rfl, rfl⟩

theorem isSome_addFunctions (c : Context) (ids : List MethodId) :
    ((addFunctions p c ids).function? id).isSome ↔
    (c.function? id).isSome ∨ id ∈ ids ∧ (p.method? id).isSome := by
  induction ids generalizing c
  case nil => simp [addFunctions]
  case cons i ids hi =>
    rw [addFunctions_cons, hi, List.mem_cons, or_and_right, ← or_assoc]
    refine or_congr_left ?_
    split
    case h_1 m known =>
      rw [function?_addFunction, ShaderFunction.id_ofDecl known]
      by_cases same : i = id
      case pos => simp [← same, known]
      case neg => simp [same, Ne.symm same]
    case h_2 unknown =>
      refine (or_iff_left ?_).symm
      rintro ⟨rfl, declared⟩
      simp [unknown] at declared

theorem marked_addFunctions (c : Context) (ids : List MethodId) :
    (addFunctions p c ids).Marked id flag ↔ c.Marked id flag := by
  induction ids generalizing c
  case nil => rfl
  case cons i ids hi =>
    rw [addFunctions_cons, hi]
    split
    case h_1 => exact marked_addFunction rfl
    case h_2 => rfl

-- What collecting the functions of entry points does to a context.
structure Collected (p : Program) (entryPoints : List (Stage × MethodId)) (c c' : Context) :
    Prop where
  structures_eq : c'.structures = c.structures
  resources_eq  : c'.resources = c.resources
  isSome_iff    : ∀ id, (c'.function? id).isSome ↔ (c.function? id).isSome ∨
    ∃ e ∈ entryPoints, ∃ functions, CallGraph.order p e.2 = .ok functions ∧ id ∈ functions ∧
      (p.method? id).isSome
  marked_iff    : ∀ id flag, c'.Marked id flag ↔ c.Marked id flag
  others        : ∀ stage, stage ∉ entryPoints.map Prod.fst →
    c'.stages.get stage = c.stages.get stage
  each          : ∀ stage entry, (stage, entry) ∈ entryPoints → ∃ functions,
    CallGraph.order p entry = .ok functions ∧
    c'.stages.get stage = some ⟨entry, functions, []⟩

theorem collected_of_collectFunctions {set : ShaderSet}
    (distinct : (set.entryPoints.map Prod.fst).Nodup) (h : collectFunctions p set c = .ok c') :
    Collected p set.entryPoints c c' := by
  simp only [collectFunctions] at h
  generalize set.entryPoints = entryPoints at distinct h
  induction entryPoints generalizing c
  case nil =>
    cases h
    exact ⟨rfl, rfl, by simp, fun _ _ => Iff.rfl, fun _ _ => rfl, nofun⟩
  case cons e entryPoints hi =>
    obtain ⟨stage, entry⟩ := e
    have ⟨fresh, distinct⟩ := List.nodup_cons.mp distinct
    have ⟨c₁, first, h⟩ := bind_eq_ok_iff.mp h
    have ⟨functions, ordered, first⟩ := bind_eq_ok_iff.mp first
    cases first
    have rest := hi distinct h
    have ⟨structures, resources, stages⟩ := frame_addFunctions (p := p) c functions
    exact {
      structures_eq       := rest.structures_eq.trans structures
      resources_eq        := rest.resources_eq.trans resources
      isSome_iff id       := by
        have first : ((addFunctions p c functions).function? id).isSome ↔ _ :=
          isSome_addFunctions c functions
        refine (rest.isSome_iff id).trans ((or_congr_left first).trans ?_)
        simp [ordered, or_assoc]
      marked_iff id flag  := (rest.marked_iff id flag).trans (marked_addFunctions c functions)
      others other h      := by
        have ⟨ne, h⟩ := not_or.mp (mt List.mem_cons.mpr h)
        rw [rest.others other h, setStage, PerStage.get_set_of_ne _ _ ne, stages]
      each other entry' h := by
        rcases List.mem_cons.mp h with same | h
        case inr => exact rest.each other entry' h
        case inl =>
          cases same
          refine ⟨functions, ordered, ?_⟩
          rw [rest.others stage fresh, setStage, PerStage.get_set_self] }

-- Emission of functions one after the other.
def EmitsAll (env : Emission) : List MethodId → List EmittedFunction → Prop :=
  List.Forall₂ fun id f => ∃ s s', env.emit id s = .ok f s'

theorem emitsAll_of_mapM {env : Emission} {ids : List MethodId} {fs : List EmittedFunction}
    {s s' : Emitter} (h : ids.mapM env.emit s = .ok fs s') : EmitsAll env ids fs := by
  induction ids generalizing s fs
  case nil =>
    cases h
    exact .nil
  case cons id ids hi =>
    rw [List.mapM_cons] at h
    have ⟨f, s₁, first, h⟩ := exists_of_bind_eq_ok h
    have ⟨fs, s₂, rest, h⟩ := exists_of_bind_eq_ok h
    cases h
    exact .cons ⟨s, s₁, first⟩ (hi rest)

namespace EmitsAll

variable {env : Emission} {ids : List MethodId} {fs : List EmittedFunction} {f : EmittedFunction}

theorem exists_id (h : EmitsAll env ids fs) (mem : f ∈ fs) : ∃ id ∈ ids, env.Emits id f := by
  induction h
  case nil => cases mem
  case cons id _ ids _ first _ hi =>
    have ⟨_, _, emitted⟩ := first
    rcases List.mem_cons.mp mem with rfl | mem
    case inl => exact ⟨id, List.mem_cons_self, Emission.emits_of_emit emitted⟩
    case inr =>
      have ⟨id, mem, emits⟩ := hi mem
      exact ⟨id, List.mem_cons_of_mem _ mem, emits⟩

theorem exists_function (h : EmitsAll env ids fs) (mem : id ∈ ids) :
    ∃ f ∈ fs, env.Emits id f := by
  induction h
  case nil => cases mem
  case cons first _ hi =>
    have ⟨_, _, emitted⟩ := first
    rcases List.mem_cons.mp mem with rfl | mem
    case inl => exact ⟨_, List.mem_cons_self, Emission.emits_of_emit emitted⟩
    case inr =>
      have ⟨f, mem, emits⟩ := hi mem
      exact ⟨f, List.mem_cons_of_mem _ mem, emits⟩

theorem mem_resourcesUsed_iff (h : EmitsAll env ids fs) (name : String) :
    name ∈ (fs.flatMap EmittedFunction.resourcesUsed).eraseDups ↔
    ∃ id ∈ ids, env.program.Uses env.resources id name := by
  simp only [List.mem_eraseDups, List.mem_flatMap]
  constructor
  · rintro ⟨f, mem, used⟩
    obtain ⟨id, mem, emits⟩ := h.exists_id mem
    exact ⟨id, mem, (emits.resources name).mp used⟩
  · rintro ⟨id, mem, uses⟩
    obtain ⟨f, mem, emits⟩ := h.exists_function mem
    exact ⟨f, mem, (emits.resources name).mpr uses⟩

end EmitsAll

-- What emitting stages does to a context. Marks are those of the functions that are emitted.
structure Emitted (p : Program) (t : Target) (stages : List Stage) (c : Context)
    (emitted : List (Stage × List EmittedFunction)) (c' : Context) : Prop where
  stages_eq     : emitted.map Prod.fst = stages
  structures_eq : c'.structures = c.structures
  resources_eq  : c'.resources = c.resources
  isSome_eq     : ∀ id, (c'.function? id).isSome = (c.function? id).isSome
  marked_mono   : ∀ id flag, c.Marked id flag → c'.Marked id flag
  sound         : ∀ id flag, c'.Marked id flag → c.Marked id flag ∨ p.Touches c.resources id flag
  others        : ∀ stage, stage ∉ stages ∨ c.stages.get stage = none →
    c'.stages.get stage = c.stages.get stage
  each          : ∀ stage ∈ stages, ∀ u, c.stages.get stage = some u → ∃ fs,
    (stage, fs) ∈ emitted ∧ EmitsAll ⟨t, p, c.resources, stage⟩ u.functions fs ∧
    c'.stages.get stage =
      some { u with resources := (fs.flatMap EmittedFunction.resourcesUsed).eraseDups } ∧
    ∀ id ∈ u.functions, (c.function? id).isSome →
      ∀ flag, p.Touches c.resources id flag → c'.Marked id flag

namespace Emitted

variable {stage : Stage} {stages : List Stage} {emitted : List (Stage × List EmittedFunction)}
  {fs : List EmittedFunction}

theorem of_emitStage (h : emitStage p t c stage = .ok (fs, c')) :
    Emitted p t [stage] c [(stage, fs)] c' := by
  simp only [emitStage] at h
  split at h
  case h_1 none =>
    cases h
    exact {
      stages_eq          := rfl
      structures_eq      := rfl
      resources_eq       := rfl
      isSome_eq _        := rfl
      marked_mono _ _    := id
      sound _ _          := .inl
      others _ _         := rfl
      each _ mem u some  := by
        cases List.mem_singleton.mp mem
        cases none.symm.trans some }
  case h_2 u used =>
    split at h
    case h_1 => cases h
    case h_2 run =>
      cases h
      have all := emitsAll_of_mapM run
      have ⟨structures, resources, stages⟩ := frame_markAll fs c
      exact {
        stages_eq             := rfl
        structures_eq         := structures
        resources_eq          := resources
        isSome_eq id          := isSome_markAll fs c
        marked_mono id flag h := (marked_markAll fs c).mpr (.inl h)
        sound id flag h       := by
          refine ((marked_markAll fs c).mp h).imp_right ?_
          rintro ⟨f, mem, rfl, _, has⟩
          have ⟨id, _, emits⟩ := all.exists_id mem
          exact emits.function ▸ (emits.flags flag).mp has
        others other h        := by
          have ne : other ≠ stage := by
            rintro rfl
            simp [used] at h
          rw [setStage, PerStage.get_set_of_ne _ _ ne, stages]
        each other mem u' h   := by
          cases List.mem_singleton.mp mem
          cases used.symm.trans h
          refine ⟨fs, List.mem_singleton_self _, all, PerStage.get_set_self .., ?_⟩
          intro id mem known flag touches
          have ⟨f, mem, emits⟩ := all.exists_function mem
          exact (marked_markAll fs c).mpr
            (.inr ⟨f, mem, emits.function, known, (emits.flags flag).mpr touches⟩) }

theorem nil : Emitted p t [] c [] c where
  stages_eq       := rfl
  structures_eq   := rfl
  resources_eq    := rfl
  isSome_eq _     := rfl
  marked_mono _ _ := id
  sound _ _       := .inl
  others _ _      := rfl
  each            := nofun

theorem append {stages' : List Stage} {emitted' : List (Stage × List EmittedFunction)}
    (distinct : (stages ++ stages').Nodup) (first : Emitted p t stages c emitted c')
    (second : Emitted p t stages' c' emitted' c'') :
    Emitted p t (stages ++ stages') c (emitted ++ emitted') c'' where
  stages_eq     := by rw [List.map_append, first.stages_eq, second.stages_eq]
  structures_eq := second.structures_eq.trans first.structures_eq
  resources_eq  := second.resources_eq.trans first.resources_eq
  isSome_eq id  := (second.isSome_eq id).trans (first.isSome_eq id)
  marked_mono id flag h := second.marked_mono id flag (first.marked_mono id flag h)
  sound id flag h := by
    rcases second.sound id flag h with h | h
    case inl => exact first.sound id flag h
    case inr => exact .inr (first.resources_eq ▸ h)
  others stage h := by
    have kept := first.others stage (h.imp_left fun h mem => h (List.mem_append_left _ mem))
    refine (second.others stage ?_).trans kept
    exact h.imp (fun h mem => h (List.mem_append_right _ mem)) kept.trans
  each stage mem u h := by
    have apart := List.disjoint_of_nodup_append distinct
    rcases List.mem_append.mp mem with mem | mem
    case inl =>
      have ⟨fs, there, all, usage, complete⟩ := first.each stage mem u h
      refine ⟨fs, List.mem_append_left _ there, all, ?_, ?_⟩
      · rw [second.others stage (.inl (apart mem)), usage]
      · exact fun id mem known flag touches =>
          second.marked_mono id flag (complete id mem known flag touches)
    case inr =>
      have kept := first.others stage (.inl fun mem' => apart mem' mem)
      have ⟨fs, there, all, usage, complete⟩ := second.each stage mem u (kept.trans h)
      rw [first.resources_eq] at all complete
      refine ⟨fs, List.mem_append_right _ there, all, usage, ?_⟩
      exact fun id mem known => complete id mem ((first.isSome_eq id).trans known)

theorem of_emitStages (distinct : stages.Nodup) (h : emitStages p t stages c = .ok (emitted, c')) :
    Emitted p t stages c emitted c' := by
  induction stages generalizing c emitted
  case nil =>
    cases h
    exact .nil
  case cons stage stages hi =>
    have ⟨(fs, c₁), first, h⟩ := bind_eq_ok_iff.mp h
    have ⟨(rest, c₂), second, h⟩ := bind_eq_ok_iff.mp h
    cases h
    exact (of_emitStage first).append distinct (hi distinct.of_cons second)

end Emitted

theorem functions_addStructure (s : Structure) : (c.addStructure s).functions = c.functions := by
  simp only [addStructure]
  split <;> rfl

theorem stages_addStructure (s : Structure) : (c.addStructure s).stages = c.stages := by
  simp only [addStructure]
  split <;> rfl

-- Discovery adds structures and changes nothing else.
theorem discoverAll_frame (p : Program) (c : Context) (pending : List TypeRef) :
    (discoverAll p c pending).Ensures fun r => r.2.resources = c.resources ∧
      r.2.functions = c.functions ∧ r.2.stages = c.stages := by
  fun_induction discoverAll p c pending
  case case1 => exact ⟨rfl, rfl, rfl⟩
  case case2 hi | case3 hi | case4 hi => exact hi
  case case5 hi =>
    refine Access.Ensures.bind (.intro fun _ => trivial) fun r _ => ?_
    cases r
    case error => exact ⟨rfl, rfl, rfl⟩
    case ok d =>
      have rest := hi d.val d.property
      simp only [resources_addStructure, functions_addStructure, stages_addStructure] at rest
      exact rest

theorem nodup_entryPoints (set : ShaderSet) : (set.entryPoints.map Prod.fst).Nodup := by
  obtain ⟨name, ⟨vertex, fragment, compute⟩⟩ := set
  cases vertex <;> cases fragment <;> cases compute
  all_goals simp [ShaderSet.entryPoints, PerStage.present, PerStage.get, Stage.all]

-- What is known about a stage: its functions in order, what became of each of them, what they use
-- together, and what each of them is marked with.
structure Staged (p : Program) (t : Target) (c : Context) (stage : Stage) (u : StageUsage)
    (fs : List EmittedFunction) : Prop where
  ordered   : CallGraph.order p u.entry = .ok u.functions
  emitted   : EmitsAll ⟨t, p, c.resources, stage⟩ u.functions fs
  resources : ∀ name, name ∈ u.resources ↔ ∃ id ∈ u.functions, p.Uses c.resources id name
  marked    : ∀ id ∈ u.functions, ∀ flag, c.Marked id flag ↔ p.Touches c.resources id flag

structure Assembled (p : Program) (set : ShaderSet) (t : Target)
    (emitted : List (Stage × List EmittedFunction)) (c : Context) : Prop where
  bound     : bindResources p set = .ok c.resources
  stages    : (emitted.map Prod.fst).Nodup
  functions : ∀ id, (c.function? id).isSome ↔
    ∃ stage u, c.stages.get stage = some u ∧ id ∈ u.functions
  each      : ∀ stage u, c.stages.get stage = some u →
    ∃ fs, (stage, fs) ∈ emitted ∧ Staged p t c stage u fs

theorem assemble_ensures (p : Program) (set : ShaderSet) (t : Target) :
    (assemble p set t).Ensures fun r => Assembled p set t r.1 r.2 := by
  refine (Access.Ensures.liftExcept fun _ => id).bind fun resources bound => ?_
  refine (Access.Ensures.liftExcept fun _ => id).bind fun c₁ collected => ?_
  refine (discoverAll_frame p c₁ _).bind
    fun (found, c₂) ⟨resources_eq, functions_eq, stages_eq⟩ => ?_
  refine (Access.Ensures.intro fun _ => trivial).bind fun _ _ => ?_
  refine .liftExcept fun (emitted, c) run => ?_
  have collected := collected_of_collectFunctions (nodup_entryPoints set) collected
  have emission := Emitted.of_emitStages (nodup_entryPoints set) run
  have function?_eq (id : MethodId) : c₂.function? id = c₁.function? id :=
    congrArg (List.find? _) functions_eq
  have unmarked (id : MethodId) (flag : Flag) : ¬c₂.Marked id flag := by
    rintro ⟨f, found, has⟩
    have ⟨_, found, _⟩ := (collected.marked_iff id flag).mp ⟨f, function?_eq id ▸ found, has⟩
    cases found
  have used {stage : Stage} {u : StageUsage} (h : c.stages.get stage = some u) :
      ∃ entry, (stage, entry) ∈ set.entryPoints := by
    by_contra unused
    have unused : stage ∉ set.entryPoints.map Prod.fst := by simpa using unused
    rw [emission.others stage (.inl unused), stages_eq, collected.others stage unused] at h
    cases (PerStage.get_replicate none stage).symm.trans h
  -- What becomes of an entry point of the set.
  have staged {stage : Stage} {entry : MethodId} (mem : (stage, entry) ∈ set.entryPoints) :
      ∃ u fs, c.stages.get stage = some u ∧ CallGraph.order p entry = .ok u.functions ∧
        (∀ id ∈ u.functions, (c.function? id).isSome) ∧ (stage, fs) ∈ emitted ∧
        Staged p t c stage u fs := by
    have ⟨functions, ordered, collectedAt⟩ := collected.each stage entry mem
    have ⟨fs, there, all, emittedAt, complete⟩ := emission.each stage
      (List.mem_map_of_mem mem) ⟨entry, functions, []⟩ (stages_eq ▸ collectedAt)
    rw [← emission.resources_eq] at all complete
    have present (id : MethodId) (here : id ∈ functions) : (c₂.function? id).isSome := by
      have ⟨_, _, emits⟩ := all.exists_function here
      have ⟨_, _, declared, _⟩ := emits.declared
      rw [function?_eq]
      exact (collected.isSome_iff id).mpr
        (.inr ⟨_, mem, functions, ordered, here, Option.isSome_of_eq_some declared⟩)
    refine ⟨_, fs, emittedAt, ordered, fun id here => ?_, there, {
      ordered             := ordered
      emitted             := all
      resources           := all.mem_resourcesUsed_iff
      marked id here flag := ⟨fun marked => ?_, complete id here (present id here) flag⟩ }⟩
    · rw [emission.isSome_eq]
      exact present id here
    · have touches := (emission.sound id flag marked).resolve_left (unmarked id flag)
      rwa [← emission.resources_eq] at touches
  refine ⟨?bound, emission.stages_eq ▸ nodup_entryPoints set, fun id => ⟨?known, ?present⟩, ?each⟩
  case bound =>
    rw [emission.resources_eq, resources_eq, collected.resources_eq]
    exact bound
  case known =>
    rw [emission.isSome_eq, function?_eq, collected.isSome_iff]
    rintro (none | ⟨⟨stage, entry⟩, mem, functions, ordered, here, _⟩)
    case inl => cases none
    case inr =>
      have ⟨u, _, usage, ordered', _⟩ := staged mem
      cases ordered.symm.trans ordered'
      exact ⟨stage, u, usage, here⟩
  case present =>
    rintro ⟨stage, u, usage, here⟩
    have ⟨_, mem⟩ := used usage
    have ⟨_, _, usage', _, present, _⟩ := staged mem
    cases usage.symm.trans usage'
    exact present id here
  case each =>
    intro stage u usage
    have ⟨_, mem⟩ := used usage
    have ⟨_, fs, usage', _, _, there⟩ := staged mem
    cases usage.symm.trans usage'
    exact ⟨fs, there⟩

end Generation
end Shading
