import Shading.Proofs.SourceParts
import Shading.Proofs.StageEntries
import Mathlib
/-!
In the source of a stage every function is defined before it is called.
-/

namespace Shading

open Glsl

namespace CallGraph

variable {p : Program} {id callee : MethodId} {sites : List CallSite} {e : Expr}

theorem exists_addSite (sites : List CallSite) (site : CallSite) :
    ∃ s ∈ addSite sites site, s.target = site.target := by
  simp only [addSite]
  split
  case isTrue there => simpa using there
  case isFalse      => exact ⟨site, by simp, rfl⟩

theorem subset_addSite (sites : List CallSite) (site : CallSite) : sites ⊆ addSite sites site := by
  simp only [addSite]
  split
  case isTrue  => exact List.Subset.refl _
  case isFalse => exact List.subset_append_left ..

-- Each call that belongs to the graph ends up among the call sites, at least with its target.
theorem exists_site_of_isInternal {candidates sites' : List CallSite} {site : CallSite}
    (h : candidates.foldlM (fun sites site => do
      return if ← isInternal p site then addSite sites site else sites) sites = .ok sites')
    (mem : site ∈ candidates) (internal : isInternal p site = .ok true) :
    ∃ s ∈ sites', s.target = site.target := by
  induction candidates generalizing sites
  case nil => cases mem
  case cons first candidates hi =>
    have ⟨sites₁, added, rest⟩ := bind_eq_ok_iff.mp h
    rcases List.mem_cons.mp mem with rfl | later
    case inr => exact hi rest later
    case inl =>
      have ⟨_, internal', added⟩ := bind_eq_ok_iff.mp added
      cases internal.symm.trans internal'
      cases added
      -- What is among the sites stays there.
      refine foldlM_invariant (P := fun sites => ∃ s ∈ sites, s.target = site.target) ?_ rest
        (exists_addSite sites site)
      intro next _ sites sites' h ⟨s, mem, target⟩
      have ⟨internal, _, h⟩ := bind_eq_ok_iff.mp h
      cases h
      split
      case isTrue  => exact ⟨s, subset_addSite sites next mem, target⟩
      case isFalse => exact ⟨s, mem, target⟩

theorem isInternal_of_callee? {owner method : String} (location : Option Location)
    (h : p.callee? owner method = some callee) :
    callee = ⟨owner, method⟩ ∧ isInternal p ⟨callee, location⟩ = .ok true := by
  have ⟨t, declared, h⟩ := Option.bind_eq_some_iff.mp h
  have ⟨m, found, h⟩ := Option.bind_eq_some_iff.mp h
  have name : m.name = method := by simpa using List.find?_some found
  by_cases body : m.body.isSome
  case neg =>
    rw [if_neg body] at h
    cases h
  case pos =>
    rw [if_pos body] at h
    cases h
    refine ⟨by rw [name], ?_⟩
    simp [isInternal, declared, found, name, body]

-- The emitter and the call graph agree on what is a call of a function of the program.
theorem calls_of_callee? {m : MethodDecl} {body : List Stmt} (known : callSites p id = .ok sites)
    (declared : p.method? id = some m) (given : m.body = some body) (mem : e ∈ Stmt.exprsAll body)
    (h : e.callee? p = some callee) : Calls p id callee := by
  refine ⟨sites, known, ?_⟩
  have ⟨site, candidate, target, internal⟩ :
      ∃ site, candidate? e = some site ∧ site.target = callee ∧ isInternal p site = .ok true := by
    simp only [Expr.callee?] at h
    split at h
    case h_1 node owner method _ =>
      have ⟨same, internal⟩ := isInternal_of_callee? node.location h
      exact ⟨_, same ▸ rfl, rfl, internal⟩
    case h_2 node _ =>
      split at h
      case isFalse => cases h
      case isTrue struct =>
        have ⟨same, internal⟩ := isInternal_of_callee? node.location h
        exact ⟨⟨callee, node.location⟩, by simp [candidate?, struct, same], rfl, internal⟩
    case h_3 => cases h
  simp only [callSites, declared, given] at known
  rw [← target]
  exact exists_site_of_isInternal known (List.mem_filterMap.mpr ⟨e, mem, candidate⟩) internal

theorem Ordered.exists_callSites {done : List MethodId} (o : Ordered p done) (mem : id ∈ done) :
    ∃ sites, callSites p id = .ok sites := by
  induction o
  case nil => cases mem
  case snoc sites _ _ _ known _ hi =>
    rcases List.mem_append.mp mem with mem | mem
    case inl => exact hi mem
    case inr => exact ⟨sites, List.mem_singleton.mp mem ▸ known⟩

theorem exists_callSites_of_order {entry : MethodId} {functions : List MethodId}
    (h : order p entry = .ok functions) (mem : id ∈ functions) :
    ∃ sites, callSites p id = .ok sites := by
  have visited := order_visited p entry
  rw [h] at visited
  exact visited.left.ordered.exists_callSites mem

end CallGraph

-- The definition that a function is given in a stage.
def Emission.Defines (env : Emission) (id : MethodId) (d : Definition) : Prop :=
  ∃ s f s', env.emit id s = .ok f s' ∧ f.definition = d

variable {p : Program} {t : Target} {resources : List Resource} {stage : Stage}
  {entry : StageEntry} {fs : List EmittedFunction} {id callee : MethodId} {m : MethodDecl}
  {body : List Stmt}

-- Whatever a definition calls is called somewhere in the body that it is made from.
theorem Emission.Emits.exists_expr {env : Emission} {f : EmittedFunction} (emits : env.Emits id f)
    (declared : env.program.method? id = some m) (given : m.body = some body)
    (mem : callee ∈ f.definition.calls) :
    ∃ e ∈ Stmt.exprsAll body, e.callee? env.program = some callee := by
  have ⟨e, mem, h⟩ := (Program.exists_renders_iff declared given).mp (emits.calls callee mem)
  exact ⟨e, Stmt.renderedAll_subset_exprsAll _ body mem, h⟩

theorem Generation.Compiled.callee_mem_earlier {earlier later : List MethodId} {e : Expr}
    (compiled : Compiled p t resources stage entry fs)
    (split : entry.functions = earlier ++ id :: later) (declared : p.method? id = some m)
    (given : m.body = some body) (mem : e ∈ Stmt.exprsAll body)
    (h : e.callee? p = some callee) : callee ∈ earlier := by
  have here : id ∈ entry.functions := split ▸ List.mem_append_right _ List.mem_cons_self
  have ⟨_, sites⟩ := CallGraph.exists_callSites_of_order compiled.ordered here
  exact (CallGraph.order_orders compiled.ordered).callees_first earlier id later split callee
    (CallGraph.calls_of_callee? sites declared given mem h)

-- No line of a header opens a body.
theorem Glsl.Target.headerLines_bodiless (t : Target) (entry : StageEntry) :
    ∀ line ∈ t.headerLines entry, '\x7b' ∉ line.toList := by
  intro line mem
  rw [headerLines, List.cons_append, List.mem_cons, List.mem_append] at mem
  rcases mem with rfl | extension | precision
  · cases t.version <;> decide
  · simp only [extensionLines] at extension
    split at extension
    case isTrue => cases extension
    case isFalse =>
      rcases List.mem_append.mp extension with mem | mem
      all_goals
        split at mem
        case isTrue  => cases List.mem_singleton.mp mem; decide
        case isFalse => cases mem
  · rw [precisionLines] at precision
    split at precision
    case isFalse => cases precision
    case isTrue =>
      have all : ∀ p : Precision, ∀ ty ∈ ["float", "int", "sampler2DArray", "sampler2DShadow",
          "sampler2DArrayShadow", "samplerCube"],
          '\x7b' ∉ ("precision " ++ p.text ++ " " ++ ty ++ ";").toList := by
        intro p
        cases p <;> decide
      obtain ⟨ty, mem, rfl⟩ := List.mem_map.mp precision
      exact all t.precision ty mem

-- The source of a stage is made from the definitions of its functions in order, and from nothing
-- else that has a body but `main` at its end.
theorem definitions_precede_calls (p : Program) (targets : List Target) (l l' : Layouts)
    (o : Outcome) (g : GeneratedSet) (stage : Stage) (entry : StageEntry)
    (generated : generate p targets l = .ok o l') (mem : g ∈ o.sets)
    (known : g.model.entry? stage = some entry) :
    ∃ t ∈ targets, t.name = g.backend ∧
    ∃ (defined : List (MethodId × Definition)) (source : StageSource),
      (defined.map Prod.fst = entry.functions) ∧
      (SourceParts t ⟨stage, entry, g.model.dependencyOrder, defined.map (·.2.text)⟩ source) ∧
      (g.sources.get stage = some source.text) ∧
      (source.text = String.join (source.header.map (· ++ "\n")) ++ "\n" ++
        String.join (source.structures.map StructDecl.text) ++
        String.join (source.resources.map ResourceDecl.text) ++ source.interface.text ++
        String.join (defined.map (·.2.text ++ "\n")) ++ source.main.text) ∧
      (∀ line ∈ source.header, '\x7b' ∉ line.toList) ∧
      ∀ earlier id d later, defined = earlier ++ (id, d) :: later →
        id ∉ earlier.map Prod.fst ∧
        Emission.Defines ⟨t, p, g.model.resources, stage⟩ id d ∧
        d.name = functionName id ∧
        (∀ callee ∈ d.calls, callee ∈ earlier.map Prod.fst) ∧
        ∃ body, (p.method? id).bind MethodDecl.body = some body ∧
          ∀ e ∈ Stmt.exprsAll body, ∀ callee, e.callee? p = some callee →
            callee ∈ earlier.map Prod.fst := by
  have ⟨_, _, _, _, t, target, produced⟩ := Generation.produced_of_generate generated mem
  have ⟨_, fs, source, compiled, made, text⟩ := produced.compiled known
  have length := compiled.emitted.length_eq
  let defined := (entry.functions.zip fs).map fun (id, f) => (id, f.definition)
  have firsts : defined.map Prod.fst = entry.functions := by
    rw [List.map_map]
    exact List.map_fst_zip length.le
  have texts : fs.map EmittedFunction.text = defined.map (·.2.text) := by
    calc fs.map EmittedFunction.text
      _ = ((entry.functions.zip fs).map Prod.snd).map EmittedFunction.text := by
        rw [List.map_snd_zip length.ge]
      _ = _ := by
        rw [List.map_map, List.map_map]
        rfl
  have parts := Target.sourceParts_of_stageSource (texts ▸ made)
  refine ⟨t, target, produced.backend.symm, defined, source, firsts, parts, text, ?_, ?_, ?_⟩
  · rw [StageSource.text, parts.functions, List.map_map]
    rfl
  · rw [parts.header]
    exact t.headerLines_bodiless entry
  · intro earlier id d later split
    have functions : entry.functions = earlier.map Prod.fst ++ id :: later.map Prod.fst := by
      rw [← firsts, split, List.map_append, List.map_cons]
    have here : (id, d) ∈ earlier ++ (id, d) :: later :=
      List.mem_append_right _ List.mem_cons_self
    have ⟨(_, f), mem, same⟩ := List.mem_map.mp (split ▸ here)
    cases same
    have ⟨s, s', emitted⟩ := List.forall₂_zip compiled.emitted mem
    have emits := Emission.emits_of_emit emitted
    have ⟨m, body, declared, given⟩ := emits.declared
    have callees (e : Expr) (mem : e ∈ Stmt.exprsAll body) (callee : MethodId)
        (h : e.callee? p = some callee) : callee ∈ earlier.map Prod.fst :=
      compiled.callee_mem_earlier functions declared given mem h
    refine ⟨?_, ⟨s, f, s', emitted, rfl⟩, emits.name, ?_, body, ?_, callees⟩
    · have nodup := (CallGraph.order_orders compiled.ordered).nodup
      rw [functions] at nodup
      exact fun mem => List.disjoint_of_nodup_append nodup mem List.mem_cons_self
    · intro callee mem
      have ⟨e, mem, h⟩ := emits.exists_expr declared given mem
      exact callees e mem callee h
    · simp [declared, given]

theorem definitions_precede_calls_lantern :
    ∃ o l' g entry glow flicker, generate lantern [{}] {} = .ok o l' ∧ g ∈ o.sets ∧
      g.model.entry? .compute = some entry ∧
      entry.functions = [⟨"Lantern", "glow"⟩, ⟨"Lantern", "flicker"⟩] ∧
      g.sources.get .compute = some lanternCompute ∧
      (∃ before main, lanternCompute = before ++
        String.join [Definition.text glow ++ "\n", Definition.text flicker ++ "\n"] ++
          Main.text main) ∧
      glow.calls = [] ∧ flicker.calls ⊆ [⟨"Lantern", "glow"⟩] := by
  have ⟨_, _, o, l', g, _, entry, _, generated, mem, _, known, _, functions, _, _, shown⟩ :=
    lantern_generated
  have ⟨_, _, _, defined, source, firsts, _, text, split, _, order⟩ :=
    definitions_precede_calls lantern [{}] {} l' o g .compute entry generated mem known
  match defined, firsts.trans functions with
  | [(_, glow), (_, flicker)], same =>
    obtain ⟨rfl, rfl⟩ : _ = MethodId.mk "Lantern" "glow" ∧ _ = MethodId.mk "Lantern" "flicker" := by
      simpa using same
    have whole : lanternCompute = source.text := Option.some.inj (shown.symm.trans text)
    refine ⟨o, l', g, entry, glow, flicker, generated, mem, known, functions, shown,
      ⟨_, _, whole.trans split⟩, ?_, ?_⟩
    · have ⟨_, _, _, calls, _⟩ := order [] _ _ _ rfl
      exact List.eq_nil_iff_forall_not_mem.mpr fun callee called =>
        List.not_mem_nil (calls callee called)
    · have ⟨_, _, _, calls, _⟩ := order [_] _ _ _ rfl
      exact calls

end Shading
