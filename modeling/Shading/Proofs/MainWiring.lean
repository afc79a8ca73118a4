import Shading.Proofs.GlobalNames
import Shading.Proofs.StageInterface
import Mathlib
/-!
What `main` does with the variables of the interface.

Before the call it fills in each member of the input, and after the call it sets each output, once.
Both stages number the members that travel between them alike. The names of the interface are meant
outside of `main`, which holds unless its own input has the same name.
-/

namespace Shading.Glsl

def Place.global? : Place → Option String
  | global name => some name
  | _           => none

namespace MainStep

def target? : MainStep → Option Place
  | copy target _ => some target
  | flipPosition  => none

def source? : MainStep → Option Place
  | copy _ source => some source
  | flipPosition  => none

-- The names outside of main that a step mentions.
def globals : MainStep → List String
  | copy target source => target.global?.toList ++ source.global?.toList
  | flipPosition       => ["gl_Position"]

end MainStep

-- The input and the output of main hide what has the same name outside, from where they are
-- declared.
def Main.Captures (main : Main) : Prop :=
  (main.inputType.isSome ∧
    (main.function = "_input" ∨ ∃ step ∈ main.before ++ main.after, "_input" ∈ step.globals)) ∨
  (main.outputType.isSome ∧ ∃ step ∈ main.after, "_output" ∈ step.globals)

variable {t : Target} {m : Model} {stage : Stage} {f : ShaderFunction} {source : StageSource}
  {inputs outputs : List InterfaceVariable} {fields : List Field} {x : Field} {c : Carrier}
  {isInput : Bool} {j k : Nat}

theorem varyingName_inj : varyingName j = varyingName k ↔ j = k :=
  (String.append_right_inj _).trans Nat.repr_inj

theorem colorName_inj : colorName j = colorName k ↔ j = k :=
  (String.append_right_inj _).trans Nat.repr_inj

theorem varyingName_ne (name : String) (other : name.toList.head? ≠ some 'f') :
    varyingName k ≠ name := by
  rintro rfl
  simp [varyingName] at other

theorem colorName_ne (name : String) (other : name.toList[7]? ≠ some 'C') : colorName k ≠ name := by
  rintro rfl
  simp [colorName] at other

theorem varyingName_ne_positionName : varyingName k ≠ positionName stage := by
  refine varyingName_ne _ ?_
  rw [positionName]
  split <;> decide

theorem name_of_declared? {v : InterfaceVariable} (h : c.declared? t isInput x = some v) :
    v.name = c.name stage x := by
  cases c <;> cases h <;> rfl

theorem names_between :
    ((carried .between fields).filterMap fun part => part.2.declared? t isInput part.1).map
      InterfaceVariable.name = (List.range (travelling fields).length).map varyingName := by
  have numbers :
      (travelling fields).zipIdx.map Prod.snd = List.range (travelling fields).length := by
    simp [List.range_eq_range']
  rw [declared_between, ← numbers, List.map_map, List.map_map]
  rfl

theorem names_colors :
    ((carried (.ofOutput .fragment) fields).filterMap fun part =>
      part.2.declared? t false part.1).map InterfaceVariable.name =
    (List.range fields.length).map colorName := by
  rw [← colorVariables_eq, List.map_map]
  rfl

theorem nodup_outputs (graphics : stage ≠ .compute) :
    (((carried (.ofOutput stage) fields).filterMap fun part =>
      part.2.declared? t false part.1).map InterfaceVariable.name).Nodup := by
  cases stage
  case vertex =>
    rw [show Carrier.ofOutput .vertex = .between from rfl, names_between]
    exact List.nodup_range.map fun _ _ => varyingName_inj.mp
  case fragment =>
    rw [names_colors]
    exact List.nodup_range.map fun _ _ => colorName_inj.mp
  case compute => exact absurd rfl graphics

-- What main assigns after the call.
theorem targets_stepsOut (parts : List (Field × Carrier)) :
    (parts.flatMap (stepsOut t stage)).filterMap MainStep.target? =
    parts.map fun part => .global (part.2.name stage part.1) := by
  induction parts
  case nil => rfl
  case cons part parts hi =>
    rw [List.flatMap_cons, List.filterMap_append, hi, List.map_cons, stepsOut]
    split <;> rfl

theorem declared?_ofOutput (mem : (x, c) ∈ carried (.ofOutput stage) fields) :
    (c.declared? t false x).map InterfaceVariable.name =
    Option.guard (· != "gl_Position") (c.name stage x) := by
  have ⟨earlier, same⟩ := carrier_of_mem_carried mem
  simp only [Carrier.ofOutput, Carrier.between] at same
  split at same
  case isTrue vertex =>
    split at same
    case isTrue =>
      cases vertex
      cases same
      rfl
    case isFalse =>
      have ne (k : Nat) : varyingName k ≠ "gl_Position" := varyingName_ne _ (by decide)
      simp [same, Carrier.declared?, Target.varyingVariable, Carrier.name, Option.guard, ne]
  case isFalse =>
    have ne (k : Nat) : colorName k ≠ "gl_Position" := colorName_ne _ (by decide)
    simp [same, Carrier.declared?, Carrier.name, Option.guard, ne, colorVariable]

-- Each output is assigned once, and besides them only the position is.
theorem count_output {v : InterfaceVariable} (graphics : stage ≠ .compute)
    (mem : v ∈ (carried (.ofOutput stage) fields).filterMap fun part =>
      part.2.declared? t false part.1) :
    (((carried (.ofOutput stage) fields).flatMap (stepsOut t stage)).filterMap
      MainStep.target?).count (.global v.name) = 1 := by
  have names : ((carried (.ofOutput stage) fields).filterMap fun part =>
        part.2.declared? t false part.1).map InterfaceVariable.name =
      ((carried (.ofOutput stage) fields).map fun part => part.2.name stage part.1).filter
        (· != "gl_Position") := by
    rw [List.map_filterMap, ← List.filterMap_eq_filter, List.filterMap_map]
    exact List.filterMap_congr fun part mem => declared?_ofOutput mem
  have here := List.mem_map_of_mem (f := InterfaceVariable.name) mem
  have once := List.count_eq_one_of_mem (nodup_outputs graphics) here
  rw [names] at here once
  rw [List.count_filter (p := (· != "gl_Position")) (List.mem_filter.mp here).right] at once
  have injective : Function.Injective Place.global := fun _ _ => Place.global.inj
  rw [targets_stepsOut, ← once, ← List.count_map_of_injective _ _ injective, List.map_map]
  rfl

-- The members that travel are carried by the variables of their numbers, and all others by the
-- builtin variable. What main copies between a variable and a member ties them.
structure Numbered (t : Target) (isInput : Bool) (fields : List Field)
    (vs : List InterfaceVariable) (builtin : String) (ties : String → String → Prop) :
    Prop where
  length   : vs.length = (travelling fields).length
  declared : ∀ k x, (travelling fields)[k]? = some x →
    vs[k]? = some (t.varyingVariable isInput k x)
  tied     : ∀ k member, ties (varyingName k) member ↔
    ∃ x, (travelling fields)[k]? = some x ∧ identifier x.name = member
  position : ∀ x ∈ fields, x.semantic = .systemPosition → ties builtin (identifier x.name)

theorem numbered_between (stage : Stage) {ties : String → String → Prop}
    (same : ∀ name member, ties name member ↔
      ∃ x c, (x, c) ∈ carried .between fields ∧ c.name stage x = name ∧
        identifier x.name = member) :
    Numbered t isInput fields
      ((carried .between fields).filterMap fun part => part.2.declared? t isInput part.1)
      (positionName stage) ties where
  length := by rw [declared_between, List.length_map, List.length_zipIdx]
  declared k x known := by
    rw [declared_between, List.getElem?_map, List.getElem?_zipIdx, known]
    simp
  tied k member := by
    simp only [same, ← mem_varying_iff]
    constructor
    · rintro ⟨x, c, mem, named, rfl⟩
      have ⟨_, carrier⟩ := carrier_of_mem_carried mem
      rw [Carrier.between] at carrier
      split at carrier
      case isTrue =>
        cases carrier
        exact absurd named.symm varyingName_ne_positionName
      case isFalse =>
        cases carrier
        cases varyingName_inj.mp named
        exact ⟨x, mem, rfl⟩
    · rintro ⟨x, mem, rfl⟩
      exact ⟨x, _, mem, rfl, rfl⟩
  position x mem first :=
    (same _ _).mpr ⟨x, _, mem_position_iff.mpr ⟨mem, first⟩, rfl, rfl⟩

theorem mem_stepsOut_iff {name member : String} {parts : List (Field × Carrier)} :
    .copy (.global name) (.outputMember member) ∈ parts.flatMap (stepsOut t stage) ↔
    ∃ x c, (x, c) ∈ parts ∧ c.name stage x = name ∧ identifier x.name = member := by
  simp only [List.mem_flatMap, stepsOut, copyOut, List.mem_cons, Prod.exists]
  refine exists₂_congr fun x c => and_congr_right fun _ => ?_
  split <;> simp [eq_comm]

theorem mem_stepsIn_iff {name member : String} {parts : List (Field × Carrier)} :
    .copy (.inputMember member) (.global name) ∈ parts.map (copyIn stage) ↔
    ∃ x c, (x, c) ∈ parts ∧ c.name stage x = name ∧ identifier x.name = member := by
  simp [copyIn, and_comm]

-- What main does with the interface of a graphics stage of a generated set.
structure Wired (t : Target) (g : GeneratedSet) (stage : Stage) (f : ShaderFunction)
    (source : StageSource) (inputs outputs : List InterfaceVariable) : Prop where
  text      : g.sources.get stage = some source.text
  interface : source.interface = .exchange inputs outputs
  function  : source.main.function = functionName f.id
  argument  : source.main.inputType.isSome ↔ f.parameters ≠ []
  result    : source.main.outputType.isSome ↔ ¬f.returnType.isVoid
  -- Each member of the input is filled in, in order, from what is declared or builtin.
  assigned  : source.main.before.map MainStep.target? =
    (g.model.inputFields f).map fun x => some (.inputMember (identifier x.name))
  read      : ∀ step ∈ source.main.before, ∃ name, step.source? = some (.global name) ∧
    (name ∈ inputs.map InterfaceVariable.name ∨ stage = .fragment ∧ name = "gl_FragCoord")
  -- Each declared output is set once.
  written   : ∀ v ∈ outputs,
    (source.main.after.filterMap MainStep.target?).count (.global v.name) = 1
  position  : stage = .vertex →
    .global "gl_Position" ∈ source.main.after.filterMap MainStep.target?
  outgoing  : stage = .vertex → ∃ s, g.model.outputStructure? f = some s ∧
    Numbered t false s.fields outputs "gl_Position" fun name member =>
      .copy (.global name) (.outputMember member) ∈ source.main.after
  incoming  : stage = .fragment →
    Numbered t true (g.model.inputFields f) inputs "gl_FragCoord" fun name member =>
      .copy (.inputMember member) (.global name) ∈ source.main.before
  captures  : source.main.Captures ↔ f.parameters ≠ [] ∧
    (functionName f.id = "_input" ∨
      stage = .vertex ∧ ∃ x ∈ g.model.inputFields f, x.name = "_input")

namespace Exchanges

theorem declared_or_position (graphics : stage ≠ .compute)
    (mem : (x, c) ∈ carried (.ofInput stage) fields) :
    (∃ v, c.declared? t true x = some v) ∨ stage = .fragment ∧ c = .position := by
  have ⟨_, carrier⟩ := carrier_of_mem_carried mem
  simp only [Carrier.ofInput, Carrier.between] at carrier
  split at carrier
  case isTrue =>
    cases carrier
    exact .inl ⟨_, rfl⟩
  case isFalse other =>
    split at carrier
    case isTrue =>
      cases stage
      case vertex   => exact absurd rfl other
      case fragment => exact .inr ⟨rfl, carrier⟩
      case compute  => exact absurd rfl graphics
    case isFalse =>
      cases carrier
      exact .inl ⟨_, rfl⟩

theorem read (e : Exchanges t m stage f source inputs outputs) (graphics : stage ≠ .compute)
    {step : MainStep} (mem : step ∈ source.main.before) :
    ∃ name, step.source? = some (.global name) ∧
      (name ∈ inputs.map InterfaceVariable.name ∨ stage = .fragment ∧ name = "gl_FragCoord") := by
  rw [e.before] at mem
  have ⟨⟨x, c⟩, here, same⟩ := List.mem_map.mp mem
  cases same
  refine ⟨_, rfl, ?_⟩
  rcases declared_or_position graphics here with ⟨v, declared⟩ | ⟨rfl, rfl⟩
  case inl =>
    refine .inl (List.mem_map.mpr ⟨v, ?_, name_of_declared? declared⟩)
    rw [e.inputs]
    exact List.mem_filterMap.mpr ⟨_, here, declared⟩
  case inr => exact .inr ⟨rfl, rfl⟩

theorem written (e : Exchanges t m stage f source inputs outputs) (graphics : stage ≠ .compute)
    {v : InterfaceVariable} (mem : v ∈ outputs) :
    (source.main.after.filterMap MainStep.target?).count (.global v.name) = 1 := by
  cases known : m.outputStructure? f
  case some s =>
    have ⟨outputs_eq, after⟩ := e.structured s known
    rw [outputs_eq] at mem
    rw [after]
    exact count_output graphics mem
  case none =>
    by_cases void : f.returnType.isVoid
    case pos =>
      rw [(e.nothing void).left] at mem
      cases mem
    case neg =>
      have ⟨outputs_eq, after⟩ := e.color known void
      rw [outputs_eq] at mem
      cases List.mem_singleton.mp mem
      rw [after]
      decide

theorem outgoing (e : Exchanges t m .vertex f source inputs outputs) {s : Structure}
    (known : m.outputStructure? f = some s) :
    Numbered t false s.fields outputs "gl_Position" fun name member =>
      .copy (.global name) (.outputMember member) ∈ source.main.after := by
  have ⟨outputs_eq, after⟩ := e.structured s known
  rw [outputs_eq]
  refine numbered_between .vertex fun name member => ?_
  rw [after]
  exact mem_stepsOut_iff

theorem incoming (e : Exchanges t m .fragment f source inputs outputs) :
    Numbered t true (m.inputFields f) inputs "gl_FragCoord" fun name member =>
      .copy (.inputMember member) (.global name) ∈ source.main.before := by
  rw [e.inputs]
  refine numbered_between .fragment fun name member => ?_
  rw [e.before]
  exact mem_stepsIn_iff

-- Only vertex inputs keep the names that they have been given.
theorem name_ne (other : ∀ k, c ≠ .vertexInput k) :
    c.name stage x ≠ "_input" ∧ c.name stage x ≠ "_output" := by
  cases c
  case vertexInput k => exact absurd rfl (other k)
  case varying => exact ⟨varyingName_ne _ (by decide), varyingName_ne _ (by decide)⟩
  case color   => exact ⟨colorName_ne _ (by decide), colorName_ne _ (by decide)⟩
  case position =>
    simp only [Carrier.name, positionName]
    split <;> decide

theorem identifier_eq_input_iff {a : String} : identifier a = "_input" ↔ a = "_input" := by
  constructor
  · intro same
    rcases identifier_eq_or a with plain | ⟨barred, _⟩
    case inl => exact plain.symm.trans same
    case inr =>
      -- A barred name ends in a bar.
      have last := congrArg (fun name => name.toList.getLast?) (barred.symm.trans same)
      simp at last
  · rintro rfl
    decide

theorem globals_before (e : Exchanges t m stage f source inputs outputs) :
    (∃ step ∈ source.main.before, "_input" ∈ step.globals) ↔
    stage = .vertex ∧ ∃ x ∈ m.inputFields f, x.name = "_input" := by
  have globals (x : Field) (c : Carrier) :
      "_input" ∈ (copyIn stage (x, c)).globals ↔ c.name stage x = "_input" := by
    simp [copyIn, MainStep.globals, Place.global?, eq_comm]
  rw [e.before]
  constructor
  · rintro ⟨step, mem, global⟩
    obtain ⟨⟨x, c⟩, mem, same⟩ := List.mem_map.mp mem
    have named := (globals x c).mp (same ▸ global)
    obtain ⟨_, carrier⟩ := carrier_of_mem_carried mem
    by_cases vertex : stage = .vertex
    case pos =>
      rw [Carrier.ofInput, if_pos vertex] at carrier
      cases carrier
      exact ⟨vertex, x, mem_of_mem_carried mem, identifier_eq_input_iff.mp named⟩
    case neg =>
      rw [Carrier.ofInput, if_neg vertex, Carrier.between] at carrier
      refine absurd named (name_ne fun k => ?_).left
      rw [carrier]
      split <;> simp
  · rintro ⟨rfl, x, mem, named⟩
    obtain ⟨c, mem⟩ := exists_mem_carried (.ofInput .vertex) mem
    obtain ⟨_, carrier⟩ := carrier_of_mem_carried mem
    cases carrier
    exact ⟨_, List.mem_map_of_mem mem, (globals ..).mpr (identifier_eq_input_iff.mpr named)⟩

theorem globals_after (e : Exchanges t m stage f source inputs outputs) {step : MainStep}
    (mem : step ∈ source.main.after) : "_input" ∉ step.globals ∧ "_output" ∉ step.globals := by
  cases known : m.outputStructure? f
  case some s =>
    rw [(e.structured s known).right] at mem
    have ⟨⟨x, c⟩, part, here⟩ := List.mem_flatMap.mp mem
    rcases List.mem_cons.mp here with rfl | flip
    case inl =>
      have ⟨_, carrier⟩ := carrier_of_mem_carried part
      have ⟨first, second⟩ : c.name stage x ≠ "_input" ∧ c.name stage x ≠ "_output" := by
        refine name_ne fun k => ?_
        rw [carrier, Carrier.ofOutput, Carrier.between]
        split
        · split <;> simp
        · simp
      simp [copyOut, MainStep.globals, Place.global?, first.symm, second.symm]
    case inr =>
      split at flip
      case isTrue =>
        cases List.mem_singleton.mp flip
        decide
      case isFalse => cases flip
  case none =>
    by_cases void : f.returnType.isVoid
    case pos =>
      rw [(e.nothing void).right] at mem
      cases mem
    case neg =>
      rw [(e.color known void).right] at mem
      cases List.mem_singleton.mp mem
      decide

theorem captures_iff (e : Exchanges t m stage f source inputs outputs) :
    source.main.Captures ↔ f.parameters ≠ [] ∧
      (functionName f.id = "_input" ∨
        stage = .vertex ∧ ∃ x ∈ m.inputFields f, x.name = "_input") := by
  have argument : source.main.inputType.isSome ↔ f.parameters ≠ [] := by simp [e.inputType]
  rw [Main.Captures, argument, e.function, ← e.globals_before]
  constructor
  · rintro (⟨takes, named | ⟨step, mem, global⟩⟩ | ⟨_, step, mem, global⟩)
    · exact ⟨takes, .inl named⟩
    · rcases List.mem_append.mp mem with mem | mem
      · exact ⟨takes, .inr ⟨step, mem, global⟩⟩
      · exact absurd global (e.globals_after mem).left
    · exact absurd global (e.globals_after mem).right
  · rintro ⟨takes, named | ⟨step, mem, global⟩⟩
    · exact .inl ⟨takes, .inl named⟩
    · exact .inl ⟨takes, .inr ⟨step, List.mem_append_left _ mem, global⟩⟩

theorem wired {g : GeneratedSet} (e : Exchanges t g.model stage f source inputs outputs)
    (graphics : stage ≠ .compute) (admits : g.model.Admits stage f)
    (text : g.sources.get stage = some source.text) :
    Wired t g stage f source inputs outputs where
  text      := text
  interface := e.interface
  function  := e.function
  argument  := by simp [e.inputType]
  result    := by simp [e.outputType]
  assigned  := by
    have fields := map_fst_carried (.ofInput stage) (g.model.inputFields f)
    rw [e.before, ← fields, List.map_map, List.map_map, fields]
    rfl
  read _    := e.read graphics
  written _ := e.written graphics
  position  := by
    rintro rfl
    have ⟨s, known, x, mem, first⟩ := admits.vertex rfl
    exact List.mem_filterMap.mpr ⟨_, (e.outgoing known).position x mem first, rfl⟩
  outgoing  := by
    rintro rfl
    have ⟨s, known, _⟩ := admits.vertex rfl
    exact ⟨s, known, e.outgoing known⟩
  incoming  := by
    rintro rfl
    exact e.incoming
  captures  := e.captures_iff

end Exchanges

-- Two stages agree on what travels between them: on the variables, and on the members that they are
-- copied from and to.
structure Agree (vertex fragment : StageSource) (outputs inputs : List InterfaceVariable) :
    Prop where
  declared : inputs = outputs.map fun v => { v with isInput := true }
  tied     : ∀ k member,
    .copy (.global (varyingName k)) (.outputMember member) ∈ vertex.main.after ↔
    .copy (.inputMember member) (.global (varyingName k)) ∈ fragment.main.before

theorem Numbered.declared_eq {outputs inputs : List InterfaceVariable} {builtin builtin' : String}
    {ties ties' : String → String → Prop} (out : Numbered t false fields outputs builtin ties)
    (into : Numbered t true fields inputs builtin' ties') :
    inputs = outputs.map fun v => { v with isInput := true } := by
  refine List.ext_getElem? fun k => ?_
  rw [List.getElem?_map]
  cases known : (travelling fields)[k]?
  case some x =>
    rw [out.declared k x known, into.declared k x known]
    rfl
  case none =>
    have past := List.getElem?_eq_none_iff.mp known
    rw [List.getElem?_eq_none (into.length ▸ past), List.getElem?_eq_none (out.length ▸ past)]
    rfl

theorem inputFields_of_outputStructure? {f' : ShaderFunction} {s : Structure}
    (known : m.outputStructure? f = some s)
    (takes : f'.parameters.map (·.ty.name) = [f.returnType.name]) :
    m.inputFields f' = s.fields := by
  have ⟨q, one, same⟩ := List.map_eq_singleton_iff.mp takes
  rw [Model.outputStructure?] at known
  split at known
  case isTrue  => simp [Model.inputFields, one, same, known]
  case isFalse => cases known

theorem Wired.agree {g : GeneratedSet} {f' : ShaderFunction} {source' : StageSource}
    {inputs' outputs' : List InterfaceVariable} (vertex : Wired t g .vertex f source inputs outputs)
    (fragment : Wired t g .fragment f' source' inputs' outputs')
    (takes : f'.parameters.map (·.ty.name) = [f.returnType.name]) :
    Agree source source' outputs inputs' := by
  have ⟨s, known, out⟩ := vertex.outgoing rfl
  have into := fragment.incoming rfl
  rw [inputFields_of_outputStructure? known takes] at into
  exact ⟨out.declared_eq into, fun k member => (out.tied k member).trans (into.tied k member).symm⟩

end Shading.Glsl

namespace Shading

open Glsl Generation

theorem main_wires_interface (p : Program) (targets : List Target) (l l' : Layouts) (o : Outcome)
    (g : GeneratedSet) (h : generate p targets l = .ok o l') (mem : g ∈ o.sets) :
    ∃ t ∈ targets,
      (∀ stage entry, stage ≠ .compute → g.model.entry? stage = some entry →
        ∃ source inputs outputs, Wired t g stage entry.function source inputs outputs) ∧
      (∀ vertex fragment, g.model.entry? .vertex = some vertex →
        g.model.entry? .fragment = some fragment →
        fragment.function.parameters.map (·.ty.name) = [vertex.function.returnType.name] →
        ∃ source inputs outputs source' inputs' outputs',
          Wired t g .vertex vertex.function source inputs outputs ∧
          Wired t g .fragment fragment.function source' inputs' outputs' ∧
          Agree source source' outputs inputs') := by
  obtain ⟨t, target, each⟩ := exchanges_of_generate h mem
  have wired (stage : Stage) (entry : StageEntry) (graphics : stage ≠ .compute)
      (known : g.model.entry? stage = some entry) :
      ∃ source inputs outputs, Wired t g stage entry.function source inputs outputs := by
    obtain ⟨admits, _, source, inputs, outputs, text, _, e⟩ := each stage entry graphics known
    exact ⟨source, inputs, outputs, e.wired graphics admits text⟩
  refine ⟨t, target, wired, fun vertex fragment known known' takes => ?_⟩
  obtain ⟨source, inputs, outputs, first⟩ := wired .vertex vertex (by simp) known
  obtain ⟨source', inputs', outputs', second⟩ := wired .fragment fragment (by simp) known'
  exact ⟨source, inputs, outputs, source', inputs', outputs', first, second,
    first.agree second takes⟩

theorem main_wires_interface_buoy :
    ∃ o l' g vertex fragment source inputs outputs source' inputs' outputs',
      generate buoy [{}] {} = .ok o l' ∧ g ∈ o.sets ∧ g.model.entry? .vertex = some vertex ∧
      g.model.entry? .fragment = some fragment ∧
      Wired {} g .vertex vertex.function source inputs outputs ∧
      Wired {} g .fragment fragment.function source' inputs' outputs' ∧
      Agree source source' outputs inputs' := by
  obtain ⟨t, target, _, both⟩ := main_wires_interface buoy [{}] {} _ _ _ buoy_generated
    List.mem_cons_self
  cases List.mem_singleton.mp target
  obtain ⟨source, inputs, outputs, source', inputs', outputs', wired⟩ :=
    both (buoyEntry rise) (buoyEntry glow) rfl rfl rfl
  exact ⟨_, _, _, _, _, source, inputs, outputs, source', inputs', outputs', buoy_generated,
    List.mem_cons_self, rfl, rfl, wired⟩

-- A member that is named like the input of main is read from the input, and not from the interface.
theorem buoy_captures :
    ∃ o l' g entry, ∃ source : StageSource, generate buoy [{}] {} = .ok o l' ∧ g ∈ o.sets ∧
      g.model.entry? .vertex = some entry ∧ g.sources.get .vertex = some source.text ∧
      source.text = riseSource ∧ source.main.Captures := by
  obtain ⟨t, target, each⟩ := exchanges_of_generate buoy_generated List.mem_cons_self
  obtain ⟨_, _, source, _, _, text, _, e⟩ := each .vertex (buoyEntry rise) (by simp) rfl
  refine ⟨_, _, _, _, source, buoy_generated, List.mem_cons_self, rfl, text,
    (Option.some.inj text).symm, e.captures_iff.mpr ⟨List.cons_ne_nil _ _, .inr ⟨rfl, ?_⟩⟩⟩
  exact ⟨_, List.mem_cons_self, rfl⟩

end Shading
