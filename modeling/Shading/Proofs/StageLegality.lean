import Shading.Proofs.StageEntries
import Shading.Proofs.Validation
import Mathlib
/-!
The functions of a stage use builtins only where the stage allows it, and the entry of the stage is
marked with exactly the builtin variables that they read.

Emission checks each use in each stage, so the check of the finished model finds nothing.
-/

namespace Shading

open Glsl

variable {p : Program} {resources : List Resource} {c : Bool} {e : Expr} {stage : Stage}
  {builtin : BuiltinVariable} {entry : StageEntry} {f : ShaderFunction}

namespace BuiltinVariable

theorem name_of_parse? {name : String} (h : parse? name = some builtin) : builtin.name = name := by
  simpa using List.find?_some h

theorem parse?_name (builtin : BuiltinVariable) : parse? builtin.name = some builtin := by
  cases builtin <;> decide

theorem flag_injective : Function.Injective flag := by
  intro a b
  cases a <;> cases b <;> simp [flag]

theorem resourceFlag?_ne_flag (kind : ResourceKind) (builtin : BuiltinVariable) :
    Emitter.resourceFlag? kind ≠ some builtin.flag := by
  cases kind <;> cases builtin <;> simp [Emitter.resourceFlag?, flag]

end BuiltinVariable

theorem Expr.touches_flag_iff : e.Touches p resources c builtin.flag ↔ e.Builtin builtin.name := by
  constructor
  · generalize same : builtin.flag = flag
    intro touches
    cases touches
    case builtin h parsed =>
      rwa [BuiltinVariable.flag_injective same, BuiltinVariable.name_of_parse? parsed]
    case resource sets => exact absurd (same ▸ sets) (builtin.resourceFlag?_ne_flag _)
    case atomic        => cases builtin <;> cases same
  · exact fun h => .builtin h builtin.parse?_name

def Error.IsOutsideStage (e : Error) : Prop :=
  ∃ name stage allowed location, e = .stage (.builtinOutsideStage name stage allowed) location

theorem Error.isOutsideStage_atMost : Model.AtMostOutside IsOutsideStage where
  stage := by
    rintro _ _ other ⟨name, stage, allowed, _, ⟨⟩⟩
    exact other name stage allowed rfl
  resource _ _ := nofun

theorem Model.checkBuiltins_excludes
    (allowed : ∀ builtin : BuiltinVariable, f.usage.has builtin.flag →
      builtin.stages.allows stage) :
    Excludes Error.IsOutsideStage (checkBuiltins stage f) := by
  refine .forM fun builtin _ => ?_
  split
  case isFalse => exact .ok
  case isTrue outside =>
    simp only [Bool.and_eq_true, Bool.not_eq_true'] at outside
    exact absurd (allowed builtin outside.1) (by simp [outside.2])

namespace Generation

variable {t : Target} {fs : List EmittedFunction} {id : MethodId}
  {emitted : List (Stage × List EmittedFunction)}

theorem Compiled.legal (compiled : Compiled p t resources stage entry fs)
    (mem : id ∈ entry.functions) (renders : p.Renders id c e) : e.Legal p stage := by
  have ⟨_, _, emits⟩ := compiled.emitted.exists_function mem
  exact emits.legal c e renders

theorem Compiled.has_flag_iff (compiled : Compiled p t resources stage entry fs) :
    entry.function.usage.has builtin.flag ↔
    ∃ id ∈ entry.functions, ∃ c e, p.Renders id c e ∧ e.Builtin builtin.name := by
  simp only [compiled.flags, Program.Touches, Expr.touches_flag_iff]

theorem Compiled.allows (compiled : Compiled p t resources stage entry fs)
    (has : entry.function.usage.has builtin.flag) : builtin.stages.allows stage := by
  have ⟨id, mem, c, e, renders, reads⟩ := compiled.has_flag_iff.mp has
  have ⟨other, parsed, allowed⟩ := (compiled.legal mem renders).builtin _ reads
  cases builtin.parse?_name.symm.trans parsed
  exact allowed

theorem Assembled.validate_excludes {set : ShaderSet} {c : Context}
    (assembled : Assembled p set t emitted c) :
    Excludes Error.IsOutsideStage c.build.validate := by
  refine Model.validate_excludes Error.isOutsideStage_atMost fun stage entry known => ?_
  obtain ⟨_, _, compiled⟩ := assembled.compiled known
  exact Model.checkBuiltins_excludes fun builtin has => compiled.allows has

end Generation

theorem builtins_legal_before_validation (p : Program) :
    (∀ targets l l' o g stage entry, generate p targets l = .ok o l' → g ∈ o.sets →
      g.model.entry? stage = some entry →
      (∀ id c e, CallGraph.Reaches p entry.function.id id → p.Renders id c e → e.Legal p stage) ∧
      ∀ builtin : BuiltinVariable, entry.function.usage.has builtin.flag ↔
        ∃ id c e, CallGraph.Reaches p entry.function.id id ∧ p.Renders id c e ∧
          e.Builtin builtin.name) ∧
    ∀ set t l emitted c l', (Generation.assemble p set t).run l = .ok (emitted, c) l' →
      ∀ name stage allowed location,
        c.build.validate ≠ .error (.stage (.builtinOutsideStage name stage allowed) location) := by
  constructor
  · intro targets l l' o g stage entry generated mem known
    have ⟨_, _, _, _, compiled, _, _⟩ := Generation.compiled_of_generate generated mem known
    have reaches := (CallGraph.order_orders compiled.ordered).mem_iff
    refine ⟨fun id c e h => compiled.legal ((reaches id).mpr h), fun builtin => ?_⟩
    simp only [compiled.has_flag_iff, reaches]
    exact ⟨fun ⟨id, r, c, e, h⟩ => ⟨id, c, e, r, h⟩, fun ⟨id, c, e, r, h⟩ => ⟨id, r, c, e, h⟩⟩
  · intro set t l emitted c l' run name stage allowed location failed
    have assembled := (Generation.assemble_ensures p set t).of_run run
    exact assembled.validate_excludes _ failed ⟨name, stage, allowed, location, rfl⟩

theorem builtins_legal_before_validation_lantern :
    (∃ o l' g entry id c e, generate lantern [{}] {} = .ok o l' ∧ g ∈ o.sets ∧
      g.model.entry? .compute = some entry ∧ entry.function.usage.has .dispatchThreadId ∧
      CallGraph.Reaches lantern entry.function.id id ∧ lantern.Renders id c e ∧
      e.Builtin "DispatchThreadID" ∧ e.Legal lantern .compute) ∧
    ∃ emitted c l', (Generation.assemble lantern lanternSet {}).run {} = .ok (emitted, c) l' ∧
      ∀ name stage allowed location,
        c.build.validate ≠ .error (.stage (.builtinOutsideStage name stage allowed) location) := by
  have ⟨emitted, c, o, l', g, _, entry, assembled, generated, mem, _, known, _, _, _, has, _⟩ :=
    lantern_generated
  have ⟨stages, valid⟩ := builtins_legal_before_validation lantern
  have ⟨legal, flags⟩ := stages [{}] {} l' o g .compute entry generated mem known
  have ⟨id, ctor, e, reached, renders, reads⟩ := (flags .dispatchThreadId).mp has
  exact ⟨⟨o, l', g, entry, id, ctor, e, generated, mem, known, has, reached, renders, reads,
    legal id ctor e reached renders⟩, emitted, c, l', assembled,
    valid lanternSet {} {} emitted c l' assembled⟩

end Shading
