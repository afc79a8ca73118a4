import Shading.Proofs.StageEntries
import Mathlib
/-!
A stage lists exactly the resources that its functions refer to, and is marked for storage and
multisampling exactly if it lists a resource that needs it.
-/

namespace Shading

open Glsl

variable {p : Program} {resources : List Resource} {c : Bool} {r : Resource} {e : Expr}
  {id : MethodId} {flag : Flag}

-- No two resources share a name, so an owner and a name lead to one of them.
theorem find?_resource_eq_some_iff {owner name : String}
    (distinct : (resources.map Resource.name).Nodup) :
    resources.find? (fun r => r.owner == owner && r.name == name) = some r ↔
    r ∈ resources ∧ r.owner = owner ∧ r.name = name := by
  constructor
  · intro found
    exact ⟨List.mem_of_find?_eq_some found, by simpa using List.find?_some found⟩
  · rintro ⟨mem, rfl, rfl⟩
    cases found : resources.find? fun r' => r'.owner == r.owner && r'.name == r.name
    case none => simpa using List.find?_eq_none.mp found r mem
    case some other =>
      have same : other.owner = r.owner ∧ other.name = r.name := by
        simpa using List.find?_some found
      have mem' := List.mem_of_find?_eq_some found
      rw [List.inj_on_of_nodup_map distinct mem' mem same.2]

theorem Expr.denotes_iff (distinct : (resources.map Resource.name).Nodup) :
    e.Denotes p resources c r ↔ r ∈ resources ∧ e.Refers p c r.owner r.name := by
  constructor
  · rintro ⟨owner, name, refers, found⟩
    obtain ⟨mem, rfl, rfl⟩ := (find?_resource_eq_some_iff distinct).mp found
    exact ⟨mem, refers⟩
  · intro ⟨mem, refers⟩
    exact ⟨_, _, refers, (find?_resource_eq_some_iff distinct).mpr ⟨mem, rfl, rfl⟩⟩

theorem Program.uses_iff (distinct : (resources.map Resource.name).Nodup) (mem : r ∈ resources) :
    p.Uses resources id r.name ↔ ∃ c e, p.Renders id c e ∧ e.Refers p c r.owner r.name := by
  refine exists_congr fun c => exists_congr fun e => and_congr_right fun _ => ?_
  constructor
  · intro ⟨r', denotes, same⟩
    have ⟨mem', refers⟩ := (Expr.denotes_iff distinct).mp denotes
    rwa [List.inj_on_of_nodup_map distinct mem' mem same] at refers
  · intro refers
    exact ⟨r, (Expr.denotes_iff distinct).mpr ⟨mem, refers⟩, rfl⟩

-- The flags that resources set.
def Flag.ofResources : List Flag := [.structuredBuffer, .rwTexture2D, .texture2DMS]

-- No builtin variable and no intrinsic sets a flag of the resources.
theorem Expr.touches_iff_of_mem_ofResources (resourceFlag : flag ∈ Flag.ofResources) :
    e.Touches p resources c flag ↔
    ∃ r, e.Denotes p resources c r ∧ Emitter.resourceFlag? r.kind = some flag := by
  constructor
  · intro touches
    cases touches
    case builtin builtin _ _ =>
      cases builtin <;> simp [Flag.ofResources, BuiltinVariable.flag] at resourceFlag
    case resource denotes sets => exact ⟨_, denotes, sets⟩
    case atomic => simp [Flag.ofResources] at resourceFlag
  · rintro ⟨_, denotes, sets⟩
    exact .resource denotes sets

open Classical in
theorem stage_resources_exact (p : Program) (targets : List Target) (l l' : Layouts) (o : Outcome)
    (g : GeneratedSet) (stage : Stage) (entry : StageEntry)
    (generated : generate p targets l = .ok o l') (mem : g ∈ o.sets)
    (known : g.model.entry? stage = some entry) :
    (entry.resources = g.model.resources.filter fun r => ∃ id c e,
      CallGraph.Reaches p entry.function.id id ∧ p.Renders id c e ∧ e.Refers p c r.owner r.name) ∧
    ∀ flag ∈ Flag.ofResources, entry.function.usage.has flag ↔
      ∃ r ∈ entry.resources, Emitter.resourceFlag? r.kind = some flag := by
  have ⟨_, _, _, _, compiled, _, _⟩ := Generation.compiled_of_generate generated mem known
  have reaches := (CallGraph.order_orders compiled.ordered).mem_iff
  have distinct := compiled.distinct
  constructor
  · rw [compiled.resources]
    refine List.filter_congr fun r mem => ?_
    simp only [Program.uses_iff distinct mem, reaches, decide_eq_decide]
    exact ⟨fun ⟨id, r, c, e, h⟩ => ⟨id, c, e, r, h⟩, fun ⟨id, c, e, r, h⟩ => ⟨id, r, c, e, h⟩⟩
  · intro flag resourceFlag
    simp only [compiled.flags, compiled.resources, List.mem_filter, decide_eq_true_eq]
    constructor
    · intro ⟨id, mem, c, e, renders, touches⟩
      have ⟨r, denotes, sets⟩ := (Expr.touches_iff_of_mem_ofResources resourceFlag).mp touches
      have ⟨there, _⟩ := (Expr.denotes_iff distinct).mp denotes
      exact ⟨r, ⟨there, id, mem, c, e, renders, r, denotes, rfl⟩, sets⟩
    · intro ⟨r, ⟨there, id, mem, c, e, renders, r', denotes, same⟩, sets⟩
      have ⟨there', _⟩ := (Expr.denotes_iff distinct).mp denotes
      cases List.inj_on_of_nodup_map distinct there' there same
      exact ⟨id, mem, c, e, renders, .resource denotes sets⟩

open Classical in
theorem stage_resources_exact_lantern :
    ∃ o l' g entry, generate lantern [{}] {} = .ok o l' ∧ g ∈ o.sets ∧
      g.model.entry? .fragment = some entry ∧
      entry.resources = [lanternGlass] ∧ entry.function.usage.has .rwTexture2D ∧
      ¬entry.function.usage.has .structuredBuffer ∧
      ∃ id c e, CallGraph.Reaches lantern entry.function.id id ∧ lantern.Renders id c e ∧
        e.Refers lantern c "Lantern" "glass" := by
  have ⟨_, _, o, l', g, entry, _, _, generated, mem, known, _, _, _, glass, _⟩ :=
    lantern_generated
  have ⟨resources, flags⟩ :=
    stage_resources_exact lantern [{}] {} l' o g .fragment entry generated mem known
  simp only [glass, List.mem_singleton, exists_eq_left] at flags
  have used : lanternGlass ∈ entry.resources := by simp [glass]
  rw [resources, List.mem_filter, decide_eq_true_eq] at used
  refine ⟨o, l', g, entry, generated, mem, known, glass, ?_, ?_, used.2⟩
  · exact (flags _ (by decide)).mpr rfl
  · exact fun has => absurd ((flags _ (by decide)).mp has) (by decide)

end Shading
