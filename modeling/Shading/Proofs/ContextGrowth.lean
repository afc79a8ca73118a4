import Shading.Proofs.StageCoverage
import Shading.Proofs.StructureDiscovery
import Mathlib
/-!
What becomes of a context under the changes that are made to it: it only ever grows.

Structures and resources are added at the end, and functions keep their places while more flags are
set on them. No name of a structure and no identity of a function is recorded twice.
-/

namespace Shading

-- The function, marked with what it has been seen to touch since.
def ShaderFunction.Gains (f g : ShaderFunction) : Prop :=
  ∃ usage, g = f.mark usage

namespace ShaderFunction.Gains

variable {f g h : ShaderFunction} {flag : Flag}

theorem refl (f : ShaderFunction) : f.Gains f := by
  refine ⟨.empty, ?_⟩
  simp [mark, Usage.union, Usage.empty]

theorem trans (first : f.Gains g) (second : g.Gains h) : f.Gains h := by
  obtain ⟨usage, rfl⟩ := first
  obtain ⟨usage', rfl⟩ := second
  refine ⟨usage.union usage', ?_⟩
  simp [mark, Usage.union, BitVec.or_assoc]

theorem id_eq (gains : f.Gains g) : g.id = f.id := by
  obtain ⟨_, rfl⟩ := gains
  rfl

theorem has (gains : f.Gains g) (set : f.usage.has flag) : g.usage.has flag := by
  obtain ⟨_, rfl⟩ := gains
  simp [mark, set]

end ShaderFunction.Gains

namespace Context

variable {p : Program} {c c' c'' : Context} {s : Structure} {f : ShaderFunction} {r : Resource}
  {id : MethodId} {usage : Usage} {name : String} {l : Layouts} {pending : List TypeRef}

def recorded? (c : Context) (name : String) : Option Structure :=
  c.structures.find? (·.name == name)

-- All that the one context holds is in the other, and in the same place.
structure Extends (c c' : Context) : Prop where
  backend    : c'.backend = c.backend
  set        : c'.set = c.set
  structures : c.structures <+: c'.structures
  resources  : c.resources <+: c'.resources
  functions  : ∀ (i : Nat) (f : ShaderFunction), c.functions[i]? = some f →
    ∃ g, c'.functions[i]? = some g ∧ f.Gains g

namespace Extends

theorem refl (c : Context) : c.Extends c where
  backend           := rfl
  set               := rfl
  structures        := List.prefix_rfl
  resources         := List.prefix_rfl
  functions _ f mem := ⟨f, mem, .refl f⟩

theorem trans (first : c.Extends c') (second : c'.Extends c'') : c.Extends c'' where
  backend           := second.backend.trans first.backend
  set               := second.set.trans first.set
  structures        := first.structures.trans second.structures
  resources         := first.resources.trans second.resources
  functions i f mem := by
    have ⟨g, mem, gains⟩ := first.functions i f mem
    have ⟨h, mem, gains'⟩ := second.functions i g mem
    exact ⟨h, mem, gains.trans gains'⟩

-- The first structure of a name stays the first.
theorem recorded?_eq (e : c.Extends c') (known : c.recorded? name = some s) :
    c'.recorded? name = some s := by
  obtain ⟨later, structures⟩ := e.structures
  rw [recorded?, ← structures, List.find?_append]
  exact Option.or_eq_some_iff.mpr (.inl known)

end Extends

theorem recorded?_addStructure (c : Context) (s : Structure) :
    (c.addStructure s).recorded? s.name = some ((c.recorded? s.name).getD s) := by
  have known_iff : c.hasStructure s.name = (c.recorded? s.name).isSome :=
    List.isSome_find?.symm
  rw [addStructure, known_iff]
  cases known : c.recorded? s.name
  case some => exact known
  case none =>
    rw [recorded?] at known
    simp [recorded?, known]

-- Whoever is named in the context is named once.
structure Distinct (c : Context) : Prop where
  structures : (c.structures.map Structure.name).Nodup
  functions  : c.functionIds.Nodup

theorem Extends.function?_gains (e : c.Extends c') (distinct : c'.Distinct)
    (known : c.function? id = some f) : ∃ g, c'.function? id = some g ∧ f.Gains g := by
  have named : f.id = id := by simpa using List.find?_some known
  obtain ⟨i, there⟩ := List.mem_iff_getElem?.mp (List.mem_of_find?_eq_some known)
  obtain ⟨g, there, gains⟩ := e.functions i f there
  refine ⟨g, ?_, gains⟩
  rw [function?, ← named, ← gains.id_eq]
  exact Program.find?_key_of_mem distinct.functions (List.mem_of_getElem? there)

theorem functions_addStructure : (c.addStructure s).functions = c.functions := by
  rw [addStructure]
  split <;> rfl

theorem structures_addFunction : (c.addFunction f).structures = c.structures := by
  rw [addFunction]
  split <;> rfl

theorem resources_addFunction : (c.addFunction f).resources = c.resources := by
  rw [addFunction]
  split <;> rfl

namespace Distinct

variable (d : c.Distinct)

include d

theorem addStructure (s : Structure) : (c.addStructure s).Distinct where
  structures := nodup_addStructure d.structures
  functions  := by
    rw [functionIds, functions_addStructure]
    exact d.functions

theorem addFunction (f : ShaderFunction) : (c.addFunction f).Distinct where
  structures := by
    rw [structures_addFunction]
    exact d.structures
  functions  := nodup_addFunction f d.functions

theorem mark (id : MethodId) (usage : Usage) : (c.mark id usage).Distinct where
  structures := d.structures
  functions  := by
    rw [functionIds, Context.mark, map_id_markFirst]
    exact d.functions

end Distinct

theorem addStructure_extends (c : Context) (s : Structure) : c.Extends (c.addStructure s) := by
  rw [addStructure]
  split
  case isTrue  => exact .refl c
  case isFalse => exact { Extends.refl c with structures := List.prefix_append .. }

theorem addResource_extends (c : Context) (r : Resource) : c.Extends (c.addResource r) :=
  { Extends.refl c with resources := List.prefix_append .. }

theorem addFunction_extends (c : Context) (f : ShaderFunction) : c.Extends (c.addFunction f) := by
  rw [addFunction]
  split
  case isTrue => exact .refl c
  case isFalse =>
    refine { Extends.refl c with functions := fun i g there => ⟨g, ?_, .refl g⟩ }
    exact List.getElem?_append_left (List.getElem?_eq_some_iff.mp there).choose ▸ there

theorem markFirst_gains (id : MethodId) (usage : Usage) (fs : List ShaderFunction) (i : Nat)
    (there : fs[i]? = some f) : ∃ g, (markFirst id usage fs)[i]? = some g ∧ f.Gains g := by
  induction fs generalizing i
  case nil => cases there
  case cons first fs hi =>
    rw [markFirst]
    cases i
    case zero =>
      cases there
      split
      case isTrue  => exact ⟨_, rfl, usage, rfl⟩
      case isFalse => exact ⟨_, rfl, .refl _⟩
    case succ i =>
      split
      case isTrue  => exact ⟨f, there, .refl f⟩
      case isFalse => exact hi i there

theorem mark_extends (c : Context) (id : MethodId) (usage : Usage) :
    c.Extends (c.mark id usage) :=
  { Extends.refl c with functions := fun i _ => markFirst_gains id usage c.functions i }

theorem setStage_extends (c : Context) (stage : Stage) (usage : StageUsage) :
    c.Extends (c.setStage stage usage) :=
  { Extends.refl c with }

-- Discovery has to do with structures only.
theorem discoverAll_extends (p : Program) (c : Context) (pending : List TypeRef) :
    (discoverAll p c pending).Ensures fun r =>
      c.Extends r.2 ∧ r.2.resources = c.resources ∧ r.2.functions = c.functions := by
  fun_induction discoverAll p c pending
  case case1 c => exact ⟨.refl c, rfl, rfl⟩
  case case2 hi | case3 hi | case4 hi => exact hi
  case case5 c _ _ _ _ _ _ _ hi =>
    refine Access.Ensures.bind (.intro fun _ => trivial) fun r _ => ?_
    cases r
    case error => exact ⟨.refl c, rfl, rfl⟩
    case ok d =>
      refine (hi d.val d.property).mono ?_
      rintro r ⟨later, resources, functions⟩
      exact ⟨(c.addStructure_extends d.val).trans later, resources.trans resources_addStructure,
        functions.trans functions_addStructure⟩

-- The changes that a context in a registry undergoes. Discovery may find any layouts.
inductive Change where
  | addStructure (s : Structure)
  | addFunction (f : ShaderFunction)
  | addResource (r : Resource)
  | mark (id : MethodId) (usage : Usage)
  | setStage (stage : Stage) (usage : StageUsage)
  | discover (p : Program) (l : Layouts) (ty : TypeRef)
  | discoverStructures (p : Program) (l : Layouts)

namespace Change

-- Runs on layouts as well, which are of no concern afterwards.
def onLayouts (l : Layouts) (x : EStateM Error (Context × Layouts) Unit) :
    EStateM Error Context Unit := fun c =>
  match x (c, l) with
  | .ok a left    => .ok a left.1
  | .error e left => .error e left.1

def make : Change → EStateM Error Context Unit
  | addStructure s         => modify (·.addStructure s)
  | addFunction f          => modify (·.addFunction f)
  | addResource r          => modify (·.addResource r)
  | mark id usage          => modify (·.mark id usage)
  | setStage stage usage   => modify (·.setStage stage usage)
  | discover p l ty        => onLayouts l (Context.discover p ty)
  | discoverStructures p l => onLayouts l (Context.discoverStructures p)

-- The resource that the change records.
def resource? : Change → Option Resource
  | addResource r => some r
  | _             => none

-- What a change does, also when it fails.
structure Preserves (change : Change) (c c' : Context) : Prop where
  grows     : c.Extends c'
  distinct  : c.Distinct → c'.Distinct
  resources : c'.resources = c.resources ++ change.resource?.toList

theorem discovering_preserves {change : Change} (silent : change.resource? = none) :
    change.Preserves c (leftover (discovering p pending (c, l))).1 := by
  have run := run_discoverAll p c pending l
  have ⟨grows, resources, functions⟩ := (discoverAll_extends p c pending).of_run run
  refine ⟨grows, fun distinct => ⟨?_, ?_⟩, ?_⟩
  · exact (discoverAll_nodup p pending distinct.structures).of_run run
  · rw [functionIds, functions]
    exact distinct.functions
  · rw [resources, silent, Option.toList_none, List.append_nil]

theorem leftover_onLayouts {x : EStateM Error (Context × Layouts) Unit} :
    leftover (onLayouts l x c) = (leftover (x (c, l))).1 := by
  rw [onLayouts]
  cases x (c, l) <;> rfl

theorem make_preserves (change : Change) (c : Context) :
    change.Preserves c (leftover (change.make c)) := by
  have silent {c' : Context} (same : c'.resources = c.resources) :
      c'.resources = c.resources ++ [] :=
    same.trans (List.append_nil _).symm
  cases change
  case addStructure s =>
    exact ⟨c.addStructure_extends s, (·.addStructure s), silent resources_addStructure⟩
  case addFunction f =>
    exact ⟨c.addFunction_extends f, (·.addFunction f), silent resources_addFunction⟩
  case addResource r =>
    exact ⟨c.addResource_extends r, fun d => ⟨d.structures, d.functions⟩, rfl⟩
  case mark id usage =>
    exact ⟨c.mark_extends id usage, (·.mark id usage), silent rfl⟩
  case setStage stage usage =>
    exact ⟨c.setStage_extends stage usage, fun d => ⟨d.structures, d.functions⟩, silent rfl⟩
  case discover p l ty =>
    rw [make, leftover_onLayouts]
    exact discovering_preserves rfl
  case discoverStructures p l =>
    rw [make, leftover_onLayouts]
    exact discovering_preserves rfl

end Change
end Context
end Shading
