import Shading.Proofs.Binding
import Shading.Proofs.Discovery
import Mathlib
/-!
What the generation of a shader set looks at: types that the program mentions.

Among canonical names, it comes to the same whatever other sets have left in the layouts.
-/

namespace Shading

-- The types in the signature of a method, those that its body constructs values of, and those of
-- its variables.
def MethodDecl.types (m : MethodDecl) : List TypeRef :=
  m.parameters.map Parameter.ty ++ [m.returnType] ++ m.body.toList.flatMap fun body =>
    (Stmt.exprsAll body).filterMap Context.constructedType? ++ Stmt.declaredTypesAll body

-- All types that the fields and the methods of a program mention.
def Program.mentionedTypes (p : Program) : List TypeRef :=
  p.fieldTypes ++ p.types.flatMap fun t => t.methods.flatMap MethodDecl.types

variable {p : Program}

theorem Program.mem_mentionedTypes_of_method? {id : MethodId} {m : MethodDecl} {ty : TypeRef}
    (h : p.method? id = some m) (mem : ty ∈ m.types) : ty ∈ p.mentionedTypes := by
  have ⟨t, declared, h⟩ := Option.bind_eq_some_iff.mp h
  refine List.mem_append_right _ (List.mem_flatMap.mpr ⟨t, mem_of_type? declared, ?_⟩)
  exact List.mem_flatMap.mpr ⟨m, List.mem_of_find?_eq_some h, mem⟩

theorem foldlM_invariant {P : β → Prop} {f : β → α → Except ε β} {as : List α} {b b' : β}
    (step : ∀ a ∈ as, ∀ b b', f b a = .ok b' → P b → P b') (h : as.foldlM f b = .ok b')
    (start : P b) : P b' := by
  induction as generalizing b
  case nil =>
    cases h
    exact start
  case cons a as hi =>
    have ⟨b₁, first, rest⟩ := bind_eq_ok_iff.mp h
    have start := step a List.mem_cons_self b b₁ first start
    exact hi (fun a mem => step a (List.mem_cons_of_mem _ mem)) rest start

theorem TypeRef.mem_refs_of_mem_args {ty arg : TypeRef} (h : arg ∈ ty.args) : arg ∈ ty.refs := by
  have mem := mem_refsAll.mpr ⟨arg, h, arg.self_mem_refs⟩
  cases ty
  case void | primitive | struct | object => exact List.mem_cons_of_mem _ mem
  case enum | array => exact List.mem_cons_of_mem _ (List.mem_append_right _ mem)

-- The values of a resource are those of the field, or of an argument of its type.
theorem Resource.mem_refs_of_classify {name : String} {ty value : TypeRef} {kind : ResourceKind}
    (h : classify name ty = .ok (kind, value)) : value ∈ ty.refs := by
  simp only [classify] at h
  split at h
  case h_1 =>
    split at h
    case isFalse => cases h; exact ty.self_mem_refs
    case isTrue =>
      split at h
      case h_1 => cases h
      case h_2 args =>
        cases h
        exact TypeRef.mem_refs_of_mem_args (args ▸ List.mem_cons_self)
  case h_2 =>
    split at h <;> cases h
    exact ty.self_mem_refs

-- The values of bound resources are of types that the fields of the program mention.
theorem Generation.mentioned_of_bindResources {set : ShaderSet} {resources : List Resource}
    (h : bindResources p set = .ok resources) :
    ∀ r ∈ resources, r.valueType ∈ TypeRef.refsAll p.fieldTypes := by
  intro r mem
  have answered : .ok r ∈ Binder.answers {} (set.requests p) :=
    bindResources_eq_ok_iff.mp h ▸ List.mem_map_of_mem mem
  have ⟨q, mem, _, grants⟩ := Binder.exists_grants answered
  have ⟨_, t, known, mem⟩ := ShaderSet.mem_requests.mp mem
  have mem := List.mem_map_of_mem (f := FieldDecl.ty) mem
  exact TypeRef.mem_refsAll.mpr ⟨q.field.ty,
    List.mem_flatMap.mpr ⟨t, Program.mem_of_type? known, mem⟩,
    Resource.mem_refs_of_classify grants.classified⟩

-- A context whose resources and functions are those of the program.
structure Context.Mentioned (p : Program) (c : Context) : Prop where
  resources : ∀ r ∈ c.resources, r.valueType ∈ TypeRef.refsAll p.fieldTypes
  functions : ∀ f ∈ c.functions, ∃ id m, p.method? id = some m ∧ f = .ofDecl id.owner m

namespace Context.Mentioned

variable {c c' : Context} {set : ShaderSet} {ty : TypeRef}

theorem addFunctions {ids : List MethodId} (h : c.Mentioned p) :
    (Generation.addFunctions p c ids).Mentioned p := by
  simp only [Generation.addFunctions]
  induction ids generalizing c
  case nil => exact h
  case cons id ids hi =>
    refine hi ?_
    dsimp only
    split
    case h_2 => exact h
    case h_1 m declared =>
      simp only [addFunction]
      split
      case isTrue => exact h
      case isFalse =>
        refine ⟨h.resources, fun f mem => ?_⟩
        cases List.mem_append.mp mem
        case inl old => exact h.functions f old
        case inr new => exact ⟨id, m, declared, List.mem_singleton.mp new⟩

theorem collectFunctions (h : c.Mentioned p)
    (collected : Generation.collectFunctions p set c = .ok c') : c'.Mentioned p := by
  refine foldlM_invariant (P := Context.Mentioned p) ?_ collected h
  intro (stage, entry) _ c c' h m
  have ⟨functions, _, h⟩ := bind_eq_ok_iff.mp h
  cases h
  exact ⟨m.addFunctions.resources, m.addFunctions.functions⟩

theorem types_eq {id : MethodId} {m : MethodDecl} (found : p.method? id = some m) :
    signatureTypes (.ofDecl id.owner m) ++ bodyTypes p (.ofDecl id.owner m) = m.types := by
  rw [bodyTypes, ShaderFunction.id_ofDecl found, found, Option.bind_some, MethodDecl.types]
  cases m.body <;> simp [signatureTypes, ShaderFunction.ofDecl]

-- Discovery starts from the values that resources keep in memory, and from the collected methods.
theorem mem_touchedTypes (h : c.Mentioned p) : ty ∈ c.touchedTypes p ↔
    (∃ r ∈ c.resources, r.kind.hasMemoryLayout ∧ r.valueType = ty) ∨
    ∃ id m, (c.function? id).isSome ∧ p.method? id = some m ∧ ty ∈ m.types := by
  have resources : ty ∈ c.resourceTypes ↔
      ∃ r ∈ c.resources, r.kind.hasMemoryLayout ∧ r.valueType = ty := by
    simp [resourceTypes, and_assoc]
  have functions : ty ∈ c.functions.flatMap signatureTypes ∨
      ty ∈ c.functions.flatMap (bodyTypes p) ↔
      ∃ f ∈ c.functions, ty ∈ signatureTypes f ++ bodyTypes p f := by
    simp only [List.mem_flatMap, List.mem_append, and_or_left, exists_or]
  rw [Context.touchedTypes, List.mem_append, List.mem_append, or_assoc, resources, functions]
  refine or_congr_right ⟨?_, ?_⟩
  · rintro ⟨f, mem, touched⟩
    obtain ⟨id, m, found, rfl⟩ := h.functions f mem
    have known : (c.function? id).isSome :=
      List.find?_isSome.mpr ⟨_, mem, by simp [ShaderFunction.id_ofDecl found]⟩
    exact ⟨id, m, known, found, types_eq found ▸ touched⟩
  · rintro ⟨id, m, known, found, mem⟩
    obtain ⟨f, there, same⟩ := List.find?_isSome.mp known
    obtain ⟨id', m', found', rfl⟩ := h.functions f there
    have same : id' = id := by simpa [ShaderFunction.id_ofDecl found'] using same
    cases same
    cases found.symm.trans found'
    exact ⟨_, there, types_eq found ▸ mem⟩

theorem touchedTypes (h : c.Mentioned p) (mem : ty ∈ c.touchedTypes p) :
    ty ∈ TypeRef.refsAll p.mentionedTypes := by
  rcases h.mem_touchedTypes.mp mem with ⟨r, bound, _, rfl⟩ | ⟨id, m, _, found, mem⟩
  · have ⟨root, hroot, inside⟩ := TypeRef.mem_refsAll.mp (h.resources r bound)
    exact TypeRef.mem_refsAll.mpr ⟨root, List.mem_append_left _ hroot, inside⟩
  · exact TypeRef.mem_refsAll.mpr
      ⟨ty, Program.mem_mentionedTypes_of_method? found mem, ty.self_mem_refs⟩

end Context.Mentioned

namespace Generation

open Glsl

variable {overrides : List (String × Nat)} {set : ShaderSet} {t : Target} {targets : List Target}
  {sets : List ShaderSet} {r : Registry}

theorem assemble_steady (u : Universe p p.mentionedTypes) :
    (assemble p set t).Steady overrides (Fitting p overrides p.mentionedTypes) := by
  refine (Access.Steady.liftExcept _).bind fun resources bound => ?_
  refine (Access.Steady.liftExcept _).bind fun c collected => ?_
  rw [Access.alone_liftExcept] at bound collected
  have m : Context.Mentioned p { backend := t.name, set := set.name, resources } :=
    ⟨mentioned_of_bindResources bound, nofun⟩
  have m := m.collectFunctions collected
  refine (u.discoverAll_steady c fun ty => m.touchedTypes).bind fun (found, c) _ => ?_
  exact (Access.Steady.liftExcept _).bind fun _ _ => .liftExcept _

theorem generateFor_steady (u : Universe p p.mentionedTypes) :
    (generateFor p set t).Steady overrides (Fitting p overrides p.mentionedTypes) := by
  refine (assemble_steady u).bind fun (emitted, c) _ => ?_
  refine (Access.Steady.liftExcept _).bind fun _ _ => ?_
  exact (Access.Steady.liftExcept _).bind fun _ _ => .pure _

theorem settle_steady {fits : String → Footprint → Prop} {r : Except Error GeneratedSet} :
    (settle set t r).Steady overrides fits := by
  cases r
  case ok => exact .pure _
  case error e =>
    rw [settle]
    split
    case isTrue  => exact .throw _
    case isFalse => exact .pure _

theorem generateSet_steady (u : Universe p p.mentionedTypes) :
    (generateSet p set r targets).Steady overrides (Fitting p overrides p.mentionedTypes) := by
  induction targets generalizing r
  case nil => exact .pure _
  case cons t targets hi =>
    simp only [generateSet]
    split
    case h_1 => exact hi.bind fun _ _ => .pure _
    case h_2 =>
      refine (generateFor_steady u).attempt.bind fun _ _ => ?_
      exact settle_steady.bind fun _ _ => hi.bind fun _ _ => .pure _

theorem generateSets_steady (u : Universe p p.mentionedTypes) :
    (generateSets p targets sets).Steady overrides (Fitting p overrides p.mentionedTypes) := by
  induction sets
  case nil => exact .pure _
  case cons hi => exact (generateSet_steady u).bind fun _ _ => hi.bind fun _ _ => .pure _

end Generation
end Shading
