import Shading.Context.Discovery
import Shading.Proofs.CanonicalNames
import Shading.Proofs.Replay
import Mathlib
/-!
What a context holds after discovery: structures as their declarations describe them, and with each
of them all that its members refer to.
-/

namespace Shading

namespace Context

variable {p : Program} {c c' : Context} {s : Structure} {name : String} {ty : TypeRef}
  {l l' : Layouts} {pending : List TypeRef}

theorem hasStructure_iff : c.hasStructure name ↔ ∃ s ∈ c.structures, s.name = name := by
  simp [hasStructure]

theorem resources_addStructure : (c.addStructure s).resources = c.resources := by
  simp only [addStructure]
  split <;> rfl

theorem mem_addStructure {s' : Structure} (h : s' ∈ (c.addStructure s).structures) :
    s' ∈ c.structures ∨ s' = s := by
  simp only [addStructure] at h
  split at h
  case isTrue  => exact .inl h
  case isFalse => simpa using h

theorem hasStructure_addStructure (h : c.hasStructure name) :
    (c.addStructure s).hasStructure name := by
  have ⟨s', mem, same⟩ := hasStructure_iff.mp h
  simp only [addStructure]
  split
  case isTrue  => exact h
  case isFalse => exact hasStructure_iff.mpr ⟨s', List.mem_append_left _ mem, same⟩

theorem hasStructure_addStructure_self : (c.addStructure s).hasStructure s.name := by
  simp only [addStructure]
  split
  case isTrue h => exact h
  case isFalse  => exact hasStructure_iff.mpr ⟨s, by simp, rfl⟩

theorem exists_structure?_of_hasStructure {m : Model} (built : m.structures = c.structures)
    (h : c.hasStructure name) : ∃ s, m.structure? name = some s := by
  have ⟨s, mem, same⟩ := hasStructure_iff.mp h
  refine Option.isSome_iff_exists.mp (List.find?_isSome.mpr ⟨s, built ▸ mem, ?_⟩)
  simpa using same

theorem structName?_eq_some_iff :
    structName? ty = some name ↔ ∃ args, ty.elementOrSelf = .struct name args := by
  rw [structName?]
  cases ty.elementOrSelf <;> simp [TypeRef.isStruct, TypeRef.name]

theorem name_of_structName? (h : structName? ty = some name) : ty.elementOrSelf.name = name := by
  have ⟨_, element⟩ := structName?_eq_some_iff.mp h
  rw [element]
  rfl

-- If the type refers to a declared structure, the context has that structure.
def Covers (p : Program) (c : Context) (ty : TypeRef) : Prop :=
  ∀ name t, structName? ty = some name → p.type? name = some t → c.hasStructure name

-- The structure is what its declaration describes, on the layouts and on all that grow from them.
def Describes (p : Program) (l : Layouts) (s : Structure) : Prop :=
  ∃ t, p.type? s.name = some t ∧ (Subtype.val <$> Structure.describe p t).Replays s l

theorem Describes.mono (d : Describes p l s) (g : l.Grows l') : Describes p l' s :=
  have ⟨t, found, r⟩ := d
  ⟨t, found, r.mono g⟩

-- What discovery has done to a context and to layouts when it has taken care of all pending types.
structure Discovered (p : Program) (pending : List TypeRef) (c : Context) (l : Layouts)
    (c' : Context) (l' : Layouts) : Prop where
  resources_eq : c'.resources = c.resources
  grows        : l.Grows l'
  kept         : ∀ {name}, c.hasStructure name → c'.hasStructure name
  pending      : ∀ ty ∈ pending, Covers p c' ty
  structures   : ∀ s ∈ c'.structures, s ∈ c.structures ∨
    (Describes p l' s ∧ ∀ f ∈ s.fields, Covers p c' f.ty)

namespace Discovered

theorem nil : Discovered p [] c l c l where
  resources_eq     := rfl
  grows            := .refl l
  kept             := id
  pending          := nofun
  structures _ mem := .inl mem

theorem skip (d : Discovered p pending c l c' l') (covers : Covers p c' ty) :
    Discovered p (ty :: pending) c l c' l' where
  resources_eq := d.resources_eq
  grows        := d.grows
  kept         := d.kept
  structures   := d.structures
  pending      := by
    rintro _ (_ | ⟨_, mem⟩)
    · exact covers
    · exact d.pending _ mem

theorem add {l₁ : Layouts} (g : l.Grows l₁) (described : Describes p l₁ s)
    (d : Discovered p (s.fields.map Field.ty ++ pending) (c.addStructure s) l₁ c' l') :
    Discovered p pending c l c' l' where
  resources_eq := d.resources_eq.trans resources_addStructure
  grows        := g.trans d.grows
  kept h       := d.kept (hasStructure_addStructure h)
  pending _ h  := d.pending _ (List.mem_append_right _ h)
  structures s' mem := by
    cases d.structures s' mem
    case inr new => exact .inr new
    case inl old =>
      rcases mem_addStructure old with old | rfl
      case inl => exact .inl old
      case inr =>
        -- The members of the new structure were pending themselves.
        refine .inr ⟨described.mono d.grows, fun f hf => d.pending _ ?_⟩
        exact List.mem_append_left _ (List.mem_map_of_mem hf)

end Discovered

theorem discovered_of_run (h : (discoverAll p c pending).run l = .ok (.ok (), c') l') :
    Discovered p pending c l c' l' := by
  fun_induction discoverAll p c pending generalizing l
  case case1 =>
    cases h
    exact .nil
  case case2 none hi =>
    refine (hi h).skip fun name t some _ => ?_
    cases none.symm.trans some
  case case3 some has hi =>
    refine (hi h).skip fun name t same _ => ?_
    cases some.symm.trans same
    exact (hi h).kept has
  case case4 some _ undeclared hi =>
    refine (hi h).skip fun name t same found => ?_
    cases some.symm.trans same
    cases undeclared.symm.trans found
  case case5 name some _ t found hi =>
    have ⟨r, l₁, attempted, h⟩ := Access.run_bind_eq_ok h
    rw [Access.run_attempt] at attempted
    injection attempted with returned left
    cases r
    case error => cases h
    case ok d =>
      have run := left ▸ eq_ok_of_outcome returned
      obtain ⟨s, named⟩ := d
      have same : s.name = name := named.trans (Program.name_eq_of_type? found)
      have d := hi s named h
      refine (d.add (Access.grows_of_run run) ⟨t, same ▸ found, ?_⟩).skip ?_
      · exact (describe_replayable.of_run run).map Subtype.val
      · intro name' _ some' _
        cases some.symm.trans some'
        exact d.kept (same ▸ hasStructure_addStructure_self)

-- Discovery that has succeeded while others use the layouts does so again on what is left.
theorem discoverAll_replays (h : (discoverAll p c pending).Ends l (.ok (.ok (), c')) l') :
    (discoverAll p c pending).Replays (.ok (), c') l' := by
  fun_induction discoverAll p c pending generalizing l
  case case1 =>
    cases h.of_done
    exact fun _ _ => rfl
  case case2 hi | case3 hi | case4 hi => exact hi h
  case case5 t _ hi =>
    obtain ⟨r, l₁, attempted, rest⟩ := Access.Ends.of_bind_ok h
    obtain ⟨_, ⟨⟩, described⟩ := attempted.of_attempt
    cases r
    case error => cases rest.of_done
    case ok d =>
      intro l₂ grows
      have again := describe_replayable _ _ _ described l₂ (rest.grows.trans grows)
      have attempted : (Structure.describe p t).attempt.run l₂ = .ok (.ok d) l₂ := by
        rw [Access.run_attempt, again]
        rfl
      exact (Access.run_bind_of_ok attempted).trans (hi d.val d.property rest l₂ grows)

end Context

namespace Universe

open Context

variable {p : Program} {c : Context} {name : String} {ty : TypeRef} {pending : List TypeRef}
  {overrides : List (String × Nat)} {types : List TypeRef} {t : TypeDecl}
  {args : List TypeRef}

-- The reference that leads to a declaration need not be the declaration's own.
theorem describe_steady (u : Universe p types) (found : p.type? name = some t)
    (mem : .struct name args ∈ TypeRef.refsAll types) :
    (Structure.describe p t).Steady overrides (Fitting p overrides types) := by
  refine describe_of_parts Access.Steady.compositional (fun f hf => ?_) ?_
  · exact u.compute_steady (u.member_mem (Program.mem_of_type? found) hf) (by simp)
  · have shape : t.structRef.shape = (TypeRef.struct name args).shape := by
      rw [TypeDecl.structRef, Program.name_eq_of_type? found]
      rfl
    rw [compute_congr shape]
    exact u.compute_steady mem (by simp)

theorem struct_mem_of_structName? (h : structName? ty = some name)
    (mem : ty ∈ TypeRef.refsAll types) : ∃ args, .struct name args ∈ TypeRef.refsAll types := by
  have ⟨args, element⟩ := structName?_eq_some_iff.mp h
  exact ⟨args, element ▸ Universe.elementOrSelf_mem mem⟩

-- Discovery leads from types in question to types in question.
theorem discoverAll_steady (u : Universe p types) (c : Context)
    (mem : ∀ ty ∈ pending, ty ∈ TypeRef.refsAll types) :
    (discoverAll p c pending).Steady overrides (Fitting p overrides types) := by
  fun_induction discoverAll p c pending
  case case1 => exact .pure _
  case case2 hi | case3 hi | case4 hi => exact hi fun ty h => mem ty (List.mem_cons_of_mem _ h)
  case case5 name some _ t found hi =>
    have ⟨args, struct⟩ := struct_mem_of_structName? some (mem _ List.mem_cons_self)
    refine (u.describe_steady found struct).attempt.bind fun r h => ?_
    rw [Access.alone_attempt] at h
    cases r
    case error => exact .pure _
    case ok d =>
      refine hi d.val d.property fun ty h' => ?_
      cases List.mem_append.mp h'
      case inr h' => exact mem ty (List.mem_cons_of_mem _ h')
      case inl h' =>
        rw [(describe_ensures.of_alone (Except.ok.inj h)).left] at h'
        have ⟨f, hf, same⟩ := List.mem_map.mp h'
        exact same ▸ u.fields t (Program.mem_of_type? found) f hf

end Universe
end Shading
