import Shading.Proofs.StructureDiscovery
import Shading.Proofs.StructurePacking
import Mathlib
/-!
The order of the structures of a model, and why the models of programs can be ordered.

The order has the first structure of each name once. Each of them follows those that it holds if
none holds itself, which is so for all structures that are collected from a program: a structure
that holds itself has no footprint, and a structure without a footprint is not collected.
-/

namespace Shading

open Context

-- Contexts, with the layouts that they share, in which the structures of a model are collected.
-- What is asked for is among the types in question. Anything but the structures may be changed in
-- between, and discovery goes on from wherever it has failed.
inductive Building (p : Program) (types : List TypeRef) (settings : List (String × Nat)) :
    Context → Layouts → Prop
  | start {c} : (c.structures = []) → Building p types settings c (.configured settings)
  | change {c c' l} : (Building p types settings c l) → (c'.structures = c.structures) →
    Building p types settings c' l
  | query {c l} {q : Query} : (Building p types settings c l) →
    (∀ ty ∈ q.types, ty ∈ TypeRef.refsAll types) →
    Building p types settings c (leftover (q.ask p l))
  | describe {c l l' t s} : (Building p types settings c l) → (t ∈ p.types) →
    (t.structRef ∈ TypeRef.refsAll types) → (Structure.ofDecl p t l = .ok s l') →
    Building p types settings (c.addStructure s) l'
  | discover {c c' l l' ty} : (Building p types settings c l) → (ty ∈ TypeRef.refsAll types) →
    (leftover (discover p ty (c, l)) = (c', l')) → Building p types settings c' l'
  | discoverStructures {c c' l l'} : (Building p types settings c l) →
    (∀ ty ∈ c.touchedTypes p, ty ∈ TypeRef.refsAll types) →
    (leftover (discoverStructures p (c, l)) = (c', l')) → Building p types settings c' l'

variable {p : Program} {types pending : List TypeRef} {settings : List (String × Nat)}
  {c c' : Context} {l l' : Layouts} {t : TypeDecl} {s : Structure}

-- The layouts are coherent, and no structure is embedded in itself.
structure Collects (p : Program) (types : List TypeRef) (c : Context) (l : Layouts) : Prop where
  coherent : l.Coherent p types
  grounded : ∀ s ∈ c.structures, s.Grounded p types

namespace Collects

variable (h : Collects p types c l) (u : Universe p types)

include h u

theorem addStructure (declared : t ∈ p.types) (mem : t.structRef ∈ TypeRef.refsAll types)
    (described : Structure.ofDecl p t l = .ok s l') : Collects p types (c.addStructure s) l' := by
  have found : p.type? t.name = some t := Program.type?_eq_some_iff.mpr ⟨declared, rfl⟩
  obtain ⟨d, _, run, made⟩ := Access.run_bind_eq_ok described
  cases made
  obtain ⟨left, grounded⟩ := u.grounded_of_run h.coherent found mem run
  refine ⟨left, fun s' here => ?_⟩
  rcases mem_addStructure here with old | rfl
  case inl => exact h.grounded s' old
  case inr => exact grounded

theorem discovering (known : ∀ ty ∈ pending, ty ∈ TypeRef.refsAll types)
    (found : leftover (discovering p pending (c, l)) = (c', l')) : Collects p types c' l' := by
  have run := run_discoverAll p c pending l
  rw [found] at run
  obtain ⟨left, each⟩ := u.grounded_of_run_discoverAll h.coherent known run
  refine ⟨left, fun s mem => ?_⟩
  rcases each s mem with old | new
  case inl => exact h.grounded s old
  case inr => exact new

theorem query {q : Query} (mem : ∀ ty ∈ q.types, ty ∈ TypeRef.refsAll types) :
    Collects p types c (leftover (q.ask p l)) := by
  have left := Query.accesses_coherent u mem l h.coherent
  rw [Query.run_accesses] at left
  exact ⟨left, h.grounded⟩

end Collects

theorem Building.collects (b : Building p types settings c l) (u : Universe p types) :
    Collects p types c l := by
  induction b
  case start empty =>
    refine ⟨?_, by simp [empty]⟩
    have left : (Query.leave p [] (.configured settings)).Coherent p types :=
      Query.leave_coherent u settings (by simp)
    exact left
  case change same hi                  => exact ⟨hi.coherent, same ▸ hi.grounded⟩
  case query mem hi                    => exact hi.query u mem
  case describe declared mem made hi   => exact hi.addStructure u declared mem made
  case discover mem found hi           => exact hi.discovering u (by simpa using mem) found
  case discoverStructures mem found hi => exact hi.discovering u mem found

theorem Building.acyclic (b : Building p types settings c l) (u : Universe p types) :
    c.build.Acyclic :=
  u.acyclic_of_grounded (b.collects u).grounded

open Model

-- In any model, the order has the first structure of each name and no other, each of them once. If
-- no structure holds itself, each comes after those that its members hold, and none does in a model
-- that is built from a program with canonical names.
theorem structures_ordered_by_containment (m : Model) :
    (m.dependencyOrder.map Structure.name).Nodup ∧
    (∀ s, s ∈ m.dependencyOrder ↔
      ∃ before after, m.structures = before ++ s :: after ∧ s.name ∉ before.map Structure.name) ∧
    (m.Acyclic → ∀ earlier s later, m.dependencyOrder = earlier ++ s :: later →
      ∀ f ∈ s.fields, ∀ s', m.structure? f.elementType.name = some s' → s' ∈ earlier) ∧
    ∀ (p : Program) (types : List TypeRef) (settings : List (String × Nat)) (c : Context)
      (l : Layouts), Canonical (p.fieldTypes ++ types) →
      Building p (p.fieldTypes ++ types) settings c l → m = c.build → m.Acyclic := by
  refine ⟨m.nodup_dependencyOrder, fun s => ?first, ?sorted, ?built⟩
  case first =>
    rw [mem_dependencyOrder, structure?, List.find?_eq_some_iff_append]
    simp
  case sorted =>
    intro acyclic earlier s later split f field s' found
    have mem : s ∈ m.dependencyOrder := split ▸ List.mem_append_right _ List.mem_cons_self
    have contains : m.Contains s.name f.elementType.name :=
      ⟨⟨s, mem_dependencyOrder.mp mem, List.mem_map_of_mem field⟩, s', found⟩
    have before := (sorted_dependencyOrder acyclic).mem_earlier split contains
    obtain ⟨s'', mem, same⟩ := List.mem_map.mp before
    have first := mem_dependencyOrder.mp (split ▸ List.mem_append_left _ mem)
    cases (same ▸ first).symm.trans found
    exact mem
  case built =>
    rintro p types settings c l canonical b rfl
    exact b.acyclic (.of_canonical canonical)

-- The chain is tried first, and refused.
def sceneBuilding : Context × Layouts :=
  leftover (discover litScene (.struct "Scene" []) (leftover (discover litScene (.struct "Chain" [])
    ({ backend := "glsl", set := "Demo" }, .configured sceneSettings))))

-- The scene is found before the lights that it holds, and ordered after them.
theorem structures_ordered_by_containment_litScene :
    Building litScene (litScene.fieldTypes ++ [.struct "Chain" [], .struct "Scene" []])
      sceneSettings sceneBuilding.1 sceneBuilding.2 ∧
    sceneBuilding.1.structures.map Structure.name = ["Scene", "Light"] ∧
    sceneBuilding.1.build.dependencyOrder.map Structure.name = ["Light", "Scene"] ∧
    ∀ earlier s later, sceneBuilding.1.build.dependencyOrder = earlier ++ s :: later →
      ∀ f ∈ s.fields, ∀ s', sceneBuilding.1.build.structure? f.elementType.name = some s' →
        s' ∈ earlier := by
  have building : Building litScene
      (litScene.fieldTypes ++ [.struct "Chain" [], .struct "Scene" []])
      sceneSettings sceneBuilding.1 sceneBuilding.2 :=
    .discover (.discover (.start rfl) (by decide) rfl) (by decide) rfl
  obtain ⟨_, _, sorted, built⟩ := structures_ordered_by_containment sceneBuilding.1.build
  have acyclic := built litScene _ sceneSettings _ _ (by decide) building rfl
  exact ⟨building, by cbv, by cbv, sorted acyclic⟩

end Shading
