import Shading.Proofs.StructureDiscovery
import Shading.Proofs.StructurePacking
import Mathlib
/-!
Discovery from one type fails as a whole or not at all.

A structure joins the context before those that it holds are looked at. Its description takes the
footprints of its members, and what has a footprint can be described, so nothing fails after that.
-/

namespace Shading
namespace Context

variable {p : Program} {c c' : Context} {t : TypeDecl} {ty : TypeRef} {pending types : List TypeRef}
  {name : String} {e : Error} {l l' : Layouts}

-- The structure that the type refers to, if any, is known.
def Sized (p : Program) (l : Layouts) (ty : TypeRef) : Prop :=
  ∀ name t, structName? ty = some name → p.type? name = some t → ∃ f, l.known? name = some f

theorem sized_of_describe {d : { s : Structure // s.name = t.name }}
    (described : (Structure.describe p t).run l = .ok d l')
    (known : ∀ member ∈ t.instanceFields, ∃ g, l'.known? member.ty.elementOrSelf.name = some g) :
    ∀ ty ∈ d.val.fields.map Field.ty, Sized p l' ty := by
  rw [(describe_ensures.of_run described).left]
  intro ty mem name t' struct _
  obtain ⟨member, field, rfl⟩ := List.mem_map.mp mem
  exact name_of_structName? struct ▸ known member field

section Universe

variable (u : Universe p types)

include u

-- The members of a structure are pending with footprints of their own, so that there is nothing to
-- fail on at any depth.
theorem exists_run_of_sized (coherent : l.Coherent p types)
    (known : ∀ ty ∈ pending, ty ∈ TypeRef.refsAll types) (sized : ∀ ty ∈ pending, Sized p l ty) :
    ∃ c', (discoverAll p c pending).run l = .ok (.ok (), c') l := by
  fun_induction discoverAll p c pending
  case case1 c => exact ⟨c, rfl⟩
  case case2 hi | case3 hi | case4 hi =>
    exact hi (List.forall_mem_cons.mp known).right (List.forall_mem_cons.mp sized).right
  case case5 name struct _ t declared hi =>
    obtain ⟨here, later⟩ := List.forall_mem_cons.mp known
    obtain ⟨first, others⟩ := List.forall_mem_cons.mp sized
    obtain ⟨f, footprint⟩ := first name t struct declared
    obtain ⟨args, mem⟩ := Universe.struct_mem_of_structName? struct here
    have composes := coherent name f (u.canonical.structural mem rfl) footprint
    obtain ⟨⟨d, described⟩, members⟩ := composes.exists_describe footprint declared
    have pending := u.mem_of_describe (Program.mem_of_type? declared) described later
    have sized := List.forall_mem_append.mpr ⟨sized_of_describe described members, others⟩
    obtain ⟨c', rest⟩ := hi d.val d.property pending sized
    refine ⟨c', ?_⟩
    rw [Access.run_bind_of_ok (Access.run_attempt (Structure.describe p t) l), described]
    exact rest

-- What it takes for discovery from one type to fail: the structure that it begins with has to be
-- new, and impossible to describe.
theorem exists_run_eq_error_iff (coherent : l.Coherent p types) :
    (∃ l', (discoverAll p c [ty]).run l = .ok (.error e, c') l') ↔
    c' = c ∧ ∃ name t, structName? ty = some name ∧ ¬c.hasStructure name ∧
      p.type? name = some t ∧ outcome ((Structure.describe p t).run l) = .error e := by
  have done : (discoverAll p c []).run l = .ok (.ok (), c) l := by
    rw [discoverAll]
    rfl
  rw [discoverAll]
  split
  case h_1 none => simp [done, none]
  case h_2 name struct =>
    split
    case isTrue has => simp [done, struct, has]
    case isFalse fresh =>
      split
      case h_1 undeclared => simp [done, struct, undeclared]
      case h_2 t declared =>
        have only (t' : TypeDecl) (name' : String) (struct' : structName? ty = some name')
            (declared' : p.type? name' = some t') : t' = t := by
          cases struct.symm.trans struct'
          exact Option.some.inj (declared'.symm.trans declared)
        rw [Access.run_bind_of_ok (Access.run_attempt (Structure.describe p t) l)]
        cases described : (Structure.describe p t).run l
        case error e' l₁ =>
          constructor
          · rintro ⟨_, h⟩
            cases h
            exact ⟨rfl, name, t, struct, fresh, declared, by rw [described]; rfl⟩
          · rintro ⟨rfl, name', t', struct', _, declared', described'⟩
            cases only t' name' struct' declared'
            rw [described] at described'
            cases described'
            exact ⟨l₁, rfl⟩
        case ok d l₁ =>
          have left := u.describe_coherent (u.fields t (Program.mem_of_type? declared)) l coherent
          rw [described] at left
          have pending : ∀ ty ∈ d.val.fields.map Field.ty ++ [], ty ∈ TypeRef.refsAll types :=
            u.mem_of_describe (Program.mem_of_type? declared) described (by simp)
          have sized : ∀ ty ∈ d.val.fields.map Field.ty ++ [], Sized p l₁ ty := by
            simpa using sized_of_describe described (known_of_run_describe described).right
          obtain ⟨c'', rest⟩ := exists_run_of_sized u (c := c.addStructure d.val) left pending sized
          constructor
          · rintro ⟨_, h⟩
            cases rest.symm.trans h
          · rintro ⟨_, name', t', struct', _, declared', described'⟩
            cases only t' name' struct' declared'
            rw [described] at described'
            cases described'

end Universe
end Context

open Context

theorem outcome_ofDecl_eq_error_iff {p : Program} {t : TypeDecl} {l : Layouts} {e : Error} :
    outcome (Structure.ofDecl p t l) = .error e ↔
    outcome ((Structure.describe p t).run l) = .error e := by
  rw [Structure.ofDecl, Access.run_map]
  change outcome (EStateM.map _ _ l) = _ ↔ _
  simp only [EStateM.map]
  cases (Structure.describe p t).run l <;> simp [outcome]

-- Whatever the context holds, and whatever has been asked of the layouts, a failure leaves the
-- context as it was. It is the failure to describe the structure that the type refers to.
theorem discovery_atomic (p : Program) (settings : List (String × Nat)) (qs : List Query)
    (c : Context) (ty : TypeRef)
    (canonical : Canonical (p.fieldTypes ++ qs.flatMap Query.types)) :
    let l := Query.leave p qs (.configured settings)
    (∀ e c' l', discover p ty (c, l) = .error e (c', l') → c' = c) ∧
    ∀ e, outcome (discover p ty (c, l)) = .error e ↔
      ∃ name t, structName? ty = some name ∧ ¬c.hasStructure name ∧ p.type? name = some t ∧
        outcome (Structure.ofDecl p t l) = .error e := by
  intro l
  have u := Universe.of_canonical canonical
  have coherent : l.Coherent p _ := Query.leave_coherent u settings Query.types_mem
  have failing (e : Error) (c' : Context) :
      (∃ l', (discoverAll p c [ty]).run l = .ok (.error e, c') l') ↔ _ :=
    exists_run_eq_error_iff u coherent
  simp only [← outcome_ofDecl_eq_error_iff] at failing
  have run := run_discoverAll p c [ty] l
  refine ⟨fun e c' l' failed => ?_, fun e => ⟨fun failed => ?_, fun described => ?_⟩⟩
  · have failed : discovering p [ty] (c, l) = .error e (c', l') := failed
    rw [failed] at run
    exact ((failing e c').mp ⟨l', run⟩).left
  · have failed : outcome (discovering p [ty] (c, l)) = .error e := failed
    rw [failed] at run
    exact ((failing e _).mp ⟨_, run⟩).right
  · obtain ⟨_, made⟩ := (failing e c).mpr ⟨rfl, described⟩
    have same := run.symm.trans made
    injection same with same _
    exact (Prod.mk.inj same).left

def sceneContext : Context where
  backend    := "glsl"
  set        := "Demo"
  structures := [sceneStructure]

-- The chain is refused for the chains that it links, after its first light is known.
theorem discovery_atomic_litScene :
    ∃ l', discover litScene (.arrayOf (.struct "Chain" [])) (sceneContext,
        Query.leave litScene [.type (.struct "Chain" [])] (.configured sceneSettings)) =
      .error (.layout (.recursiveStructure "Chain")) (sceneContext, l') := by
  have failed : outcome (discover litScene (.arrayOf (.struct "Chain" [])) (sceneContext,
      Query.leave litScene [.type (.struct "Chain" [])] (.configured sceneSettings))) =
      .error (.layout (.recursiveStructure "Chain")) := by
    cbv
  obtain ⟨kept, _⟩ := discovery_atomic litScene sceneSettings [.type (.struct "Chain" [])]
    sceneContext (.arrayOf (.struct "Chain" [])) (by decide)
  cases run : discover litScene (.arrayOf (.struct "Chain" [])) (sceneContext,
    Query.leave litScene [.type (.struct "Chain" [])] (.configured sceneSettings))
  case ok =>
    rw [run] at failed
    cases failed
  case error e left =>
    rw [run] at failed
    cases failed
    obtain ⟨c', l'⟩ := left
    obtain rfl : c' = sceneContext := kept _ c' l' run
    exact ⟨l', rfl⟩

end Shading
