import Shading.Generation
import Shading.Proofs.CallSequences
import Shading.Proofs.Packing
import Mathlib
/-!
Binders that are asked to bind one field after the other, some of which they refuse.

What is bound fills the slots of each descriptor set from the first one on, in the order of the
requests, and a refused request leaves no trace.
-/

namespace Shading

namespace Resource

-- The place that a resource takes up.
def slot (r : Resource) : Nat × Nat := (r.descriptorSet, r.binding)

-- Resources of distinct names that fill the slots of each descriptor set without a gap.
structure Assigned (resources : List Resource) : Prop where
  names : (resources.map name).Nodup
  slots : ∀ d, (resources.filter (·.descriptorSet == d)).map binding =
    List.range (resources.countP (·.descriptorSet == d))

namespace Assigned

variable {resources : List Resource} {r : Resource}

theorem nil : Assigned [] where
  names   := List.nodup_nil
  slots _ := rfl

theorem snoc (h : Assigned resources) (fresh : r.name ∉ resources.map name)
    (next : r.binding = resources.countP (·.descriptorSet == r.descriptorSet)) :
    Assigned (resources ++ [r]) where
  names   := by simpa [List.nodup_append, h.names] using fresh
  slots d := by
    rw [List.filter_append, List.map_append, h.slots d, List.countP_append]
    by_cases same : r.descriptorSet = d
    case pos =>
      subst same
      simp [next, List.range_succ]
    case neg => simp [same]

theorem nodup_slots (h : Assigned resources) : (resources.map slot).Nodup := by
  refine List.pairwise_map.mpr (List.pairwise_iff_forall_sublist.mpr ?_)
  intro a b both same
  -- Two resources with one slot would stand in one set, where the bindings are all distinct.
  have ⟨set, binding⟩ := Prod.mk.inj same
  have both := (both.filter (·.descriptorSet == b.descriptorSet)).map Resource.binding
  rw [h.slots] at both
  have distinct := both.nodup List.nodup_range
  simp [set, binding] at distinct

theorem binding_lt (h : Assigned resources) (mem : r ∈ resources) :
    r.binding < resources.length := by
  have mem : r.binding ∈ List.range (resources.countP (·.descriptorSet == r.descriptorSet)) := by
    rw [← h.slots]
    exact List.mem_map_of_mem (List.mem_filter.mpr ⟨mem, beq_self_eq_true _⟩)
  exact (List.mem_range.mp mem).trans_le List.countP_le_length

end Assigned
end Resource

-- A field that is to be bound, and the type that declares it.
structure Request where
  owner : String
  field : FieldDecl

namespace Request

-- Whether the request can be granted at all.
def Classifies (q : Request) : Prop :=
  ∃ found, Resource.classify q.field.name q.field.ty = .ok found

end Request

namespace Binder

variable {b b' : Binder} {q : Request} {qs : List Request} {r : Resource} {bound : List Resource}

def serve (q : Request) : EStateM Error Binder Resource := bind q.owner q.field

-- What requests that are made one after the other are answered, and the binder that is left then.
def answers (b : Binder) (qs : List Request) : List (Except Error Resource) :=
  Calls.outcomes serve qs b

def after (b : Binder) (qs : List Request) : Binder := Calls.after serve qs b

-- The resources among the answers.
def granted (answers : List (Except Error Resource)) : List Resource :=
  answers.filterMap Except.toOption

theorem mem_granted {answers : List (Except Error Resource)} :
    r ∈ granted answers ↔ .ok r ∈ answers := by
  rw [granted, List.mem_filterMap]
  constructor
  · rintro ⟨answer, mem, same⟩
    cases answer <;> cases same
    exact mem
  · exact fun mem => ⟨.ok r, mem, rfl⟩

-- The resource that a request is granted: its name has no owner yet, and the counter of its
-- descriptor set says which slot is next.
structure Grants (b : Binder) (q : Request) (r : Resource) : Prop where
  classified    : Resource.classify q.field.name q.field.ty = .ok (r.kind, r.valueType)
  fresh         : b.owners.lookup q.field.name = none
  name          : r.name = q.field.name
  owner         : r.owner = q.owner
  descriptorSet : r.descriptorSet = q.field.resourceSet.getD 0
  binding       : r.binding = (b.nextBinding.lookup r.descriptorSet).getD 0

-- The tables with a resource entered into both.
def entering (b : Binder) (r : Resource) : Binder where
  nextBinding := (r.descriptorSet, r.binding + 1) :: b.nextBinding
  owners      := (r.name, r.owner) :: b.owners

-- A request is granted, or the binder stays as it is.
theorem serve_cases (b : Binder) (q : Request) :
    (∃ r, b.Grants q r ∧ serve q b = .ok r (b.entering r)) ∨
    (¬q.Classifies ∨ (b.owners.lookup q.field.name).isSome) ∧ ∃ e, serve q b = .error e b := by
  cases classified : Resource.classify q.field.name q.field.ty
  case error e =>
    refine .inr ⟨.inl ?_, e.locate q.field.location, ?_⟩
    · rintro ⟨_, found⟩
      cases classified.symm.trans found
    · rw [serve, bind, classified]
      rfl
  case ok found =>
    -- Up to the look-up of the name the binder is only read.
    cases free : b.owners.lookup q.field.name
    case some first =>
      refine .inr ⟨.inr rfl,
        .resource (.duplicateResource q.field.name first q.owner) q.field.location, ?_⟩
      rw [serve, bind, classified]
      refine (bind_eq_of_eq_ok rfl).trans ((bind_eq_of_eq_ok rfl).trans ?_)
      simp only [free]
      rfl
    case none =>
      let d := q.field.resourceSet.getD 0
      let slot := (b.nextBinding.lookup d).getD 0
      refine .inl ⟨⟨q.field.name, q.owner, d, slot, found.2, found.1⟩,
        ⟨classified, free, rfl, rfl, rfl, rfl⟩, ?_⟩
      rw [serve, bind, classified]
      refine (bind_eq_of_eq_ok rfl).trans ((bind_eq_of_eq_ok rfl).trans ?_)
      simp only [free]
      rfl

-- There is at most one way to grant a request.
theorem Grants.unique {r' : Resource} (g : b.Grants q r) (g' : b.Grants q r') : r = r' := by
  have classified := g.classified.symm.trans g'.classified
  have set := g.descriptorSet.trans g'.descriptorSet.symm
  have binding := g.binding
  rw [set, ← g'.binding] at binding
  obtain ⟨name, owner, descriptorSet, slot, valueType, kind⟩ := r
  obtain ⟨name', owner', descriptorSet', slot', valueType', kind'⟩ := r'
  cases g.name.trans g'.name.symm
  cases g.owner.trans g'.owner.symm
  cases set
  cases binding
  cases classified
  rfl

theorem serve_of_grants (g : b.Grants q r) : serve q b = .ok r (b.entering r) := by
  rcases serve_cases b q with ⟨r', g', served⟩ | ⟨unclassified | taken, _⟩
  case inl => rw [served, g.unique g']
  case inr.inl => exact absurd ⟨_, g.classified⟩ unclassified
  case inr.inr => rw [g.fresh] at taken; cases taken

theorem answer_eq_ok_iff : outcome (serve q b) = .ok r ↔ b.Grants q r := by
  constructor
  case mp =>
    intro answered
    rcases serve_cases b q with ⟨r', g, served⟩ | ⟨_, e, served⟩ <;>
      rw [served] at answered <;> cases answered
    exact g
  case mpr =>
    intro g
    rw [serve_of_grants g]
    rfl

-- A refused request changes nothing.
theorem leftover_of_error {e : Error} (h : outcome (serve q b) = .error e) :
    leftover (serve q b) = b := by
  rcases serve_cases b q with ⟨r, _, served⟩ | ⟨_, e', served⟩ <;> rw [served] at h ⊢
  case inl => cases h
  case inr => rfl

theorem exists_error_iff : (∃ e, outcome (serve q b) = .error e) ↔
    ¬q.Classifies ∨ (b.owners.lookup q.field.name).isSome := by
  rcases serve_cases b q with ⟨r, g, served⟩ | ⟨refused, e, served⟩ <;> rw [served]
  case inl =>
    have classifies : q.Classifies := ⟨_, g.classified⟩
    simp [outcome, g.fresh, classifies]
  case inr => exact iff_of_true ⟨e, rfl⟩ refused

-- The tables of a binder that has bound the resources: each counter is how many resources have gone
-- into its descriptor set, and each name belongs to the owner of the resource that bears it.
structure Records (b : Binder) (bound : List Resource) : Prop where
  counters : ∀ d, (b.nextBinding.lookup d).getD 0 = bound.countP (·.descriptorSet == d)
  owners   : ∀ name, b.owners.lookup name = (bound.find? (·.name == name)).map Resource.owner

theorem Records.empty : Records {} [] where
  counters _ := rfl
  owners _   := rfl

theorem Records.isSome_iff (h : b.Records bound) {name : String} :
    (b.owners.lookup name).isSome ↔ ∃ r ∈ bound, r.name = name := by
  rw [h.owners]
  simp

theorem Records.entering (h : b.Records bound) (g : b.Grants q r) :
    (b.entering r).Records (bound ++ [r]) where
  counters d := by
    by_cases same : d = r.descriptorSet
    case pos =>
      have next := g.binding.trans (h.counters r.descriptorSet)
      simp [Binder.entering, same, next]
    case neg =>
      rw [Binder.entering, List.lookup_cons, beq_eq_false_iff_ne.mpr same]
      simpa [Ne.symm same] using h.counters d
  owners name := by
    have fresh := g.name ▸ g.fresh
    rw [h.owners] at fresh
    rw [List.find?_append, Binder.entering, List.lookup_cons]
    by_cases same : name = r.name
    case pos =>
      subst same
      simp [Option.map_eq_none_iff.mp fresh]
    case neg =>
      simp [beq_eq_false_iff_ne.mpr same, beq_eq_false_iff_ne.mpr (Ne.symm same), h.owners]

theorem records_serve (h : b.Records bound) :
    (leftover (serve q b)).Records (bound ++ granted [outcome (serve q b)]) := by
  rcases serve_cases b q with ⟨r, g, served⟩ | ⟨_, e, served⟩ <;> rw [served]
  case inl => exact h.entering g
  case inr => exact (List.append_nil bound).symm ▸ h

theorem records_after (h : b.Records bound) :
    (b.after qs).Records (bound ++ granted (b.answers qs)) := by
  induction qs generalizing b bound
  case nil => simpa [after, Calls.after, answers, Calls.outcomes, granted] using h
  case cons q qs hi =>
    have rest := hi (records_serve (q := q) h)
    rwa [List.append_assoc, granted, granted, ← List.filterMap_append] at rest

theorem records_after_empty : (after {} qs).Records (granted (answers {} qs)) :=
  records_after .empty

theorem answers_append {qs' : List Request} :
    b.answers (qs ++ qs') = b.answers qs ++ (b.after qs).answers qs' :=
  Calls.outcomes_append

theorem assigned_granted : Resource.Assigned (granted (answers {} qs)) := by
  induction qs using List.reverseRecOn
  case nil => exact .nil
  case append_singleton qs q hi =>
    have recorded : (after {} qs).Records (granted (answers {} qs)) := records_after_empty
    rw [answers_append, granted, List.filterMap_append]
    change Resource.Assigned (granted (answers {} qs) ++ granted [outcome (serve q (after {} qs))])
    rcases serve_cases (after {} qs) q with ⟨r, g, served⟩ | ⟨_, e, served⟩ <;> rw [served]
    case inl =>
      refine hi.snoc ?_ (g.binding.trans (recorded.counters _))
      intro taken
      have taken := recorded.isSome_iff.mpr (List.mem_map.mp taken)
      rw [g.name, g.fresh] at taken
      cases taken
    case inr => exact (List.append_nil (granted (answers {} qs))).symm ▸ hi

theorem exists_grants (h : .ok r ∈ b.answers qs) : ∃ q ∈ qs, ∃ b' : Binder, b'.Grants q r := by
  obtain ⟨_, q, _, rfl, answered⟩ := Calls.mem_outcomes.mp h
  exact ⟨q, List.mem_append_right _ List.mem_cons_self, _, answer_eq_ok_iff.mp answered.symm⟩

theorem exists_answer (b : Binder) (mem : q ∈ qs) :
    ∃ b' : Binder, outcome (serve q b') ∈ b.answers qs := by
  obtain ⟨earlier, later, rfl⟩ := List.append_of_mem mem
  exact ⟨_, Calls.mem_outcomes.mpr ⟨earlier, q, later, rfl, rfl⟩⟩

end Binder

namespace ShaderSet

-- The fields that are bound for a set, in order.
def requests (p : Program) (set : ShaderSet) : List Request :=
  set.resourceOwners.flatMap fun owner =>
    ((p.type? owner).toList.flatMap TypeDecl.instanceFields).map (⟨owner, ·⟩)

theorem mem_requests {p : Program} {set : ShaderSet} {q : Request} : q ∈ set.requests p ↔
    q.owner ∈ set.resourceOwners ∧ ∃ t, p.type? q.owner = some t ∧ q.field ∈ t.instanceFields := by
  simp only [requests, List.mem_flatMap, List.mem_map, Option.mem_toList]
  constructor
  · rintro ⟨owner, mem, f, ⟨t, declared, field⟩, rfl⟩
    exact ⟨mem, t, declared, field⟩
  · rintro ⟨mem, t, declared, field⟩
    exact ⟨q.owner, mem, q.field, ⟨t, declared, field⟩, rfl⟩

end ShaderSet

namespace Generation

variable {p : Program} {set : ShaderSet} {resources : List Resource}

-- Binding the fields of each owner in turn is binding them all in one go.
theorem bindOwners_eq : bindOwners p set.resourceOwners = (set.requests p).mapM Binder.serve := by
  simp only [bindOwners, ShaderSet.requests]
  generalize set.resourceOwners = owners
  induction owners
  case nil => rfl
  case cons owner owners hi =>
    rw [List.flatMap_cons, List.mapM_append, ← hi, List.mapM_cons, List.mapM_map]
    cases p.type? owner <;> simp [Function.comp_def, Binder.serve]

theorem bindResources_eq_ok_iff : bindResources p set = .ok resources ↔
    Binder.answers {} (set.requests p) = resources.map .ok := by
  rw [bindResources, bindOwners_eq]
  constructor
  case mp =>
    intro h
    split at h <;> cases h
    case h_1.refl bound => exact (Calls.mapM_eq_ok_iff.mp bound).left
  case mpr =>
    intro answered
    rw [Calls.mapM_eq_ok_iff.mpr ⟨answered, rfl⟩]

theorem assigned_of_bindResources (h : bindResources p set = .ok resources) :
    Resource.Assigned resources := by
  have assigned : Resource.Assigned (Binder.granted (Binder.answers {} (set.requests p))) :=
    Binder.assigned_granted
  rw [bindResources_eq_ok_iff.mp h] at assigned
  simpa [Binder.granted, List.filterMap_map, Function.comp_def, Except.toOption] using assigned

end Generation
end Shading
