import Shading.Proofs.Coherence
import Shading.Proofs.DependencyOrder
import Shading.Proofs.Discovery
import Mathlib
/-!
The structures that discovery finds: those that are declared and that the types it starts from lead
to, through any number of members.
-/

open Relation

namespace Shading

open Context

-- The declared structures that types lead to. An array leads to what its elements are, but not to
-- what lies behind arrays of arrays.
inductive Program.Reached (p : Program) (starts : TypeRef → Prop) : String → Prop
  | start {ty : TypeRef} {name : String} {t : TypeDecl} (start : starts ty)
      (struct : structName? ty = some name) (declared : p.type? name = some t) :
      Reached p starts name
  | member {outer name : String} {t t' : TypeDecl} {f : FieldDecl}
      (reached : Reached p starts outer) (declared : p.type? outer = some t)
      (mem : f ∈ t.instanceFields) (struct : structName? f.ty = some name)
      (declared' : p.type? name = some t') : Reached p starts name

variable {p : Program} {c c' : Context} {pending types : List TypeRef} {name : String}
  {starts starts' : TypeRef → Prop} {s : Structure} {l l' : Layouts}
  {overrides : List (String × Nat)} {m : Model} {r : Except Error Unit}

-- What is reached from types that are reached themselves is reached from where they are.
theorem Program.Reached.bind (h : p.Reached starts name)
    (each : ∀ ty name t, starts ty → structName? ty = some name → p.type? name = some t →
      p.Reached starts' name) : p.Reached starts' name := by
  induction h
  case start start struct declared => exact each _ _ _ start struct declared
  case member declared mem struct declared' hi => exact .member hi declared mem struct declared'

theorem Program.Reached.mono (h : p.Reached starts name) (sub : ∀ ty, starts ty → starts' ty) :
    p.Reached starts' name :=
  h.bind fun ty _ _ start struct declared => .start (sub ty start) struct declared

namespace Context

-- Discovery adds nothing that it is not led to.
theorem discoverAll_reached (p : Program) (c : Context) (pending : List TypeRef) :
    (discoverAll p c pending).Ensures fun r => ∀ s ∈ r.2.structures,
      s ∈ c.structures ∨ p.Reached (· ∈ pending) s.name := by
  fun_induction discoverAll p c pending
  case case1 => exact fun s mem => .inl mem
  case case2 hi | case3 hi | case4 hi =>
    exact hi.mono fun r found s mem => (found s mem).imp_right
      (·.mono fun ty mem => List.mem_cons_of_mem _ mem)
  case case5 ty pending name struct _ t declared hi =>
    refine describe_ensures.attempt.bind fun r described => ?_
    cases r
    case error => exact fun s mem => .inl mem
    case ok d =>
      have here : p.Reached (· ∈ ty :: pending) name := .start List.mem_cons_self struct declared
      refine (hi d.val d.property).mono fun r found s mem => ?_
      rcases found s mem with old | reached
      case inl =>
        rcases mem_addStructure old with old | rfl
        case inl => exact .inl old
        case inr =>
          have named : d.val.name = name := d.property.trans (Program.name_eq_of_type? declared)
          exact .inr (named ▸ here)
      case inr =>
        refine .inr (reached.bind fun ty' name' t' start struct' declared' => ?_)
        rcases List.mem_append.mp start with start | start
        case inr => exact .start (List.mem_cons_of_mem _ start) struct' declared'
        case inl =>
          rw [(described d rfl).left] at start
          obtain ⟨f, mem, rfl⟩ := List.mem_map.mp start
          exact .member here declared mem struct' declared'

-- The members of a structure are those of its declaration.
theorem Describes.types_eq (d : Describes p l s) :
    ∃ t, p.type? s.name = some t ∧ s.fields.map Field.ty = t.instanceFields.map FieldDecl.ty := by
  have ⟨t, declared, replays⟩ := d
  have ⟨d, _, run, made⟩ := Access.run_bind_eq_ok (replays l (.refl l))
  cases made
  exact ⟨t, declared, (describe_ensures.of_run run).left⟩

-- What discovery has added is complete: it holds all that its members lead to.
theorem Discovered.hasStructure_of_reached (d : Discovered p pending c l c' l')
    (empty : c.structures = []) (h : p.Reached (· ∈ pending) name) : c'.hasStructure name := by
  induction h
  case start start struct declared => exact d.pending _ start _ _ struct declared
  case member outer inner t t' f _ declared mem struct declared' hi =>
    obtain ⟨s, known, rfl⟩ := hasStructure_iff.mp hi
    rcases d.structures s known with old | ⟨described, covers⟩
    case inl => simp [empty] at old
    case inr =>
      have ⟨_, found, types⟩ := described.types_eq
      cases declared.symm.trans found
      have mem : f.ty ∈ s.fields.map Field.ty := types ▸ List.mem_map_of_mem mem
      obtain ⟨f', mem, same⟩ := List.mem_map.mp mem
      exact covers f' mem _ _ (same ▸ struct) declared'

theorem hasStructure_iff_reached (empty : c.structures = [])
    (h : (discoverAll p c pending).run l = .ok (.ok (), c') l') :
    c'.hasStructure name ↔ p.Reached (· ∈ pending) name := by
  refine ⟨fun has => ?_, (discovered_of_run h).hasStructure_of_reached empty⟩
  obtain ⟨s, mem, rfl⟩ := hasStructure_iff.mp has
  have found := (discoverAll_reached p c pending).of_run h s mem
  exact found.resolve_left (by simp [empty])

theorem nodup_addStructure (distinct : (c.structures.map Structure.name).Nodup) :
    ((c.addStructure s).structures.map Structure.name).Nodup := by
  simp only [addStructure]
  split
  case isTrue => exact distinct
  case isFalse fresh =>
    have fresh : s.name ∉ c.structures.map Structure.name := by simpa [hasStructure] using fresh
    simpa [List.nodup_append, distinct] using fresh

-- No structure is added twice.
theorem discoverAll_nodup (p : Program) (pending : List TypeRef)
    (distinct : (c.structures.map Structure.name).Nodup) :
    (discoverAll p c pending).Ensures fun r => (r.2.structures.map Structure.name).Nodup := by
  fun_induction discoverAll p c pending
  case case1 => exact distinct
  case case2 hi | case3 hi | case4 hi => exact hi distinct
  case case5 hi =>
    refine Access.Ensures.bind (.intro fun _ => trivial) fun r _ => ?_
    cases r
    case error => exact distinct
    case ok d  => exact hi d.val d.property (nodup_addStructure distinct)

-- A failure is an answer of discovery, and not a failure of the computation.
theorem exists_run_discoverAll (p : Program) (c : Context) (pending : List TypeRef) (l : Layouts) :
    ∃ r c' l', (discoverAll p c pending).run l = .ok (r, c') l' := by
  fun_induction discoverAll p c pending generalizing l
  case case1 => exact ⟨_, _, _, rfl⟩
  case case2 hi | case3 hi | case4 hi => exact hi l
  case case5 t _ hi =>
    rw [Access.run_bind_of_ok (Access.run_attempt (Structure.describe p t) l)]
    cases outcome ((Structure.describe p t).run l)
    case error => exact ⟨_, _, _, rfl⟩
    case ok d  => exact hi d.val d.property _

theorem run_discoverAll (p : Program) (c : Context) (pending : List TypeRef) (l : Layouts) :
    (discoverAll p c pending).run l =
    .ok (outcome (discovering p pending (c, l)), (leftover (discovering p pending (c, l))).1)
      (leftover (discovering p pending (c, l))).2 := by
  have ⟨r, c', l', run⟩ := exists_run_discoverAll p c pending l
  simp only [discovering, run]
  cases r <;> rfl

end Context

-- A structure as its declaration describes it on empty layouts, to which a type in question refers.
structure Structure.Recorded (p : Program) (overrides : List (String × Nat)) (types : List TypeRef)
    (s : Structure) : Prop where
  described : ∃ t d, p.type? s.name = some t ∧
    (Structure.describe p t).alone overrides = .ok d ∧ d.val = s
  mentioned : ∃ args, .struct s.name args ∈ TypeRef.refsAll types

namespace Universe

variable (u : Universe p types)

include u

-- What a declaration describes on empty layouts it describes on all that fit.
theorem ofDecl_of_recorded (recorded : s.Recorded p overrides types)
    (fit : l.Fit overrides (Fitting p overrides types)) :
    ∃ t, p.type? s.name = some t ∧ outcome (Structure.ofDecl p t l) = .ok s := by
  obtain ⟨⟨t, d, declared, described, rfl⟩, _, mentioned⟩ := recorded
  have returned := (u.run_steady (u.describe_steady declared mentioned) fit).left.trans described
  exact ⟨t, declared, congrArg outcome (Access.run_bind_of_ok (eq_ok_of_outcome returned))⟩

-- Discovery on layouts that fit is discovery on empty layouts.
theorem alone_discoverAll (known : ∀ ty ∈ pending, ty ∈ TypeRef.refsAll types)
    (fit : l.Fit overrides (Fitting p overrides types)) :
    (discoverAll p c pending).alone overrides = .ok
      (outcome (discovering p pending (c, l)), (leftover (discovering p pending (c, l))).1) ∧
    (leftover (discovering p pending (c, l))).2.Fit overrides (Fitting p overrides types) := by
  have ⟨returned, left⟩ := u.run_steady (u.discoverAll_steady c known) fit
  rw [run_discoverAll] at returned left
  exact ⟨returned.symm, left⟩

-- Whether it fails or not, discovery adds only structures as they are described on empty layouts.
theorem recorded_of_alone_discoverAll (known : ∀ ty ∈ pending, ty ∈ TypeRef.refsAll types)
    (h : (discoverAll p c pending).alone overrides = .ok (r, c')) (mem : s ∈ c'.structures) :
    s ∈ c.structures ∨ s.Recorded p overrides types := by
  fun_induction discoverAll p c pending
  case case1 =>
    cases h
    exact .inl mem
  case case2 hi | case3 hi | case4 hi => exact hi (List.forall_mem_cons.mp known).right h
  case case5 name struct _ t declared hi =>
    obtain ⟨here, later⟩ := List.forall_mem_cons.mp known
    rw [Access.alone_bind, Access.alone_attempt] at h
    obtain ⟨r', described, h⟩ := bind_eq_ok_iff.mp h
    cases r'
    case error =>
      cases h
      exact .inl mem
    case ok d =>
      have described := Except.ok.inj described
      have named : d.val.name = name := d.property.trans (Program.name_eq_of_type? declared)
      have members : ∀ ty ∈ d.val.fields.map Field.ty, ty ∈ TypeRef.refsAll types := by
        rw [(describe_ensures.of_alone described).left]
        intro ty field
        obtain ⟨f, field', rfl⟩ := List.mem_map.mp field
        exact u.fields t (Program.mem_of_type? declared) f field'
      rcases hi d.val d.property (List.forall_mem_append.mpr ⟨members, later⟩) h with old | recorded
      case inr => exact .inr recorded
      case inl =>
        refine (mem_addStructure old).imp_right ?_
        rintro rfl
        refine ⟨⟨t, d, named ▸ declared, described, rfl⟩, ?_⟩
        exact named ▸ struct_mem_of_structName? struct here

end Universe

-- A structure with the members of its declaration, to which a type in question refers, and which is
-- not embedded in itself.
structure Structure.Grounded (p : Program) (types : List TypeRef) (s : Structure) : Prop where
  declared  : ∃ t, p.type? s.name = some t ∧
    s.fields.map Field.ty = t.instanceFields.map FieldDecl.ty
  mentioned : ∃ args, .struct s.name args ∈ TypeRef.refsAll types
  founded   : Acc (flip (Embeds p)) s.name

theorem Structure.Recorded.grounded (h : s.Recorded p overrides types) : s.Grounded p types := by
  obtain ⟨⟨t, d, declared, made, rfl⟩, mentioned⟩ := h
  obtain ⟨_, _, measured, _⟩ := alone_describe_eq_ok_iff.mp made
  have base : t.structRef.base? = some _ := congrArg some (Program.name_eq_of_type? declared)
  refine ⟨⟨t, declared, (describe_ensures.of_alone made).left⟩, mentioned, ?_⟩
  exact Subrelation.accessible (fun embeds => embeds.holds) (acc_of_measure measured base)

namespace Universe

variable (u : Universe p types)

include u

-- Whatever the layouts have been used for, what is described there is grounded.
theorem grounded_of_run {t : TypeDecl} {args : List TypeRef}
    {d : { s : Structure // s.name = t.name }} (coherent : l.Coherent p types)
    (declared : p.type? t.name = some t) (mem : .struct t.name args ∈ TypeRef.refsAll types)
    (h : (Structure.describe p t).run l = .ok d l') :
    l'.Coherent p types ∧ d.val.Grounded p types := by
  have left := u.describe_coherent (u.fields t (Program.mem_of_type? declared)) l coherent
  rw [h] at left
  obtain ⟨known, _⟩ := known_of_run_describe h
  have composes := left t.name _ (u.canonical.structural mem rfl) known
  refine ⟨left, ⟨t, ?_, (describe_ensures.of_run h).left⟩, ⟨args, ?_⟩, ?_⟩ <;> rw [d.property]
  · exact declared
  · exact mem
  · exact composes.founded

-- Discovery leads from types in question to types in question.
theorem mem_of_describe {t : TypeDecl} {d : { s : Structure // s.name = t.name }}
    (declared : t ∈ p.types) (h : (Structure.describe p t).run l = .ok d l')
    (later : ∀ ty ∈ pending, ty ∈ TypeRef.refsAll types) :
    ∀ ty ∈ d.val.fields.map Field.ty ++ pending, ty ∈ TypeRef.refsAll types := by
  refine List.forall_mem_append.mpr ⟨?_, later⟩
  rw [(describe_ensures.of_run h).left]
  intro ty mem
  obtain ⟨f, field, rfl⟩ := List.mem_map.mp mem
  exact u.fields t declared f field

theorem grounded_of_run_discoverAll (coherent : l.Coherent p types)
    (known : ∀ ty ∈ pending, ty ∈ TypeRef.refsAll types)
    (h : (discoverAll p c pending).run l = .ok (r, c') l') :
    l'.Coherent p types ∧ ∀ s ∈ c'.structures, s ∈ c.structures ∨ s.Grounded p types := by
  fun_induction discoverAll p c pending generalizing l
  case case1 =>
    cases h
    exact ⟨coherent, fun s mem => .inl mem⟩
  case case2 hi | case3 hi | case4 hi =>
    exact hi coherent (List.forall_mem_cons.mp known).right h
  case case5 name struct _ t declared hi =>
    obtain ⟨here, later⟩ := List.forall_mem_cons.mp known
    obtain ⟨args, mem⟩ := struct_mem_of_structName? struct here
    cases Program.name_eq_of_type? declared
    obtain ⟨made, l₁, attempted, h⟩ := Access.run_bind_eq_ok h
    rw [Access.run_attempt] at attempted
    injection attempted with returned left
    cases made
    case error =>
      cases h
      have kept := u.describe_coherent (u.fields t (Program.mem_of_type? declared)) l coherent
      exact ⟨left ▸ kept, fun s mem => .inl mem⟩
    case ok d =>
      have run := left ▸ eq_ok_of_outcome returned
      obtain ⟨coherent, grounded⟩ := u.grounded_of_run coherent declared mem run
      have pending := u.mem_of_describe (Program.mem_of_type? declared) run later
      obtain ⟨left, each⟩ := hi d.val d.property coherent pending h
      refine ⟨left, fun s mem => ?_⟩
      rcases each s mem with old | grounded
      case inr => exact .inr grounded
      case inl =>
        refine (mem_addStructure old).imp_right ?_
        rintro rfl
        exact grounded

-- Among canonical names, a member that has the name of a structure is of that structure.
theorem acyclic_of_grounded (each : ∀ s ∈ m.structures, s.Grounded p types) : m.Acyclic := by
  have grounded {name : String} {s : Structure} (found : m.structure? name = some s) :
      s.name = name ∧ s.Grounded p types :=
    ⟨Model.name_of_structure? found, each s (List.mem_of_find?_eq_some found)⟩
  have embeds {outer inner : String} (h : m.Contains outer inner) : Embeds p outer inner := by
    obtain ⟨⟨s, found, mem⟩, _, found'⟩ := h
    obtain ⟨rfl, ⟨t, declared, types⟩, _⟩ := grounded found
    obtain ⟨rfl, _, ⟨args, struct⟩, _⟩ := grounded found'
    obtain ⟨f, field, named⟩ := List.mem_map.mp mem
    have field : f.ty ∈ t.instanceFields.map FieldDecl.ty := types ▸ List.mem_map_of_mem field
    obtain ⟨g, field, same⟩ := List.mem_map.mp field
    refine ⟨t, declared, g, field, ?_⟩
    have member := u.member_mem (Program.mem_of_type? declared) field
    rw [same] at member ⊢
    have shape := u.canonical _ member _ struct named
    rw [← named, Field.elementType]
    cases e : f.ty.elementOrSelf <;> rw [e] at shape <;> cases shape
    exact ⟨_, rfl⟩
  intro n cycle
  obtain ⟨_, ⟨⟨_, found, _⟩, _⟩, _⟩ := TransGen.head'_iff.mp cycle
  obtain ⟨rfl, _, _, founded⟩ := grounded found
  exact not_cyclic_of_acc founded (cycle.lift id fun _ _ => embeds)

theorem acyclic_of_alone_discoverAll (empty : c.structures = [])
    (known : ∀ ty ∈ pending, ty ∈ TypeRef.refsAll types)
    (h : (discoverAll p c pending).alone overrides = .ok (r, c'))
    (built : m.structures = c'.structures) : m.Acyclic := by
  have recorded (s : Structure) (mem : s ∈ m.structures) : s.Recorded p overrides types :=
    (u.recorded_of_alone_discoverAll known h (built ▸ mem)).resolve_left (by simp [empty])
  exact u.acyclic_of_grounded fun s mem => (recorded s mem).grounded

end Universe
end Shading
