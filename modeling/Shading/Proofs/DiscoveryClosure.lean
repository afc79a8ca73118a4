import Shading.Proofs.Occurrences
import Shading.Proofs.StructureDiscovery
import Shading.Proofs.StructurePacking
import Mathlib
/-!
What discovery leaves in a context without structures: those that the types of the context lead to,
and no others, each as its declaration describes it.

The types of a context are those of the values in memory and of the signatures, variables and
constructed values of its functions. A value counts where the walk over expressions gets to it,
which is everywhere unless a loop starts with a statement that has a body of its own.
-/

namespace Shading

-- The statement is one of the outermost in the body of the function.
def Program.Body (p : Program) (f : ShaderFunction) (s : Stmt) : Prop :=
  ∃ body, (p.method? f.id).bind MethodDecl.body = some body ∧ s ∈ body

-- The types that discovery starts from, if `inside` leads from the statements of a body to those in
-- which constructed values count.
inductive Context.Root (p : Program) (c : Context) (inside : Stmt → Stmt → Prop) : TypeRef → Prop
  | resource {r} : (r ∈ c.resources) →
    (r.kind = .uniform ∨ r.kind = .structuredBuffer ∨ r.kind = .rwStructuredBuffer) →
    Root p c inside r.valueType
  | parameter {f q} : (f ∈ c.functions) → (q ∈ f.parameters) → Root p c inside q.ty
  | result {f} : (f ∈ c.functions) → Root p c inside f.returnType
  | constructed {f s s' e node args} : (f ∈ c.functions) → (p.Body f s) → (inside s s') →
    (e ∈ s'.header) → (e.Contains (.construct node args)) → Root p c inside node.ty
  | declared {f s name ty init} : (f ∈ c.functions) → (p.Body f s) →
    (s.Nests (.declare name ty init)) → Root p c inside ty

namespace Context

variable {p : Program} {c : Context} {f : ShaderFunction} {s : Stmt} {ty : TypeRef} {e : Expr}

theorem mem_resourceTypes : ty ∈ c.resourceTypes ↔ ∃ r ∈ c.resources,
    (r.kind = .uniform ∨ r.kind = .structuredBuffer ∨ r.kind = .rwStructuredBuffer) ∧
    r.valueType = ty := by
  have memory (kind : ResourceKind) : kind.hasMemoryLayout ↔
      kind = .uniform ∨ kind = .structuredBuffer ∨ kind = .rwStructuredBuffer := by
    cases kind <;> simp [ResourceKind.hasMemoryLayout]
  simp [resourceTypes, memory, and_assoc]

theorem constructedType?_eq_some_iff :
    constructedType? e = some ty ↔ ∃ node args, e = .construct node args ∧ node.ty = ty := by
  cases e <;> simp [constructedType?]

theorem mem_bodyTypes : ty ∈ bodyTypes p f ↔ ∃ s, p.Body f s ∧
    ((∃ e ∈ s.exprs, constructedType? e = some ty) ∨ ty ∈ s.declaredTypes) := by
  simp only [bodyTypes, Program.Body]
  cases (p.method? f.id).bind MethodDecl.body
  case none => simp
  case some body =>
    simp only [Option.some.injEq, exists_eq_left', List.mem_append, List.mem_filterMap,
      Stmt.exprsAll_eq, Stmt.declaredTypesAll_eq, List.mem_flatMap, and_or_left, exists_or]
    refine or_congr_left ⟨?_, ?_⟩
    · rintro ⟨e, ⟨s, outer, mem⟩, made⟩
      exact ⟨s, outer, e, mem, made⟩
    · rintro ⟨s, outer, e, mem, made⟩
      exact ⟨e, ⟨s, outer, mem⟩, made⟩

theorem mem_touchedTypes : ty ∈ c.touchedTypes p ↔
    ty ∈ c.resourceTypes ∨ (∃ f ∈ c.functions, ty ∈ signatureTypes f) ∨
    ∃ f ∈ c.functions, ty ∈ bodyTypes p f := by
  simp only [touchedTypes, List.mem_append, List.mem_flatMap, or_assoc]

-- Discovery starts from the types that the two walks over the bodies get to.
theorem mem_touchedTypes_iff_root : ty ∈ c.touchedTypes p ↔ c.Root p Stmt.Walks ty := by
  rw [mem_touchedTypes]
  constructor
  case mp =>
    rintro (resource | ⟨f, registered, signature⟩ | ⟨f, registered, body⟩)
    case inl =>
      obtain ⟨r, bound, memory, rfl⟩ := mem_resourceTypes.mp resource
      exact .resource bound memory
    case inr.inl =>
      rcases List.mem_append.mp signature with parameter | result
      case inl =>
        obtain ⟨q, mem, rfl⟩ := List.mem_map.mp parameter
        exact .parameter registered mem
      case inr =>
        cases List.mem_singleton.mp result
        exact .result registered
    case inr.inr =>
      obtain ⟨s, outer, ⟨e, mem, made⟩ | declared⟩ := mem_bodyTypes.mp body
      case inl =>
        obtain ⟨node, args, rfl, rfl⟩ := constructedType?_eq_some_iff.mp made
        obtain ⟨s', walks, e', header, contains⟩ := Stmt.mem_exprs.mp mem
        exact .constructed registered outer walks header contains
      case inr =>
        obtain ⟨s', nests, declares⟩ := Stmt.mem_declaredTypes.mp declared
        obtain ⟨name, init, rfl⟩ := Stmt.declaredType?_eq_some_iff.mp declares
        exact .declared registered outer nests
  case mpr =>
    rintro (⟨bound, memory⟩ | ⟨registered, mem⟩ | registered |
      ⟨registered, outer, walks, header, contains⟩ | ⟨registered, outer, nests⟩)
    case resource  => exact .inl (mem_resourceTypes.mpr ⟨_, bound, memory, rfl⟩)
    case parameter =>
      exact .inr (.inl ⟨_, registered, List.mem_append_left _ (List.mem_map_of_mem mem)⟩)
    case result    => exact .inr (.inl ⟨_, registered, List.mem_append_right _ List.mem_cons_self⟩)
    case constructed =>
      have mem := Stmt.mem_exprs.mpr ⟨_, walks, _, header, contains⟩
      exact .inr (.inr ⟨_, registered, mem_bodyTypes.mpr ⟨_, outer, .inl ⟨_, mem, rfl⟩⟩⟩)
    case declared =>
      have mem := Stmt.mem_declaredTypes.mpr ⟨_, nests, rfl⟩
      exact .inr (.inr ⟨_, registered, mem_bodyTypes.mpr ⟨_, outer, .inr mem⟩⟩)

theorem Root.mono {inside inside' : Stmt → Stmt → Prop} (h : c.Root p inside ty)
    (sub : ∀ f ∈ c.functions, ∀ s s', p.Body f s → inside s s' → inside' s s') :
    c.Root p inside' ty := by
  cases h
  case resource bound memory => exact .resource bound memory
  case parameter registered mem => exact .parameter registered mem
  case result registered => exact .result registered
  case constructed registered outer within header contains =>
    exact .constructed registered outer (sub _ registered _ _ outer within) header contains
  case declared registered outer nests => exact .declared registered outer nests

end Context

open Context

-- Whatever has been asked of the layouts before, discovery that succeeds leaves one structure for
-- each name that the types of the context lead to. Each is as if it had been described on its own,
-- if the names of declarations that were described before mean structures wherever they occur. If
-- no loop of the functions starts with a statement that has a body, all constructed values count.
theorem structures_discovered_exactly (p : Program) (settings : List (String × Nat))
    (qs : List Query) (c c' : Context) (l' : Layouts) (empty : c.structures = [])
    (h : discoverStructures p (c, Query.leave p qs (.configured settings)) = .ok () (c', l')) :
    (c'.structures.map Structure.name).Nodup ∧
    (Canonical (p.fieldTypes ++ (c.touchedTypes p ++ qs.flatMap Query.types)) →
      (∀ t ∈ qs.filterMap Query.described?, Structural
        (p.fieldTypes ++ (c.touchedTypes p ++ qs.flatMap Query.types)) t.name) →
      ∀ s ∈ c'.structures, ∃ t, p.type? s.name = some t ∧
        outcome (Structure.ofDecl p t (.configured settings)) = .ok s) ∧
    (∀ name, name ∈ c'.structures.map Structure.name ↔ p.Reached (c.Root p Stmt.Walks) name) ∧
    ((∀ f ∈ c.functions, ∀ s, p.Body f s → s.Plain) →
      ∀ name, name ∈ c'.structures.map Structure.name ↔ p.Reached (c.Root p Stmt.Nests) name) := by
  have h : discovering p (c.touchedTypes p) (c, Query.leave p qs (.configured settings)) =
      .ok () (c', l') := h
  have run : (discoverAll p c (c.touchedTypes p)).run (Query.leave p qs (.configured settings)) =
      .ok (.ok (), c') l' := by
    rw [run_discoverAll, h]
    rfl
  have found (name : String) :
      name ∈ c'.structures.map Structure.name ↔ p.Reached (c.Root p Stmt.Walks) name := by
    have starts : (· ∈ c.touchedTypes p) = c.Root p Stmt.Walks :=
      funext fun _ => propext mem_touchedTypes_iff_root
    rw [← starts, ← hasStructure_iff_reached empty run, hasStructure_iff, List.mem_map]
  refine ⟨?distinct, fun canonical meant s mem => ?described, found, fun plain name => ?closed⟩
  case distinct => exact (discoverAll_nodup p _ (by simp [empty])).of_run run
  case described =>
    have u := Query.universe_of_meant canonical meant
    have started (ty : TypeRef) (mem : ty ∈ c.touchedTypes p ++ qs.flatMap Query.types) :
        ty ∈ TypeRef.refsAll (p.fieldTypes ++ (c.touchedTypes p ++ qs.flatMap Query.types)) :=
      TypeRef.mem_refsAll.mpr ⟨ty, List.mem_append_right _ mem, ty.self_mem_refs⟩
    have known (ty : TypeRef) (mem : ty ∈ c.touchedTypes p) : ty ∈ TypeRef.refsAll
        (p.fieldTypes ++ (c.touchedTypes p ++ qs.flatMap Query.types) ++
          (qs.filterMap Query.described?).map TypeDecl.structRef) :=
      TypeRef.mem_refsAll.mpr ⟨ty, by simp [mem], ty.self_mem_refs⟩
    have asked := Query.asks_mem fun q hq ty mem =>
      started ty (List.mem_append_right _ (List.mem_flatMap.mpr ⟨q, hq, mem⟩))
    have fit := Query.leave_fit u asked (Layouts.configured_fit settings)
    have alone : (discoverAll p c (c.touchedTypes p)).alone
        (Layouts.configured settings).overrides = .ok (.ok (), c') := by
      rw [(u.alone_discoverAll known fit).left, h]
      rfl
    have recorded := u.recorded_of_alone_discoverAll known alone mem
    have recorded := recorded.resolve_left (by simp [empty])
    exact u.ofDecl_of_recorded recorded (Layouts.configured_fit settings)
  case closed =>
    rw [found]
    constructor
    · exact (·.mono fun _ root => root.mono fun _ _ _ _ _ => Stmt.Walks.nests)
    · exact (·.mono fun _ root => root.mono fun f registered s _ outer nests =>
        nests.walks (plain f registered s outer))

def weave : MethodDecl where
  name       := "weave"
  returnType := .void "void" []
  body       := some [
    .forLoop [.declare "bobbin" (.struct "Bobbin" []) none] none [] [
      .switch (.literal ⟨.primitive "int" [], none⟩ (.int 1)) [([.otherwise], [
        .eval (.paren ⟨.struct "Knot" [], none⟩ (.construct ⟨.struct "Knot" [], none⟩ []))])]]]

def tangle : MethodDecl where
  name       := "tangle"
  returnType := .void "void" []
  body       := some [
    .forLoop [.block [.eval (.construct ⟨.struct "Knot" [], none⟩ [])]] none [] []]

-- A loom that makes knots, once inside of a loop and once where a loop starts.
def loom : Program where
  types         := [
    { name := "Knot", kind := .struct, fields := [
      { name := "yarns", ty := .arrayOf (.struct "Yarn" []), arraySize := some 2 },
      { name := "slack", ty := .primitive "float" [] }] },
    { name := "Yarn", kind := .struct, fields := [
      { name := "tint", ty := .primitive "Vector4" [] }] },
    { name := "Bobbin", kind := .struct, fields := [
      { name := "turns", ty := .primitive "int" [] }] },
    { name := "Loom", kind := .object, methods := [weave, tangle] }]
  sets          := []
  types_nodup   := by decide
  methods_nodup := by decide

def loomContext (m : MethodDecl) : Context where
  backend   := "glsl"
  set       := "Loom"
  functions := [.ofDecl "Loom" m]

-- The yarns are known already, and aligned as the settings demand.
theorem structures_discovered_exactly_loom :
    ∃ c' l', discoverStructures loom (loomContext weave,
        Query.leave loom [.type (.struct "Yarn" [])] (.configured [("Yarn", 32)])) =
        .ok () (c', l') ∧
      c'.structures.map Structure.name = ["Knot", "Yarn", "Bobbin"] ∧
      (∀ s ∈ c'.structures, ∃ t, loom.type? s.name = some t ∧
        outcome (Structure.ofDecl loom t (.configured [("Yarn", 32)])) = .ok s) ∧
      ∀ name, loom.Reached ((loomContext weave).Root loom Stmt.Nests) name ↔
        name ∈ ["Knot", "Yarn", "Bobbin"] := by
  have succeeds : outcome (discoverStructures loom (loomContext weave,
      Query.leave loom [.type (.struct "Yarn" [])] (.configured [("Yarn", 32)]))) = .ok () := by
    cbv
  have names : (leftover (discoverStructures loom (loomContext weave, Query.leave loom
      [.type (.struct "Yarn" [])] (.configured [("Yarn", 32)])))).1.structures.map Structure.name =
      ["Knot", "Yarn", "Bobbin"] := by
    cbv
  have run := eq_ok_of_outcome succeeds
  have plain : ∀ f ∈ (loomContext weave).functions, ∀ s, loom.Body f s → s.Plain := by
    rintro f registered s ⟨body, found, mem⟩
    cases List.mem_singleton.mp registered
    cases found
    cases List.mem_singleton.mp mem
    -- One step for each statement in the body.
    iterate 5
      rw [Stmt.plain_iff]
      simp [Stmt.initializers, Stmt.children]
  obtain ⟨_, described, _, closed⟩ := structures_discovered_exactly loom [("Yarn", 32)]
    [.type (.struct "Yarn" [])] (loomContext weave) _ _ rfl run
  exact ⟨_, _, run, names, described (by decide) (by decide),
    fun name => names ▸ (closed plain name).symm⟩

-- The loop starts with a block that makes a knot. It is not gone into.
theorem knot_overlooked :
    ∃ c' l', discoverStructures loom (loomContext tangle, .configured []) = .ok () (c', l') ∧
      c'.structures = [] ∧ (loomContext tangle).structures = [] ∧
      Canonical (loom.fieldTypes ++ [.void "void" [], .struct "Knot" []]) ∧
      loom.Reached ((loomContext tangle).Root loom Stmt.Nests) "Knot" := by
  have succeeds : outcome (discoverStructures loom
      (loomContext tangle, .configured [])) = .ok () := by
    cbv
  have nothing : (leftover (discoverStructures loom
      (loomContext tangle, .configured []))).1.structures = [] := by
    cbv
  refine ⟨_, _, eq_ok_of_outcome succeeds, nothing, rfl, by decide, ?_⟩
  have outer : loom.Body (.ofDecl "Loom" tangle) (.forLoop [.block [.eval
      (.construct ⟨.struct "Knot" [], none⟩ [])]] none [] []) :=
    ⟨_, rfl, List.mem_cons_self⟩
  have inner : Stmt.Nests (.forLoop [.block [.eval (.construct ⟨.struct "Knot" [], none⟩ [])]]
      none [] []) (.eval (.construct ⟨.struct "Knot" [], none⟩ [])) :=
    .head List.mem_cons_self (.single List.mem_cons_self)
  exact .start (.constructed List.mem_cons_self outer inner List.mem_cons_self .refl) rfl rfl

end Shading
