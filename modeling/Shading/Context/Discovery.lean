import Shading.Context
/-!
Discovery of the structures that the resources and the functions of a context need.
-/

namespace Shading
namespace Context

-- The name of the structure that a type or, for an array, its element refers to.
def structName? (ty : TypeRef) : Option String :=
  if ty.elementOrSelf.isStruct then some ty.elementOrSelf.name else none

def undiscovered (p : Program) (c : Context) : Nat :=
  unvisited (p.types.map TypeDecl.name) (c.structures.map Structure.name)

theorem undiscovered_addStructure_lt {p : Program} {c : Context} {s : Structure}
    (declared : s.name ∈ p.types.map TypeDecl.name) (fresh : ¬ c.hasStructure s.name) :
    undiscovered p (c.addStructure s) < undiscovered p c := by
  have absent : s.name ∉ c.structures.map Structure.name := by
    simpa [hasStructure] using fresh
  have swap : unvisited (p.types.map TypeDecl.name) (c.structures.map Structure.name ++ [s.name]) =
      unvisited (p.types.map TypeDecl.name) (s.name :: c.structures.map Structure.name) := by
    simp [unvisited, or_comm]
  simpa [undiscovered, addStructure, fresh, swap] using unvisited_cons_lt declared absent

-- Adds the structures that the pending types refer to, and those that these hold, in depth-first
-- order. Types that the program does not declare are passed over. A failure ends discovery with the
-- context as it is then.
def discoverAll (p : Program) (c : Context) : List TypeRef → Access (Except Error Unit × Context)
  | [] => return (.ok (), c)
  | ty :: pending =>
    match structName? ty with
    | none => discoverAll p c pending
    | some name =>
      if fresh : c.hasStructure name then discoverAll p c pending
      else
        match found : p.type? name with
        | none => discoverAll p c pending
        | some t => do
          match ← (Structure.describe p t).attempt with
          | .error e => return (.error e, c)
          | .ok ⟨s, described⟩ =>
            have := undiscovered_addStructure_lt (p := p) (c := c) (s := s)
              (by rw [described, Program.name_eq_of_type? found]
                  exact Program.name_mem_of_type? found)
              (by rw [described, Program.name_eq_of_type? found]
                  exact fresh)
            discoverAll p (c.addStructure s) (s.fields.map Field.ty ++ pending)
termination_by pending => (undiscovered p c, pending.length)

-- Discovery on a context and layouts, which keeps what it leaves behind when it fails.
def discovering (p : Program) (pending : List TypeRef) : EStateM Error (Context × Layouts) Unit :=
  fun (c, l) =>
    match (discoverAll p c pending).run l with
    | .ok (.ok _, c) l    => .ok () (c, l)
    | .ok (.error e, c) l => .error e (c, l)
    | .error e l          => .error e (c, l)

def discover (p : Program) (ty : TypeRef) : EStateM Error (Context × Layouts) Unit :=
  discovering p [ty]

def resourceTypes (c : Context) : List TypeRef :=
  (c.resources.filter (·.kind.hasMemoryLayout)).map Resource.valueType

def signatureTypes (f : ShaderFunction) : List TypeRef :=
  f.parameters.map Parameter.ty ++ [f.returnType]

def constructedType? : Expr → Option TypeRef
  | .construct node _ => some node.ty
  | _ => none

-- The types that a function body constructs values of, then those of its variables.
def bodyTypes (p : Program) (f : ShaderFunction) : List TypeRef :=
  match (p.method? f.id).bind MethodDecl.body with
  | none      => []
  | some body => (Stmt.exprsAll body).filterMap constructedType? ++ Stmt.declaredTypesAll body

def touchedTypes (p : Program) (c : Context) : List TypeRef :=
  c.resourceTypes ++ c.functions.flatMap signatureTypes ++ c.functions.flatMap (bodyTypes p)

def discoverStructures (p : Program) : EStateM Error (Context × Layouts) Unit :=
  fun (c, l) => discovering p (c.touchedTypes p) (c, l)

end Context
end Shading
