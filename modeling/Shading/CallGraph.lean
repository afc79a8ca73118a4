import Shading.Program
import Shading.Error
import Shading.Visit
/-!
The call graph of a program, and the order in which the functions that an entry point reaches
have to be written: every function after those it calls.
-/

namespace Shading

structure CallSite where
  target   : MethodId
  location : Option Location
  deriving DecidableEq

namespace CallGraph

-- Constructing a value of a structure type counts as a call of its constructor.
def candidate? : Expr → Option CallSite
  | .call node owner method _ => some ⟨⟨owner, method⟩, node.location⟩
  | .construct node _ =>
    if node.ty.isStruct then some ⟨⟨node.ty.name, MethodId.constructorName⟩, node.location⟩
    else none
  | _ => none

-- Whether a call belongs to the graph. Calls of types that the program does not declare and of
-- methods without a body are intrinsics, and construction of a structure that declares no
-- constructor is default construction.
def isInternal (p : Program) (site : CallSite) : Except Error Bool :=
  match p.type? site.target.owner with
  | none => .ok false
  | some t =>
    match t.method? site.target.name with
    | some m => .ok m.body.isSome
    | none =>
      if site.target.isConstructor then .ok false
      else .error (.graph (.unresolvedCall site.target) site.location)

def addSite (sites : List CallSite) (site : CallSite) : List CallSite :=
  if sites.any (·.target = site.target) then sites else sites ++ [site]

def callSites (p : Program) (caller : MethodId) : Except Error (List CallSite) :=
  match p.method? caller with
  | none => .error (.graph (.unresolvedCall caller))
  | some m =>
    match m.body with
    | none => .error (.graph (.missingBody caller) m.location)
    | some body =>
      ((Stmt.exprsAll body).filterMap candidate?).foldlM
        (fun sites site => do
          return if ← isInternal p site then addSite sites site else sites) []

theorem mem_methodIds_of_callSites {p : Program} {caller : MethodId} {sites : List CallSite}
    (h : callSites p caller = .ok sites) : caller ∈ p.methodIds := by
  unfold callSites at h
  split at h
  · simp at h
  · rename_i m hm
    exact Program.mem_methodIds_of_method? hm

-- Extends `done`, the functions that are already ordered, by those that `node` reaches, callees
-- first. The path holds the functions whose calls are being followed on the way to `node`.
def visit (p : Program) (path : List MethodId) (node : MethodId) (fresh : node ∉ path)
    (done : List MethodId) : Except Error (List MethodId) :=
  match known : callSites p node with
  | .error e => .error e
  | .ok sites => do
    have := unvisited_cons_lt (mem_methodIds_of_callSites known) fresh
    let done ← sites.foldlM (fun done site =>
      if site.target = node then
        .error (.graph (.recursion node) site.location)
      else if site.target ∈ done then
        .ok done
      else if cyclic : site.target ∈ node :: path then
        .error (.graph (.cycle node site.target) site.location)
      else
        visit p (node :: path) site.target cyclic done) done
    return done ++ [node]
termination_by unvisited p.methodIds path
decreasing_by assumption

-- The functions that an entry point reaches, callees first, ending with the entry point.
def order (p : Program) (entry : MethodId) : Except Error (List MethodId) :=
  visit p [] entry List.not_mem_nil []

end CallGraph
end Shading
