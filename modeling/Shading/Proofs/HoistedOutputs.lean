import Shading.Proofs.NamedOutputs
import Mathlib
/-!
Bodies whose outputs are declared at the top of the scope that they are used in.

Hoisting declares the outputs that the headers of a scope declare inline or throw away, and names
them where they are used. A body is written as what it becomes in this way.
-/

namespace Shading

open Glsl Emission

namespace Stmt

mutual

-- The scopes inside a statement, in the order in which they start.
def scopes : Stmt → List (List Stmt)
  | block body | forLoop _ _ _ body | whileLoop _ body | doLoop body _ => body :: scopesAll body
  | branch _ thenBody none => thenBody :: scopesAll thenBody
  | branch _ thenBody (some elseBody) =>
    (thenBody :: scopesAll thenBody) ++ (elseBody :: scopesAll elseBody)
  | switch _ sections => scopesSections sections
  | eval _ | declare .. | ret _ | breakLoop | continueLoop => []

def scopesAll : List Stmt → List (List Stmt)
  | []      => []
  | s :: ss => s.scopes ++ scopesAll ss

def scopesSections : List (List Label × List Stmt) → List (List Stmt)
  | []                => []
  | (_, body) :: rest => (body :: scopesAll body) ++ scopesSections rest

end

-- How many outputs are thrown away in the headers of a scope, and of several.
def own (body : List Stmt) : Nat := (discardedTypes body).length

def reserved (scopes : List (List Stmt)) : Nat := (scopes.map own).sum

-- The variables that a scope declares at its top if its discard variables are numbered from `next`.
def declared (next : Nat) (body : List Stmt) : List (String × TypeRef) :=
  outputVariables body ++ ((discardedTypes body).zipIdx next).map fun d => (discardName d.2, d.1)

def declarations (next : Nat) (body : List Stmt) : List Stmt :=
  (declared next body).map fun v => declare v.1 v.2 none

mutual

-- The header takes numbers from `first`, and the scopes inside the statement from `next`.
def hoist (first next : Nat) : Stmt → Stmt
  | block body => block (declarations next body ++ hoistAll next (next + own body) body)
  | eval e => eval (e.named first)
  | declare name ty init => declare name ty (init.map (Expr.named first))
  | ret value => ret (value.map (Expr.named first))
  | branch condition thenBody none =>
    branch (condition.named first)
      (declarations next thenBody ++ hoistAll next (next + own thenBody) thenBody) none
  | branch condition thenBody (some elseBody) =>
    let later := next + reserved (thenBody :: scopesAll thenBody)
    branch (condition.named first)
      (declarations next thenBody ++ hoistAll next (next + own thenBody) thenBody)
      (some (declarations later elseBody ++ hoistAll later (later + own elseBody) elseBody))
  | forLoop init condition step body =>
    let second := first + (Expr.discardsAll (ownExprsAll init)).length
    let third := second + (Expr.discardsAll condition.toList).length
    forLoop (hoistAll first next init) (condition.map (Expr.named second))
      (Expr.namedAll third step)
      (declarations next body ++ hoistAll next (next + own body) body)
  | whileLoop condition body =>
    whileLoop (condition.named first)
      (declarations next body ++ hoistAll next (next + own body) body)
  | doLoop body condition =>
    doLoop (declarations next body ++ hoistAll next (next + own body) body) (condition.named first)
  | switch scrutinee sections => switch (scrutinee.named first) (hoistSections next sections)
  | breakLoop => breakLoop
  | continueLoop => continueLoop

def hoistAll (first next : Nat) : List Stmt → List Stmt
  | []      => []
  | s :: ss => s.hoist first next ::
    hoistAll (first + (Expr.discardsAll s.ownExprs).length) (next + reserved s.scopes) ss

def hoistSections (next : Nat) : List (List Label × List Stmt) → List (List Label × List Stmt)
  | []                     => []
  | (labels, body) :: rest =>
    (labels, declarations next body ++ hoistAll next (next + own body) body) ::
      hoistSections (next + reserved (body :: scopesAll body)) rest

end

-- A scope whose discard variables are numbered from `next`.
def hoistScope (next : Nat) (body : List Stmt) : List Stmt :=
  declarations next body ++ hoistAll next (next + own body) body

-- Scopes with the numbers that their discard variables start from, one after the other.
def numbered (next : Nat) : List (List Stmt) → List (Nat × List Stmt)
  | []             => []
  | body :: scopes => (next, body) :: numbered (next + own body) scopes

def hoistEach (next : Nat) (scopes : List (List Stmt)) : List (List Stmt) :=
  (numbered next scopes).map fun scope => hoistScope scope.1 scope.2

variable {first next : Nat} {s : Stmt} {ss ss' body : List Stmt} {scopes scopes' : List (List Stmt)}

@[simp]
theorem reserved_cons : reserved (body :: scopes) = own body + reserved scopes := rfl

@[simp]
theorem reserved_append : reserved (scopes ++ scopes') = reserved scopes + reserved scopes' := by
  simp [reserved]

theorem numbered_append : numbered next (scopes ++ scopes') =
    numbered next scopes ++ numbered (next + reserved scopes) scopes' := by
  induction scopes generalizing next
  case nil => rfl
  case cons body scopes hi =>
    rw [List.cons_append, numbered, numbered, hi, reserved_cons, Nat.add_assoc, List.cons_append]

theorem hoistEach_append : hoistEach next (scopes ++ scopes') =
    hoistEach next scopes ++ hoistEach (next + reserved scopes) scopes' := by
  rw [hoistEach, numbered_append, List.map_append]
  rfl

theorem scopesAll_append : scopesAll (ss ++ ss') = scopesAll ss ++ scopesAll ss' := by
  induction ss
  case nil     => rfl
  case cons hi => rw [List.cons_append, scopesAll, scopesAll, hi, List.append_assoc]

theorem scopesAll_declarations : scopesAll (declarations next body) = [] := by
  rw [declarations]
  induction declared next body
  case nil     => rfl
  case cons hi => rw [List.map_cons, scopesAll, hi]; rfl

theorem scopesAll_hoistScope
    (inner : scopesAll (hoistAll next (next + own body) body) =
      hoistEach (next + own body) (scopesAll body)) :
    hoistScope next body :: scopesAll (hoistScope next body) =
    hoistEach next (body :: scopesAll body) := by
  rw [hoistScope, scopesAll_append, scopesAll_declarations, List.nil_append, inner]
  rfl

-- The scopes of a hoisted statement are its scopes, hoisted.
mutual

theorem scopes_hoist (first next : Nat) :
    ∀ s : Stmt, (s.hoist first next).scopes = hoistEach next s.scopes
  | block body | forLoop _ _ _ body | whileLoop _ body | doLoop body _ =>
    scopesAll_hoistScope (scopesAll_hoistAll _ _ body)
  | branch _ body none => scopesAll_hoistScope (scopesAll_hoistAll _ _ body)
  | branch _ thenBody (some elseBody) => by
    have thenScopes := scopesAll_hoistScope (scopesAll_hoistAll next _ thenBody)
    have elseScopes := scopesAll_hoistScope (scopesAll_hoistAll
      (next + reserved (thenBody :: scopesAll thenBody)) _ elseBody)
    rw [scopes, hoistEach_append, ← thenScopes, ← elseScopes]
    rfl
  | switch _ sections => scopesSections_hoistSections next sections
  | eval _ | declare .. | ret _ | breakLoop | continueLoop => rfl

theorem scopesAll_hoistAll (first next : Nat) :
    ∀ ss : List Stmt, scopesAll (hoistAll first next ss) = hoistEach next (scopesAll ss)
  | []      => rfl
  | s :: ss => by
    rw [hoistAll, scopesAll, scopesAll, hoistEach_append, scopes_hoist _ _ s,
      scopesAll_hoistAll _ _ ss]

theorem scopesSections_hoistSections (next : Nat) : ∀ sections,
    scopesSections (hoistSections next sections) = hoistEach next (scopesSections sections)
  | []                => rfl
  | (_, body) :: rest => by
    have here := scopesAll_hoistScope (scopesAll_hoistAll next _ body)
    have later := scopesSections_hoistSections (next + reserved (body :: scopesAll body)) rest
    rw [scopesSections, hoistEach_append, ← here, ← later]
    rfl

end

theorem namedAll_toList (value : Option Expr) :
    Expr.namedAll first value.toList = (value.map (Expr.named first)).toList := by
  cases value <;> rfl

-- The header of a hoisted statement is its header, named.
mutual

theorem ownExprs_hoist (first next : Nat) :
    ∀ s : Stmt, (s.hoist first next).ownExprs = Expr.namedAll first s.ownExprs
  | declare _ _ init => (namedAll_toList init).symm
  | ret value => (namedAll_toList value).symm
  | forLoop init condition step _ => by
    have starts := ownExprsAll_hoistAll first next init
    simp only [hoist, ownExprs, Expr.namedAll_append, starts, namedAll_toList,
      Expr.discardsAll_append, List.length_append, Nat.add_assoc]
  | branch _ _ (some _) | branch _ _ none => rfl
  | block _ | eval _ | whileLoop .. | doLoop .. | switch .. | breakLoop | continueLoop => rfl

theorem ownExprsAll_hoistAll (first next : Nat) : ∀ ss : List Stmt,
    ownExprsAll (hoistAll first next ss) = Expr.namedAll first (ownExprsAll ss)
  | []      => rfl
  | s :: ss => by
    rw [hoistAll, ownExprsAll, ownExprsAll, Expr.namedAll_append, ownExprs_hoist _ _ s,
      ownExprsAll_hoistAll _ _ ss]

end

theorem headerExprs_eq (body : List Stmt) :
    headerExprs body = Expr.subtermsAll (ownExprsAll body) :=
  (Expr.subtermsAll_eq _).symm

theorem own_eq (body : List Stmt) : own body = (Expr.discardsAll (ownExprsAll body)).length := by
  rw [own, discardedTypes, headerExprs_eq, Expr.filterMap_subtermsAll]

theorem ownExprsAll_declarations : ownExprsAll (declarations next body) = [] := by
  rw [declarations]
  induction declared next body
  case nil     => rfl
  case cons hi => rw [List.map_cons, ownExprsAll, hi]; rfl

-- What is written in a scope's headers stays in place.
theorem headerExprs_hoistAll :
    headerExprs (hoistAll first next body) = Expr.namedEach first (headerExprs body) := by
  rw [headerExprs_eq, headerExprs_eq, ownExprsAll_hoistAll, Expr.subtermsAll_namedAll]

theorem headerExprs_hoistScope :
    headerExprs (hoistScope next body) = Expr.namedEach next (headerExprs body) := by
  rw [headerExprs, hoistScope, ownExprsAll_eq, List.flatMap_append, ← ownExprsAll_eq,
    ← ownExprsAll_eq, ownExprsAll_declarations]
  exact headerExprs_hoistAll

theorem outputVariables_hoistScope : outputVariables (hoistScope next body) = [] := by
  rw [outputVariables, headerExprs_hoistScope, Expr.filterMap_namedEach Expr.outVariable?_named]
  rfl

theorem discardedTypes_hoistScope : discardedTypes (hoistScope next body) = [] := by
  rw [discardedTypes, headerExprs_hoistScope, Expr.filterMap_namedEach Expr.discardType?_named]

-- A statement that may stand in the header of a loop.
def isSimple : Stmt → Bool
  | eval _ | declare .. => true
  | _                   => false

-- All outputs in the header of the statement are come to.
structure Exposed (s : Stmt) : Prop where
  simple  : ∀ first ∈ s.initializers, first.isSimple
  reaches : ∀ e ∈ s.ownExprs, e.Reaches

def ExposedAll (scopes : List (List Stmt)) : Prop :=
  ∀ body ∈ scopes, ∀ s ∈ body, s.Exposed

theorem ExposedAll.head (h : ExposedAll (body :: scopes)) : ∀ s ∈ body, s.Exposed :=
  h body (.head _)

theorem ExposedAll.tail (h : ExposedAll (body :: scopes)) : ExposedAll scopes :=
  fun body mem => h body (.tail _ mem)

theorem ExposedAll.left (h : ExposedAll (scopes ++ scopes')) : ExposedAll scopes :=
  fun body mem => h body (List.mem_append_left _ mem)

theorem ExposedAll.right (h : ExposedAll (scopes ++ scopes')) : ExposedAll scopes' :=
  fun body mem => h body (List.mem_append_right _ mem)

end Stmt

namespace Glsl

-- Written in the same way.
def Simple.Alike (as bs : List Simple) : Prop := bs.map text = as.map text

def Item.Alike (a b : Item) : Prop := ∀ depth, b.text depth = a.text depth

def Item.AllAlike (as bs : List Item) : Prop := ∀ depth, textAll depth bs = textAll depth as

def Scope.Alike (a b : Scope) : Prop := ∀ depth, b.text depth = a.text depth

def SectionsAlike (as bs : List (List String × Scope)) : Prop :=
  ∀ depth, sectionsText depth bs = sectionsText depth as

theorem Item.textAll_append (depth : Nat) (items items' : List Item) :
    textAll depth (items ++ items') = textAll depth items ++ textAll depth items' := by
  induction items
  case nil     => simp [textAll]
  case cons hi => rw [List.cons_append, textAll, textAll, hi, String.append_assoc]

end Glsl

namespace Emission

variable {env : Emission} {first next : Nat} {body : List Stmt}

theorem lowerSimple_draws (s : Stmt) (simple : s.isSimple) (reaches : ∀ e ∈ s.ownExprs, e.Reaches)
    (first next : Nat) :
    Draws first (Expr.discardsAll s.ownExprs).length (fun a b => b.text = a.text)
      (env.lowerSimple s) (env.lowerSimple (s.hoist first next)) := by
  cases s
  case eval e =>
    rw [Stmt.hoist, lowerSimple, lowerSimple, Stmt.ownExprs, Expr.discardsAll_singleton]
    refine (lower_draws env e (reaches e (.head _)) first).map ?_
    rintro term _ rfl
    exact Term.text_spelled term
  case declare name ty init =>
    have typed (supply : Supply) : Follows supply supply (fun a b => b = a)
        (liftExcept (env.declaration name ty)) (liftExcept (env.declaration name ty)) :=
      .liftExcept fun decl known => ⟨decl, known, rfl⟩
    cases init
    case none =>
      refine .of_follows fun _ => (typed _).map ?_
      rintro decl _ rfl
      rfl
    case some e =>
      rw [Stmt.hoist, Option.map_some, lowerSimple, lowerSimple, Stmt.ownExprs, Option.toList_some,
        Expr.discardsAll_singleton]
      refine .before typed ?_
      rintro decl _ rfl
      refine (lower_draws env e (reaches e (.head _)) first).map ?_
      rintro term _ rfl
      simp only [Simple.text, Term.text_spelled]
  all_goals cases simple

theorem initializers_draws : ∀ init : List Stmt, (∀ s ∈ init, s.isSimple) →
    (∀ e ∈ Stmt.ownExprsAll init, e.Reaches) → ∀ first next,
    Draws first (Expr.discardsAll (Stmt.ownExprsAll init)).length Simple.Alike
      (init.mapM env.lowerSimple) ((Stmt.hoistAll first next init).mapM env.lowerSimple)
  | [], _, _, _, _ => .pure rfl
  | s :: ss, simple, reaches, first, next => by
    rw [Stmt.hoistAll, List.mapM_cons, List.mapM_cons, Stmt.ownExprsAll, Expr.discardsAll_append,
      List.length_append]
    rw [Stmt.ownExprsAll] at reaches
    refine (lowerSimple_draws s (simple s (.head _))
      (fun e mem => reaches e (List.mem_append_left _ mem)) _ _).bind fun a b here => ?_
    refine (initializers_draws ss (fun s mem => simple s (.tail _ mem))
      (fun e mem => reaches e (List.mem_append_right _ mem)) _ _).map fun as bs later => ?_
    rw [Simple.Alike, List.map_cons, List.map_cons, here, later]

theorem option_draws (value : Option Expr) (reaches : ∀ e ∈ value.toList, e.Reaches) :
    Draws first (Expr.discardsAll value.toList).length (fun a b => b = a.map Term.spelled)
      (value.mapM env.lower) ((value.map (Expr.named first)).mapM env.lower) := by
  cases value
  case none => exact .pure rfl
  case some e =>
    rw [Option.toList_some, Expr.discardsAll_singleton]
    refine (lower_draws env e (reaches e (.head _)) first).map ?_
    rintro term _ rfl
    rfl

theorem lowerStmts_append (ss ss' : List Stmt) : env.lowerStmts (ss ++ ss') = (do
    let items ← env.lowerStmts ss
    return items ++ (← env.lowerStmts ss')) := by
  induction ss
  case nil => simp [lowerStmts]
  case cons hi => simp [lowerStmts, hi]

theorem mapM_liftExcept {f : α → Except Error β} {as : List α} {bs : List β} {s s' : Emitter}
    (h : as.mapM (fun a => (liftExcept (f a) : EmitM β)) s = .ok bs s') :
    as.Forall₂ (fun a b => f a = .ok b) bs ∧ s' = s := by
  induction as generalizing bs s
  case nil =>
    cases h
    exact ⟨.nil, rfl⟩
  case cons a as hi =>
    rw [List.mapM_cons] at h
    have ⟨b, s₁, here, h⟩ := exists_of_bind_eq_ok h
    have ⟨bs, s₂, later, h⟩ := exists_of_bind_eq_ok h
    cases h
    have ⟨known, kept⟩ := liftExcept_eq_ok_iff.mp here
    subst kept
    have ⟨each, kept⟩ := hi later
    exact ⟨.cons known each, kept⟩

theorem reserveDiscard_eq_ok {ty : TypeRef} {d : String × Nat} {s s' : Emitter}
    (h : env.reserveDiscard ty s = .ok d s') : env.target.typeName ty = .ok d.1 ∧
    d.2 = s.nextDiscard ∧ s' = { s with nextDiscard := s.nextDiscard + 1 } := by
  have ⟨number, s₁, taken, h⟩ := exists_of_bind_eq_ok h
  cases taken
  have ⟨mapped, s₂, typed, h⟩ := exists_of_bind_eq_ok h
  cases h
  have ⟨known, kept⟩ := liftExcept_eq_ok_iff.mp typed
  exact ⟨known, rfl, kept⟩

theorem mapM_reserveDiscard {tys : List TypeRef} {discards : List (String × Nat)} {s s' : Emitter}
    (h : tys.mapM env.reserveDiscard s = .ok discards s') :
    (tys.zipIdx s.nextDiscard).Forall₂
      (fun d d' => env.target.typeName d.1 = .ok d'.1 ∧ d'.2 = d.2) discards ∧
    s' = { s with nextDiscard := s.nextDiscard + tys.length } := by
  induction tys generalizing discards s
  case nil =>
    cases h
    exact ⟨.nil, rfl⟩
  case cons ty tys hi =>
    rw [List.mapM_cons] at h
    have ⟨d, s₁, here, h⟩ := exists_of_bind_eq_ok h
    have ⟨ds, s₂, later, h⟩ := exists_of_bind_eq_ok h
    cases h
    have ⟨typed, number, step⟩ := reserveDiscard_eq_ok here
    subst step
    have ⟨each, kept⟩ := hi later
    refine ⟨.cons ⟨typed, number⟩ each, ?_⟩
    rw [kept]
    simp only [List.length_cons, Nat.add_assoc, Nat.add_comm 1]

theorem lowerStmts_declarations {vars : List (String × TypeRef)} {decls : List Declaration}
    (h : vars.Forall₂ (fun v decl => env.declaration v.1 v.2 = .ok decl) decls) (s : Emitter) :
    env.lowerStmts (vars.map fun v => .declare v.1 v.2 none) s =
    .ok (decls.map fun decl => .simple (.declare decl none)) s := by
  induction h
  case nil => rfl
  case cons v decl vars decls known _ hi =>
    rw [List.map_cons, lowerStmts, lowerStmt, lowerSimple, known]
    exact bind_eq_ok_of rfl (bind_eq_ok_of hi rfl)

-- What stands at the top of a scope, and how it is written there.
theorem withScope_eq_ok {target : Option String} {lowered : EmitM (List Item)} {scope : Scope}
    {s s' : Emitter} (h : env.withScope target body lowered s = .ok scope s') :
    ∃ outputs discards items s₁, scope = .mk target outputs discards items ∧
      (outputVariables body).Forall₂ (fun v decl => env.declaration v.1 v.2 = .ok decl) outputs ∧
      ((discardedTypes body).zipIdx s.nextDiscard).Forall₂
        (fun d d' => env.target.typeName d.1 = .ok d'.1 ∧ d'.2 = d.2) discards ∧
      lowered { s with
        discards    := List.range' s.nextDiscard (Stmt.own body) :: s.discards
        nextDiscard := s.nextDiscard + Stmt.own body } = .ok items s₁ ∧
      s' = { s₁ with discards := s₁.discards.tail } := by
  have ⟨outputs, s₁, declared, h⟩ := exists_of_bind_eq_ok h
  have ⟨discards, s₂, reserved, h⟩ := exists_of_bind_eq_ok h
  have ⟨_, s₃, pushed, h⟩ := exists_of_bind_eq_ok h
  have ⟨items, s₄, lowered, h⟩ := exists_of_bind_eq_ok h
  have ⟨_, s₅, popped, h⟩ := exists_of_bind_eq_ok h
  cases h
  cases pushed
  cases popped
  have ⟨declares, kept⟩ := mapM_liftExcept declared
  subst kept
  have ⟨reserves, kept⟩ := mapM_reserveDiscard reserved
  subst kept
  have numbers : discards.map Prod.snd = List.range' s₁.nextDiscard (Stmt.own body) := by
    rw [Stmt.own, ← List.zipIdx_map_snd]
    exact map_eq_map_of_forall₂ reserves fun _ _ => And.right
  rw [numbers] at lowered
  exact ⟨outputs, discards, items, s₄, rfl, declares, reserves, lowered, rfl⟩

def discardDeclaration (d : String × Nat) : Declaration := ⟨d.1, discardName d.2⟩

theorem declared_declares {outputs : List Declaration} {discards : List (String × Nat)}
    (declares : (outputVariables body).Forall₂
      (fun v decl => env.declaration v.1 v.2 = .ok decl) outputs)
    (reserves : ((discardedTypes body).zipIdx next).Forall₂
      (fun d d' => env.target.typeName d.1 = .ok d'.1 ∧ d'.2 = d.2) discards) :
    (Stmt.declared next body).Forall₂ (fun v decl => env.declaration v.1 v.2 = .ok decl)
      (outputs ++ discards.map discardDeclaration) := by
  refine List.rel_append declares ?_
  rw [List.forall₂_map_left_iff, List.forall₂_map_right_iff]
  refine reserves.imp fun d d' h => ?_
  rw [declaration, h.left, identifier_discardName, ← h.right]
  rfl

theorem withScope_hoistScope {target : Option String} {decls : List Declaration}
    {items : List Item} {s s' : Emitter}
    (declares : (Stmt.declared next body).Forall₂
      (fun v decl => env.declaration v.1 v.2 = .ok decl) decls)
    (run : env.lowerStmts (Stmt.hoistAll next (next + Stmt.own body) body)
      { s with discards := [] :: s.discards } = .ok items s') :
    env.withScope target (Stmt.hoistScope next body)
      (env.lowerStmts (Stmt.hoistScope next body)) s =
    .ok (.mk target [] [] ((decls.map fun decl => .simple (.declare decl none)) ++ items))
      { s' with discards := s'.discards.tail } := by
  rw [withScope, Stmt.outputVariables_hoistScope, Stmt.discardedTypes_hoistScope]
  refine bind_eq_ok_of rfl (bind_eq_ok_of rfl (bind_eq_ok_of rfl (bind_eq_ok_of ?_ rfl)))
  rw [Stmt.hoistScope, lowerStmts_append]
  exact bind_eq_ok_of (lowerStmts_declarations declares _) (bind_eq_ok_of run rfl)

theorem textAll_declarations (depth : Nat) (decls : List Declaration) :
    Item.textAll depth (decls.map fun decl => .simple (.declare decl none)) =
    String.join (decls.map fun decl => line depth (decl.text ++ ";")) := by
  induction decls
  case nil => rfl
  case cons decl decls hi =>
    rw [List.map_cons, Item.textAll, hi, List.map_cons, String.join_cons]
    rfl

theorem scopeHeader_eq (depth : Nat) (target : Option String) (outputs : List Declaration)
    (discards : List (String × Nat)) :
    scopeHeader depth target outputs discards = scopeHeader depth target [] [] ++
      Item.textAll depth ((outputs ++ discards.map discardDeclaration).map
        fun decl => .simple (.declare decl none)) := by
  have spelled : ((discards.map discardDeclaration).map fun decl => line depth (decl.text ++ ";")) =
      discards.map fun d => line depth (d.1 ++ " " ++ discardName d.2 ++ ";") := by
    rw [List.map_map]
    rfl
  rw [textAll_declarations, List.map_append, String.join_append, spelled]
  simp only [scopeHeader, List.map_nil, String.join_nil, String.append_empty, String.append_assoc]

theorem alike_mk {target : Option String} {outputs : List Declaration}
    {discards : List (String × Nat)} {items items' : List Item} (h : Item.AllAlike items items') :
    Scope.Alike (.mk target outputs discards items) (.mk target [] []
      (((outputs ++ discards.map discardDeclaration).map
        fun decl => .simple (.declare decl none)) ++ items')) := by
  intro depth
  rw [Scope.text, Scope.text, scopeHeader_eq (depth + 1) target outputs, Item.textAll_append,
    h (depth + 1)]
  simp only [String.append_assoc]

-- Statements are written as they are once hoisted. Their headers draw from the innermost queue, and
-- the scopes inside them take new numbers.
def Hoists (env : Emission) (ss : List Stmt) : Prop :=
  ∀ first next rest outer,
    Follows
      ⟨(List.range' first (Expr.discardsAll (Stmt.ownExprsAll ss)).length ++ rest) :: outer, next⟩
      ⟨rest :: outer, next + Stmt.reserved (Stmt.scopesAll ss)⟩ Item.AllAlike (env.lowerStmts ss)
      (env.lowerStmts (Stmt.hoistAll first next ss))

theorem scope_follows (items : env.Hoists body) {next : Nat} {queues : List (List Nat)}
    {target : Option String} :
    Follows ⟨queues, next⟩ ⟨queues, next + Stmt.reserved (body :: Stmt.scopesAll body)⟩ Scope.Alike
      (env.withScope target body (env.lowerStmts body))
      (env.withScope target (Stmt.hoistScope next body)
        (env.lowerStmts (Stmt.hoistScope next body))) := by
  intro s scope s' supplied h
  have ⟨queues_eq, next_eq⟩ : s.discards = queues ∧ s.nextDiscard = next :=
    Supply.mk.injEq .. ▸ supplied
  subst queues_eq next_eq
  obtain ⟨outputs, discards, list, s₁, rfl, declares, reserves, lowered, rfl⟩ := withScope_eq_ok h
  have ⟨left, follow⟩ := items s.nextDiscard (s.nextDiscard + Stmt.own body) [] s.discards _ _ _
    (by rw [← Stmt.own_eq, List.append_nil]; rfl) lowered
  refine ⟨?_, fun supply => ?_⟩
  · have ⟨queues, next⟩ : s₁.discards = [] :: s.discards ∧ _ := Supply.mk.injEq .. ▸ left
    simp [Emitter.supply, queues, next, Nat.add_assoc]
  · have ⟨hoisted, run, alike⟩ := follow ⟨[] :: supply.queues, supply.next⟩
    have declares := declared_declares declares reserves
    refine ⟨_, (withScope_hoistScope (s := s.drawing supply) declares run).trans ?_, alike_mk alike⟩
    rfl

theorem header_follows {e : Expr} (reaches : e.Reaches) {first next : Nat} {rest : List Nat}
    {outer : List (List Nat)} :
    Follows ⟨(List.range' first (Expr.discardsAll [e]).length ++ rest) :: outer, next⟩
      ⟨rest :: outer, next⟩ Term.Spells (env.lower e) (env.lower (e.named first)) := by
  rw [Expr.discardsAll_singleton]
  exact lower_draws env e reaches first rest outer next

mutual

theorem lowerStmt_follows (env : Emission) : ∀ s : Stmt, s.Exposed → Stmt.ExposedAll s.scopes →
    ∀ first next rest outer,
    Follows ⟨(List.range' first (Expr.discardsAll s.ownExprs).length ++ rest) :: outer, next⟩
      ⟨rest :: outer, next + Stmt.reserved s.scopes⟩ Item.Alike (env.lowerStmt s)
      (env.lowerStmt (s.hoist first next))
  | .block body, _, inside, first, next, rest, outer => by
    have inner := lowerStmts_follows env body inside.head inside.tail
    rw [Stmt.hoist, lowerStmt, lowerStmt]
    refine (scope_follows inner).map fun scope scope' alike depth => ?_
    rw [Item.text, Item.text, alike]
  | .eval e, here, _, first, next, rest, outer => by
    rw [Stmt.hoist, lowerStmt, lowerStmt]
    refine (header_follows (here.reaches e (.head _))).map ?_
    rintro term _ rfl depth
    simp only [Item.text, Simple.text, Term.text_spelled]
  | .declare name ty init, here, _, first, next, rest, outer => by
    rw [lowerStmt]
    refine (lowerSimple_draws _ rfl here.reaches first next rest outer next).map
      fun a b same depth => ?_
    rw [Item.text, Item.text, same]
  | .ret none, _, _, _, _, _, _ => .pure fun _ => rfl
  | .ret (some value), here, _, first, next, rest, outer => by
    rw [Stmt.hoist, lowerStmt, Option.map_some, lowerStmt]
    refine (header_follows (here.reaches value (.head _))).map ?_
    rintro term _ rfl depth
    simp only [Item.text, Term.text_spelled]
  | .branch condition thenBody none, here, inside, first, next, rest, outer => by
    have inner := lowerStmts_follows env thenBody inside.head inside.tail
    rw [Stmt.hoist, lowerStmt, lowerStmt]
    refine (header_follows (here.reaches condition (.head _))).bind ?_
    rintro term _ rfl
    refine (scope_follows inner).map fun scope scope' alike depth => ?_
    simp only [Item.text, Term.text_spelled, alike depth]
  | .branch condition thenBody (some elseBody), here, inside, first, next, rest, outer => by
    have thenInner := lowerStmts_follows env thenBody inside.left.head inside.left.tail
    have elseInner := lowerStmts_follows env elseBody inside.right.head inside.right.tail
    rw [Stmt.hoist, lowerStmt, lowerStmt]
    refine (header_follows (here.reaches condition (.head _))).bind ?_
    rintro term _ rfl
    refine (scope_follows thenInner).bind fun a a' alike => ?_
    rw [Stmt.scopes, Stmt.reserved_append, ← Nat.add_assoc]
    refine (scope_follows elseInner).map fun b b' alike' depth => ?_
    simp only [Item.text, Term.text_spelled, alike depth, alike' depth]
  | .forLoop init condition step body, here, inside, first, next, rest, outer => by
    have inits (e) (mem : e ∈ Stmt.ownExprsAll init) : e.Reaches :=
      here.reaches e (List.mem_append_left _ (List.mem_append_left _ mem))
    have conditions (e) (mem : e ∈ condition.toList) : e.Reaches :=
      here.reaches e (List.mem_append_left _ (List.mem_append_right _ mem))
    have steps (e) (mem : e ∈ step) : e.Reaches := here.reaches e (List.mem_append_right _ mem)
    have inner := lowerStmts_follows env body inside.head inside.tail
    rw [Stmt.hoist, lowerStmt, lowerStmt, Stmt.ownExprs, Expr.discardsAll_append,
      Expr.discardsAll_append, List.length_append, List.length_append, ← List.range'_append_1,
      ← List.range'_append_1, ← Nat.add_assoc, List.append_assoc, List.append_assoc]
    refine (initializers_draws init here.simple inits _ _ _ _ _).bind fun a b starts => ?_
    refine (option_draws condition conditions _ _ _).bind ?_
    rintro condition _ rfl
    refine (lowerAll_draws env step steps _ _ _ _).bind ?_
    rintro operands _ rfl
    refine (scope_follows inner).map fun scope scope' alike depth => ?_
    have starts : b.map Simple.text = a.map Simple.text := starts
    have steps : Term.textArgs ((operands.map Operand.spelled).map Operand.term) =
        Term.textArgs (operands.map Operand.term) := by
      rw [Operand.map_term_spelled, ← Term.spelledAll_eq_map, Term.textArgs_spelledAll]
    cases condition
    all_goals
      simp only [Item.text, alike depth, starts, steps, Option.map_none, Option.map_some,
        Term.text_spelled]
  | .whileLoop condition body, here, inside, first, next, rest, outer => by
    have inner := lowerStmts_follows env body inside.head inside.tail
    rw [Stmt.hoist, lowerStmt, lowerStmt]
    refine (header_follows (here.reaches condition (.head _))).bind ?_
    rintro term _ rfl
    refine (scope_follows inner).map fun scope scope' alike depth => ?_
    simp only [Item.text, Term.text_spelled, alike depth]
  | .doLoop body condition, here, inside, first, next, rest, outer => by
    have inner := lowerStmts_follows env body inside.head inside.tail
    rw [Stmt.hoist, lowerStmt, lowerStmt]
    refine (scope_follows inner).bind fun scope scope' alike => ?_
    refine (header_follows (here.reaches condition (.head _))).map ?_
    rintro term _ rfl depth
    simp only [Item.text, Term.text_spelled, alike depth]
  | .switch scrutinee sections, here, inside, first, next, rest, outer => by
    rw [Stmt.hoist, lowerStmt, lowerStmt]
    refine (header_follows (here.reaches scrutinee (.head _))).bind ?_
    rintro term _ rfl
    refine (lowerSections_follows env sections inside _ _).map fun a b alike depth => ?_
    simp only [Item.text, Term.text_spelled, alike depth]
  | .breakLoop, _, _, _, _, _, _ | .continueLoop, _, _, _, _, _, _ => .pure fun _ => rfl

theorem lowerStmts_follows (env : Emission) : ∀ ss : List Stmt, (∀ s ∈ ss, s.Exposed) →
    Stmt.ExposedAll (Stmt.scopesAll ss) → env.Hoists ss
  | [], _, _, _, _, _, _ => .pure fun _ => rfl
  | s :: ss, here, inside, first, next, rest, outer => by
    have one := lowerStmt_follows env s (here s (.head _)) inside.left first next
    have all := lowerStmts_follows env ss (fun s mem => here s (.tail _ mem)) inside.right
    rw [Stmt.hoistAll, lowerStmts, lowerStmts, Stmt.ownExprsAll, Expr.discardsAll_append,
      List.length_append, ← List.range'_append_1, List.append_assoc, Stmt.scopesAll,
      Stmt.reserved_append, ← Nat.add_assoc]
    refine (one _ _).bind fun a b alike => ?_
    refine (all _ _ _ _).map fun as bs alikes depth => ?_
    rw [Item.textAll, Item.textAll, alike, alikes]

theorem lowerSections_follows (env : Emission) : ∀ sections : List (List Label × List Stmt),
    Stmt.ExposedAll (Stmt.scopesSections sections) → ∀ next queues,
    Follows ⟨queues, next⟩ ⟨queues, next + Stmt.reserved (Stmt.scopesSections sections)⟩
      SectionsAlike (env.lowerSections sections)
      (env.lowerSections (Stmt.hoistSections next sections))
  | [], _, _, _ => .pure fun _ => rfl
  | (labels, body) :: rest, exposed, next, queues => by
    have inner := lowerStmts_follows env body exposed.left.head exposed.left.tail
    have later := lowerSections_follows env rest exposed.right
    rw [Stmt.hoistSections, lowerSections, lowerSections, Stmt.scopesSections,
      Stmt.reserved_append, ← Nat.add_assoc]
    refine (scope_follows inner).bind fun a b alike => ?_
    refine (later _ _).map fun as bs alikes depth => ?_
    rw [sectionsText, sectionsText, alike, alikes]

end

end Emission
end Shading
