import Shading.Glsl.Spelling
/-!
Statements and function definitions of the target language, and how they are written.

A scope declares at its top what its statements need: the outputs that they declare inline, and
a variable for each output that they throw away.
-/

namespace Shading.Glsl

structure Declaration where
  ty   : String
  name : String
  deriving DecidableEq

def Declaration.text (d : Declaration) : String := d.ty ++ " " ++ d.name

inductive Simple where
  | declare (decl : Declaration) (init : Option Term)
  | term (value : Term)
  | blank

def Simple.text : Simple → String
  | declare decl none        => decl.text
  | declare decl (some init) => decl.text ++ " = " ++ init.text
  | term value               => value.text
  | blank                    => ""

mutual

inductive Item where
  | simple (statement : Simple)
  | ret (value : Option Term)
  | scope (scope : Scope)
  | branch (condition : Term) (thenScope : Scope) (elseScope : Option Scope)
  | forLoop (init : List Simple) (condition : Option Term) (step : List Term) (body : Scope)
  | whileLoop (condition : Term) (body : Scope)
  | doLoop (body : Scope) (condition : Term)
  -- The labels of each section are written one after the other before its scope.
  | switch (scrutinee : Term) (sections : List (List String × Scope))
  | breakLoop
  | continueLoop

inductive Scope where
  -- `target` is the type of the value that the scope constructs and returns, if it is the body of a
  -- constructor. `outputs` are the outputs declared inline in the scope's own statements, and
  -- `discards` the types and numbers of the variables for discarded ones.
  | mk (target : Option String) (outputs : List Declaration) (discards : List (String × Nat))
    (items : List Item)

end

namespace Scope

def target : Scope → Option String
  | mk target _ _ _ => target

def outputs : Scope → List Declaration
  | mk _ outputs _ _ => outputs

def discards : Scope → List (String × Nat)
  | mk _ _ discards _ => discards

def items : Scope → List Item
  | mk _ _ _ items => items

end Scope

def line (depth : Nat) (text : String) : String :=
  String.join (List.replicate depth "    ") ++ text ++ "\n"

def scopeHeader (depth : Nat) (target : Option String) (outputs : List Declaration)
    (discards : List (String × Nat)) : String :=
  let constructed := match target with
    | some ty => line depth (ty ++ " " ++ constructorTarget ++ ";")
    | none    => ""
  let outputs := outputs.map fun d => line depth (d.text ++ ";")
  let discards := discards.map fun (ty, number) =>
    line depth (ty ++ " " ++ discardName number ++ ";")
  constructed ++ String.join outputs ++ String.join discards

-- A constructor ends by returning what it has constructed.
def scopeFooter (depth : Nat) : Option String → String
  | some _ => line depth ("return " ++ constructorTarget ++ ";")
  | none   => ""

mutual

def Scope.text (depth : Nat) : Scope → String
  | .mk target outputs discards items =>
    line depth "\x7b" ++ scopeHeader (depth + 1) target outputs discards ++
      Item.textAll (depth + 1) items ++ scopeFooter (depth + 1) target ++ line depth "\x7d"

def Item.text (depth : Nat) : Item → String
  | .simple statement => line depth (statement.text ++ ";")
  | .ret none => line depth "return;"
  | .ret (some value) => line depth ("return " ++ value.text ++ ";")
  | .scope scope => scope.text depth
  | .branch condition thenScope none =>
    line depth ("if (" ++ condition.text ++ ")") ++ thenScope.text depth
  | .branch condition thenScope (some elseScope) =>
    line depth ("if (" ++ condition.text ++ ")") ++ thenScope.text depth ++
      line depth "else" ++ elseScope.text depth
  | .forLoop init condition step body =>
    let init := String.intercalate ", " (init.map Simple.text)
    let condition := match condition with
      | some condition => condition.text
      | none           => ""
    line depth ("for (" ++ init ++ "; " ++ condition ++ "; " ++ Term.textArgs step ++ ")") ++
      body.text depth
  | .whileLoop condition body =>
    line depth ("while (" ++ condition.text ++ ")") ++ body.text depth
  | .doLoop body condition =>
    line depth "do" ++ body.text depth ++ line depth ("while (" ++ condition.text ++ ");")
  | .switch scrutinee sections =>
    line depth ("switch (" ++ scrutinee.text ++ ")") ++ line depth "\x7b" ++
      sectionsText depth sections ++ line depth "\x7d"
  | .breakLoop => line depth "break;"
  | .continueLoop => line depth "continue;"

def Item.textAll (depth : Nat) : List Item → String
  | []            => ""
  | item :: items => item.text depth ++ Item.textAll depth items

def sectionsText (depth : Nat) : List (List String × Scope) → String
  | []                      => ""
  | (labels, scope) :: rest =>
    String.join (labels.map (line depth)) ++ scope.text (depth + 1) ++ sectionsText depth rest

end

structure ParameterDecl where
  direction : Direction
  decl      : Declaration
  deriving DecidableEq

def ParameterDecl.text (p : ParameterDecl) : String :=
  match p.direction with
  | .input => p.decl.text
  | _      => directionKeyword p.direction ++ " " ++ p.decl.text

structure Definition where
  returnType : String
  name       : String
  parameters : List ParameterDecl
  body       : Scope

namespace Definition

def signature (d : Definition) : String :=
  d.returnType ++ " " ++ d.name ++ "(" ++
    String.intercalate ", " (d.parameters.map ParameterDecl.text) ++ ")"

def text (d : Definition) : String :=
  line 0 d.signature ++ d.body.text 0

end Definition
end Shading.Glsl
