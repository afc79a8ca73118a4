import Shading.TypeRef
/-!
The typed syntax tree of method bodies: literals, symbols, expressions and statements.
-/

namespace Shading

structure Location where
  file   : String
  line   : Nat
  column : Nat
  deriving DecidableEq

def Location.text (l : Location) : String :=
  l.file ++ ":" ++ toString l.line ++ ":" ++ toString l.column

-- A folded constant. Floating point values are kept as the bits of their binary format.
inductive Literal where
  | bool   (value : Bool)
  | int    (value : Int)
  | uint   (value : Nat)
  | float  (bits : UInt32)
  | double (bits : UInt64)
  deriving DecidableEq

def Literal.ty : Literal → TypeRef
  | .bool _   => .primitive "bool" []
  | .int _    => .primitive "int" []
  | .uint _   => .primitive "uint" []
  | .float _  => .primitive "float" []
  | .double _ => .primitive "double" []

inductive SymbolKind where
  | local
  | parameter
  | field
  | property
  | method
  | type
  deriving DecidableEq

-- A resolved name. The owner is the declaring type, and empty for locals and parameters.
structure Symbol where
  owner : String
  name  : String
  kind  : SymbolKind
  deriving DecidableEq

namespace Symbol

def text (s : Symbol) : String :=
  if s.owner.isEmpty then s.name else s.owner ++ "." ++ s.name

def isData (s : Symbol) : Bool :=
  s.kind == .field || s.kind == .property

end Symbol

inductive BinaryOp where
  | add | subtract | multiply | divide | remainder
  | equal | notEqual | less | lessEqual | greater | greaterEqual
  | logicalAnd | logicalOr
  | bitAnd | bitOr | bitXor | shiftLeft | shiftRight
  deriving DecidableEq

namespace BinaryOp

def symbol : BinaryOp → String
  | add          => "+"
  | subtract     => "-"
  | multiply     => "*"
  | divide       => "/"
  | remainder    => "%"
  | equal        => "=="
  | notEqual     => "!="
  | less         => "<"
  | lessEqual    => "<="
  | greater      => ">"
  | greaterEqual => ">="
  | logicalAnd   => "&&"
  | logicalOr    => "||"
  | bitAnd       => "&"
  | bitOr        => "|"
  | bitXor       => "^"
  | shiftLeft    => "<<"
  | shiftRight   => ">>"

def isComparison : BinaryOp → Bool
  | equal | notEqual | less | lessEqual | greater | greaterEqual => true
  | _ => false

end BinaryOp

inductive UnaryOp where
  | negate | plus | logicalNot | bitNot
  | preIncrement | preDecrement | postIncrement | postDecrement
  deriving DecidableEq

namespace UnaryOp

def symbol : UnaryOp → String
  | negate                       => "-"
  | plus                         => "+"
  | logicalNot                   => "!"
  | bitNot                       => "~"
  | preIncrement | postIncrement => "++"
  | preDecrement | postDecrement => "--"

def isTrailing : UnaryOp → Bool
  | postIncrement | postDecrement => true
  | _ => false

end UnaryOp

inductive AssignOp where
  | assign | add | subtract | multiply | divide | remainder
  | bitAnd | bitOr | bitXor | shiftLeft | shiftRight
  deriving DecidableEq

def AssignOp.symbol : AssignOp → String
  | assign     => "="
  | add        => "+="
  | subtract   => "-="
  | multiply   => "*="
  | divide     => "/="
  | remainder  => "%="
  | bitAnd     => "&="
  | bitOr      => "|="
  | bitXor     => "^="
  | shiftLeft  => "<<="
  | shiftRight => ">>="

structure Node where
  ty       : TypeRef
  location : Option Location := none

inductive Expr where
  | literal     (node : Node) (value : Literal)
  | name        (node : Node) (symbol : Symbol)
  -- The instance under construction, or the shader object itself.
  | this        (node : Node)
  | member      (node : Node) (target : Expr) (symbol : Symbol)
  | index       (node : Node) (target position : Expr)
  | binary      (node : Node) (op : BinaryOp) (left right : Expr)
  | unary       (node : Node) (op : UnaryOp) (operand : Expr)
  | assign      (node : Node) (op : AssignOp) (target value : Expr)
  -- A statically dispatched call of a method of the type named `owner`.
  | call        (node : Node) (owner method : String) (args : List Expr)
  -- Construction of a value of the type of the node.
  | construct   (node : Node) (args : List Expr)
  | conditional (node : Node) (condition whenTrue whenFalse : Expr)
  | cast        (node : Node) (operand : Expr)
  | paren       (node : Node) (inner : Expr)
  | outVariable (node : Node) (name : String)
  | discard     (node : Node)

namespace Expr

def node : Expr → Node
  | literal n _ | name n _ | this n | member n _ _ | index n _ _ | binary n _ _ _ | unary n _ _
  | assign n _ _ _ | call n _ _ _ | construct n _ | conditional n _ _ _ | cast n _ | paren n _
  | outVariable n _ | discard n => n

def ty (e : Expr) : TypeRef := e.node.ty

def location (e : Expr) : Option Location := e.node.location

mutual

-- The expression and all expressions inside it, each before the ones inside it, left to right.
def subterms (e : Expr) : List Expr :=
  e :: match e with
    | literal .. | name .. | this _ | outVariable .. | discard _ => []
    | member _ target _ => target.subterms
    | index _ target position => target.subterms ++ position.subterms
    | binary _ _ left right => left.subterms ++ right.subterms
    | unary _ _ operand => operand.subterms
    | assign _ _ target value => target.subterms ++ value.subterms
    | call _ _ _ args | construct _ args => subtermsAll args
    | conditional _ condition whenTrue whenFalse =>
      condition.subterms ++ whenTrue.subterms ++ whenFalse.subterms
    | cast _ operand => operand.subterms
    | paren _ inner => inner.subterms

def subtermsAll : List Expr → List Expr
  | []      => []
  | e :: es => e.subterms ++ subtermsAll es

end

end Expr

inductive Label where
  | case (value : Literal)
  | otherwise
  deriving DecidableEq

-- A statement. The body of a branch or a loop is a list of statements that forms a scope.
inductive Stmt where
  | block        (body : List Stmt)
  | eval         (expr : Expr)
  | declare      (name : String) (ty : TypeRef) (init : Option Expr)
  | ret          (value : Option Expr)
  | branch       (condition : Expr) (thenBody : List Stmt) (elseBody : Option (List Stmt))
  | forLoop      (init : List Stmt) (condition : Option Expr) (step : List Expr)
    (body : List Stmt)
  | whileLoop    (condition : Expr) (body : List Stmt)
  | doLoop       (body : List Stmt) (condition : Expr)
  | switch       (scrutinee : Expr) (sections : List (List Label × List Stmt))
  | breakLoop
  | continueLoop

namespace Stmt

mutual

-- The expressions written in the statement itself, without those of nested bodies. The initializers
-- of a `for` loop belong to its header.
def ownExprs : Stmt → List Expr
  | block _ | breakLoop | continueLoop => []
  | eval e                             => [e]
  | declare _ _ init                   => init.toList
  | ret value                          => value.toList
  | branch condition _ _               => [condition]
  | whileLoop condition _              => [condition]
  | doLoop _ condition                 => [condition]
  | forLoop init condition step _      => ownExprsAll init ++ condition.toList ++ step
  | switch scrutinee _                 => [scrutinee]

def ownExprsAll : List Stmt → List Expr
  | []      => []
  | s :: ss => s.ownExprs ++ ownExprsAll ss

end

-- The statements directly inside the statement. A body counts as one block.
def children : Stmt → List Stmt
  | block body               => body
  | branch _ thenBody none   => [block thenBody]
  | branch _ thenBody (some elseBody) => [block thenBody, block elseBody]
  | forLoop _ _ _ body | whileLoop _ body | doLoop body _ => [block body]
  | switch _ sections        => sections.flatMap Prod.snd
  | eval _ | declare .. | ret _ | breakLoop | continueLoop => []

mutual

def exprs (s : Stmt) : List Expr :=
  s.ownExprs.flatMap Expr.subterms ++ match s with
    | block body | forLoop _ _ _ body | whileLoop _ body | doLoop body _ => exprsAll body
    | branch _ thenBody none => exprsAll thenBody
    | branch _ thenBody (some elseBody) => exprsAll thenBody ++ exprsAll elseBody
    | switch _ sections => exprsSections sections
    | eval _ | declare .. | ret _ | breakLoop | continueLoop => []

def exprsAll : List Stmt → List Expr
  | []      => []
  | s :: ss => s.exprs ++ exprsAll ss

def exprsSections : List (List Label × List Stmt) → List Expr
  | []                => []
  | (_, body) :: rest => exprsAll body ++ exprsSections rest

end

mutual

def declaredTypes : Stmt → List TypeRef
  | declare _ ty _ => [ty]
  | block body | whileLoop _ body | doLoop body _ => declaredTypesAll body
  | branch _ thenBody none => declaredTypesAll thenBody
  | branch _ thenBody (some elseBody) => declaredTypesAll thenBody ++ declaredTypesAll elseBody
  | forLoop init _ _ body => declaredTypesAll init ++ declaredTypesAll body
  | switch _ sections => declaredTypesSections sections
  | eval _ | ret _ | breakLoop | continueLoop => []

def declaredTypesAll : List Stmt → List TypeRef
  | []      => []
  | s :: ss => s.declaredTypes ++ declaredTypesAll ss

def declaredTypesSections : List (List Label × List Stmt) → List TypeRef
  | []                => []
  | (_, body) :: rest => declaredTypesAll body ++ declaredTypesSections rest

end

end Stmt
end Shading
