import Shading.Source
import Shading.Glsl.Identifier
/-!
Expressions of the target language, and how they are written.
-/

namespace Shading.Glsl

-- An expression of the target language. Nothing is grouped implicitly: a term is written with
-- exactly the parentheses that it has.
inductive Term where
  | atom (text : String)
  | discarded (number : Nat)
  | apply (function : String) (args : List Term)
  -- A call of a function of the program.
  | call (function : MethodId) (args : List Term)
  | binary (op : BinaryOp) (left right : Term)
  | unary (op : UnaryOp) (operand : Term)
  | assign (op : AssignOp) (target value : Term)
  -- A choice, which is always written in parentheses.
  | select (condition whenTrue whenFalse : Term)
  | group (inner : Term)
  | member (target : Term) (name : String)
  | index (target position : Term)
  | element (target : Term) (row column : Nat)

def discardName (number : Nat) : String := "_discard" ++ toString number

def elementText (row column : Nat) : String :=
  "[" ++ toString row ++ "][" ++ toString column ++ "]"

namespace Term

mutual

def text : Term → String
  | atom text => text
  | discarded number => discardName number
  | apply function args => function ++ "(" ++ textArgs args ++ ")"
  | call function args => functionName function ++ "(" ++ textArgs args ++ ")"
  | binary op left right => left.text ++ " " ++ op.symbol ++ " " ++ right.text
  | unary op operand =>
    if op.isTrailing then operand.text ++ op.symbol else op.symbol ++ operand.text
  | assign op target value => target.text ++ " " ++ op.symbol ++ " " ++ value.text
  | select condition whenTrue whenFalse =>
    "(" ++ condition.text ++ " ? " ++ whenTrue.text ++ " : " ++ whenFalse.text ++ ")"
  | group inner => "(" ++ inner.text ++ ")"
  | member target name => target.text ++ "." ++ name
  | index target position => target.text ++ "[" ++ position.text ++ "]"
  | element target row column => target.text ++ elementText row column

def textArgs : List Term → String
  | []           => ""
  | [arg]        => arg.text
  | arg :: args  => arg.text ++ ", " ++ textArgs args

end

end Term

structure Operand where
  term : Term
  ty   : TypeRef

namespace Operand

def isVector (o : Operand) : Bool := isVectorName o.ty.name

def isMatrix (o : Operand) : Bool := isMatrixName o.ty.name

end Operand
end Shading.Glsl
