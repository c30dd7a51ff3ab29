import ScriptFront.Eval.Operation
import ScriptFront.Eval.Scopes
import ScriptFront.Script.Parse

namespace ScriptFront.Eval

open Script (Tree Construct)

mutual

/-- The value of a construct, where `lookup` gives the values of names. Literals,
names and binary expressions have one, and so have the statements around them. -/
def evaluateConstruct (lookup : String → Except EvalError Value) :
    Construct → Except EvalError Value
  | .program body => evaluateAll lookup .undefined body
  | .expressionStatement inner => evaluate lookup inner
  | .numericLiteral value _ _ => .ok (.number value)
  | .stringLiteral value _ => .ok (.string value)
  | .identifier symbol => lookup symbol
  | .binaryExpression _ operator left right =>
    match evaluate lookup left with
    | .error e => .error e
    | .ok a =>
      match evaluate lookup right with
      | .error e => .error e
      | .ok b => binaryOperation operator a b
  | construct => .error (.notImplemented construct.name)

/-- The value of a tree. -/
def evaluate (lookup : String → Except EvalError Value) : Node Construct → Except EvalError Value
  | ⟨construct, _⟩ => evaluateConstruct lookup construct

/-- The value of the last of some statements, or `last` if there are none; the first
error ends the evaluation. -/
def evaluateAll (lookup : String → Except EvalError Value) (last : Value) :
    List (Node Construct) → Except EvalError Value
  | [] => .ok last
  | statement :: statements =>
    match evaluate lookup statement with
    | .error e => .error e
    | .ok value => evaluateAll lookup value statements

end

/-- The value of a tree seen from scope `i`. -/
def Scopes.evaluate (scopes : Scopes) (i : Nat) (tree : Tree) : Except EvalError Value :=
  Eval.evaluate (scopes.lookup i) tree

/-- The value of a tree in a fresh global scope. -/
def interpret (tree : Tree) : Except EvalError Value := (Scopes.global {}).evaluate 0 tree

/-- Parses a source and evaluates it in a fresh global scope. The two stages have errors of their
own, and neither can hide one of the other. -/
def run (source : String) : Except Error Value := do
  let parsed ← Script.parse source
  (interpret parsed.tree).mapError .eval

end ScriptFront.Eval
