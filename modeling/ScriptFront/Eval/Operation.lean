import ScriptFront.Double.Remainder
import ScriptFront.Error
import ScriptFront.Script.TokenKind
import ScriptFront.Value

namespace ScriptFront.Eval

open Script (TokenKind)

/-- An operator on two numbers; only five have a meaning there. -/
def arithmetic (operator : TokenKind) (left right : Float) : Except EvalError Value :=
  match operator with
  | .plus => .ok (.number (left + right))
  | .dash => .ok (.number (left - right))
  | .asterisk => .ok (.number (left * right))
  | .slash => .ok (.number (left / right))
  | .percent => .ok (.number (Double.remainder left right))
  | other => .error (.operatorNotAllowed other.name)

/-- The number that a value counts as: booleans are one and zero, texts are none. -/
def numeric? : RealValue → Option Float
  | .number n => some n
  | .boolean true => some 1.0
  | .boolean false => some 0.0
  | .string _ => none

/-- An operator on two real values: numbers and booleans are calculated with; with
a text on either side, plus joins the two texts and any other operator fails to be
a number. -/
def realOperation (operator : TokenKind) (left right : RealValue) : Except EvalError Value :=
  match numeric? left, numeric? right with
  | some a, some b => arithmetic operator a b
  | _, _ => .ok (if operator = .plus then .string (left.text ++ right.text) else .nan)

/-- An operator on any two values. The left one decides first: without a real view
the outcome is not a number. A text on the left of something that has no real view
is joined to its text whatever the operator is. -/
def binaryOperation (operator : TokenKind) (left right : Value) : Except EvalError Value :=
  match left.real?, right.real? with
  | none, _ => .ok .nan
  | some (.string text), none => .ok (.string (text ++ right.text))
  | some _, none => .ok .nan
  | some left, some right => realOperation operator left right

end ScriptFront.Eval
