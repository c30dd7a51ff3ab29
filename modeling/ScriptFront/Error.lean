import ScriptFront.Source.Position
import ScriptFront.Text.Quoted

namespace ScriptFront

/-- Why characters could not be cut into tokens. Stray characters are never the
cause: they become tokens of their own and are left to the grammar. -/
inductive LexError where
  /-- The source ended inside a string; the position is that of its opening quote. -/
  | unterminatedString (position : Position)
  /-- The source ended right after a backslash, whose position is given. -/
  | escapeAtEnd (position : Position)
  /-- A character was asked for at the end of the source. -/
  | unexpectedEnd (position : Position)
deriving DecidableEq, Repr

namespace LexError

/-- The place that an error of the lexer is reported at: where the string began, where the backslash
stands, or where characters were missing. -/
def position : LexError → Position
  | unterminatedString p => p
  | escapeAtEnd p => p
  | unexpectedEnd p => p

/-- What an error of the lexer says. The place is part of the text, in lines and columns. -/
def message : LexError → String
  | unterminatedString p => "Unterminated string literal starting at " ++ p.text
  | escapeAtEnd p => "Expected character after escape at " ++ p.text
  | unexpectedEnd p => "Unexpected end of input at " ++ p.text

end LexError

/-- The first violation of a grammar: what was wanted, and where and on which text it failed when a
token was there. Without a token there the place is the end of the last one, so that an error always
points somewhere. -/
structure ParseError where
  text : String
  span : Option Span := none
  found : Option String := none
deriving DecidableEq, Repr

/-- The wanted thing, then the offending text in quotes, then the place. -/
def ParseError.message (e : ParseError) : String :=
  e.text
    ++ (match e.found with
        | some found => ", found " ++ Text.quoted found
        | none => "")
    ++ (match e.span with
        | some span => " at " ++ span.start.text
        | none => "")

/-- Why a tree has no value: a name that no scope around it has, an operator that has no meaning on
numbers, or a construct that is not evaluated at all. -/
inductive EvalError where
  /-- No rule evaluates this kind of construct. -/
  | notImplemented (construct : String)
  /-- The operator has no meaning on numbers. -/
  | operatorNotAllowed (operator : String)
  /-- No scope in sight defines the name. -/
  | unknownIdentifier (name : String)
deriving DecidableEq, Repr

/-- What an error of the evaluator says. It names what could not be handled and no place. -/
def EvalError.message : EvalError → String
  | notImplemented construct => "Don't know how to evaluate `" ++ construct ++ "`"
  | operatorNotAllowed operator => "Operator `" ++ operator ++ "` is not allowed"
  | unknownIdentifier name => "`" ++ name ++ "` is not defined"

/-- Whatever can go wrong between a source and its value. The three stages follow each other, and
each has errors of its own, so the constructor tells how far the source came. -/
inductive Error where
  | lex (cause : LexError)
  | parse (cause : ParseError)
  | eval (cause : EvalError)
deriving DecidableEq, Repr

/-- What is shown for an error of the whole front end: the stage that failed, then what the error of
that stage says. -/
def Error.message : Error → String
  | lex cause => "Lex error: " ++ cause.message
  | parse cause => "Parse error: " ++ cause.message
  | eval cause => "Evaluation error: " ++ cause.message

end ScriptFront
