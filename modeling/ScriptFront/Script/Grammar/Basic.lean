import ScriptFront.Parsing.Parser
import ScriptFront.Script.Complaint
import ScriptFront.Script.Properties
import ScriptFront.Script.Tree

namespace ScriptFront.Script

/-- The place of a parse in the tokens of a script. -/
abbrev State := TokenCursor TokenKind Properties

/-- A rule of the grammar. -/
abbrev Rule := Parser TokenKind Properties

/-- The rules that the grammar comes back to inside its own constructs. Each is
called only behind a token that the calling rule has taken. The argument tells
whether `in` is an operator there: in the first clause of a `for` it ends the clause. -/
structure Rules where
  statement : Bool → Rule Tree
  expression : Bool → Rule Tree
  /-- A name or a pattern that gets a value. -/
  binding : Bool → Rule Tree
  ifStatement : Bool → Rule Tree

/-- Whether the first token behind the current one that is not layout is of the
given kind. -/
def followedBy (kind : TokenKind) (s : State) : Bool :=
  match s.rest with
  | [] => false
  | _ :: tokens => (tokens.dropWhile Token.isSpace).head?.any (·.kind = kind)

/-- Whether an arrow stands behind the parenthesis that closes the `depth` open
ones. A closing parenthesis counts as the last one also when none is open. -/
def arrowBehind : Nat → List (Token TokenKind) → Bool
  | _, [] => false
  | depth, token :: tokens =>
    match token.kind with
    | .openParen => arrowBehind (depth + 1) tokens
    | .closeParen =>
      if depth ≤ 1 then (tokens.dropWhile Token.isSpace).head?.any (·.kind = .arrow)
      else arrowBehind (depth - 1) tokens
    | _ => arrowBehind depth tokens

/-- Whether the parenthesis at the cursor opens the parameters of an arrow function. -/
def arrowFollows (s : State) : Bool := arrowBehind 0 s.rest

/-- Whether a token may stand freely between two statements. -/
def isSeparator (token : Token TokenKind) : Bool := token.isSpace || token.kind = .semicolon

/-- Moves over layout. -/
def trim : Rule Unit := fun s => .ok () (s.skipWhile Token.isSpace)

/-- Moves over layout and semicolons. -/
def trimSeparators : Rule Unit := fun s => .ok () (s.skipWhile isSeparator)

/-- Takes the current token and the layout behind it. -/
def eat : Rule (Token TokenKind) := do
  let token ← Parser.consume
  trim
  return token

/-- Complains about the current token. -/
def complain {α : Type} (complaint : Complaint) : Rule α := Parser.fail complaint.message

/-- Takes the current token if it is of the given kind. -/
def expect (kind : TokenKind) (complaint : Complaint) : Rule (Token TokenKind) :=
  Parser.expect kind complaint.message

/-- Whether the current token is of the given kind. -/
def at? (kind : TokenKind) : Rule Bool := Parser.observe (·.is kind)

/-- Whether the current token is of one of the given kinds. -/
def atAny? (kinds : List TokenKind) : Rule Bool := Parser.observe (·.isAny kinds)

/-- The kind of the current token. -/
def currentKind? : Rule (Option TokenKind) := Parser.observe (·.currentKind)

/-- Takes the comma behind an item of a list, with the layout around it, and tells
whether there was one. -/
def commaFollows : Rule Bool := do
  trim
  if ← Parser.accept .comma then
    trim
    return true
  else
    return false

/-- Items separated by commas, up to a token of one of the given kinds. A comma
behind the last item is allowed. -/
def commaSeparated {α : Type} (stop : List TokenKind) (item : Rule α) : Rule (List α) :=
  Parser.items (·.isAny stop) item commaFollows

/-- Items with semicolons and layout between them, up to a token of one of the given kinds. -/
def separated {α : Type} (stop : List TokenKind) (item : Rule α) : Rule (List α) :=
  Parser.items (·.isAny stop) item do
    trimSeparators
    return true

/-- Records that the source is a module. -/
def markModule : Rule Unit := Parser.modifyProperties fun p => { p with sourceType := .esm }

end ScriptFront.Script
