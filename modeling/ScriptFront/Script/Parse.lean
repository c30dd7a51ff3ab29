import ScriptFront.Script.Grammar.Statement
import ScriptFront.Script.Read

namespace ScriptFront.Script

/-- One unfolding of the grammar: its rules, given those for what stands inside. -/
def Rules.unfold (inner : Rules) : Rules where
  statement allowIn := Script.statement inner allowIn
  expression allowIn := Script.expression inner allowIn
  binding allowIn := Script.binding inner allowIn
  ifStatement allowIn := Script.ifStatement inner allowIn

/-- The grammar unfolded `depth` times over some rules for what lies deeper. -/
def Rules.unfolded (deepest : Rules) : Nat → Rules
  | 0 => deepest
  | depth + 1 => (unfolded deepest depth).unfold

/-- Rules that accept nothing. -/
def Rules.refusing : Rules where
  statement _ := complain .expression
  expression _ := complain .expression
  binding _ := complain .pattern
  ifStatement _ := complain .expression

/-- The rules that are deep enough for the tokens ahead of `s`: what stands inside a
construct has fewer tokens than the construct, so the deepest rules are never asked. -/
def Rules.enough (s : State) : Rules := Rules.refusing.unfolded (s.rest.length + 1)

/-- Parses one statement and the separators behind it. The layout in front belongs to it as well, so
it can be called at any place. -/
def parseStatement : Rule Tree := fun s => (Rules.enough s).statement true s

/-- Parses one expression. -/
def parseExpression : Rule Tree := fun s => (Rules.enough s).expression true s

/-- Scripts: statements with separators between them. -/
def grammar : Grammar TokenKind Properties Tree where
  node := parseStatement
  trivia := trimSeparators

/-- The cursor at the first of some tokens. -/
def State.ofTokens (tokens : List (Token TokenKind)) (options : Options) : State :=
  TokenCursor.ofTokens tokens options.properties

/-- A parsed source: the tree of the whole script, and what was found out on the way. -/
structure Parsed where
  tree : Tree
  properties : Properties

/-- The node for a whole script, from its first statement to its last. -/
def programNode (body : List Tree) : Tree where
  kind := .program body
  span :=
    match body.head?, body.getLast? with
    | some first, some last => first.span.cover last.span
    | _, _ => .emptyAt .start

/-- The statements of a list of tokens, all of which have to be used up. The tokens need not come
from a source. -/
def produce (tokens : List (Token TokenKind)) (options : Options) :
    Except ParseError (Program Tree Properties) :=
  match grammar.produce (State.ofTokens tokens options) with
  | .ok program _ => .ok program
  | .error e _ => .error e

/-- The statements of a source. -/
def statements (source : String) (options : Options) : Except Error (Program Tree Properties) := do
  let tokens ← (tokenize source).mapError .lex
  (produce tokens options).mapError .parse

/-- Parses a whole source: it is cut into tokens, these are parsed to the end, and the statements
become one node. The first error ends it. -/
def parseWith (source : String) (options : Options) : Except Error Parsed := do
  let program ← statements source options
  return ⟨programNode program.body, program.properties⟩

theorem mapError_ok {ε ε' α : Type} (f : ε → ε') (a : α) :
    (Except.ok a).mapError f = .ok a := rfl

theorem mapError_error {ε ε' α : Type} (f : ε → ε') (e : ε) :
    (Except.error e : Except ε α).mapError f = .error (f e) := rfl

/-- A parse succeeds exactly when the text splits into tokens and the tokens make a program, and
then it gives the node of that program with the properties behind it. Theorems about accepted
sources begin here. -/
theorem parseWith_eq_ok_iff {source : String} {options : Options} {parsed : Parsed} :
    parseWith source options = .ok parsed ↔ ∃ tokens program,
      tokenize source = .ok tokens ∧ produce tokens options = .ok program ∧
      parsed = ⟨programNode program.body, program.properties⟩ := by
  unfold parseWith statements
  cases lexing : tokenize source with
  | error e => simp [mapError_error, bind, Except.bind]
  | ok tokens =>
    cases parsing : produce tokens options with
    | error e => simp [mapError_ok, mapError_error, bind, Except.bind, parsing]
    | ok program => simp [mapError_ok, bind, Except.bind, pure, Except.pure, parsing, eq_comm]

/-- Parses a script as one that is no module, unless it tells otherwise. -/
def parse (source : String) : Except Error Parsed := parseWith source {}

end ScriptFront.Script
