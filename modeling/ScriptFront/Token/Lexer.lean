import ScriptFront.Token.Rule

namespace ScriptFront

/-- A source being cut into tokens on demand: where the rule stands, the tokens
already read but not yet handed out, and whether the iteration met an error. -/
structure Lexer (σ κ : Type) where
  rule : LexRule σ κ
  state : σ
  cursor : Cursor
  ahead : List (Token κ)
  failed : Bool

namespace Lexer

variable {σ κ : Type}

/-- An action on a lexer; after an error the lexer goes on from where it stopped. -/
abbrev Action (σ κ : Type) := EStateM LexError (Lexer σ κ)

/-- The lexer at the start of a source. -/
def ofString (rule : LexRule σ κ) (source : String) : Lexer σ κ where
  rule := rule
  state := rule.initial
  cursor := .ofString source
  ahead := []
  failed := false

/-- Whether every token has been handed out. -/
def isFinished (lexer : Lexer σ κ) : Bool := lexer.ahead.isEmpty && lexer.cursor.isAtEnd

/-- Reads one token from the source, none at its end. -/
def read : Action σ κ (Option (Token κ)) := fun lexer =>
  if lexer.cursor.isAtEnd then .ok none lexer
  else
    match lexer.rule.step (lexer.state, lexer.cursor) with
    | .ok token (state, cursor) => .ok (some token) { lexer with state, cursor }
    | .error e (state, cursor) => .error e { lexer with state, cursor }

/-- Reads up to `n` tokens into the buffer; those read before an error stay there. -/
def buffer : Nat → Action σ κ Unit
  | 0 => pure ()
  | n + 1 => do
    match ← read with
    | some token =>
      modify fun lexer => { lexer with ahead := lexer.ahead ++ [token] }
      buffer n
    | none => pure ()

/-- The token `n` places ahead, which is not handed out. -/
def peek (n : Nat) : Action σ κ (Option (Token κ)) := do
  buffer (n + 1 - (← get).ahead.length)
  return (← get).ahead[n]?

/-- Hands out the next token, none at the end. -/
def nextToken : Action σ κ (Option (Token κ)) := fun lexer =>
  match lexer.ahead with
  | token :: ahead => .ok (some token) { lexer with ahead }
  | [] => read lexer

/-- One step of the iteration, which ends after its first error. -/
def next : StateM (Lexer σ κ) (Option (Except LexError (Token κ))) := fun lexer =>
  if lexer.failed then (none, lexer)
  else
    match nextToken lexer with
    | .ok token lexer => (token.map .ok, lexer)
    | .error e lexer => (some (.error e), { lexer with failed := true })

/-- Everything that the iteration still yields, at most `budget` items. -/
def takeWithin : Nat → StateM (Lexer σ κ) (List (Except LexError (Token κ)))
  | 0 => pure []
  | budget + 1 => do
    match ← next with
    | none => pure []
    | some item => return item :: (← takeWithin budget)

/-- Everything that the iteration still yields. Buffered tokens come first, then
each item takes a character or ends the iteration. -/
def rest : StateM (Lexer σ κ) (List (Except LexError (Token κ))) := do
  let lexer ← get
  takeWithin (lexer.ahead.length + lexer.cursor.rest.length)

end Lexer

end ScriptFront
