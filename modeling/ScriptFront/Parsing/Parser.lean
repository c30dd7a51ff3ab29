import ScriptFront.Parsing.TokenCursor

namespace ScriptFront

/-- A piece of a syntax tree: what it is, and the extent of its tokens. The kind is a parameter, so
that one engine serves grammars of any language. -/
structure Node (κ : Type) where
  kind : κ
  span : Span
deriving Repr

/-- A step of a parse. It moves the cursor whether it succeeds or fails; a failure
leaves the cursor where it happened. -/
abbrev Parser (κ π : Type) := EStateM ParseError (TokenCursor κ π)

namespace Parser

variable {κ π α : Type}

/-- Looks at the cursor without moving it. -/
def observe (view : TokenCursor κ π → α) : Parser κ π α := fun s => .ok (view s) s

/-- Complains about the current token. -/
def fail (text : String) : Parser κ π α := fun s => .error (s.error text) s

/-- Takes the current token. At the end of the tokens it fails, with the place behind the last one.
-/
def consume : Parser κ π (Token κ) := fun s =>
  match s.current with
  | some token => .ok token s.next
  | none => .error (s.error "Unexpected end of input") s

/-- Moves over the tokens in front that carry `tag`, and counts them. -/
def skipWhileTag (tag : Tag) : Parser κ π Nat := fun s =>
  .ok (s.rest.takeWhile (·.hasTag tag)).length (s.skipWhile (·.hasTag tag))

/-- Takes the current token if it carries `tag`, and complains otherwise. -/
def expectTag (tag : Tag) (text : String) : Parser κ π (Token κ) := do
  if ← observe (·.hasTag tag) then consume else fail text

/-- Runs `probe` and then goes back to where it started, even if it failed; only
the properties that it found are kept. -/
def lookAhead (probe : Parser κ π α) : Parser κ π α := fun s =>
  match probe s with
  | .ok a t => .ok a { s with properties := t.properties }
  | .error e t => .error e { s with properties := t.properties }

/-- The place where a rule begins. -/
def mark : Parser κ π Nat := observe (·.position)

/-- A node over the tokens since `mark`. -/
def makeNode {ν : Type} (mark : Nat) (kind : ν) : Parser κ π (Node ν) :=
  observe fun s => ⟨kind, s.spanSince mark⟩

/-- Changes the properties of the program while its tokens are read. A rule that fails later on does
not take the change back. -/
def modifyProperties (f : π → π) : Parser κ π Unit :=
  modify fun s => { s with properties := f s.properties }

section Kinds

variable [DecidableEq κ]

/-- Takes the current token if it is of the given kind. -/
def consumeIf (kind : κ) : Parser κ π (Option (Token κ)) := fun s =>
  if s.is kind then .ok s.current s.next else .ok none s

/-- Takes the current token if it is of the given kind, and tells whether it did. -/
def accept (kind : κ) : Parser κ π Bool := Option.isSome <$> consumeIf kind

/-- Takes the current token if it is of the given kind, and complains otherwise. -/
def expect (kind : κ) (text : String) : Parser κ π (Token κ) := do
  if ← observe (·.is kind) then consume else fail text

end Kinds

/-- Items until the tokens end, `stop` holds, or `more` finds no reason to go on
after an item; at most `budget` items. -/
def itemsWithin (stop : TokenCursor κ π → Bool) (item : Parser κ π α) (more : Parser κ π Bool) :
    Nat → Parser κ π (List α)
  | 0 => pure []
  | budget + 1 => do
    if ← observe fun s => !s.willContinue || stop s then
      pure []
    else
      let first ← item
      if ← more then
        return first :: (← itemsWithin stop item more budget)
      else
        pure [first]

/-- Items until the tokens end, `stop` holds, or `more` finds no reason to go on. An
item takes at least one token, so a budget of the tokens left is enough. -/
def items (stop : TokenCursor κ π → Bool) (item : Parser κ π α) (more : Parser κ π Bool) :
    Parser κ π (List α) := do
  itemsWithin stop item more (← observe (·.rest.length))

end Parser

/-- What a grammar needs in order to be run over a whole list of tokens: how to
read one of its top-level nodes, and what may stand between two of them. -/
structure Grammar (κ π α : Type) where
  node : Parser κ π α
  trivia : Parser κ π Unit := pure ()

/-- All top-level nodes in order, with the properties found on the way. It is what a parse comes to
when no token is left. -/
structure Program (α π : Type) where
  body : List α
  properties : π

/-- Reads nodes until the tokens end. -/
def Grammar.produce {κ π α : Type} (grammar : Grammar κ π α) : Parser κ π (Program α π) := do
  grammar.trivia
  let body ← Parser.items (fun _ => false) grammar.node (do grammar.trivia; pure true)
  return ⟨body, ← Parser.observe (·.properties)⟩

end ScriptFront
