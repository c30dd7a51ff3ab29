import ScriptFront.Error
import ScriptFront.Token.Basic

namespace ScriptFront

/-- A list of tokens being parsed, split at the place reached, with the properties
that the parse has found so far. The token before the place is first in `before`. -/
structure TokenCursor (κ π : Type) where
  before : List (Token κ)
  rest : List (Token κ)
  properties : π

namespace TokenCursor

variable {κ π : Type}

/-- The cursor at the first token. -/
def ofTokens (tokens : List (Token κ)) (properties : π) : TokenCursor κ π where
  before := []
  rest := tokens
  properties := properties

/-- All tokens, those before the place included. -/
def tokens (s : TokenCursor κ π) : List (Token κ) := s.before.reverse ++ s.rest

/-- How many tokens have been taken, which is the index of the current one. -/
def position (s : TokenCursor κ π) : Nat := s.before.length

/-- The token `n` places ahead. -/
def peek (s : TokenCursor κ π) (n : Nat) : Option (Token κ) := s.rest[n]?

/-- The token that is read next, none behind the last one. -/
def current (s : TokenCursor κ π) : Option (Token κ) := s.rest.head?

/-- The kind of the token that is read next, which most rules decide by. -/
def currentKind (s : TokenCursor κ π) : Option κ := s.current.map (·.kind)

/-- Whether a token is left to be read. -/
def willContinue (s : TokenCursor κ π) : Bool := !s.rest.isEmpty

/-- Whether the current token carries the tag. At the end there is no token to carry it. -/
def hasTag (s : TokenCursor κ π) (tag : Tag) : Bool := s.current.any (·.hasTag tag)

section Kinds

variable [DecidableEq κ]

/-- Whether the token `n` places ahead is of the kind. Nothing is of a kind behind the last token.
-/
def isAt (s : TokenCursor κ π) (n : Nat) (kind : κ) : Bool := (s.peek n).any (·.kind = kind)

/-- Whether the current token is of the kind. -/
def is (s : TokenCursor κ π) (kind : κ) : Bool := s.currentKind == some kind

/-- Whether the current token is of one of the kinds. -/
def isAny (s : TokenCursor κ π) (kinds : List κ) : Bool := s.currentKind.any (kinds.contains ·)

end Kinds

/-- The place of the current token, or the end of the last one. -/
def here (s : TokenCursor κ π) : Position :=
  match s.rest, s.before with
  | token :: _, _ => token.span.start
  | [], last :: _ => last.span.stop
  | [], [] => .start

/-- The complaint that `text` is not what the current token is. -/
def error (s : TokenCursor κ π) (text : String) : ParseError :=
  match s.current with
  | some token => { text, span := some token.span, found := some token.text }
  | none => { text, span := some (.emptyAt s.here) }

/-- Moves over the current token. -/
def next (s : TokenCursor κ π) : TokenCursor κ π :=
  match s.rest with
  | [] => s
  | token :: rest => { s with before := token :: s.before, rest }

/-- Moves over the tokens in front that satisfy `test`. -/
def skipWhile (s : TokenCursor κ π) (test : Token κ → Bool) : TokenCursor κ π where
  before := (s.rest.takeWhile test).reverse ++ s.before
  rest := s.rest.dropWhile test
  properties := s.properties

/-- The extent of the tokens between an earlier place and this one, layout at
either end left out; nothing but layout has an empty extent here. -/
def spanSince (s : TokenCursor κ π) (mark : Nat) : Span :=
  let taken := (s.before.take (s.position - mark)).filter (!·.isSpace)
  match taken.getLast?, taken.head? with
  | some first, some last => first.span.cover last.span
  | _, _ => .emptyAt s.here

@[simp] theorem tokens_ofTokens (tokens : List (Token κ)) (properties : π) :
    (ofTokens tokens properties).tokens = tokens := rfl

/-- Moving on keeps the tokens. -/
@[simp] theorem tokens_next (s : TokenCursor κ π) : s.next.tokens = s.tokens := by
  unfold next
  split
  · rfl
  · rename_i token rest atRest
    simp [tokens, atRest]

/-- Skipping moves the place alone: the tokens are those of the cursor it started from. -/
@[simp] theorem tokens_skipWhile (s : TokenCursor κ π) (test : Token κ → Bool) :
    (s.skipWhile test).tokens = s.tokens := by
  simp [tokens, skipWhile]

end TokenCursor

end ScriptFront
