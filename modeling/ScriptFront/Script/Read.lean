import ScriptFront.Script.Modes
import ScriptFront.Script.TokenKind
import ScriptFront.Token.Rule

/-!
How a script is cut into tokens, character by character. Every reader asks the cursor for its
characters and fails where there are none; whether one is left is tested beforehand.
-/

namespace ScriptFront.Script

open Cursor (advance advanceIf advanceWhile skip turns)
open LexRule (on cursor state change)

/-- Whether a word can begin with the character. -/
def isWordStart (c : Char) : Bool := c.isAlpha || c == '$' || c == '_'

/-- Whether a word can go on with the character. -/
def isWordPart (c : Char) : Bool := c.isAlphanum || c == '$' || c == '_'

/-- Whether the end of a block comment is ahead. -/
def closesComment (c : Cursor) : Bool := c.is '*' && c.isAt 1 '/'

/-- Whether the opening of an interpolation is ahead. -/
def opensInterpolation (c : Cursor) : Bool := c.is '$' && c.isAt 1 '\x7b'

/-- The body of a comment up to its end, or up to that of the source. An empty body is no
token. -/
def readCommentBody : CommentStyle → Cursor.Action (Option (Lexeme TokenKind))
  | .block => do
    if closesComment (← get) then
      return none
    else
      turns (fun c => !c.isAtEnd && !closesComment c) skip
      return some ⟨.commentText, none⟩
  | .line => do
    if (← get).is '\n' then
      return none
    else
      let _ ← advanceWhile (· ≠ '\n')
      return some ⟨.commentText, none⟩

/-- One character of the text of a template. A backslash takes the next one with it, whatever
that is, and stands alone at the end of the source. -/
def readTextUnit : Cursor.Action Unit := do
  if (← advance) = '\\' then
    if !(← get).isAtEnd then
      skip

/-- The inside of a template: its end, an interpolation, or text up to one of these. -/
def readTemplate : LexRule.Action Modes (Lexeme TokenKind) := do
  if ← on (advanceIf '\x60') then
    change .exit
    return ⟨.backQuote, none⟩
  else if opensInterpolation (← cursor) then
    on skip
    on skip
    change (.enter (.interpolation 0))
    return ⟨.openTemplate, none⟩
  else
    on (turns (fun c => !c.isAtEnd && !c.is '\x60' && !opensInterpolation c) readTextUnit)
    return ⟨.templateText, none⟩

/-- The rest of a string behind its opening quote, which stands at `start`. Every turn takes a
character, so a budget of the characters left is enough. -/
def readStringWithin (quote : Char) (start : Position) : Nat → Cursor.Action (Lexeme TokenKind)
  | 0 => throw (.unterminatedString start)
  | budget + 1 => do
    match (← get).current with
    | none => throw (.unterminatedString start)
    | some c =>
      if c = quote then
        skip
        return ⟨.string, none⟩
      else if c = '\\' then
        let position := (← get).position
        skip
        if (← get).isAtEnd then
          throw (.escapeAtEnd position)
        else
          skip
          readStringWithin quote start budget
      else
        skip
        readStringWithin quote start budget

/-- A string. A backslash in it takes the next character with it, whatever that is. -/
def readString : Cursor.Action (Lexeme TokenKind) := do
  let start := (← get).position
  let quote ← advance
  readStringWithin quote start (← get).rest.length

/-- A run of letters and digits, which may be a keyword. -/
def readWord : Cursor.Action (Lexeme TokenKind) := do
  let start := (← get).position.offset
  let _ ← advanceWhile isWordPart
  let behind ← get
  let word := (behind.slice? start behind.position.offset).getD ""
  return ⟨wordKind word, some .word⟩

/-- A run of digits. -/
def readDigits : Cursor.Action (Lexeme TokenKind) := do
  let _ ← advanceWhile Char.isDigit
  return ⟨.number, none⟩

/-- The first of some characters that is ahead is taken, and tells what the lexeme is; where
none is ahead, it is the last one given. -/
def firstOf : List (Char × Lexeme TokenKind) → Lexeme TokenKind → Cursor.Action (Lexeme TokenKind)
  | [], other => return other
  | (c, lexeme) :: choices, other => do
    if ← advanceIf c then return lexeme else firstOf choices other

/-- The rest of the three dots of a spread, if a dot is not alone. -/
def readDots : Cursor.Action (Lexeme TokenKind) := do
  let c ← get
  if c.is '.' && c.isAt 1 '.' then
    skip
    skip
    return ⟨.spread, none⟩
  else
    return ⟨.period, none⟩

/-- Behind a slash, what may open a comment. -/
def readSlash : LexRule.Action Modes (Lexeme TokenKind) := do
  if ← on (advanceIf '*') then
    change (.expect (some .block))
    return ⟨.slashAsterisk, none⟩
  else if ← on (advanceIf '/') then
    change (.expect (some .line))
    return ⟨.doubleSlash, none⟩
  else
    on (firstOf [('=', ⟨.slashEquals, some .operator⟩)] ⟨.slash, some .operator⟩)

/-- Behind the first of one or two equals signs: a second one, and then a third. -/
def readEquals (three two one : Lexeme TokenKind) (choices : List (Char × Lexeme TokenKind)) :
    Cursor.Action (Lexeme TokenKind) := do
  if ← advanceIf '=' then firstOf [('=', three)] two else firstOf choices one

/-- What the character that has just been taken begins, when it is no part of a word, a number
or a string: an operator, punctuation, layout, or a stray character. Of several operators the
longest is read. -/
def readSign : Char → LexRule.Action Modes (Lexeme TokenKind)
  | '.' => on readDots
  | '/' => readSlash
  | '?' => on (firstOf [('.', ⟨.optionalChain, none⟩)] ⟨.question, none⟩)
  | '*' => on (firstOf [('=', ⟨.asteriskEquals, some .operator⟩), ('/', ⟨.asteriskSlash, none⟩)]
      ⟨.asterisk, some .operator⟩)
  | '+' => on (firstOf [('+', ⟨.doublePlus, some .operator⟩), ('=', ⟨.plusEquals, some .operator⟩)]
      ⟨.plus, some .operator⟩)
  | '-' => on (firstOf [('-', ⟨.doubleDash, some .operator⟩), ('=', ⟨.dashEquals, some .operator⟩)]
      ⟨.dash, some .operator⟩)
  | '%' => on (firstOf [('=', ⟨.percentEquals, some .operator⟩)] ⟨.percent, some .operator⟩)
  | '&' => on (firstOf
      [('&', ⟨.doubleAmpersand, some .operator⟩), ('=', ⟨.ampersandEquals, some .operator⟩)]
      ⟨.ampersand, some .operator⟩)
  | '|' => on (firstOf [('|', ⟨.doublePipe, some .operator⟩), ('=', ⟨.pipeEquals, some .operator⟩)]
      ⟨.pipe, some .operator⟩)
  | '>' => on (firstOf [('=', ⟨.moreThanEqual, some .operator⟩)] ⟨.moreThan, some .operator⟩)
  | '<' => on (firstOf [('=', ⟨.lessThanEqual, some .operator⟩)] ⟨.lessThan, some .operator⟩)
  | '=' => on (readEquals ⟨.tripleEquals, some .operator⟩ ⟨.doubleEquals, some .operator⟩
      ⟨.equals, some .operator⟩ [('>', ⟨.arrow, none⟩)])
  | '!' => on (readEquals ⟨.notDoubleEquals, some .operator⟩ ⟨.notEquals, some .operator⟩
      ⟨.exclamation, some .operator⟩ [])
  | '\n' => return ⟨.lineBreak, some .whiteSpace⟩
  | '\r' => return ⟨.carriageReturn, some .whiteSpace⟩
  | '\t' => return ⟨.tab, some .whiteSpace⟩
  | ' ' => return ⟨.space, some .whiteSpace⟩
  | '\x60' => do
    change (.enter .template)
    return ⟨.backQuote, none⟩
  | '\\' => return ⟨.backSlash, none⟩
  | '#' => return ⟨.hash, none⟩
  | ';' => return ⟨.semicolon, none⟩
  | ':' => return ⟨.colon, none⟩
  | ',' => return ⟨.comma, none⟩
  | '(' => return ⟨.openParen, none⟩
  | ')' => return ⟨.closeParen, none⟩
  | '\x7b' => do
    change .openBrace
    return ⟨.openBrace, none⟩
  | '\x7d' => do
    change .closeBrace
    return ⟨.closeBrace, none⟩
  | '[' => return ⟨.openSquare, none⟩
  | ']' => return ⟨.closeSquare, none⟩
  | _ => return ⟨.unknown, none⟩

/-- A token of code. The opening of an interpolation is one as well outside all templates, where
it opens none. -/
def readCode : LexRule.Action Modes (Lexeme TokenKind) := do
  let c ← cursor
  if c.is '"' || c.is '\'' then
    on readString
  else if opensInterpolation c then
    on skip
    on skip
    return ⟨.openTemplate, none⟩
  else if c.satisfies isWordStart then
    on readWord
  else if c.satisfies Char.isDigit then
    on readDigits
  else
    readSign (← on advance)

/-- A token of what the innermost mode tells. -/
def readRegion : LexRule.Action Modes (Lexeme TokenKind) := do
  match (← state).stack with
  | .template :: _ => readTemplate
  | _ => readCode

/-- The next token. The body of a pending comment comes first; behind an empty one its end is
read as code. -/
def readToken : LexRule.Action Modes (Lexeme TokenKind) := do
  match (← state).comment with
  | none => readRegion
  | some style =>
    change (.expect none)
    match ← on (readCommentBody style) with
    | some body => return body
    | none => readRegion

section Moves

open Cursor (moves_advance moves_advanceIf moves_advanceWhile moves_get moves_skip moves_throw)
open LexRule (Moves moves_change moves_cursor moves_on moves_pure moves_state)

/-- The body of a comment is read by `turns`, each of which skips one character. -/
theorem moves_readCommentBody (style : CommentStyle) : Cursor.Moves (readCommentBody style) := by
  cases style with
  | block =>
    refine moves_get.bind fun c => ?_
    split
    · exact Cursor.moves_pure _
    · exact moves_skip.turns.bind fun _ => Cursor.moves_pure _
  | line =>
    refine moves_get.bind fun c => ?_
    split
    · exact Cursor.moves_pure _
    · exact (moves_advanceWhile _).bind fun _ => Cursor.moves_pure _

/-- One unit of template text is an escape of two characters or one plain character. A backslash at
the end of the source is such a character. -/
theorem moves_readTextUnit : Cursor.Moves readTextUnit := by
  refine moves_advance.bind fun c => ?_
  split
  · refine moves_get.bind fun next => ?_
    split
    · exact moves_skip
    · exact Cursor.moves_pure _
  · exact Cursor.moves_pure _

theorem moves_readTemplate : Moves readTemplate := by
  refine (moves_on (moves_advanceIf _)).bind fun closed => ?_
  split
  · exact (moves_change _).bind fun _ => moves_pure _
  refine moves_cursor.bind fun c => ?_
  split
  · exact (moves_on moves_skip).bind fun _ => (moves_on moves_skip).bind fun _ =>
      (moves_change _).bind fun _ => moves_pure _
  · exact (moves_on moves_readTextUnit.turns).bind fun _ => moves_pure _

/-- The reading of a string body goes on in all of its cases: the quote, an escape, a plain
character, and the two failures at an end of the text. The induction is on the budget, which is the
number of characters left. -/
theorem moves_readStringWithin (quote : Char) (start : Position) (budget : Nat) :
    Cursor.Moves (readStringWithin quote start budget) := by
  induction budget with
  | zero => exact moves_throw _
  | succ budget ih =>
    refine moves_get.bind fun c => ?_
    split
    · exact moves_throw _
    split
    · exact moves_skip.bind fun _ => Cursor.moves_pure _
    split
    · refine moves_get.bind fun _ => moves_skip.bind fun _ => moves_get.bind fun next => ?_
      split
      · exact moves_throw _
      · exact moves_skip.bind fun _ => ih
    · exact moves_skip.bind fun _ => ih

theorem moves_readString : Cursor.Moves readString :=
  moves_get.bind fun _ => moves_advance.bind fun _ => moves_get.bind fun _ =>
    moves_readStringWithin _ _ _

theorem moves_readWord : Cursor.Moves readWord :=
  moves_get.bind fun _ => (moves_advanceWhile _).bind fun _ => moves_get.bind fun _ =>
    Cursor.moves_pure _

/-- The choice between several second characters skips the one it finds, and none where it finds
none of them. -/
theorem moves_firstOf (choices : List (Char × Lexeme TokenKind)) (other : Lexeme TokenKind) :
    Cursor.Moves (firstOf choices other) := by
  induction choices with
  | nil => exact Cursor.moves_pure _
  | cons choice choices ih =>
    refine (moves_advanceIf _).bind fun taken => ?_
    split
    · exact Cursor.moves_pure _
    · exact ih

/-- The second and the third point are skipped only together, once both have been seen ahead. -/
theorem moves_readDots : Cursor.Moves readDots := by
  refine moves_get.bind fun c => ?_
  split
  · exact moves_skip.bind fun _ => moves_skip.bind fun _ => Cursor.moves_pure _
  · exact Cursor.moves_pure _

/-- A slash opens a comment of either style or is an operator; only the openers skip a second
character. -/
theorem moves_readSlash : Moves readSlash := by
  refine (moves_on (moves_advanceIf _)).bind fun block => ?_
  split
  · exact (moves_change _).bind fun _ => moves_pure _
  refine (moves_on (moves_advanceIf _)).bind fun line => ?_
  split
  · exact (moves_change _).bind fun _ => moves_pure _
  · exact moves_on (moves_firstOf _ _)

/-- The signs that begin with `=` or `!` have up to three characters, and each further one is
skipped only where it stands. -/
theorem moves_readEquals (three two one : Lexeme TokenKind)
    (choices : List (Char × Lexeme TokenKind)) :
    Cursor.Moves (readEquals three two one choices) := by
  refine (moves_advanceIf _).bind fun second => ?_
  split
  · exact moves_firstOf _ _
  · exact moves_firstOf _ _

/-- All the punctuators, by their first character. Those with a reader of their own have lemmas
above, and the others change the modes or do nothing. -/
theorem moves_readSign (c : Char) : Moves (readSign c) := by
  have chosen (choices : List (Char × Lexeme TokenKind)) (other : Lexeme TokenKind) :
      Moves (on (firstOf choices other) : LexRule.Action Modes (Lexeme TokenKind)) :=
    moves_on (moves_firstOf choices other)
  have changed (f : Modes → Modes) (lexeme : Lexeme TokenKind) :
      Moves (change f >>= fun _ => pure lexeme) :=
    (moves_change f).bind fun _ => moves_pure lexeme
  have equals (three two one : Lexeme TokenKind) (choices : List (Char × Lexeme TokenKind)) :
      Moves (on (readEquals three two one choices) : LexRule.Action Modes (Lexeme TokenKind)) :=
    moves_on (moves_readEquals three two one choices)
  unfold readSign
  split
  · exact moves_on moves_readDots
  · exact moves_readSlash
  · exact chosen _ _
  · exact chosen _ _
  · exact chosen _ _
  · exact chosen _ _
  · exact chosen _ _
  · exact chosen _ _
  · exact chosen _ _
  · exact chosen _ _
  · exact chosen _ _
  · exact equals _ _ _ _
  · exact equals _ _ _ _
  · exact moves_pure _
  · exact moves_pure _
  · exact moves_pure _
  · exact moves_pure _
  · exact changed _ _
  · exact moves_pure _
  · exact moves_pure _
  · exact moves_pure _
  · exact moves_pure _
  · exact moves_pure _
  · exact moves_pure _
  · exact moves_pure _
  · exact changed _ _
  · exact changed _ _
  · exact moves_pure _
  · exact moves_pure _
  · exact moves_pure _

theorem moves_readCode : Moves readCode := by
  refine moves_cursor.bind fun c => ?_
  split
  · exact moves_on moves_readString
  split
  · exact (moves_on moves_skip).bind fun _ => (moves_on moves_skip).bind fun _ => moves_pure _
  split
  · exact moves_on moves_readWord
  split
  · exact moves_on ((moves_advanceWhile _).bind fun _ => Cursor.moves_pure _)
  · exact (moves_on moves_advance).bind fun c => moves_readSign c

/-- The reader outside comments is that of the template or that of code, as the innermost mode says.
-/
theorem moves_readRegion : Moves readRegion := by
  refine moves_state.bind fun modes => ?_
  split
  · exact moves_readTemplate
  · exact moves_readCode

/-- The whole rule only goes on. This is the field `onward` of `lexRule`, and with it the engine
knows that no read takes back a character. -/
theorem moves_readToken : Moves readToken := by
  refine moves_state.bind fun modes => ?_
  split
  · exact moves_readRegion
  refine (moves_change _).bind fun _ => (moves_on (moves_readCommentBody _)).bind fun body => ?_
  split
  · exact moves_pure _
  · exact moves_readRegion

end Moves

/-- The rule for scripts. A string without an end takes all that is left. -/
def lexRule : LexRule Modes TokenKind where
  initial := {}
  read := readToken
  onward := moves_readToken

/-- Cuts a script into tokens. Layout is kept, and a stray character is a token too;
only strings without an end are errors. -/
def tokenize (source : String) : Except LexError (List (Token TokenKind)) :=
  lexRule.tokenize source

end ScriptFront.Script
