import ScriptFront.Double.Read
import ScriptFront.Script.Grammar.Basic

namespace ScriptFront.Script

open ScriptFront.Parser

/-- Drops the backslash of every escape: the character behind it stands for itself.
A backslash with nothing behind it is kept. -/
def cookChars : List Char → List Char
  | [] => []
  | '\\' :: c :: cs => c :: cookChars cs
  | c :: cs => c :: cookChars cs

/-- The text that a spelling with escapes stands for. -/
def cook (raw : String) : String := String.ofList (cookChars raw.toList)

/-- A spelling without its first and last character. -/
def unquoted (raw : String) : String := String.ofList raw.toList.tail.dropLast

/-- The text of a name; `anyWord` takes reserved words too. -/
def nameText (anyWord : Bool) : Rule String := do
  let token ←
    if anyWord then expectTag .word Complaint.word.message
    else expect .identifier .identifier
  return token.text

/-- A name, or a private name behind a hash sign. -/
def anyName (anyWord : Bool) : Rule Tree := do
  let start ← mark
  if ← accept .hash then
    let symbol ← nameText anyWord
    makeNode start (.privateIdentifier symbol)
  else
    let symbol ← nameText anyWord
    makeNode start (.identifier symbol)

/-- A name that is neither private nor reserved. -/
def plainName : Rule Tree := do
  let start ← mark
  let symbol ← nameText false
  makeNode start (.identifier symbol)

/-- A string, kept as it is written and with its backslashes taken away. -/
def stringLiteral : Rule Tree := do
  let start ← mark
  let token ← expect .string .string
  makeNode start (.stringLiteral (cook (unquoted token.text)) token.text)

/-- Digits, and more digits behind a period. -/
def numericLiteral : Rule Tree := do
  let start ← mark
  let whole ← expect .number .number
  let float ← accept .period
  let raw ←
    if float then do
      let fraction ← expect .number .fraction
      pure (whole.text ++ "." ++ fraction.text)
    else pure whole.text
  match Double.read? raw with
  | some value => makeNode start (.numericLiteral value raw float)
  | none => complain .numericLiteral

/-- The text of a regular expression up to its closing slash, which is not taken,
and whether a star and the slash were one token, which is. A backslash takes the
next token with it. -/
def regExpText : Nat → Rule (String × Bool)
  | 0 => return ("", false)
  | budget + 1 => do
    if ← observe fun s => !s.willContinue || s.is .slash then
      return ("", false)
    else
      let token ← consume
      match token.kind with
      | .asteriskSlash => return ("*", true)
      | .backSlash =>
        let escaped ←
          if ← observe (·.willContinue) then do
            let next ← consume
            pure next.text
          else pure ""
        let (text, closed) ← regExpText budget
        return (token.text ++ escaped ++ text, closed)
      | _ =>
        let (text, closed) ← regExpText budget
        return (token.text ++ text, closed)

/-- A regular expression between slashes, with the flags right behind it. -/
def regExpLiteral : Rule Tree := do
  let start ← mark
  let _ ← consume
  let (pattern, closed) ← regExpText (← observe (·.rest.length))
  if !closed then
    let _ ← expect .slash .regExpEnd
  let flags := (← consumeIf .identifier).map (·.text)
  makeNode start (.regExpLiteral pattern flags ("/" ++ pattern ++ "/" ++ flags.getD ""))

/-- Slash-star to star-slash. -/
def blockComment : Rule Tree := do
  let start ← mark
  let _ ← consume
  let content ← consumeIf .commentText
  let _ ← expect .asteriskSlash .blockCommentEnd
  let comment ← makeNode start (.blockComment ((content.map (·.text)).getD ""))
  trim
  return comment

/-- The text of a line without the carriage returns at its end. -/
def withoutReturns (line : String) : String :=
  String.ofList (line.toList.reverse.dropWhile (· = '\r')).reverse

/-- Two slashes to the end of the line; the line break is not part of the comment. -/
def lineComment : Rule Tree := do
  let start ← mark
  let _ ← consume
  let content ← consumeIf .commentText
  let comment ← makeNode start (.lineComment ((content.map (withoutReturns ·.text)).getD ""))
  if ← observe (·.willContinue) then
    let _ ← expect .lineBreak .lineCommentEnd
  trim
  return comment

end ScriptFront.Script
