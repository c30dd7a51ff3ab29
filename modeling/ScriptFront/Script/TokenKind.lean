namespace ScriptFront.Script

/-- The kinds of tokens of a script: words, literals, operators, punctuation,
layout, and a kind for every character that nothing else accepts. -/
inductive TokenKind where
  | identifier
  | kwAs
  | kwAsync
  | kwAwait
  | kwBreak
  | kwCase
  | kwCatch
  | kwClass
  | kwConst
  | kwContinue
  | kwDefault
  | kwDo
  | kwElse
  | kwExport
  | kwExtends
  | kwFinally
  | kwFor
  | kwFrom
  | kwFunction
  | kwIf
  | kwImport
  | kwIn
  | kwInstanceOf
  | kwLet
  | kwNew
  | kwOf
  | kwReturn
  | kwSwitch
  | kwThrow
  | kwTry
  | kwTypeOf
  | kwUsing
  | kwVar
  | kwVoid
  | kwWhile
  | kwWith
  | number
  | string
  | templateText
  | commentText
  | ampersand
  | ampersandEquals
  | asterisk
  | asteriskEquals
  | dash
  | dashEquals
  | doubleAmpersand
  | doubleDash
  | doubleEquals
  | doublePipe
  | doublePlus
  | equals
  | exclamation
  | lessThan
  | lessThanEqual
  | moreThan
  | moreThanEqual
  | notDoubleEquals
  | notEquals
  | percent
  | percentEquals
  | pipe
  | pipeEquals
  | plus
  | plusEquals
  | slash
  | slashEquals
  | tripleEquals
  | arrow
  | asteriskSlash
  | backQuote
  | backSlash
  | closeBrace
  | closeParen
  | closeSquare
  | colon
  | comma
  | doubleSlash
  | hash
  | openBrace
  | openParen
  | openSquare
  | openTemplate
  | optionalChain
  | period
  | question
  | semicolon
  | slashAsterisk
  | spread
  | lineBreak
  | carriageReturn
  | space
  | tab
  | unknown
deriving DecidableEq, Repr

namespace TokenKind

/-- The name of a kind in messages and in written trees. -/
def name : TokenKind → String
  | identifier => "Identifier"
  | kwAs => "As"
  | kwAsync => "Async"
  | kwAwait => "Await"
  | kwBreak => "Break"
  | kwCase => "Case"
  | kwCatch => "Catch"
  | kwClass => "Class"
  | kwConst => "Const"
  | kwContinue => "Continue"
  | kwDefault => "Default"
  | kwDo => "Do"
  | kwElse => "Else"
  | kwExport => "Export"
  | kwExtends => "Extends"
  | kwFinally => "Finally"
  | kwFor => "For"
  | kwFrom => "From"
  | kwFunction => "Function"
  | kwIf => "If"
  | kwImport => "Import"
  | kwIn => "In"
  | kwInstanceOf => "InstanceOf"
  | kwLet => "Let"
  | kwNew => "New"
  | kwOf => "Of"
  | kwReturn => "Return"
  | kwSwitch => "Switch"
  | kwThrow => "Throw"
  | kwTry => "Try"
  | kwTypeOf => "TypeOf"
  | kwUsing => "Using"
  | kwVar => "Var"
  | kwVoid => "Void"
  | kwWhile => "While"
  | kwWith => "With"
  | number => "Number"
  | string => "String"
  | templateText => "TemplateText"
  | commentText => "CommentText"
  | ampersand => "Ampersand"
  | ampersandEquals => "AmpersandEquals"
  | asterisk => "Asterisk"
  | asteriskEquals => "AsteriskEquals"
  | dash => "Dash"
  | dashEquals => "DashEquals"
  | doubleAmpersand => "DoubleAmpersand"
  | doubleDash => "DoubleDash"
  | doubleEquals => "DoubleEquals"
  | doublePipe => "DoublePipe"
  | doublePlus => "DoublePlus"
  | equals => "Equals"
  | exclamation => "Exclamation"
  | lessThan => "LessThan"
  | lessThanEqual => "LessThanEqual"
  | moreThan => "MoreThan"
  | moreThanEqual => "MoreThanEqual"
  | notDoubleEquals => "NotDoubleEquals"
  | notEquals => "NotEquals"
  | percent => "Percent"
  | percentEquals => "PercentEquals"
  | pipe => "Pipe"
  | pipeEquals => "PipeEquals"
  | plus => "Plus"
  | plusEquals => "PlusEquals"
  | slash => "Slash"
  | slashEquals => "SlashEquals"
  | tripleEquals => "TripleEquals"
  | arrow => "Arrow"
  | asteriskSlash => "AsteriskSlash"
  | backQuote => "BackQuote"
  | backSlash => "BackSlash"
  | closeBrace => "CloseBracket"
  | closeParen => "CloseParen"
  | closeSquare => "CloseSquare"
  | colon => "Colon"
  | comma => "Comma"
  | doubleSlash => "DoubleSlash"
  | hash => "Hash"
  | openBrace => "OpenBracket"
  | openParen => "OpenParen"
  | openSquare => "OpenSquare"
  | openTemplate => "OpenTemplate"
  | optionalChain => "Optional"
  | period => "Period"
  | question => "Question"
  | semicolon => "Semicolon"
  | slashAsterisk => "SlashAsterisk"
  | spread => "Spread"
  | lineBreak => "Br"
  | carriageReturn => "CarriageReturn"
  | space => "Space"
  | tab => "Tab"
  | unknown => "Unknown"

/-- All kinds of tokens, by which a kind is found for its name. -/
def all : List TokenKind := [
  identifier, kwAs, kwAsync, kwAwait, kwBreak, kwCase, kwCatch, kwClass, kwConst, kwContinue,
  kwDefault, kwDo, kwElse, kwExport, kwExtends, kwFinally, kwFor, kwFrom, kwFunction, kwIf,
  kwImport, kwIn, kwInstanceOf, kwLet, kwNew, kwOf, kwReturn, kwSwitch, kwThrow, kwTry, kwTypeOf,
  kwUsing, kwVar, kwVoid, kwWhile, kwWith, number, string, templateText, commentText, ampersand,
  ampersandEquals, asterisk, asteriskEquals, dash, dashEquals, doubleAmpersand, doubleDash,
  doubleEquals, doublePipe, doublePlus, equals, exclamation, lessThan, lessThanEqual, moreThan,
  moreThanEqual, notDoubleEquals, notEquals, percent, percentEquals, pipe, pipeEquals, plus,
  plusEquals, slash, slashEquals, tripleEquals, arrow, asteriskSlash, backQuote, backSlash,
  closeBrace, closeParen, closeSquare, colon, comma, doubleSlash, hash, openBrace, openParen,
  openSquare, openTemplate, optionalChain, period, question, semicolon, slashAsterisk, spread,
  lineBreak, carriageReturn, space, tab, unknown]

/-- Every kind is listed. -/
theorem mem_all (kind : TokenKind) : kind ∈ all := by
  cases kind <;> decide

/-- The kind of a name, if it is one exactly. -/
def ofName? (name : String) : Option TokenKind := all.find? (·.name = name)

end TokenKind

/-- The words that have a kind of their own. -/
def keywords : List (String × TokenKind) := [
  ("as", .kwAs), ("async", .kwAsync), ("await", .kwAwait), ("break", .kwBreak),
  ("case", .kwCase), ("catch", .kwCatch), ("class", .kwClass), ("const", .kwConst),
  ("continue", .kwContinue), ("default", .kwDefault), ("do", .kwDo), ("else", .kwElse),
  ("export", .kwExport), ("extends", .kwExtends), ("finally", .kwFinally), ("for", .kwFor),
  ("from", .kwFrom), ("function", .kwFunction), ("if", .kwIf), ("import", .kwImport),
  ("in", .kwIn), ("instanceof", .kwInstanceOf), ("let", .kwLet), ("new", .kwNew), ("of", .kwOf),
  ("return", .kwReturn), ("switch", .kwSwitch), ("throw", .kwThrow), ("try", .kwTry),
  ("typeof", .kwTypeOf), ("using", .kwUsing), ("var", .kwVar), ("void", .kwVoid),
  ("while", .kwWhile), ("with", .kwWith)]

/-- The kind of a word: that of the keyword, or an identifier. -/
def wordKind (word : String) : TokenKind :=
  (keywords.lookup word).getD .identifier

/-- What holds of identifiers and of all keywords holds of every word. -/
theorem wordKind_induct (P : TokenKind → Prop) (free : P .identifier)
    (reserved : ∀ entry ∈ keywords, P entry.2) (word : String) : P (wordKind word) := by
  unfold wordKind
  cases found : keywords.lookup word with
  | none => exact free
  | some kind =>
    obtain ⟨before, after, split, -⟩ := List.lookup_eq_some_iff.mp found
    exact reserved (word, kind) (by rw [split]; simp)

end ScriptFront.Script
