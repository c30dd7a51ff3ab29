import ScriptFront.Script.Grammar.Control
import ScriptFront.Script.Grammar.Expression
import ScriptFront.Script.Grammar.Module

namespace ScriptFront.Script

open ScriptFront.Parser

/-- An expression that stands as a statement. No separator is asked for behind it. -/
def expressionStatement (rules : Rules) (allowIn : Bool) : Rule Tree := do
  let start ← mark
  let inner ← expression rules allowIn
  makeNode start (.expressionStatement inner)

/-- A `return`, with the value unless a semicolon, a closing brace or the end follows. A line break
does not end it. -/
def returnStatement (rules : Rules) (allowIn : Bool) : Rule Tree := do
  let start ← mark
  let _ ← eat
  if ← observe fun s => !s.willContinue || s.isAny [.semicolon, .closeBrace] then
    makeNode start (.returnStatement none)
  else
    let argument ← rules.expression allowIn
    makeNode start (.returnStatement (some argument))

/-- A `throw` with the value that is thrown. -/
def throwStatement (rules : Rules) (allowIn : Bool) : Rule Tree := do
  let start ← mark
  let _ ← eat
  let argument ← rules.expression allowIn
  makeNode start (.throwStatement argument)

/-- A label and the statement behind its colon. -/
def labeledStatement (rules : Rules) (allowIn : Bool) : Rule Tree := do
  let start ← mark
  let label ← plainName
  trim
  let _ ← expect .colon .labelColon
  trim
  let body ← rules.statement allowIn
  makeNode start (.labeledStatement label body)

/-- A `using` declaration behind the word `await`, from that word on. -/
def awaitUsing (rules : Rules) (allowIn : Bool) : Rule Tree := do
  let start ← mark
  let _ ← eat
  usingDeclaration rules allowIn start true

/-- A statement without the layout and the separators around it, chosen by its
first token and, for three words, by the token behind that. -/
def bareStatement (rules : Rules) (allowIn : Bool) : Rule Tree := do
  match ← currentKind? with
  | some .kwVar => declaration rules allowIn
  | some .kwLet => declaration rules allowIn
  | some .kwConst => declaration rules allowIn
  | some .kwFunction => declaration rules allowIn
  | some .kwUsing => declaration rules allowIn
  | some .kwClass => declaration rules allowIn
  | some .kwAsync =>
    if ← observe (followedBy .kwFunction) then declaration rules allowIn
    else expressionStatement rules allowIn
  | some .kwIf => ifStatement rules allowIn
  | some .kwWith => withStatement rules allowIn
  | some .kwTry => tryStatement rules allowIn
  | some .kwFor => forStatement rules allowIn
  | some .kwDo => doWhileStatement rules allowIn
  | some .kwWhile => whileStatement rules allowIn
  | some .kwSwitch => switchStatement rules allowIn
  | some .slashAsterisk => blockComment
  | some .doubleSlash => lineComment
  | some .kwImport =>
    markModule
    importDeclaration
  | some .kwExport =>
    markModule
    exportDeclaration rules allowIn
  | some .kwReturn => returnStatement rules allowIn
  | some .kwThrow => throwStatement rules allowIn
  | some .openBrace => block rules allowIn
  | some .kwAwait =>
    if ← observe (followedBy .kwUsing) then awaitUsing rules allowIn
    else expressionStatement rules allowIn
  | some .identifier =>
    if ← observe (followedBy .colon) then labeledStatement rules allowIn
    else expressionStatement rules allowIn
  | _ => expressionStatement rules allowIn

/-- One statement, with the layout before it and the separators behind it. -/
def statement (rules : Rules) (allowIn : Bool) : Rule Tree := do
  trim
  let node ← bareStatement rules allowIn
  trimSeparators
  return node

end ScriptFront.Script
