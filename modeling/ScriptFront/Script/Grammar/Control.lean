import ScriptFront.Script.Grammar.Declaration

namespace ScriptFront.Script

open ScriptFront.Parser

/-- The expression in parentheses that a statement starts with. -/
def parenthesized (rules : Rules) (head : Head) : Rule Tree := do
  let _ ← expect .openParen (.headOpen head)
  trim
  let inner ← rules.expression true
  trim
  let _ ← expect .closeParen (.headEnd head)
  trim
  return inner

/-- The body of a branch or a loop: a block, a lone semicolon, or one statement. -/
def branch (rules : Rules) (allowIn : Bool) : Rule Tree := do
  if ← at? .openBrace then
    block rules allowIn
  else
    let start ← mark
    if ← accept .semicolon then makeNode start .emptyStatement
    else rules.statement allowIn

/-- A condition and its branches. An `else` with an `if` behind it goes on by the rule for
conditions itself, which nests no deeper for it. -/
def ifStatement (rules : Rules) (allowIn : Bool) : Rule Tree := do
  let start ← mark
  let _ ← eat
  let test ← parenthesized rules .ifHead
  let consequent ← branch rules allowIn
  trim
  let alternate ←
    if ← accept .kwElse then do
      trim
      let alternate ←
        if ← at? .kwIf then rules.ifStatement allowIn else branch rules allowIn
      pure (some alternate)
    else pure none
  makeNode start (.ifStatement test consequent alternate)

/-- A `with` and its body, from the keyword on. -/
def withStatement (rules : Rules) (allowIn : Bool) : Rule Tree := do
  let start ← mark
  let _ ← eat
  let object ← parenthesized rules .withHead
  let body ← branch rules allowIn
  makeNode start (.withStatement object body)

/-- A loop that tests before each turn, from its keyword on. -/
def whileStatement (rules : Rules) (allowIn : Bool) : Rule Tree := do
  let start ← mark
  let _ ← eat
  let test ← parenthesized rules .whileHead
  let body ← branch rules allowIn
  makeNode start (.whileStatement test body)

/-- A loop whose body comes first; its condition needs no parentheses. -/
def doWhileStatement (rules : Rules) (allowIn : Bool) : Rule Tree := do
  let start ← mark
  let _ ← eat
  let body ← block rules allowIn
  let _ ← expect .kwWhile .doWhile
  trim
  let test ← rules.expression allowIn
  makeNode start (.doWhileStatement body test)

/-- The parameter of a handler in its parentheses, if there is one. -/
def catchParam (rules : Rules) (allowIn : Bool) : Rule (Option Tree) := do
  if ← accept .openParen then
    trim
    let param ← rules.binding allowIn
    trim
    let _ ← expect .closeParen .catchEnd
    trim
    return some param
  else
    return none

/-- The handler of a `try`, if there is one. -/
def catchClause (rules : Rules) (allowIn : Bool) : Rule (Option Tree) := do
  if ← at? .kwCatch then
    let start ← mark
    let _ ← eat
    let param ← catchParam rules allowIn
    let body ← block rules allowIn
    some <$> makeNode start (.catchClause param body)
  else
    return none

/-- The block behind `finally`, if there is one. -/
def finalizer (rules : Rules) (allowIn : Bool) : Rule (Option Tree) := do
  if ← accept .kwFinally then
    trim
    some <$> block rules allowIn
  else
    return none

/-- A `try` with the parts behind it. One that neither handles what was thrown nor does anything in
any case is refused. -/
def tryStatement (rules : Rules) (allowIn : Bool) : Rule Tree := do
  let start ← mark
  let _ ← eat
  let body ← block rules allowIn
  let handler ← catchClause rules allowIn
  let finalizer ← finalizer rules allowIn
  if handler.isNone && finalizer.isNone then complain .catchOrFinally
  else makeNode start (.tryStatement body handler finalizer)

/-- The word and the test of a case, with the colon behind them; `default` has no test. -/
def caseTest (rules : Rules) (allowIn : Bool) : Rule (Option Tree) := do
  if ← accept .kwCase then
    trim
    let test ← rules.expression allowIn
    let _ ← expect .colon .caseColon
    return some test
  else if ← accept .kwDefault then
    trim
    let _ ← expect .colon .defaultColon
    return none
  else
    complain .switchBody

/-- A case and the statements behind it, up to the next case or to the end of all cases. -/
def switchCase (rules : Rules) (allowIn : Bool) : Rule Tree := do
  let start ← mark
  let test ← caseTest rules allowIn
  trimSeparators
  let consequent ← separated [.kwCase, .kwDefault, .closeBrace] (rules.statement allowIn)
  makeNode start (.switchCase test consequent)

/-- A `switch` with its cases, from the keyword on. Nothing but a case can stand between its braces.
-/
def switchStatement (rules : Rules) (allowIn : Bool) : Rule Tree := do
  let start ← mark
  let _ ← eat
  let discriminant ← parenthesized rules .switchHead
  let _ ← expect .openBrace .switchOpen
  trim
  let cases ← items (·.is .closeBrace) (switchCase rules allowIn) (pure true)
  let _ ← expect .closeBrace .switchEnd
  makeNode start (.switchStatement discriminant cases)

/-- The end of the parentheses of a `for`, and the body behind them. -/
def forBody (rules : Rules) (allowIn : Bool) : Rule Tree := do
  trim
  let _ ← expect .closeParen .forEnd
  trim
  branch rules allowIn

/-- A `for` over the values of something, from the word `of` on. -/
def forOf (rules : Rules) (allowIn : Bool) (start : Nat) (left : Tree) (isAwait : Bool) :
    Rule Tree := do
  let _ ← expect .kwOf .forOf
  trim
  let right ← rules.expression allowIn
  let body ← forBody rules allowIn
  makeNode start (.forOfStatement left right body isAwait)

/-- A `for` over the keys of something, from the word `in` on. -/
def forIn (rules : Rules) (allowIn : Bool) (start : Nat) (left : Tree) : Rule Tree := do
  let _ ← eat
  let right ← rules.expression allowIn
  let body ← forBody rules allowIn
  makeNode start (.forInStatement left right body)

/-- A clause of a `for` that is left out when `stop` follows at once. -/
def forClause (rules : Rules) (allowIn : Bool) (stop : TokenKind) : Rule (Option Tree) := do
  if ← at? stop then return none
  else some <$> rules.expression allowIn

/-- A `for` with three clauses, from the first semicolon on. -/
def forThree (rules : Rules) (allowIn : Bool) (start : Nat) (init : Option Tree) :
    Rule Tree := do
  let _ ← expect .semicolon .forInitSemicolon
  trim
  let test ← forClause rules allowIn .semicolon
  trim
  let _ ← expect .semicolon .forTestSemicolon
  trim
  let update ← forClause rules allowIn .closeParen
  let body ← forBody rules allowIn
  makeNode start (.forStatement init test update body)

/-- The first clause of a `for`, in which `in` is no operator. -/
def forInit (rules : Rules) : Rule Tree := do
  if ← atAny? [.kwConst, .kwVar, .kwLet] then variableDeclaration rules false
  else rules.expression false

/-- A loop with a header. An `await` in front of the header or the word behind its first clause
tells which of the three loops it is; a header without a first clause begins with a semicolon. -/
def forStatement (rules : Rules) (allowIn : Bool) : Rule Tree := do
  let start ← mark
  let _ ← eat
  let isAwait ← accept .kwAwait
  trim
  let _ ← expect .openParen .forParen
  trim
  if ← at? .semicolon then
    forThree rules allowIn start none
  else
    let init ← forInit rules
    trim
    if isAwait || (← at? .kwOf) then forOf rules allowIn start init isAwait
    else if ← at? .kwIn then forIn rules allowIn start init
    else forThree rules allowIn start (some init)

end ScriptFront.Script
