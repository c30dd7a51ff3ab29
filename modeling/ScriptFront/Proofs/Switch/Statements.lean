import ScriptFront.Proofs.Switch.Expressions

namespace ScriptFront.Script.Machine

open ScriptFront.Parser

section Declarations

variable (rules : Rules)

/-- Here the switch is looked at: a declarator may end before `in` only if it is not set. -/
def declarator (keyword : String) : Step Tree := do
  let start ← on mark
  let id ← rules.binding
  on trim
  if ← on (accept .equals) then
    on trim
    let init ← rules.expression
    on (makeNode start (.variableDeclarator id (some init)))
  else if ← look fun m => declaratorEnds m.allowIn m.cursor then
    on (makeNode start (.variableDeclarator id none))
  else
    on (complain (.declaratorEquals keyword))

/-- The names and patterns of a declaration, with commas between them. -/
def declarators (keyword : String) : Step (List Tree) :=
  commaSeparated [.comma, .semicolon] (declarator rules keyword)

/-- A declaration by `var`, `let` or `const`, from its keyword on. -/
def variableDeclaration : Step Tree := do
  let start ← on mark
  let word ← on eat
  let kind := variableKind word.kind
  let declarators ← declarators rules kind.name
  on (makeNode start (.variableDeclaration kind declarators))

/-- A declaration by `using`. It takes the separators behind it along, as no other declaration does.
-/
def usingDeclaration (start : Nat) (isAwait : Bool) : Step Tree := do
  let _ ← on eat
  let declarators ← declarators rules "Using"
  let node ← on (makeNode start (.usingDeclaration isAwait declarators))
  on trimSeparators
  return node

/-- A declaration of any sort, told by its first word. Behind `async` only a function can follow. -/
def declaration : Step Tree := do
  let start ← on mark
  match ← on currentKind? with
  | some .kwUsing => usingDeclaration rules start false
  | some .kwVar => variableDeclaration rules
  | some .kwLet => variableDeclaration rules
  | some .kwConst => variableDeclaration rules
  | some .kwClass => classDeclaration rules
  | some .kwFunction => functionDeclaration rules start false
  | some .kwAsync =>
    let _ ← on eat
    if ← on (at? .kwFunction) then functionDeclaration rules start true
    else on (complain .asyncFunction)
  | _ => on (complain .declaration)

/-- What is exported by a module: a default value, all of another module, a list of names, or a
declaration. -/
def exportDeclaration : Step Tree := do
  let start ← on mark
  let _ ← on eat
  match ← on currentKind? with
  | some .kwDefault =>
    let _ ← on eat
    let value ← rules.expression
    on (makeNode start (.exportDefaultDeclaration value))
  | some .asterisk => on (exportAll start)
  | some .openBrace => on (exportList start)
  | _ =>
    let exported ← declaration rules
    on (makeNode start (.exportNamedDeclaration (some exported) [] none))

variable {rules} {r : Script.Rules} (follow : rules.Follow r) {b : Bool}
include follow

/-- Whether a declarator may end here depends on `in`. The machine asks the switch, which stands
where the rule is told it does. -/
theorem declarator_keeps (keyword : String) :
    Keeps b (declarator rules keyword) (Script.declarator r b keyword) := by
  refine .after fun start => (follow.binding b).bind fun id => .after fun _ => ?_
  refine .after fun _ => .ite ?_ ?_
  · exact .after fun _ => (follow.expression b).bind fun init => keeps_on _
  · exact (keeps_look _).bind fun _ => .ite (keeps_on _) (keeps_on _)

theorem declarators_keeps (keyword : String) :
    Keeps b (declarators rules keyword) (Script.declarators r b keyword) :=
  (declarator_keeps follow keyword).commaSeparated

theorem variableDeclaration_keeps :
    Keeps b (variableDeclaration rules) (Script.variableDeclaration r b) := by
  refine .after fun start => .after fun word => ?_
  exact (declarators_keeps follow _).bind fun _ => keeps_on _

/-- The separators behind the declaration are taken at the cursor. -/
theorem usingDeclaration_keeps (start : Nat) (isAwait : Bool) :
    Keeps b (usingDeclaration rules start isAwait)
      (Script.usingDeclaration r b start isAwait) := by
  refine .after fun _ => (declarators_keeps follow _).bind fun found => ?_
  exact .after fun node => .after fun _ => keeps_pure _

/-- Each sort of declaration keeps the switch. The cases are the kinds of the first token, as both
rules distinguish them. -/
theorem declaration_keeps : Keeps b (declaration rules) (Script.declaration r b) := by
  refine .after fun start => .after fun kind => ?_
  rcases kind with _ | kind
  · exact keeps_on _
  cases kind with
  | kwUsing => exact usingDeclaration_keeps follow start false
  | kwVar => exact variableDeclaration_keeps follow
  | kwLet => exact variableDeclaration_keeps follow
  | kwConst => exact variableDeclaration_keeps follow
  | kwClass => exact classDeclaration_keeps follow
  | kwFunction => exact functionDeclaration_keeps follow start false
  | kwAsync =>
    refine .after fun _ => .after fun _ => .ite ?_ (keeps_on _)
    exact functionDeclaration_keeps follow start true
  | _ => exact keeps_on _

/-- The exported value or declaration finds the switch as it stands. -/
theorem exportDeclaration_keeps :
    Keeps b (exportDeclaration rules) (Script.exportDeclaration r b) := by
  refine .after fun start => .after fun _ => .after fun kind => ?_
  rcases kind with _ | kind
  · exact (declaration_keeps follow).bind fun _ => keeps_on _
  cases kind with
  | kwDefault => exact .after fun _ => (follow.expression b).bind fun value => keeps_on _
  | asterisk => exact keeps_on _
  | openBrace => exact keeps_on _
  | _ => exact (declaration_keeps follow).bind fun _ => keeps_on _

end Declarations

section Control

variable (rules : Rules)

/-- Behind the parenthesis `in` is an operator, whatever it was outside. -/
def parenthesized (head : Head) : Step Tree := do
  let _ ← on (expect .openParen (.headOpen head))
  on trim
  let inner ← withIn true rules.expression
  on trim
  let _ ← on (expect .closeParen (.headEnd head))
  on trim
  return inner

/-- What a condition or a loop leads to: a block, a lone semicolon, or any statement. -/
def branch : Step Tree := do
  if ← on (at? .openBrace) then
    block rules
  else
    let start ← on mark
    if ← on (accept .semicolon) then on (makeNode start .emptyStatement)
    else rules.statement

/-- A condition and its branches. An `else` with an `if` behind it goes on by the rule for
conditions itself. -/
def ifStatement : Step Tree := do
  let start ← on mark
  let _ ← on eat
  let test ← parenthesized rules .ifHead
  let consequent ← branch rules
  on trim
  let alternate ←
    if ← on (accept .kwElse) then do
      on trim
      let alternate ←
        if ← on (at? .kwIf) then rules.ifStatement else branch rules
      pure (some alternate)
    else pure none
  on (makeNode start (.ifStatement test consequent alternate))

/-- A `with` and its body, from the keyword on. -/
def withStatement : Step Tree := do
  let start ← on mark
  let _ ← on eat
  let object ← parenthesized rules .withHead
  let body ← branch rules
  on (makeNode start (.withStatement object body))

/-- A loop that tests before each turn, from its keyword on. -/
def whileStatement : Step Tree := do
  let start ← on mark
  let _ ← on eat
  let test ← parenthesized rules .whileHead
  let body ← branch rules
  on (makeNode start (.whileStatement test body))

/-- A loop that tests behind each turn. Its test has no parentheses of its own, so nothing sets the
switch for it. -/
def doWhileStatement : Step Tree := do
  let start ← on mark
  let _ ← on eat
  let body ← block rules
  let _ ← on (expect .kwWhile .doWhile)
  on trim
  let test ← rules.expression
  on (makeNode start (.doWhileStatement body test))

/-- What a `catch` binds, between parentheses. Both may be missing. -/
def catchParam : Step (Option Tree) := do
  if ← on (accept .openParen) then
    on trim
    let param ← rules.binding
    on trim
    let _ ← on (expect .closeParen .catchEnd)
    on trim
    return some param
  else
    return none

/-- The part of a `try` that handles what was thrown, if there is one. -/
def catchClause : Step (Option Tree) := do
  if ← on (at? .kwCatch) then
    let start ← on mark
    let _ ← on eat
    let param ← catchParam rules
    let body ← block rules
    some <$> on (makeNode start (.catchClause param body))
  else
    return none

/-- The part of a `try` that is done in any case, if there is one. -/
def finalizer : Step (Option Tree) := do
  if ← on (accept .kwFinally) then
    on trim
    some <$> block rules
  else
    return none

/-- A `try` with the parts behind it, of which at least one has to be there. -/
def tryStatement : Step Tree := do
  let start ← on mark
  let _ ← on eat
  let body ← block rules
  let handler ← catchClause rules
  let finalizer ← finalizer rules
  if handler.isNone && finalizer.isNone then on (complain .catchOrFinally)
  else on (makeNode start (.tryStatement body handler finalizer))

/-- The head of a case up to its colon. The default case has no test. -/
def caseTest : Step (Option Tree) := do
  if ← on (accept .kwCase) then
    on trim
    let test ← rules.expression
    let _ ← on (expect .colon .caseColon)
    return some test
  else if ← on (accept .kwDefault) then
    on trim
    let _ ← on (expect .colon .defaultColon)
    return none
  else
    on (complain .switchBody)

/-- A case and the statements behind it, up to the next case or to the end of all cases. -/
def switchCase : Step Tree := do
  let start ← on mark
  let test ← caseTest rules
  on trimSeparators
  let consequent ← separated [.kwCase, .kwDefault, .closeBrace] rules.statement
  on (makeNode start (.switchCase test consequent))

/-- A `switch` with its cases, from the keyword on. -/
def switchStatement : Step Tree := do
  let start ← on mark
  let _ ← on eat
  let discriminant ← parenthesized rules .switchHead
  let _ ← on (expect .openBrace .switchOpen)
  on trim
  let cases ← items (·.is .closeBrace) (switchCase rules) (pure true)
  let _ ← on (expect .closeBrace .switchEnd)
  on (makeNode start (.switchStatement discriminant cases))

/-- What follows the header of a loop: its closing parenthesis and the body. -/
def forBody : Step Tree := do
  on trim
  let _ ← on (expect .closeParen .forEnd)
  on trim
  branch rules

/-- The rest of a loop over the items of a value, from the word `of` on. -/
def forOf (start : Nat) (left : Tree) (isAwait : Bool) : Step Tree := do
  let _ ← on (expect .kwOf .forOf)
  on trim
  let right ← rules.expression
  let body ← forBody rules
  on (makeNode start (.forOfStatement left right body isAwait))

/-- The rest of a loop over the keys of a value, from the word `in` on. -/
def forIn (start : Nat) (left : Tree) : Step Tree := do
  let _ ← on eat
  let right ← rules.expression
  let body ← forBody rules
  on (makeNode start (.forInStatement left right body))

/-- A clause of a header that may be missing, as the mark behind it tells. -/
def forClause (stop : TokenKind) : Step (Option Tree) := do
  if ← on (at? stop) then return none
  else some <$> rules.expression

/-- The rest of a loop with three clauses, from the semicolon behind the first of them on. -/
def forThree (start : Nat) (init : Option Tree) : Step Tree := do
  let _ ← on (expect .semicolon .forInitSemicolon)
  on trim
  let test ← forClause rules .semicolon
  on trim
  let _ ← on (expect .semicolon .forTestSemicolon)
  on trim
  let update ← forClause rules .closeParen
  let body ← forBody rules
  on (makeNode start (.forStatement init test update body))

/-- What a header begins with: a declaration without its semicolon, or an expression. -/
def forInit : Step Tree := do
  if ← on (atAny? [.kwConst, .kwVar, .kwLet]) then variableDeclaration rules
  else rules.expression

/-- The one place where the switch is taken away. -/
def forStatement : Step Tree := do
  let start ← on mark
  let _ ← on eat
  let isAwait ← on (accept .kwAwait)
  on trim
  let _ ← on (expect .openParen .forParen)
  on trim
  if ← on (at? .semicolon) then
    forThree rules start none
  else
    let init ← withIn false (forInit rules)
    on trim
    if isAwait || (← on (at? .kwOf)) then forOf rules start init isAwait
    else if ← on (at? .kwIn) then forIn rules start init
    else forThree rules start (some init)

variable {rules} {r : Script.Rules} (follow : rules.Follow r) {b : Bool}
include follow

/-- The parentheses of a head set the switch around the expression in them. -/
theorem parenthesized_keeps (head : Head) :
    Keeps b (parenthesized rules head) (Script.parenthesized r head) := by
  refine .after fun _ => .after fun _ => (follow.expression true).withIn.bind fun inner => ?_
  exact .after fun _ => .after fun _ => .after fun _ => keeps_pure _

/-- A branch finds the switch as the statement around it does. -/
theorem branch_keeps : Keeps b (branch rules) (Script.branch r b) := by
  refine .after fun _ => .ite (block_keeps follow) ?_
  exact .after fun start => .after fun _ => .ite (keeps_on _) (follow.statement b)

/-- The test sets the switch and puts it back, so both branches find it as it stood in front of the
statement. -/
theorem ifStatement_keeps : Keeps b (ifStatement rules) (Script.ifStatement r b) := by
  refine .after fun start => .after fun _ => (parenthesized_keeps follow _).bind fun test => ?_
  refine (branch_keeps follow).bind fun consequent => .after fun _ => .after fun _ => ?_
  refine .ite ?_ ((keeps_pure _).bind fun _ => keeps_on _)
  refine .after fun _ => .after fun _ => .ite ?_ ?_
  · refine (follow.ifStatement b).bind fun alternate => ?_
    exact (keeps_pure _).bind fun _ => keeps_on _
  · refine (branch_keeps follow).bind fun alternate => ?_
    exact (keeps_pure _).bind fun _ => keeps_on _

theorem withStatement_keeps : Keeps b (withStatement rules) (Script.withStatement r b) := by
  refine .after fun start => .after fun _ => (parenthesized_keeps follow _).bind fun object => ?_
  exact (branch_keeps follow).bind fun body => keeps_on _

theorem whileStatement_keeps : Keeps b (whileStatement rules) (Script.whileStatement r b) := by
  refine .after fun start => .after fun _ => (parenthesized_keeps follow _).bind fun test => ?_
  exact (branch_keeps follow).bind fun body => keeps_on _

/-- The test of this loop needs no parentheses, so no switch is set for it. -/
theorem doWhileStatement_keeps :
    Keeps b (doWhileStatement rules) (Script.doWhileStatement r b) := by
  refine .after fun start => .after fun _ => (block_keeps follow).bind fun body => ?_
  refine .after fun _ => .after fun _ => ?_
  exact (follow.expression b).bind fun test => keeps_on _

theorem catchParam_keeps : Keeps b (catchParam rules) (Script.catchParam r b) := by
  refine .after fun _ => .ite ?_ (keeps_pure _)
  refine .after fun _ => (follow.binding b).bind fun param => ?_
  exact .after fun _ => .after fun _ => .after fun _ => keeps_pure _

theorem catchClause_keeps : Keeps b (catchClause rules) (Script.catchClause r b) := by
  refine .after fun _ => .ite ?_ (keeps_pure _)
  refine .after fun start => .after fun _ => (catchParam_keeps follow).bind fun param => ?_
  exact (block_keeps follow).bind fun body => (keeps_on _).map

theorem finalizer_keeps : Keeps b (finalizer rules) (Script.finalizer r b) := by
  refine .after fun _ => .ite ?_ (keeps_pure _)
  exact .after fun _ => (block_keeps follow).map

theorem tryStatement_keeps : Keeps b (tryStatement rules) (Script.tryStatement r b) := by
  refine .after fun start => .after fun _ => (block_keeps follow).bind fun body => ?_
  refine (catchClause_keeps follow).bind fun handler => ?_
  exact (finalizer_keeps follow).bind fun finalizer => .ite (keeps_on _) (keeps_on _)

theorem caseTest_keeps : Keeps b (caseTest rules) (Script.caseTest r b) := by
  refine .after fun _ => .ite ?_ (.after fun _ => .ite ?_ (keeps_on _))
  · refine .after fun _ => (follow.expression b).bind fun test => ?_
    exact .after fun _ => keeps_pure _
  · exact .after fun _ => .after fun _ => keeps_pure _

/-- The tests and the statements of all cases find the switch as it stands. -/
theorem switchCase_keeps : Keeps b (switchCase rules) (Script.switchCase r b) := by
  refine .after fun start => (caseTest_keeps follow).bind fun test => .after fun _ => ?_
  exact (follow.statement b).separated.bind fun consequent => keeps_on _

theorem switchStatement_keeps :
    Keeps b (switchStatement rules) (Script.switchStatement r b) := by
  refine .after fun start => .after fun _ => ?_
  refine (parenthesized_keeps follow _).bind fun discriminant => .after fun _ => ?_
  refine .after fun _ => (switchCase_keeps follow).items.bind fun cases => ?_
  exact .after fun _ => keeps_on _

theorem forBody_keeps : Keeps b (forBody rules) (Script.forBody r b) :=
  .after fun _ => .after fun _ => .after fun _ => branch_keeps follow

/-- What is gone over finds the switch as it stands outside the loop, since it was put back behind
the first clause. -/
theorem forOf_keeps (start : Nat) (left : Tree) (isAwait : Bool) :
    Keeps b (forOf rules start left isAwait) (Script.forOf r b start left isAwait) := by
  refine .after fun _ => .after fun _ => (follow.expression b).bind fun right => ?_
  exact (forBody_keeps follow).bind fun body => keeps_on _

theorem forIn_keeps (start : Nat) (left : Tree) :
    Keeps b (forIn rules start left) (Script.forIn r b start left) := by
  refine .after fun _ => (follow.expression b).bind fun right => ?_
  exact (forBody_keeps follow).bind fun body => keeps_on _

theorem forClause_keeps (stop : TokenKind) :
    Keeps b (forClause rules stop) (Script.forClause r b stop) :=
  .after fun _ => .ite (keeps_pure _) (follow.expression b).map

/-- The second and the third clause find the switch as it stands outside the loop. -/
theorem forThree_keeps (start : Nat) (init : Option Tree) :
    Keeps b (forThree rules start init) (Script.forThree r b start init) := by
  refine .after fun _ => .after fun _ => (forClause_keeps follow _).bind fun test => ?_
  refine .after fun _ => .after fun _ => .after fun _ => ?_
  refine (forClause_keeps follow _).bind fun update => ?_
  exact (forBody_keeps follow).bind fun body => keeps_on _

/-- The first clause is parsed with the switch off, by whoever calls this rule. -/
theorem forInit_keeps : Keeps false (forInit rules) (Script.forInit r) :=
  .after fun _ => .ite (variableDeclaration_keeps follow) (follow.expression false)

/-- The machine turns the switch off for the first clause and puts it back, whether the clause could
be parsed or not. The rule for loops tells the rules inside the same by an argument. -/
theorem forStatement_keeps : Keeps b (forStatement rules) (Script.forStatement r b) := by
  refine .after fun start => .after fun _ => .after fun isAwait => .after fun _ => ?_
  refine .after fun _ => .after fun _ => .after fun _ => ?_
  refine .ite (forThree_keeps follow start none) ?_
  refine (forInit_keeps follow).withIn.bind fun init => .after fun _ => ?_
  refine .after fun _ => .ite (forOf_keeps follow start init isAwait) ?_
  refine .after fun _ => .ite (forIn_keeps follow start init) ?_
  exact forThree_keeps follow start (some init)

end Control

section Statements

variable (rules : Rules)

/-- An expression that stands as a statement. -/
def expressionStatement : Step Tree := do
  let start ← on mark
  let inner ← expression rules
  on (makeNode start (.expressionStatement inner))

/-- A `return`, with the value unless a semicolon, a closing brace or the end follows. -/
def returnStatement : Step Tree := do
  let start ← on mark
  let _ ← on eat
  if ← on (observe fun s => !s.willContinue || s.isAny [.semicolon, .closeBrace]) then
    on (makeNode start (.returnStatement none))
  else
    let argument ← rules.expression
    on (makeNode start (.returnStatement (some argument)))

/-- A `throw` with the value that is thrown. -/
def throwStatement : Step Tree := do
  let start ← on mark
  let _ ← on eat
  let argument ← rules.expression
  on (makeNode start (.throwStatement argument))

/-- A label and the statement behind its colon. -/
def labeledStatement : Step Tree := do
  let start ← on mark
  let label ← on plainName
  on trim
  let _ ← on (expect .colon .labelColon)
  on trim
  let body ← rules.statement
  on (makeNode start (.labeledStatement label body))

/-- A declaration by `await using`. The two words are read apart. -/
def awaitUsing : Step Tree := do
  let start ← on mark
  let _ ← on eat
  usingDeclaration rules start true

/-- A statement without what separates it from others, told by its first token. Three words are
looked at together with the token behind them. -/
def bareStatement : Step Tree := do
  match ← on currentKind? with
  | some .kwVar => declaration rules
  | some .kwLet => declaration rules
  | some .kwConst => declaration rules
  | some .kwFunction => declaration rules
  | some .kwUsing => declaration rules
  | some .kwClass => declaration rules
  | some .kwAsync =>
    if ← on (observe (followedBy .kwFunction)) then declaration rules
    else expressionStatement rules
  | some .kwIf => ifStatement rules
  | some .kwWith => withStatement rules
  | some .kwTry => tryStatement rules
  | some .kwFor => forStatement rules
  | some .kwDo => doWhileStatement rules
  | some .kwWhile => whileStatement rules
  | some .kwSwitch => switchStatement rules
  | some .slashAsterisk => on blockComment
  | some .doubleSlash => on lineComment
  | some .kwImport =>
    on markModule
    on importDeclaration
  | some .kwExport =>
    on markModule
    exportDeclaration rules
  | some .kwReturn => returnStatement rules
  | some .kwThrow => throwStatement rules
  | some .openBrace => block rules
  | some .kwAwait =>
    if ← on (observe (followedBy .kwUsing)) then awaitUsing rules
    else expressionStatement rules
  | some .identifier =>
    if ← on (observe (followedBy .colon)) then labeledStatement rules
    else expressionStatement rules
  | _ => expressionStatement rules

/-- A statement together with the layout in front of it and the separators behind it. -/
def statement : Step Tree := do
  on trim
  let node ← bareStatement rules
  on trimSeparators
  return node

variable {rules} {r : Script.Rules} (follow : rules.Follow r) {b : Bool}
include follow

theorem expressionStatement_keeps :
    Keeps b (expressionStatement rules) (Script.expressionStatement r b) :=
  .after fun _ => (expression_keeps follow).bind fun _ => keeps_on _

theorem returnStatement_keeps : Keeps b (returnStatement rules) (Script.returnStatement r b) := by
  refine .after fun start => .after fun _ => .after fun _ => .ite (keeps_on _) ?_
  exact (follow.expression b).bind fun argument => keeps_on _

theorem throwStatement_keeps : Keeps b (throwStatement rules) (Script.throwStatement r b) :=
  .after fun _ => .after fun _ => (follow.expression b).bind fun _ => keeps_on _

theorem labeledStatement_keeps :
    Keeps b (labeledStatement rules) (Script.labeledStatement r b) := by
  refine .after fun start => .after fun label => .after fun _ => .after fun _ => ?_
  exact .after fun _ => (follow.statement b).bind fun body => keeps_on _

theorem awaitUsing_keeps : Keeps b (awaitUsing rules) (Script.awaitUsing r b) :=
  .after fun start => .after fun _ => usingDeclaration_keeps follow start true

/-- Every statement keeps the switch. The cases are the kinds of the first token, as both rules
distinguish them. -/
theorem bareStatement_keeps : Keeps b (bareStatement rules) (Script.bareStatement r b) := by
  have plain := expressionStatement_keeps follow (b := b)
  have declared := declaration_keeps follow (b := b)
  refine .after fun kind => ?_
  rcases kind with _ | kind
  · exact plain
  cases kind with
  | kwVar => exact declared
  | kwLet => exact declared
  | kwConst => exact declared
  | kwFunction => exact declared
  | kwUsing => exact declared
  | kwClass => exact declared
  | kwAsync => exact .after fun _ => .ite declared plain
  | kwIf => exact ifStatement_keeps follow
  | kwWith => exact withStatement_keeps follow
  | kwTry => exact tryStatement_keeps follow
  | kwFor => exact forStatement_keeps follow
  | kwDo => exact doWhileStatement_keeps follow
  | kwWhile => exact whileStatement_keeps follow
  | kwSwitch => exact switchStatement_keeps follow
  | slashAsterisk => exact keeps_on _
  | doubleSlash => exact keeps_on _
  | kwImport => exact .after fun _ => keeps_on _
  | kwExport => exact .after fun _ => exportDeclaration_keeps follow
  | kwReturn => exact returnStatement_keeps follow
  | kwThrow => exact throwStatement_keeps follow
  | openBrace => exact block_keeps follow
  | kwAwait => exact .after fun _ => .ite (awaitUsing_keeps follow) plain
  | identifier => exact .after fun _ => .ite (labeledStatement_keeps follow) plain
  | _ => exact plain

/-- The layout in front and the separators behind are taken at the cursor. -/
theorem statement_keeps : Keeps b (statement rules) (Script.statement r b) :=
  .after fun _ => (bareStatement_keeps follow).bind fun _ => .after fun _ => keeps_pure _

end Statements

/-- One unfolding of the machine's grammar. -/
def Rules.unfold (inner : Rules) : Rules where
  statement := Machine.statement inner
  expression := Machine.expression inner
  binding := Machine.binding inner
  ifStatement := Machine.ifStatement inner

/-- The rules unfolded to some depth; below it other rules stand in for them. -/
def Rules.unfolded (deepest : Rules) : Nat → Rules
  | 0 => deepest
  | depth + 1 => (unfolded deepest depth).unfold

/-- Rules that refuse every input. They stand in where no input can lead, and what they say is never
heard. -/
def Rules.refusing : Rules where
  statement := on (complain .expression)
  expression := on (complain .expression)
  binding := on (complain .pattern)
  ifStatement := on (complain .expression)

/-- Rules that are unfolded as often as an input can ask for: every turn from one rule into itself
takes a token. -/
def Rules.enough (s : State) : Rules := Rules.refusing.unfolded (s.rest.length + 1)

/-- Reads one statement, with the switch of the machine deciding what `in` is. -/
def parseStatement : Step Tree := fun m => (Rules.enough m.cursor).statement m

/-- Reads one expression, with the switch of the machine deciding what `in` is. -/
def parseExpression : Step Tree := fun m => (Rules.enough m.cursor).expression m

/-- Rules of the machine that follow the rules of the grammar do so one level deeper. -/
theorem Rules.Follow.unfold {rules : Rules} {r : Script.Rules} (follow : rules.Follow r) :
    rules.unfold.Follow r.unfold where
  statement _ := statement_keeps follow
  expression _ := expression_keeps follow
  binding _ := binding_keeps follow
  ifStatement _ := ifStatement_keeps follow

/-- The rules of the machine follow those of the grammar at every depth. The induction is on the
depth. -/
theorem Rules.follow_unfolded (depth : Nat) :
    (Rules.refusing.unfolded depth).Follow (Script.Rules.refusing.unfolded depth) := by
  induction depth with
  | zero =>
    exact {
      statement := fun _ => keeps_on (complain .expression)
      expression := fun _ => keeps_on (complain .expression)
      binding := fun _ => keeps_on (complain .pattern)
      ifStatement := fun _ => keeps_on (complain .expression) }
  | succ depth ih => exact ih.unfold

/-- However deep a statement fails, the switch stands behind it where it stood before. -/
theorem parseStatement_keeps : Keeps true parseStatement Script.parseStatement :=
  fun s => (Rules.follow_unfolded (s.rest.length + 1)).statement true s

/-- A whole expression is parsed alike by the machine, with the switch on in the end as in the
beginning, whatever the outcome. -/
theorem parseExpression_keeps : Keeps true parseExpression Script.parseExpression :=
  fun s => (Rules.follow_unfolded (s.rest.length + 1)).expression true s

end ScriptFront.Script.Machine
