import ScriptFront.Script.Grammar.Callable

namespace ScriptFront.Script

open ScriptFront.Parser

/-- The signs that assign, alone or together with an operation. -/
def assignmentOperators : List TokenKind := [
  .equals, .plusEquals, .dashEquals, .percentEquals, .slashEquals, .asteriskEquals,
  .ampersandEquals, .pipeEquals]

/-- The operators of a layer. -/
def OperatorLayer.operators : OperatorLayer → List TokenKind
  | additive => [.dash, .plus]
  | multiplicative => [.asterisk, .slash, .percent]
  | comparative => [
    .doublePipe, .doubleAmpersand, .doubleEquals, .tripleEquals, .notEquals, .notDoubleEquals,
    .moreThanEqual, .moreThan, .lessThanEqual, .lessThan, .kwInstanceOf, .kwIn]

/-- A part of a template: a segment of text, or an interpolated expression. The tree keeps the two
in separate lists. -/
inductive TemplatePart where
  | segment (t : Tree)
  | interpolation (t : Tree)

/-- The piece of text that a part is, if it is one. -/
def TemplatePart.segment? : TemplatePart → Option Tree
  | segment t => some t
  | interpolation _ => none

/-- The expression that a part is, if it is one. -/
def TemplatePart.interpolation? : TemplatePart → Option Tree
  | segment _ => none
  | interpolation t => some t

/-- One part of a template. A segment is the tail if the closing back quote follows. -/
def templatePart (rules : Rules) : Rule TemplatePart := do
  let start ← mark
  match ← consumeIf .templateText with
  | some token =>
    let tail ← at? .backQuote
    let segment ← makeNode start (.templateElement token.text (cook token.text) tail)
    return .segment segment
  | none =>
    if ← accept .openTemplate then
      trim
      let expression ← rules.expression true
      trim
      let _ ← expect .closeBrace .interpolationEnd
      return .interpolation expression
    else
      complain .templatePart

/-- A template, part by part, up to the back quote that ends it. Its pieces of text and its
expressions are kept in two lists, which forget how they followed each other. -/
def templateLiteral (rules : Rules) : Rule Tree := do
  let start ← mark
  let _ ← expect .backQuote .templateOpen
  let parts ← items (·.is .backQuote) (templatePart rules) (pure true)
  let _ ← expect .backQuote .templateEnd
  makeNode start
    (.templateLiteral (parts.filterMap (·.segment?)) (parts.filterMap (·.interpolation?)))

/-- One argument of a call or one element of an array. -/
def spreadOrExpression (rules : Rules) (allowIn : Bool) : Rule Tree := do
  if ← at? .spread then
    let start ← mark
    let _ ← eat
    let argument ← rules.expression allowIn
    makeNode start (.spreadElement argument)
  else
    rules.expression allowIn

/-- An array that is a value, in which `in` is always an operator. -/
def arrayExpression (rules : Rules) : Rule Tree := do
  let start ← mark
  let _ ← eat
  let elements ← commaSeparated [.closeSquare] (spreadOrExpression rules true)
  let _ ← expect .closeSquare .arrayEnd
  makeNode start (.arrayExpression elements)

/-- One member of an object. A name alone is both key and value. -/
def objectMember (rules : Rules) : Rule Tree := do
  let start ← mark
  if ← accept .spread then
    trim
    let argument ← rules.expression true
    makeNode start (.spreadElement argument)
  else
    let (key, computed) ← propertyKey rules true
    trim
    if ← accept .colon then
      trim
      let value ← rules.expression true
      makeNode start (.property key value false computed)
    else if ← accept .openParen then
      let (params, body) ← parametersAndBody rules true
      makeNode start (.propertyMethod key params body computed)
    else if computed || !key.kind.isIdentifier then
      complain .propertyColon
    else
      makeNode start (.property key key true false)

/-- An object that is a value, in which `in` is always an operator. -/
def objectExpression (rules : Rules) : Rule Tree := do
  let start ← mark
  let _ ← eat
  let properties ← commaSeparated [.closeBrace] (objectMember rules)
  trim
  let _ ← expect .closeBrace .objectEnd
  makeNode start (.objectExpression properties)

/-- An expression in parentheses, which leaves no node of its own, or a sequence. -/
def group (rules : Rules) : Rule Tree := do
  let start ← mark
  let _ ← eat
  let first ← rules.expression true
  trim
  if ← accept .closeParen then
    return first
  else
    let _ ← expect .comma .sequenceComma
    trim
    let others ← commaSeparated [.closeParen] (rules.expression true)
    let _ ← expect .closeParen .groupEnd
    makeNode start (.sequenceExpression (first :: others))

/-- The label behind `break` or `continue`, from that word on. -/
def jumpLabel : Rule (Option Tree) := do
  let _ ← eat
  if ← atAny? [.hash, .identifier] then
    let label ← anyName false
    return some label
  else
    return none

/-- A name, with the increment or decrement behind it. -/
def nameOrUpdate (start : Nat) : Rule Tree := do
  let argument ← anyName false
  trim
  if ← atAny? [.doublePlus, .doubleDash] then
    let operator ← consume
    makeNode start (.updateExpression operator.kind argument false)
  else
    return argument

/-- What follows the word `async` in an expression, from that word on. -/
def asyncExpression (rules : Rules) (allowIn : Bool) (start : Nat) : Rule Tree := do
  let _ ← eat
  if ← at? .openParen then
    arrowFunction rules allowIn start true
  else if ← observe fun s => s.is .identifier && followedBy .arrow s then
    singleParamArrow rules allowIn start true
  else if ← at? .kwFunction then
    functionExpression rules allowIn start true
  else
    complain .asyncFunction

/-- A unary operator takes the whole expression behind it. -/
def unaryExpression (rules : Rules) (allowIn : Bool) (start : Nat) : Rule Tree := do
  let operator ← eat
  let argument ← rules.expression allowIn
  makeNode start (.unaryExpression operator.kind argument)

/-- An increment or decrement in front of a name. -/
def leadingUpdate (start : Nat) : Rule Tree := do
  let operator ← eat
  let argument ← anyName false
  makeNode start (.updateExpression operator.kind argument true)

/-- What an expression starts with. -/
def primary (rules : Rules) (allowIn : Bool) : Rule Tree := do
  let start ← mark
  match ← currentKind? with
  | some .kwAsync => asyncExpression rules allowIn start
  | some .kwFunction => functionExpression rules allowIn start false
  | some .kwClass => classExpression rules allowIn
  | some .doubleSlash => lineComment
  | some .string => stringLiteral
  | some .backQuote => templateLiteral rules
  | some .kwNew =>
    let _ ← eat
    let callee ← rules.expression allowIn
    makeNode start (.newExpression callee)
  | some .kwAwait =>
    let _ ← eat
    let argument ← rules.expression allowIn
    makeNode start (.awaitExpression argument)
  | some .openBrace => objectExpression rules
  | some .openSquare => arrayExpression rules
  | some .openParen =>
    if ← observe arrowFollows then arrowFunction rules allowIn start false
    else group rules
  | some .slash => regExpLiteral
  | some .number => numericLiteral
  | some .kwBreak =>
    let label ← jumpLabel
    makeNode start (.breakStatement label)
  | some .kwContinue =>
    let label ← jumpLabel
    makeNode start (.continueStatement label)
  | some .hash => nameOrUpdate start
  | some .identifier =>
    if ← observe (followedBy .arrow) then singleParamArrow rules allowIn start false
    else nameOrUpdate start
  | some .plus => unaryExpression rules allowIn start
  | some .dash => unaryExpression rules allowIn start
  | some .exclamation => unaryExpression rules allowIn start
  | some .kwTypeOf => unaryExpression rules allowIn start
  | some .kwVoid => unaryExpression rules allowIn start
  | some .doublePlus => leadingUpdate start
  | some .doubleDash => leadingUpdate start
  | _ => complain .expression

/-- A property by name. -/
def namedMember (start : Nat) (object : Tree) (optional : Bool) : Rule Tree := do
  let member ← anyName true
  makeNode start (.memberExpression object member false optional)

/-- A property by an expression in square brackets. -/
def computedMember (rules : Rules) (start : Nat) (object : Tree) (optional : Bool) :
    Rule Tree := do
  let _ ← eat
  let member ← rules.expression true
  trim
  let _ ← expect .closeSquare .memberEnd
  makeNode start (.memberExpression object member true optional)

/-- The arguments of a call, in which `in` is always an operator. -/
def call (rules : Rules) (start : Nat) (callee : Tree) (optional : Bool) : Rule Tree := do
  let _ ← eat
  let arguments ← commaSeparated [.closeParen] (spreadOrExpression rules true)
  let _ ← expect .closeParen .argumentsEnd
  makeNode start (.callExpression callee arguments optional)

/-- One more access, call or template behind an expression, if there is one. -/
def suffix? (rules : Rules) (start : Nat) (expression : Tree) : Rule (Option Tree) := do
  match ← currentKind? with
  | some .period =>
    let _ ← eat
    some <$> namedMember start expression false
  | some .openSquare => some <$> computedMember rules start expression false
  | some .openParen => some <$> call rules start expression false
  | some .optionalChain =>
    let _ ← eat
    match ← currentKind? with
    | some .openSquare => some <$> computedMember rules start expression true
    | some .openParen => some <$> call rules start expression true
    | _ => some <$> namedMember start expression true
  | some .backQuote =>
    let quasi ← templateLiteral rules
    some <$> makeNode start (.taggedTemplateExpression expression quasi)
  | _ => return none

/-- All accesses, calls and templates behind an expression, at most `budget` of them. -/
def suffixesWithin (rules : Rules) (start : Nat) : Nat → Tree → Rule Tree
  | 0, expression => return expression
  | budget + 1, expression => do
    match ← suffix? rules start expression with
    | some longer =>
      trim
      suffixesWithin rules start budget longer
    | none => return expression

/-- An expression with all accesses, calls and templates behind it. Each takes a
token, so a budget of the tokens left is enough. -/
def memberOrCall (rules : Rules) (allowIn : Bool) : Rule Tree := do
  let start ← mark
  let expression ← primary rules allowIn
  trim
  suffixesWithin rules start (← observe (·.rest.length)) expression

/-- An operand, alone or joined by an operator of the layer to the whole expression
behind it, so that operators of all layers group to the right. -/
def binary (rules : Rules) (allowIn : Bool) (layer : OperatorLayer) (operand : Rule Tree) :
    Rule Tree := do
  let start ← mark
  let left ← operand
  trim
  let joined ← observe fun s => s.currentKind.any fun kind =>
    layer.operators.contains kind && (kind ≠ .kwIn || allowIn)
  if joined then
    let operator ← eat
    let right ← rules.expression allowIn
    makeNode start (.binaryExpression layer operator.kind left right)
  else
    return left

/-- The layer of comparisons, `in` among them unless it is not allowed. -/
def comparative (rules : Rules) (allowIn : Bool) : Rule Tree :=
  binary rules allowIn .comparative (memberOrCall rules allowIn)

/-- The layer of products, whose operands are comparisons. -/
def multiplicative (rules : Rules) (allowIn : Bool) : Rule Tree :=
  binary rules allowIn .multiplicative (comparative rules allowIn)

/-- The layer of sums, whose operands are products. -/
def additive (rules : Rules) (allowIn : Bool) : Rule Tree :=
  binary rules allowIn .additive (multiplicative rules allowIn)

/-- A condition with its two branches. The first branch stands between two marks, so `in` is an
operator in it whatever it is outside. -/
def conditional (rules : Rules) (allowIn : Bool) : Rule Tree := do
  let start ← mark
  let test ← additive rules allowIn
  trim
  if ← accept .question then
    trim
    let consequent ← rules.expression true
    trim
    let _ ← expect .colon .ternaryColon
    trim
    let alternate ← rules.expression allowIn
    makeNode start (.conditionalExpression test consequent alternate)
  else
    return test

/-- A whole expression: an assignment, or whatever stands on its left. -/
def expression (rules : Rules) (allowIn : Bool) : Rule Tree := do
  let start ← mark
  let target ← conditional rules allowIn
  trim
  if ← atAny? assignmentOperators then
    let operator ← eat
    let value ← rules.expression allowIn
    trim
    makeNode start (.assignmentExpression operator.kind target value)
  else
    return target

end ScriptFront.Script
