import ScriptFront.Proofs.Switch.Callables

namespace ScriptFront.Script.Machine

open ScriptFront.Parser

section Primaries

variable (rules : Rules)

/-- An interpolation lets `in` be an operator again. -/
def templatePart : Step TemplatePart := do
  let start ← on mark
  match ← on (consumeIf .templateText) with
  | some token =>
    let tail ← on (at? .backQuote)
    let segment ← on (makeNode start (.templateElement token.text (cook token.text) tail))
    return .segment segment
  | none =>
    if ← on (accept .openTemplate) then
      on trim
      let expression ← withIn true rules.expression
      on trim
      let _ ← on (expect .closeBrace .interpolationEnd)
      return .interpolation expression
    else
      on (complain .templatePart)

/-- A template, part by part, up to the back quote that ends it. Its pieces of text and its
expressions are told apart only when all parts are read. -/
def templateLiteral : Step Tree := do
  let start ← on mark
  let _ ← on (expect .backQuote .templateOpen)
  let parts ← items (·.is .backQuote) (templatePart rules) (pure true)
  let _ ← on (expect .backQuote .templateEnd)
  on (makeNode start
    (.templateLiteral (parts.filterMap (·.segment?)) (parts.filterMap (·.interpolation?))))

/-- One item of an array or of a list of arguments: an expression, perhaps behind three dots. -/
def spreadOrExpression : Step Tree := do
  if ← on (at? .spread) then
    let start ← on mark
    let _ ← on eat
    let argument ← rules.expression
    on (makeNode start (.spreadElement argument))
  else
    rules.expression

/-- An array that is a value. Its brackets set the switch for all that stands between them and put
it back behind. -/
def arrayExpression : Step Tree := do
  let start ← on mark
  let _ ← on eat
  let elements ← withIn true (commaSeparated [.closeSquare] (spreadOrExpression rules))
  let _ ← on (expect .closeSquare .arrayEnd)
  on (makeNode start (.arrayExpression elements))

/-- One member of an object that is a value: three dots with an expression, a key with a value, a
method, or a name that stands for both. -/
def objectMember : Step Tree := do
  let start ← on mark
  if ← on (accept .spread) then
    on trim
    let argument ← rules.expression
    on (makeNode start (.spreadElement argument))
  else
    let (key, computed) ← propertyKey rules
    on trim
    if ← on (accept .colon) then
      on trim
      let value ← rules.expression
      on (makeNode start (.property key value false computed))
    else if ← on (accept .openParen) then
      let (params, body) ← parametersAndBody rules
      on (makeNode start (.propertyMethod key params body computed))
    else if computed || !key.kind.isIdentifier then
      on (complain .propertyColon)
    else
      on (makeNode start (.property key key true false))

/-- An object that is a value. Its braces set the switch for all members and put it back behind the
last one. -/
def objectExpression : Step Tree := do
  let start ← on mark
  let _ ← on eat
  let properties ← withIn true (commaSeparated [.closeBrace] (objectMember rules))
  on trim
  let _ ← on (expect .closeBrace .objectEnd)
  on (makeNode start (.objectExpression properties))

/-- What stands between parentheses that open no arrow function: one expression, or a sequence of
them. The caller sets the switch. -/
def group : Step Tree := do
  let start ← on mark
  let _ ← on eat
  let first ← rules.expression
  on trim
  if ← on (accept .closeParen) then
    return first
  else
    let _ ← on (expect .comma .sequenceComma)
    on trim
    let others ← commaSeparated [.closeParen] rules.expression
    let _ ← on (expect .closeParen .groupEnd)
    on (makeNode start (.sequenceExpression (first :: others)))

/-- What may follow `async`: an arrow function with or without parentheses, or a function. Nothing
else can follow. -/
def asyncExpression (start : Nat) : Step Tree := do
  let _ ← on eat
  if ← on (at? .openParen) then
    arrowFunction rules start true
  else if ← on (observe fun s => s.is .identifier && followedBy .arrow s) then
    singleParamArrow rules start true
  else if ← on (at? .kwFunction) then
    functionExpression rules start true
  else
    on (complain .asyncFunction)

/-- An operator in front of its operand, which is a whole expression. -/
def unaryExpression (start : Nat) : Step Tree := do
  let operator ← on eat
  let argument ← rules.expression
  on (makeNode start (.unaryExpression operator.kind argument))

/-- The innermost layer of expressions, told by the kind of its first token. Only parentheses that
group set the switch here. -/
def primary : Step Tree := do
  let start ← on mark
  match ← on currentKind? with
  | some .kwAsync => asyncExpression rules start
  | some .kwFunction => functionExpression rules start false
  | some .kwClass => classExpression rules
  | some .doubleSlash => on lineComment
  | some .string => on stringLiteral
  | some .backQuote => templateLiteral rules
  | some .kwNew =>
    let _ ← on eat
    let callee ← rules.expression
    on (makeNode start (.newExpression callee))
  | some .kwAwait =>
    let _ ← on eat
    let argument ← rules.expression
    on (makeNode start (.awaitExpression argument))
  | some .openBrace => objectExpression rules
  | some .openSquare => arrayExpression rules
  | some .openParen =>
    if ← on (observe arrowFollows) then arrowFunction rules start false
    else withIn true (group rules)
  | some .slash => on regExpLiteral
  | some .number => on numericLiteral
  | some .kwBreak =>
    let label ← on jumpLabel
    on (makeNode start (.breakStatement label))
  | some .kwContinue =>
    let label ← on jumpLabel
    on (makeNode start (.continueStatement label))
  | some .hash => on (nameOrUpdate start)
  | some .identifier =>
    if ← on (observe (followedBy .arrow)) then singleParamArrow rules start false
    else on (nameOrUpdate start)
  | some .plus => unaryExpression rules start
  | some .dash => unaryExpression rules start
  | some .exclamation => unaryExpression rules start
  | some .kwTypeOf => unaryExpression rules start
  | some .kwVoid => unaryExpression rules start
  | some .doublePlus => on (leadingUpdate start)
  | some .doubleDash => on (leadingUpdate start)
  | _ => on (complain .expression)

variable {rules} {r : Script.Rules} (follow : rules.Follow r) {b : Bool}
include follow

/-- An interpolation sets the switch and puts it back, so its expression is parsed with `in` allowed
and the next part finds the switch as it was. -/
theorem templatePart_keeps : Keeps b (templatePart rules) (Script.templatePart r) := by
  refine .after fun start => .after fun text => ?_
  cases text with
  | some token => exact .after fun tail => .after fun segment => keeps_pure _
  | none =>
    refine .after fun _ => .ite ?_ (keeps_on _)
    refine .after fun _ => (follow.expression true).withIn.bind fun expression => ?_
    exact .after fun _ => .after fun _ => keeps_pure _

/-- The parts of a template are a loop of steps that keep the switch. -/
theorem templateLiteral_keeps : Keeps b (templateLiteral rules) (Script.templateLiteral r) := by
  refine .after fun start => .after fun _ => ?_
  exact (templatePart_keeps follow).items.bind fun parts => .after fun _ => keeps_on _

theorem spreadOrExpression_keeps :
    Keeps b (spreadOrExpression rules) (Script.spreadOrExpression r b) := by
  refine .after fun _ => .ite ?_ (follow.expression b)
  refine .after fun start => .after fun _ => ?_
  exact (follow.expression b).bind fun _ => keeps_on _

/-- The brackets of an array set the switch around all its elements together, and put it back in
front of the closing bracket. -/
theorem arrayExpression_keeps : Keeps b (arrayExpression rules) (Script.arrayExpression r) := by
  refine .after fun start => .after fun _ => ?_
  refine (spreadOrExpression_keeps follow).commaSeparated.withIn.bind fun elements => ?_
  exact .after fun _ => keeps_on _

/-- Inside the braces `in` is an operator. -/
theorem objectMember_keeps : Keeps true (objectMember rules) (Script.objectMember r) := by
  refine .after fun start => .after fun _ => .ite ?_ ?_
  · exact .after fun _ => (follow.expression true).bind fun _ => keeps_on _
  · refine (propertyKey_keeps follow).bind fun key => .after fun _ => ?_
    refine .after fun _ => .ite ?_ ?_
    · exact .after fun _ => (follow.expression true).bind fun _ => keeps_on _
    · refine .after fun _ => .ite ?_ (.ite (keeps_on _) (keeps_on _))
      exact (parametersAndBody_keeps follow).bind fun _ => keeps_on _

/-- The braces of an object set the switch around its members. -/
theorem objectExpression_keeps :
    Keeps b (objectExpression rules) (Script.objectExpression r) := by
  refine .after fun start => .after fun _ => ?_
  refine (objectMember_keeps follow).commaSeparated.withIn.bind fun properties => ?_
  exact .after fun _ => .after fun _ => keeps_on _

/-- A group is only entered with the switch set, so nothing is said of it otherwise. -/
theorem group_keeps : Keeps true (group rules) (Script.group r) := by
  refine .after fun start => .after fun _ => (follow.expression true).bind fun first => ?_
  refine .after fun _ => .after fun _ => .ite (keeps_pure _) ?_
  refine .after fun _ => .after fun _ => ?_
  exact (follow.expression true).commaSeparated.bind fun others => .after fun _ => keeps_on _

/-- The word `async` does not set the switch for the function behind it. -/
theorem asyncExpression_keeps (start : Nat) :
    Keeps b (asyncExpression rules start) (Script.asyncExpression r b start) := by
  refine .after fun _ => .after fun _ => .ite (arrowFunction_keeps follow start true) ?_
  refine .after fun _ => .ite (singleParamArrow_keeps follow start true) ?_
  exact .after fun _ => .ite (functionExpression_keeps follow start true) (keeps_on _)

theorem unaryExpression_keeps (start : Nat) :
    Keeps b (unaryExpression rules start) (Script.unaryExpression r b start) :=
  .after fun _ => (follow.expression b).bind fun _ => keeps_on _

/-- The innermost layer keeps the switch. Where the rules for arrays, objects, templates and groups
are told that `in` is allowed, the machine sets the switch; everywhere else it leaves it. The cases
are the kinds of the first token. -/
theorem primary_keeps : Keeps b (primary rules) (Script.primary r b) := by
  refine .after fun start => .after fun kind => ?_
  rcases kind with _ | kind
  · exact keeps_on _
  cases kind with
  | kwAsync => exact asyncExpression_keeps follow start
  | kwFunction => exact functionExpression_keeps follow start false
  | kwClass => exact classExpression_keeps follow
  | backQuote => exact templateLiteral_keeps follow
  | kwNew => exact .after fun _ => (follow.expression b).bind fun _ => keeps_on _
  | kwAwait => exact .after fun _ => (follow.expression b).bind fun _ => keeps_on _
  | openBrace => exact objectExpression_keeps follow
  | openSquare => exact arrayExpression_keeps follow
  | openParen =>
    refine .after fun _ => .ite (arrowFunction_keeps follow start false) ?_
    exact (group_keeps follow).withIn
  | kwBreak => exact .after fun _ => keeps_on _
  | kwContinue => exact .after fun _ => keeps_on _
  | identifier => exact .after fun _ => .ite (singleParamArrow_keeps follow start false) (keeps_on _)
  | plus => exact unaryExpression_keeps follow start
  | dash => exact unaryExpression_keeps follow start
  | exclamation => exact unaryExpression_keeps follow start
  | kwTypeOf => exact unaryExpression_keeps follow start
  | kwVoid => exact unaryExpression_keeps follow start
  | _ => exact keeps_on _

end Primaries

section Operators

variable (rules : Rules)

/-- A property by an expression in square brackets, in which `in` is an operator whatever it was
outside. -/
def computedMember (start : Nat) (object : Tree) (optional : Bool) : Step Tree := do
  let _ ← on eat
  let member ← withIn true rules.expression
  on trim
  let _ ← on (expect .closeSquare .memberEnd)
  on (makeNode start (.memberExpression object member true optional))

/-- The arguments of a call between parentheses, in which `in` is an operator whatever it was
outside. -/
def call (start : Nat) (callee : Tree) (optional : Bool) : Step Tree := do
  let _ ← on eat
  let arguments ← withIn true (commaSeparated [.closeParen] (spreadOrExpression rules))
  let _ ← on (expect .closeParen .argumentsEnd)
  on (makeNode start (.callExpression callee arguments optional))

/-- What goes on with an expression: a member, a call or a template that it tags. There is no answer
where nothing of the kind follows. -/
def suffix? (start : Nat) (expression : Tree) : Step (Option Tree) := do
  match ← on currentKind? with
  | some .period =>
    let _ ← on eat
    some <$> on (namedMember start expression false)
  | some .openSquare => some <$> computedMember rules start expression false
  | some .openParen => some <$> call rules start expression false
  | some .optionalChain =>
    let _ ← on eat
    match ← on currentKind? with
    | some .openSquare => some <$> computedMember rules start expression true
    | some .openParen => some <$> call rules start expression true
    | _ => some <$> on (namedMember start expression true)
  | some .backQuote =>
    let quasi ← templateLiteral rules
    some <$> on (makeNode start (.taggedTemplateExpression expression quasi))
  | _ => return none

/-- All that goes on with an expression, one suffix behind the other, at most `budget` of them. -/
def suffixesWithin (start : Nat) : Nat → Tree → Step Tree
  | 0, expression => return expression
  | budget + 1, expression => do
    match ← suffix? rules start expression with
    | some longer =>
      on trim
      suffixesWithin start budget longer
    | none => return expression

/-- An innermost expression and all its suffixes. Every suffix takes a token, so a budget of the
tokens left is enough. -/
def memberOrCall : Step Tree := do
  let start ← on mark
  let expression ← primary rules
  on trim
  suffixesWithin rules start (← on (observe (·.rest.length))) expression

/-- Here the switch is looked at: `in` joins two operands only if it is set. -/
def binary (layer : OperatorLayer) (operand : Step Tree) : Step Tree := do
  let start ← on mark
  let left ← operand
  on trim
  let joined ← look fun m => m.cursor.currentKind.any fun kind =>
    layer.operators.contains kind && (kind ≠ .kwIn || m.allowIn)
  if joined then
    let operator ← on eat
    let right ← rules.expression
    on (makeNode start (.binaryExpression layer operator.kind left right))
  else
    return left

/-- The layer of comparisons, `in` among them: here the switch is looked at. -/
def comparative : Step Tree := binary rules .comparative (memberOrCall rules)

/-- The layer of products, whose operands are comparisons. -/
def multiplicative : Step Tree := binary rules .multiplicative (comparative rules)

/-- The layer of sums, whose operands are products. -/
def additive : Step Tree := binary rules .additive (multiplicative rules)

/-- A condition with its two branches. The first branch stands between two marks and has the switch
set, the second one has it as it was. -/
def conditional : Step Tree := do
  let start ← on mark
  let test ← additive rules
  on trim
  if ← on (accept .question) then
    on trim
    let consequent ← withIn true rules.expression
    on trim
    let _ ← on (expect .colon .ternaryColon)
    on trim
    let alternate ← rules.expression
    on (makeNode start (.conditionalExpression test consequent alternate))
  else
    return test

/-- A whole expression: a conditional one, or an assignment to it. What is assigned is a whole
expression again. -/
def expression : Step Tree := do
  let start ← on mark
  let target ← conditional rules
  on trim
  if ← on (atAny? assignmentOperators) then
    let operator ← on eat
    let value ← rules.expression
    on trim
    on (makeNode start (.assignmentExpression operator.kind target value))
  else
    return target

variable {rules} {r : Script.Rules} (follow : rules.Follow r) {b : Bool}
include follow

/-- The square brackets of an access set the switch around the member. -/
theorem computedMember_keeps (start : Nat) (object : Tree) (optional : Bool) :
    Keeps b (computedMember rules start object optional)
      (Script.computedMember r start object optional) := by
  refine .after fun _ => (follow.expression true).withIn.bind fun member => ?_
  exact .after fun _ => .after fun _ => keeps_on _

/-- The parentheses of a call set the switch around the arguments. -/
theorem call_keeps (start : Nat) (callee : Tree) (optional : Bool) :
    Keeps b (call rules start callee optional) (Script.call r start callee optional) := by
  refine .after fun _ => ?_
  refine (spreadOrExpression_keeps follow).commaSeparated.withIn.bind fun arguments => ?_
  exact .after fun _ => keeps_on _

theorem suffix_keeps (start : Nat) (expression : Tree) :
    Keeps b (suffix? rules start expression) (Script.suffix? r start expression) := by
  refine .after fun kind => ?_
  rcases kind with _ | kind
  · exact keeps_pure _
  cases kind with
  | period => exact .after fun _ => (keeps_on _).map
  | openSquare => exact (computedMember_keeps follow start expression false).map
  | openParen => exact (call_keeps follow start expression false).map
  | optionalChain =>
    refine .after fun _ => .after fun kind => ?_
    rcases kind with _ | kind
    · exact (keeps_on _).map
    cases kind with
    | openSquare => exact (computedMember_keeps follow start expression true).map
    | openParen => exact (call_keeps follow start expression true).map
    | _ => exact (keeps_on _).map
  | backQuote => exact (templateLiteral_keeps follow).bind fun quasi => (keeps_on _).map
  | _ => exact keeps_pure _

/-- Suffixes are a loop of their own, so the induction on the budget is made here. -/
theorem suffixesWithin_keeps (start budget : Nat) (expression : Tree) :
    Keeps b (suffixesWithin rules start budget expression)
      (Script.suffixesWithin r start budget expression) := by
  induction budget generalizing expression with
  | zero => exact keeps_pure _
  | succ budget ih =>
    refine (suffix_keeps follow start expression).bind fun longer => ?_
    cases longer with
    | some longer => exact .after fun _ => ih longer
    | none => exact keeps_pure _

theorem memberOrCall_keeps : Keeps b (memberOrCall rules) (Script.memberOrCall r b) := by
  refine .after fun start => (primary_keeps follow).bind fun expression => .after fun _ => ?_
  exact .after fun budget => suffixesWithin_keeps follow start budget expression

/-- Whether `in` joins the operands is asked of the switch here and of the argument there, and both
are the same while the switch stands. -/
theorem binary_keeps {operand : Step Tree} {operand' : Rule Tree} (layer : OperatorLayer)
    (each : Keeps b operand operand') :
    Keeps b (binary rules layer operand) (Script.binary r b layer operand') := by
  refine .after fun start => each.bind fun left => .after fun _ => ?_
  refine (keeps_look _).bind fun joined => .ite ?_ (keeps_pure _)
  exact .after fun operator => (follow.expression b).bind fun right => keeps_on _

theorem additive_keeps : Keeps b (additive rules) (Script.additive r b) := by
  have comparative := binary_keeps follow .comparative (memberOrCall_keeps follow (b := b))
  exact binary_keeps follow .additive (binary_keeps follow .multiplicative comparative)

/-- The switch is set for the first branch of a condition only, so the second one finds it as it
stands. -/
theorem conditional_keeps : Keeps b (conditional rules) (Script.conditional r b) := by
  refine .after fun start => (additive_keeps follow).bind fun test => .after fun _ => ?_
  refine .after fun _ => .ite ?_ (keeps_pure _)
  refine .after fun _ => (follow.expression true).withIn.bind fun consequent => ?_
  refine .after fun _ => .after fun _ => .after fun _ => ?_
  exact (follow.expression b).bind fun alternate => keeps_on _

/-- The outermost layer of expressions keeps the switch: both sides of an assignment find it as it
stands. -/
theorem expression_keeps : Keeps b (expression rules) (Script.expression r b) := by
  refine .after fun start => (conditional_keeps follow).bind fun target => .after fun _ => ?_
  refine .after fun _ => .ite ?_ (keeps_pure _)
  refine .after fun operator => (follow.expression b).bind fun value => ?_
  exact .after fun _ => keeps_on _

end Operators

end ScriptFront.Script.Machine
