import ScriptFront.Proofs.Switch.Machine

namespace ScriptFront.Script.Machine

open ScriptFront.Parser

/-!
The rules of the grammar, each as a step of a machine. What a rule tells the rules inside it
about `in` is left to the switch here, and each step keeps that as long as those inside do.
-/

section Patterns

variable (rules : Rules)

/-- The name of a property, and whether it is computed. An expression in square brackets is read
with the switch as it stands, since no rule sets it for a key. -/
def propertyKey : Step (Tree × Bool) := do
  if ← on (accept .openSquare) then
    on trim
    let key ← rules.expression
    on trim
    let _ ← on (expect .closeSquare .computedKeyEnd)
    return (key, true)
  else
    let key ←
      match ← on currentKind? with
      | some .string => on stringLiteral
      | some .number => on numericLiteral
      | _ => on (anyName true)
    return (key, false)

/-- A pattern that has just been read, with the value that it has by default if an equals sign
follows. The value is read with the switch as it stands. -/
def withDefault (start : Nat) (left : Tree) : Step Tree := do
  if ← on (accept .equals) then
    on trim
    let right ← rules.expression
    on trim
    on (makeNode start (.assignmentPattern left right))
  else
    return left

/-- A name or a pattern, and the value that it has by default. -/
def bindingWithDefault : Step Tree := do
  let start ← on mark
  let left ← rules.binding
  on trim
  withDefault rules start left

/-- One item of a list of parameters or of an array pattern: three dots and what takes the rest, or
a binding with its default. -/
def restOrBinding : Step Tree := do
  if ← on (at? .spread) then
    let start ← on mark
    let _ ← on eat
    let argument ← rules.binding
    on (makeNode start (.restElement argument))
  else
    bindingWithDefault rules

/-- The parameters of a function up to the closing parenthesis, which is taken as well. -/
def parameters : Step (List Tree) := do
  let params ← commaSeparated [.closeParen] (restOrBinding rules)
  let _ ← on (expect .closeParen .parametersEnd)
  on trim
  return params

/-- A pattern between square brackets. They do not set the switch, unlike those of an array that is
a value. -/
def arrayPattern : Step Tree := do
  let start ← on mark
  let _ ← on eat
  let elements ← commaSeparated [.closeSquare] (restOrBinding rules)
  let _ ← on (expect .closeSquare .arrayPatternEnd)
  on (makeNode start (.arrayPattern elements))

/-- One member of an object pattern: three dots and what takes the rest, a key with a pattern behind
a colon, or a name that stands for both. -/
def patternMember : Step Tree := do
  let start ← on mark
  if ← on (accept .spread) then
    on trim
    let argument ← rules.binding
    on (makeNode start (.restElement argument))
  else
    let (key, computed) ← propertyKey rules
    on trim
    if ← on (accept .colon) then
      on trim
      let value ← bindingWithDefault rules
      on (makeNode start (.propertyPattern key value false computed))
    else if computed || !key.kind.isIdentifier then
      on (complain .patternColon)
    else
      let value ← withDefault rules start key
      on (makeNode start (.propertyPattern key value true false))

/-- A pattern between braces. They do not set the switch, unlike those of an object that is a value.
-/
def objectPattern : Step Tree := do
  let start ← on mark
  let _ ← on eat
  let properties ← commaSeparated [.closeBrace] (patternMember rules)
  let _ ← on (expect .closeBrace .objectPatternEnd)
  on (makeNode start (.objectPattern properties))

/-- What a value may be bound to: a pattern between braces or square brackets, or a name, which may
be private. -/
def binding : Step Tree := do
  match ← on currentKind? with
  | some .openBrace => objectPattern rules
  | some .openSquare => arrayPattern rules
  | some .identifier => on (anyName false)
  | some .hash => on (anyName false)
  | _ => on (complain .pattern)

variable {rules} {r : Script.Rules} (follow : rules.Follow r) {b : Bool}
include follow

/-- The expression of a computed key is parsed with the switch as it stands, as the rule for keys
passes on what it is told. Other keys never look at it. -/
theorem propertyKey_keeps : Keeps b (propertyKey rules) (Script.propertyKey r b) := by
  refine .after fun _ => .ite ?_ ?_
  · refine .after fun _ => (follow.expression b).bind fun key => ?_
    exact .after fun _ => .after fun _ => keeps_pure _
  · refine .after fun kind => ?_
    -- Taken apart by constructors, both dispatches compute, however each of them is compiled.
    rcases kind with _ | kind
    · exact .after fun _ => keeps_pure _
    cases kind <;> exact .after fun _ => keeps_pure _

/-- The default value is the one step at which the switch is seen, and it is seen as it stands. -/
theorem withDefault_keeps (start : Nat) (left : Tree) :
    Keeps b (withDefault rules start left) (Script.withDefault r b start left) := by
  refine .after fun _ => .ite ?_ (keeps_pure _)
  refine .after fun _ => (follow.expression b).bind fun right => ?_
  exact .after fun _ => keeps_on _

theorem bindingWithDefault_keeps :
    Keeps b (bindingWithDefault rules) (Script.bindingWithDefault r b) :=
  .after fun start => (follow.binding b).bind fun left => .after fun _ =>
    withDefault_keeps follow start left

theorem restOrBinding_keeps : Keeps b (restOrBinding rules) (Script.restOrBinding r b) := by
  refine .after fun _ => .ite ?_ (bindingWithDefault_keeps follow)
  refine .after fun start => .after fun _ => ?_
  exact (follow.binding b).bind fun _ => keeps_on _

theorem parameters_keeps : Keeps b (parameters rules) (Script.parameters r b) := by
  refine (restOrBinding_keeps follow).commaSeparated.bind fun params => ?_
  exact .after fun _ => .after fun _ => keeps_pure _

/-- Nor do the square brackets of a pattern set it, in contrast to those of an array. -/
theorem arrayPattern_keeps : Keeps b (arrayPattern rules) (Script.arrayPattern r b) := by
  refine .after fun start => .after fun _ => ?_
  refine (restOrBinding_keeps follow).commaSeparated.bind fun elements => ?_
  exact .after fun _ => keeps_on _

/-- The key, the value and the rest of a pattern are all parsed with the switch as it stands: braces
of a pattern do not set it. -/
theorem patternMember_keeps : Keeps b (patternMember rules) (Script.patternMember r b) := by
  refine .after fun start => .after fun _ => .ite ?_ ?_
  · exact .after fun _ => (follow.binding b).bind fun _ => keeps_on _
  · refine (propertyKey_keeps follow).bind fun key => .after fun _ => ?_
    refine .after fun _ => .ite ?_ (.ite (keeps_on _) ?_)
    · exact .after fun _ => (bindingWithDefault_keeps follow).bind fun _ => keeps_on _
    · exact (withDefault_keeps follow start key.1).bind fun _ => keeps_on _

theorem objectPattern_keeps : Keeps b (objectPattern rules) (Script.objectPattern r b) := by
  refine .after fun start => .after fun _ => ?_
  refine (patternMember_keeps follow).commaSeparated.bind fun properties => ?_
  exact .after fun _ => keeps_on _

/-- The two sorts of patterns keep the switch, and names never look at it. -/
theorem binding_keeps : Keeps b (binding rules) (Script.binding r b) := by
  refine .after fun kind => ?_
  rcases kind with _ | kind
  · exact keeps_on _
  cases kind with
  | openBrace => exact objectPattern_keeps follow
  | openSquare => exact arrayPattern_keeps follow
  | _ => exact keeps_on _

end Patterns

section Callables

variable (rules : Rules)

/-- A block of statements between braces, with the layout behind it. The switch stays as it is: the
body of a function in the header of a loop is read without `in`. -/
def block : Step Tree := do
  let start ← on mark
  let _ ← on (expect .openBrace .blockOpen)
  on trimSeparators
  let body ← separated [.closeBrace] rules.statement
  let _ ← on (expect .closeBrace .blockEnd)
  let node ← on (makeNode start (.blockStatement body))
  on trim
  return node

/-- What stands behind the opening parenthesis of every function and method: its parameters and its
body. -/
def parametersAndBody : Step (List Tree × Tree) := do
  on trim
  let params ← parameters rules
  let body ← block rules
  return (params, body)

/-- A function with a name, from its keyword on. Whatever stands in front of the keyword, as `async`
does, has been read by then. -/
def functionDeclaration (start : Nat) (isAsync : Bool) : Step Tree := do
  let _ ← on eat
  let isGenerator ← on generatorStar
  let id ← on (anyName false)
  on trim
  let _ ← on (expect .openParen .functionParen)
  let (params, body) ← parametersAndBody rules
  on (makeNode start (.functionDeclaration id params body isAsync isGenerator))

/-- A function that is a value, from its keyword on. Its name may be missing. -/
def functionExpression (start : Nat) (isAsync : Bool) : Step Tree := do
  let _ ← on eat
  let isGenerator ← on generatorStar
  let id ←
    if ← on (atAny? [.identifier, .hash]) then do
      let id ← on (anyName false)
      on trim
      pure (some id)
    else pure none
  let _ ← on (expect .openParen .functionParen)
  let (params, body) ← parametersAndBody rules
  on (makeNode start (.functionExpression id params body isAsync isGenerator))

/-- What an arrow leads to, and whether that is an expression: a brace always opens a block. -/
def arrowBody : Step (Tree × Bool) := do
  if ← on (at? .openBrace) then
    let body ← block rules
    return (body, false)
  else
    let body ← rules.expression
    return (body, true)

/-- An arrow function whose parameters stand between parentheses. -/
def arrowFunction (start : Nat) (isAsync : Bool) : Step Tree := do
  let _ ← on (expect .openParen .arrowParen)
  on trim
  let params ← parameters rules
  let _ ← on (expect .arrow .arrowBehindParams)
  on trim
  let (body, expression) ← arrowBody rules
  on (makeNode start (.arrowFunctionExpression params body expression isAsync))

/-- An arrow function with one parameter and no parentheses. -/
def singleParamArrow (start : Nat) (isAsync : Bool) : Step Tree := do
  let param ← on plainName
  on trim
  let _ ← on (expect .arrow .arrowBehindParam)
  on trim
  let (body, expression) ← arrowBody rules
  on (makeNode start (.arrowFunctionExpression [param] body expression isAsync))

/-- What a class extends, if it extends anything. Any expression may stand there. -/
def classHeritage : Step (Option Tree) := do
  if ← on (accept .kwExtends) then
    on trim
    let base ← rules.expression
    on trim
    return some base
  else
    return none

/-- A method, which a parenthesis behind the name tells, or a property with the value that it begins
with. -/
def classMember : Step Tree := do
  let start ← on mark
  let key ← on (anyName true)
  on trim
  if ← on (accept .openParen) then
    let (params, body) ← parametersAndBody rules
    on (makeNode start (.classMethod key params body))
  else
    let value ←
      if ← on (accept .equals) then do
        on trim
        let value ← rules.expression
        pure (some value)
      else pure none
    on (makeNode start (.classProperty key value))

/-- The members of a class between braces, with the layout behind the closing one. -/
def classBody : Step Tree := do
  let start ← on mark
  let _ ← on (expect .openBrace .classOpen)
  on trimSeparators
  let members ← separated [.closeBrace] (classMember rules)
  let _ ← on (expect .closeBrace .classEnd)
  let body ← on (makeNode start (.classBody members))
  on trim
  return body

/-- A class with a name, from its keyword on. -/
def classDeclaration : Step Tree := do
  let start ← on mark
  let _ ← on eat
  let id ← on (anyName false)
  on trim
  let base ← classHeritage rules
  let body ← classBody rules
  on (makeNode start (.classDeclaration id base body))

/-- A class that is a value, from its keyword on. Its name may be missing. -/
def classExpression : Step Tree := do
  let start ← on mark
  let _ ← on eat
  let id ←
    if ← on (at? .identifier) then do
      let id ← on (anyName false)
      on trim
      pure (some id)
    else pure none
  let base ← classHeritage rules
  let body ← classBody rules
  on (makeNode start (.classExpression id base body))

variable {rules} {r : Script.Rules} (follow : rules.Follow r) {b : Bool}
include follow

/-- Braces of a block do not set the switch. The statements inside so find it off in the first
clause of a loop, where a function may have such a block. -/
theorem block_keeps : Keeps b (block rules) (Script.block r b) := by
  refine .after fun start => .after fun _ => .after fun _ => ?_
  refine (follow.statement b).separated.bind fun body => ?_
  exact .after fun _ => .after fun node => .after fun _ => keeps_pure _

theorem parametersAndBody_keeps :
    Keeps b (parametersAndBody rules) (Script.parametersAndBody r b) := by
  refine .after fun _ => (parameters_keeps follow).bind fun params => ?_
  exact (block_keeps follow).bind fun _ => keeps_pure _

/-- Parameters and body find the switch as it stands in front of the function. -/
theorem functionDeclaration_keeps (start : Nat) (isAsync : Bool) :
    Keeps b (functionDeclaration rules start isAsync)
      (Script.functionDeclaration r b start isAsync) := by
  refine .after fun _ => .after fun isGenerator => .after fun id => .after fun _ => ?_
  exact .after fun _ => (parametersAndBody_keeps follow).bind fun _ => keeps_on _

/-- A function in an expression is parsed with the switch as it stands, body included: nothing turns
it on for the statements inside. -/
theorem functionExpression_keeps (start : Nat) (isAsync : Bool) :
    Keeps b (functionExpression rules start isAsync)
      (Script.functionExpression r b start isAsync) := by
  refine .after fun _ => .after fun isGenerator => .after fun _ => .ite ?_ ?_
  · refine .after fun id => .after fun _ => (keeps_pure _).bind fun _ => .after fun _ => ?_
    exact (parametersAndBody_keeps follow).bind fun _ => keeps_on _
  · refine (keeps_pure _).bind fun _ => .after fun _ => ?_
    exact (parametersAndBody_keeps follow).bind fun _ => keeps_on _

/-- Either body of an arrow function, block or expression, finds the switch as it stands. -/
theorem arrowBody_keeps : Keeps b (arrowBody rules) (Script.arrowBody r b) := by
  refine .after fun _ => .ite ?_ ?_
  · exact (block_keeps follow).bind fun _ => keeps_pure _
  · exact (follow.expression b).bind fun _ => keeps_pure _

/-- The parentheses of parameters do not set the switch, though those of a group do. -/
theorem arrowFunction_keeps (start : Nat) (isAsync : Bool) :
    Keeps b (arrowFunction rules start isAsync) (Script.arrowFunction r b start isAsync) := by
  refine .after fun _ => .after fun _ => (parameters_keeps follow).bind fun params => ?_
  exact .after fun _ => .after fun _ => (arrowBody_keeps follow).bind fun _ => keeps_on _

theorem singleParamArrow_keeps (start : Nat) (isAsync : Bool) :
    Keeps b (singleParamArrow rules start isAsync)
      (Script.singleParamArrow r b start isAsync) := by
  refine .after fun param => .after fun _ => .after fun _ => .after fun _ => ?_
  exact (arrowBody_keeps follow).bind fun _ => keeps_on _

theorem classHeritage_keeps : Keeps b (classHeritage rules) (Script.classHeritage r b) := by
  refine .after fun _ => .ite ?_ (keeps_pure _)
  refine .after fun _ => (follow.expression b).bind fun base => ?_
  exact .after fun _ => keeps_pure _

/-- Methods and values of properties find the switch as it stands. -/
theorem classMember_keeps : Keeps b (classMember rules) (Script.classMember r b) := by
  refine .after fun start => .after fun key => .after fun _ => .after fun _ => .ite ?_ ?_
  · exact (parametersAndBody_keeps follow).bind fun _ => keeps_on _
  · refine .after fun _ => .ite ?_ ?_
    · refine .after fun _ => (follow.expression b).bind fun value => ?_
      exact (keeps_pure _).bind fun _ => keeps_on _
    · exact (keeps_pure _).bind fun _ => keeps_on _

/-- The members of a class are a loop whose items each keep the switch, so the loop does. -/
theorem classBody_keeps : Keeps b (classBody rules) (Script.classBody r b) := by
  refine .after fun start => .after fun _ => .after fun _ => ?_
  refine (classMember_keeps follow).separated.bind fun members => ?_
  exact .after fun _ => .after fun body => .after fun _ => keeps_pure _

theorem classDeclaration_keeps :
    Keeps b (classDeclaration rules) (Script.classDeclaration r b) := by
  refine .after fun start => .after fun _ => .after fun id => .after fun _ => ?_
  refine (classHeritage_keeps follow).bind fun base => ?_
  exact (classBody_keeps follow).bind fun _ => keeps_on _

theorem classExpression_keeps : Keeps b (classExpression rules) (Script.classExpression r b) := by
  refine .after fun start => .after fun _ => .after fun _ => .ite ?_ ?_
  · refine .after fun id => .after fun _ => (keeps_pure _).bind fun _ => ?_
    refine (classHeritage_keeps follow).bind fun base => ?_
    exact (classBody_keeps follow).bind fun _ => keeps_on _
  · refine (keeps_pure _).bind fun _ => (classHeritage_keeps follow).bind fun base => ?_
    exact (classBody_keeps follow).bind fun _ => keeps_on _

end Callables

end ScriptFront.Script.Machine
