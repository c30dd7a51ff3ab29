import ScriptFront.Script.Grammar.Leaf

namespace ScriptFront.Script

open ScriptFront.Parser

/-- The key of a property and whether it is computed: an expression in square
brackets, a string, a number, or any word. -/
def propertyKey (rules : Rules) (allowIn : Bool) : Rule (Tree × Bool) := do
  if ← accept .openSquare then
    trim
    let key ← rules.expression allowIn
    trim
    let _ ← expect .closeSquare .computedKeyEnd
    return (key, true)
  else
    let key ←
      match ← currentKind? with
      | some .string => stringLiteral
      | some .number => numericLiteral
      | _ => anyName true
    return (key, false)

/-- A pattern begun at `start`, with the default value behind it if there is one. -/
def withDefault (rules : Rules) (allowIn : Bool) (start : Nat) (left : Tree) : Rule Tree := do
  if ← accept .equals then
    trim
    let right ← rules.expression allowIn
    trim
    makeNode start (.assignmentPattern left right)
  else
    return left

/-- A name or a pattern, maybe with a default value. -/
def bindingWithDefault (rules : Rules) (allowIn : Bool) : Rule Tree := do
  let start ← mark
  let left ← rules.binding allowIn
  trim
  withDefault rules allowIn start left

/-- One parameter or one element of an array pattern. -/
def restOrBinding (rules : Rules) (allowIn : Bool) : Rule Tree := do
  if ← at? .spread then
    let start ← mark
    let _ ← eat
    let argument ← rules.binding allowIn
    makeNode start (.restElement argument)
  else
    bindingWithDefault rules allowIn

/-- Parameters up to the closing parenthesis, which is taken. -/
def parameters (rules : Rules) (allowIn : Bool) : Rule (List Tree) := do
  let params ← commaSeparated [.closeParen] (restOrBinding rules allowIn)
  let _ ← expect .closeParen .parametersEnd
  trim
  return params

/-- A pattern between square brackets. What `in` is there is told by what stands around the pattern.
-/
def arrayPattern (rules : Rules) (allowIn : Bool) : Rule Tree := do
  let start ← mark
  let _ ← eat
  let elements ← commaSeparated [.closeSquare] (restOrBinding rules allowIn)
  let _ ← expect .closeSquare .arrayPatternEnd
  makeNode start (.arrayPattern elements)

/-- One member of an object pattern. A name alone binds itself, maybe with a default. -/
def patternMember (rules : Rules) (allowIn : Bool) : Rule Tree := do
  let start ← mark
  if ← accept .spread then
    trim
    let argument ← rules.binding allowIn
    makeNode start (.restElement argument)
  else
    let (key, computed) ← propertyKey rules allowIn
    trim
    if ← accept .colon then
      trim
      let value ← bindingWithDefault rules allowIn
      makeNode start (.propertyPattern key value false computed)
    else if computed || !key.kind.isIdentifier then
      complain .patternColon
    else
      let value ← withDefault rules allowIn start key
      makeNode start (.propertyPattern key value true false)

/-- A pattern between braces. What `in` is there is told by what stands around the pattern. -/
def objectPattern (rules : Rules) (allowIn : Bool) : Rule Tree := do
  let start ← mark
  let _ ← eat
  let properties ← commaSeparated [.closeBrace] (patternMember rules allowIn)
  let _ ← expect .closeBrace .objectPatternEnd
  makeNode start (.objectPattern properties)

/-- What can get a value: a name, or a pattern that takes a value apart. -/
def binding (rules : Rules) (allowIn : Bool) : Rule Tree := do
  match ← currentKind? with
  | some .openBrace => objectPattern rules allowIn
  | some .openSquare => arrayPattern rules allowIn
  | some .identifier => anyName false
  | some .hash => anyName false
  | _ => complain .pattern

end ScriptFront.Script
