import ScriptFront.Script.Grammar.Pattern

namespace ScriptFront.Script

open ScriptFront.Parser

/-- Statements in braces. -/
def block (rules : Rules) (allowIn : Bool) : Rule Tree := do
  let start ← mark
  let _ ← expect .openBrace .blockOpen
  trimSeparators
  let body ← separated [.closeBrace] (rules.statement allowIn)
  let _ ← expect .closeBrace .blockEnd
  let node ← makeNode start (.blockStatement body)
  trim
  return node

/-- The parameters and the body of a function or a method, from behind the opening
parenthesis on. -/
def parametersAndBody (rules : Rules) (allowIn : Bool) : Rule (List Tree × Tree) := do
  trim
  let params ← parameters rules allowIn
  let body ← block rules allowIn
  return (params, body)

/-- The star of a generator, if there is one. -/
def generatorStar : Rule Bool := do
  let isGenerator ← accept .asterisk
  trim
  return isGenerator

/-- A function with a name, from the word `function` on. -/
def functionDeclaration (rules : Rules) (allowIn : Bool) (start : Nat) (isAsync : Bool) :
    Rule Tree := do
  let _ ← eat
  let isGenerator ← generatorStar
  let id ← anyName false
  trim
  let _ ← expect .openParen .functionParen
  let (params, body) ← parametersAndBody rules allowIn
  makeNode start (.functionDeclaration id params body isAsync isGenerator)

/-- A function in an expression, from the word `function` on; the name may be left out. -/
def functionExpression (rules : Rules) (allowIn : Bool) (start : Nat) (isAsync : Bool) :
    Rule Tree := do
  let _ ← eat
  let isGenerator ← generatorStar
  let id ←
    if ← atAny? [.identifier, .hash] then do
      let id ← anyName false
      trim
      pure (some id)
    else pure none
  let _ ← expect .openParen .functionParen
  let (params, body) ← parametersAndBody rules allowIn
  makeNode start (.functionExpression id params body isAsync isGenerator)

/-- The body of an arrow function, and whether it is an expression. -/
def arrowBody (rules : Rules) (allowIn : Bool) : Rule (Tree × Bool) := do
  if ← at? .openBrace then
    let body ← block rules allowIn
    return (body, false)
  else
    let body ← rules.expression allowIn
    return (body, true)

/-- An arrow function from its opening parenthesis on. -/
def arrowFunction (rules : Rules) (allowIn : Bool) (start : Nat) (isAsync : Bool) :
    Rule Tree := do
  let _ ← expect .openParen .arrowParen
  trim
  let params ← parameters rules allowIn
  let _ ← expect .arrow .arrowBehindParams
  trim
  let (body, expression) ← arrowBody rules allowIn
  makeNode start (.arrowFunctionExpression params body expression isAsync)

/-- An arrow function with one parameter and no parentheses. -/
def singleParamArrow (rules : Rules) (allowIn : Bool) (start : Nat) (isAsync : Bool) :
    Rule Tree := do
  let param ← plainName
  trim
  let _ ← expect .arrow .arrowBehindParam
  trim
  let (body, expression) ← arrowBody rules allowIn
  makeNode start (.arrowFunctionExpression [param] body expression isAsync)

/-- The class that a class extends, if it says so. -/
def classHeritage (rules : Rules) (allowIn : Bool) : Rule (Option Tree) := do
  if ← accept .kwExtends then
    trim
    let base ← rules.expression allowIn
    trim
    return some base
  else
    return none

/-- One method or property of a class. -/
def classMember (rules : Rules) (allowIn : Bool) : Rule Tree := do
  let start ← mark
  let key ← anyName true
  trim
  if ← accept .openParen then
    let (params, body) ← parametersAndBody rules allowIn
    makeNode start (.classMethod key params body)
  else
    let value ←
      if ← accept .equals then do
        trim
        let value ← rules.expression allowIn
        pure (some value)
      else pure none
    makeNode start (.classProperty key value)

/-- The members of a class between braces. Separators may stand between them, and the layout behind
the closing brace is taken along. -/
def classBody (rules : Rules) (allowIn : Bool) : Rule Tree := do
  let start ← mark
  let _ ← expect .openBrace .classOpen
  trimSeparators
  let members ← separated [.closeBrace] (classMember rules allowIn)
  let _ ← expect .closeBrace .classEnd
  let body ← makeNode start (.classBody members)
  trim
  return body

/-- A class with a name, from its keyword on. -/
def classDeclaration (rules : Rules) (allowIn : Bool) : Rule Tree := do
  let start ← mark
  let _ ← eat
  let id ← anyName false
  trim
  let base ← classHeritage rules allowIn
  let body ← classBody rules allowIn
  makeNode start (.classDeclaration id base body)

/-- A class in an expression; the name may be left out. -/
def classExpression (rules : Rules) (allowIn : Bool) : Rule Tree := do
  let start ← mark
  let _ ← eat
  let id ←
    if ← at? .identifier then do
      let id ← anyName false
      trim
      pure (some id)
    else pure none
  let base ← classHeritage rules allowIn
  let body ← classBody rules allowIn
  makeNode start (.classExpression id base body)

end ScriptFront.Script
