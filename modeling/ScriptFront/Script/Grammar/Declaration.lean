import ScriptFront.Script.Grammar.Callable

namespace ScriptFront.Script

open ScriptFront.Parser

/-- Whether a declarator may end here without a value. -/
def declaratorEnds (allowIn : Bool) (s : State) : Bool :=
  !s.willContinue || s.isAny [.semicolon, .comma, .kwOf, .closeBrace] || (!allowIn && s.is .kwIn)

/-- A pattern and its initial value. -/
def declarator (rules : Rules) (allowIn : Bool) (keyword : String) : Rule Tree := do
  let start ← mark
  let id ← rules.binding allowIn
  trim
  if ← accept .equals then
    trim
    let init ← rules.expression allowIn
    makeNode start (.variableDeclarator id (some init))
  else if ← observe (declaratorEnds allowIn) then
    makeNode start (.variableDeclarator id none)
  else
    complain (.declaratorEquals keyword)

/-- Declarators separated by commas; there may be none. -/
def declarators (rules : Rules) (allowIn : Bool) (keyword : String) : Rule (List Tree) :=
  commaSeparated [.comma, .semicolon] (declarator rules allowIn keyword)

/-- The word that a declaration of variables starts with. -/
def variableKind : TokenKind → VariableKind
  | .kwVar => .varWord
  | .kwLet => .letWord
  | _ => .constWord

/-- A declaration from `var`, `let` or `const` on. -/
def variableDeclaration (rules : Rules) (allowIn : Bool) : Rule Tree := do
  let start ← mark
  let word ← eat
  let kind := variableKind word.kind
  let declarators ← declarators rules allowIn kind.name
  makeNode start (.variableDeclaration kind declarators)

/-- A declaration from the word `using` on. It takes the separators behind it, which
are not part of it. -/
def usingDeclaration (rules : Rules) (allowIn : Bool) (start : Nat) (isAwait : Bool) :
    Rule Tree := do
  let _ ← eat
  let declarators ← declarators rules allowIn "Using"
  let node ← makeNode start (.usingDeclaration isAwait declarators)
  trimSeparators
  return node

/-- A declaration of any sort, told by its first word. Behind `async` only a function can follow. -/
def declaration (rules : Rules) (allowIn : Bool) : Rule Tree := do
  let start ← mark
  match ← currentKind? with
  | some .kwUsing => usingDeclaration rules allowIn start false
  | some .kwVar => variableDeclaration rules allowIn
  | some .kwLet => variableDeclaration rules allowIn
  | some .kwConst => variableDeclaration rules allowIn
  | some .kwClass => classDeclaration rules allowIn
  | some .kwFunction => functionDeclaration rules allowIn start false
  | some .kwAsync =>
    let _ ← eat
    if ← at? .kwFunction then functionDeclaration rules allowIn start true
    else complain .asyncFunction
  | _ => complain .declaration

end ScriptFront.Script
