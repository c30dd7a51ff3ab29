import ScriptFront.Script.Grammar.Declaration

namespace ScriptFront.Script

open ScriptFront.Parser

/-- The source behind `from`. -/
def moduleSource (complaint : Complaint) : Rule Tree := do
  if ← at? .string then stringLiteral else complain complaint

/-- The name behind `as`, if that word is there; `anyWord` takes reserved words too. -/
def nameBehindAs (anyWord : Bool) : Rule (Option Tree) := do
  if ← accept .kwAs then
    trim
    let name ← anyName anyWord
    trim
    return some name
  else
    return none

/-- One name of an import list. Without another name it is imported under its own. -/
def importSpecifier : Rule Tree := do
  let start ← mark
  let imported ← anyName true
  trim
  let renamed ← nameBehindAs false
  makeNode start (.importSpecifier imported (renamed.getD imported))

/-- One clause of an import: a default name, a name for all, or a list in braces. -/
def importClause : Rule (List Tree) := do
  let start ← mark
  if ← atAny? [.identifier, .hash] then
    let name ← anyName false
    let specifier ← makeNode start (.importDefaultSpecifier name)
    return [specifier]
  else if ← accept .asterisk then
    trim
    let _ ← expect .kwAs .namespaceAs
    trim
    let name ← anyName false
    let specifier ← makeNode start (.importNamespaceSpecifier name)
    return [specifier]
  else
    let _ ← expect .openBrace .importListOpen
    trim
    let specifiers ← commaSeparated [.closeBrace] importSpecifier
    trim
    let _ ← expect .closeBrace .importListEnd
    return specifiers

/-- What a module imports, from the keyword on. A bare source may follow at once, without any names.
-/
def importDeclaration : Rule Tree := do
  let start ← mark
  let _ ← eat
  if ← at? .string then
    let source ← stringLiteral
    makeNode start (.importDeclaration [] source)
  else
    let clauses ← commaSeparated [.kwFrom, .comma] importClause
    trim
    let _ ← expect .kwFrom .importFrom
    trim
    let source ← moduleSource .sourceString
    makeNode start (.importDeclaration clauses.flatten source)

/-- An export of everything, from the star on. -/
def exportAll (start : Nat) : Rule Tree := do
  let _ ← eat
  let exported ← nameBehindAs true
  let _ ← expect .kwFrom .exportAllFrom
  trim
  let source ← moduleSource .sourceString
  makeNode start (.exportAllDeclaration exported source)

/-- One name of an export list. Without another name it is exported under its own. -/
def exportSpecifier : Rule Tree := do
  let start ← mark
  let name ← anyName false
  trim
  let renamed ← nameBehindAs true
  makeNode start (.exportSpecifier name (renamed.getD name))

/-- An export of a list of names, from the opening brace on. -/
def exportList (start : Nat) : Rule Tree := do
  let _ ← eat
  let specifiers ← commaSeparated [.closeBrace] exportSpecifier
  let _ ← expect .closeBrace .exportListEnd
  trim
  let source ←
    if ← accept .kwFrom then do
      trim
      let source ← moduleSource .exportSourceString
      pure (some source)
    else pure none
  makeNode start (.exportNamedDeclaration none specifiers source)

/-- What a module exports, from the keyword on: a default value, all of another module, a list of
names, or a declaration. -/
def exportDeclaration (rules : Rules) (allowIn : Bool) : Rule Tree := do
  let start ← mark
  let _ ← eat
  match ← currentKind? with
  | some .kwDefault =>
    let _ ← eat
    let value ← rules.expression allowIn
    makeNode start (.exportDefaultDeclaration value)
  | some .asterisk => exportAll start
  | some .openBrace => exportList start
  | _ =>
    let exported ← declaration rules allowIn
    makeNode start (.exportNamedDeclaration (some exported) [] none)

end ScriptFront.Script
