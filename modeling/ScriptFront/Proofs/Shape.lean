import ScriptFront.Script.Grammar.Expression

namespace ScriptFront.Script

namespace Construct

/-- What can get a value: a name or a pattern. -/
def isTarget : Construct → Bool
  | objectPattern .. | arrayPattern .. => true
  | c => c.isIdentifier

/-- A target, maybe with a default value. -/
def isDefaulted : Construct → Bool
  | assignmentPattern left _ => left.kind.isTarget
  | c => c.isTarget

/-- A parameter or an element of an array pattern: a target, maybe with a default value,
or the target for all that is left. -/
def isParam : Construct → Bool
  | restElement argument => argument.kind.isTarget
  | c => c.isDefaulted

/-- A block, the only body that functions and the parts of a `try` may have. -/
def isBlock : Construct → Bool
  | blockStatement .. => true
  | _ => false

/-- A string between quotes, as it stands for a key or for the source of a module. -/
def isStringLiteral : Construct → Bool
  | stringLiteral .. => true
  | _ => false

/-- A regular expression between slashes. -/
def isRegExp : Construct → Bool
  | regExpLiteral .. => true
  | _ => false

/-- One name or pattern of a declaration, with its value if it has one. -/
def isDeclarator : Construct → Bool
  | variableDeclarator .. => true
  | _ => false

/-- A declaration by `var`, `let` or `const`. -/
def isVariableDeclaration : Construct → Bool
  | variableDeclaration .. => true
  | _ => false

/-- What stands between the braces of a class. -/
def isClassBody : Construct → Bool
  | classBody .. => true
  | _ => false

/-- A method or a property of a class. -/
def isClassMember : Construct → Bool
  | classMethod .. | classProperty .. => true
  | _ => false

/-- One of the three ways to name what is imported. -/
def isImportSpecifier : Construct → Bool
  | importSpecifier .. | importDefaultSpecifier .. | importNamespaceSpecifier .. => true
  | _ => false

/-- One name of a list of exports, perhaps under another name. -/
def isExportSpecifier : Construct → Bool
  | exportSpecifier .. => true
  | _ => false

/-- The part of a `try` that handles what was thrown. -/
def isCatchClause : Construct → Bool
  | catchClause .. => true
  | _ => false

/-- One case of a `switch`, the default one included. -/
def isSwitchCase : Construct → Bool
  | switchCase .. => true
  | _ => false

/-- A template between back quotes, which may be tagged by an expression in front of it. -/
def isTemplateLiteral : Construct → Bool
  | templateLiteral .. => true
  | _ => false

/-- A run of text in a template. -/
def isTemplateElement : Construct → Bool
  | templateElement .. => true
  | _ => false

/-- The declarations that make a script a module. -/
def isModuleDeclaration : Construct → Bool
  | importDeclaration .. | exportNamedDeclaration .. | exportDefaultDeclaration ..
  | exportAllDeclaration .. => true
  | _ => false

/-- What may be exported by name. -/
def isDeclaration : Construct → Bool
  | variableDeclaration .. | usingDeclaration .. | functionDeclaration ..
  | classDeclaration .. => true
  | _ => false

/-- What may stand in a list of statements: comments, declarations and those that belong to a module
as well. -/
def isStatement : Construct → Bool
  | blockComment .. | lineComment .. | blockStatement .. | expressionStatement .. | ifStatement ..
  | withStatement .. | tryStatement .. | switchStatement .. | forStatement .. | forInStatement ..
  | forOfStatement .. | whileStatement .. | doWhileStatement .. | returnStatement ..
  | throwStatement .. | labeledStatement .. => true
  | c => c.isDeclaration || c.isModuleDeclaration

/-- The body of a branch or a loop. -/
def isBranch : Construct → Bool
  | emptyStatement => true
  | c => c.isStatement

/-- What stands where an expression is expected: a comment to the end of a line and the
two jumps do as well. -/
def isExpression : Construct → Bool
  | lineComment .. | breakStatement .. | continueStatement .. | assignmentExpression ..
  | conditionalExpression .. | binaryExpression .. | unaryExpression .. | updateExpression ..
  | memberExpression .. | callExpression .. | taggedTemplateExpression .. | newExpression ..
  | awaitExpression .. | sequenceExpression .. | arrowFunctionExpression ..
  | functionExpression .. | classExpression .. | objectExpression .. | arrayExpression ..
  | numericLiteral .. | stringLiteral .. | regExpLiteral .. | templateLiteral .. => true
  | c => c.isIdentifier

/-- The first clause of a `for`, or what a loop over keys or values assigns to. -/
def isForInit : Construct → Bool
  | variableDeclaration .. => true
  | c => c.isExpression

/-- An argument of a call or an element of an array. -/
def isArgument : Construct → Bool
  | spreadElement .. => true
  | c => c.isExpression

/-- What may stand between the braces of an object that is a value. -/
def isObjectMember : Construct → Bool
  | property .. | propertyMethod .. | spreadElement .. => true
  | _ => false

/-- What may stand between the braces of an object that is a pattern. -/
def isPatternMember : Construct → Bool
  | propertyPattern .. | restElement .. => true
  | _ => false

/-- The key of a property, which is an expression if it is computed. -/
def isKey (computed : Bool) : Construct → Bool
  | c => if computed then c.isExpression else
    match c with
    | stringLiteral .. | numericLiteral .. => true
    | c => c.isIdentifier

/-- The nodes that are read off single tokens and have nothing inside. -/
def isLeaf : Construct → Bool
  | blockComment .. | lineComment .. | identifier .. | privateIdentifier .. | numericLiteral ..
  | stringLiteral .. | regExpLiteral .. | templateElement .. => true
  | _ => false

section Sorts

variable {c : Construct}

/-- A name can get a value. This and the lemmas below say which classes of constructs lie within
which others, so a rule that finds a smaller class keeps what a larger one promises. -/
theorem isTarget_of_isIdentifier (name : c.isIdentifier = true) : c.isTarget = true := by
  cases c <;> first | rfl | cases name

theorem isKey_of_isIdentifier (name : c.isIdentifier = true) : c.isKey false = true := by
  cases c <;> first | rfl | cases name

theorem isKey_of_isStringLiteral (string : c.isStringLiteral = true) : c.isKey false = true := by
  cases c <;> first | rfl | cases string

theorem isDefaulted_of_isTarget (target : c.isTarget = true) : c.isDefaulted = true := by
  cases c <;> first | exact target | cases target

theorem isParam_of_isDefaulted (defaulted : c.isDefaulted = true) : c.isParam = true := by
  cases c <;> first | exact defaulted | cases defaulted

theorem isExpression_of_isIdentifier (name : c.isIdentifier = true) :
    c.isExpression = true := by
  cases c <;> first | rfl | cases name

theorem isDeclaration_of_isVariableDeclaration
    (isVariable : c.isVariableDeclaration = true) : c.isDeclaration = true := by
  cases c <;> first | rfl | cases isVariable

/-- A key that is not computed is a name, a string or a number, each an expression of its own. -/
theorem isExpression_of_isKey (key : c.isKey false = true) : c.isExpression = true := by
  cases c <;> first | rfl | cases key

theorem isExpression_of_isStringLiteral (string : c.isStringLiteral = true) :
    c.isExpression = true := by
  cases c <;> first | rfl | cases string

theorem isExpression_of_isTemplateLiteral (template : c.isTemplateLiteral = true) :
    c.isExpression = true := by
  cases c <;> first | rfl | cases template

theorem isExpression_of_isRegExp (regExp : c.isRegExp = true) : c.isExpression = true := by
  cases c <;> first | rfl | cases regExp

/-- A whole expression may stand as an argument, next to spread elements. -/
theorem isArgument_of_isExpression (isExpression : c.isExpression = true) :
    c.isArgument = true := by
  cases c <;> first | exact isExpression | rfl

theorem isBranch_of_isBlock (isBlock : c.isBlock = true) : c.isBranch = true := by
  cases c <;> first | rfl | cases isBlock

theorem isStatement_of_isBlock (isBlock : c.isBlock = true) : c.isStatement = true := by
  cases c <;> first | rfl | cases isBlock

/-- A statement may stand as a branch, next to the empty one. -/
theorem isBranch_of_isStatement (isStatement : c.isStatement = true) :
    c.isBranch = true := by
  cases c <;> first | exact isStatement | rfl

theorem isStatement_of_isDeclaration (isDeclaration : c.isDeclaration = true) :
    c.isStatement = true := by
  cases c <;> first | rfl | cases isDeclaration

theorem isStatement_of_isModuleDeclaration (ofModule : c.isModuleDeclaration = true) :
    c.isStatement = true := by
  cases c <;> first | rfl | cases ofModule

theorem isForInit_of_isVariableDeclaration (isVariable : c.isVariableDeclaration = true) :
    c.isForInit = true := by
  cases c <;> first | rfl | cases isVariable

/-- A header of a loop may begin with an expression, next to a declaration of variables. -/
theorem isForInit_of_isExpression (isExpression : c.isExpression = true) :
    c.isForInit = true := by
  cases c <;> first | exact isExpression | rfl

end Sorts

end Construct

/-- The operators in front of a whole expression. -/
def signs : List TokenKind := [.plus, .dash, .exclamation, .kwTypeOf, .kwVoid]

/-- A function's parameters and its body. -/
def CallableShape (params : List Tree) (body : Tree) : Prop :=
  (∀ t ∈ params, t.kind.isParam) ∧ body.kind.isBlock

/-- What a consumer may rely on when it takes a node apart: which constructs stand in
its parts, and how its flags and operators go with them. -/
def Construct.WellFormed : Construct → Prop
  | program body => ∀ t ∈ body, t.kind.isStatement
  | variableDeclaration _ declarators => ∀ t ∈ declarators, t.kind.isDeclarator
  | usingDeclaration _ declarators => ∀ t ∈ declarators, t.kind.isDeclarator
  | variableDeclarator id init => id.kind.isTarget ∧ ∀ t ∈ init, t.kind.isExpression
  | functionDeclaration id params body _ _ => id.kind.isIdentifier ∧ CallableShape params body
  | classDeclaration id base body =>
    id.kind.isIdentifier ∧ (∀ t ∈ base, t.kind.isExpression) ∧ body.kind.isClassBody
  | classBody members => ∀ t ∈ members, t.kind.isClassMember
  | classMethod key params body => key.kind.isIdentifier ∧ CallableShape params body
  | classProperty key value => key.kind.isIdentifier ∧ ∀ t ∈ value, t.kind.isExpression
  | importDeclaration specifiers source =>
    (∀ t ∈ specifiers, t.kind.isImportSpecifier) ∧ source.kind.isStringLiteral
  | importSpecifier imported localName => imported.kind.isIdentifier ∧ localName.kind.isIdentifier
  | importDefaultSpecifier localName => localName.kind.isIdentifier
  | importNamespaceSpecifier localName => localName.kind.isIdentifier
  | exportNamedDeclaration declaration specifiers source =>
    (∀ t ∈ declaration, t.kind.isDeclaration) ∧ (∀ t ∈ specifiers, t.kind.isExportSpecifier) ∧
      ∀ t ∈ source, t.kind.isStringLiteral
  | exportSpecifier localName exported => localName.kind.isIdentifier ∧ exported.kind.isIdentifier
  | exportDefaultDeclaration declaration => declaration.kind.isExpression
  | exportAllDeclaration exported source =>
    (∀ t ∈ exported, t.kind.isIdentifier) ∧ source.kind.isStringLiteral
  | blockStatement body => ∀ t ∈ body, t.kind.isStatement
  | expressionStatement expression => expression.kind.isExpression
  | ifStatement test consequent alternate =>
    test.kind.isExpression ∧ consequent.kind.isBranch ∧ ∀ t ∈ alternate, t.kind.isBranch
  | withStatement object body => object.kind.isExpression ∧ body.kind.isBranch
  | tryStatement block handler finalizer =>
    block.kind.isBlock ∧ (∀ t ∈ handler, t.kind.isCatchClause) ∧
      (∀ t ∈ finalizer, t.kind.isBlock) ∧ (handler.isSome ∨ finalizer.isSome)
  | catchClause param body => (∀ t ∈ param, t.kind.isTarget) ∧ body.kind.isBlock
  | switchStatement discriminant cases =>
    discriminant.kind.isExpression ∧ ∀ t ∈ cases, t.kind.isSwitchCase
  | switchCase test consequent =>
    (∀ t ∈ test, t.kind.isExpression) ∧ ∀ t ∈ consequent, t.kind.isStatement
  | forStatement init test update body =>
    (∀ t ∈ init, t.kind.isForInit) ∧ (∀ t ∈ test, t.kind.isExpression) ∧
      (∀ t ∈ update, t.kind.isExpression) ∧ body.kind.isBranch
  | forInStatement left right body =>
    left.kind.isForInit ∧ right.kind.isExpression ∧ body.kind.isBranch
  | forOfStatement left right body _ =>
    left.kind.isForInit ∧ right.kind.isExpression ∧ body.kind.isBranch
  | whileStatement test body => test.kind.isExpression ∧ body.kind.isBranch
  | doWhileStatement body test => body.kind.isBlock ∧ test.kind.isExpression
  | returnStatement argument => ∀ t ∈ argument, t.kind.isExpression
  | throwStatement argument => argument.kind.isExpression
  | breakStatement label => ∀ t ∈ label, t.kind.isIdentifier
  | continueStatement label => ∀ t ∈ label, t.kind.isIdentifier
  | labeledStatement label body => label.kind.isIdentifier ∧ body.kind.isStatement
  | assignmentExpression operator target value =>
    operator ∈ assignmentOperators ∧ target.kind.isExpression ∧ value.kind.isExpression
  | conditionalExpression test consequent alternate =>
    test.kind.isExpression ∧ consequent.kind.isExpression ∧ alternate.kind.isExpression
  | binaryExpression layer operator left right =>
    operator ∈ layer.operators ∧ left.kind.isExpression ∧ right.kind.isExpression
  | unaryExpression operator argument => operator ∈ signs ∧ argument.kind.isExpression
  | updateExpression operator argument _ =>
    operator ∈ [.doublePlus, .doubleDash] ∧ argument.kind.isIdentifier
  | memberExpression object member computed _ =>
    object.kind.isExpression ∧
      if computed then member.kind.isExpression else member.kind.isIdentifier
  | callExpression callee arguments _ =>
    callee.kind.isExpression ∧ ∀ t ∈ arguments, t.kind.isArgument
  | taggedTemplateExpression tag quasi => tag.kind.isExpression ∧ quasi.kind.isTemplateLiteral
  | newExpression callee => callee.kind.isExpression
  | awaitExpression argument => argument.kind.isExpression
  | sequenceExpression expressions => expressions ≠ [] ∧ ∀ t ∈ expressions, t.kind.isExpression
  | arrowFunctionExpression params body expression _ =>
    (∀ t ∈ params, t.kind.isParam) ∧ (body.kind.isBlock ∨ body.kind.isExpression) ∧
      (expression = false ↔ body.kind.isBlock)
  | functionExpression id params body _ _ =>
    (∀ t ∈ id, t.kind.isIdentifier) ∧ CallableShape params body
  | classExpression id base body =>
    (∀ t ∈ id, t.kind.isIdentifier) ∧ (∀ t ∈ base, t.kind.isExpression) ∧ body.kind.isClassBody
  | objectExpression properties => ∀ t ∈ properties, t.kind.isObjectMember
  | property key value shorthand computed =>
    key.kind.isKey computed ∧ value.kind.isExpression ∧
      (shorthand → value = key ∧ key.kind.isIdentifier ∧ computed = false)
  | propertyMethod key params body computed => key.kind.isKey computed ∧ CallableShape params body
  | arrayExpression elements => ∀ t ∈ elements, t.kind.isArgument
  | spreadElement argument => argument.kind.isExpression
  | objectPattern properties => ∀ t ∈ properties, t.kind.isPatternMember
  | propertyPattern key value shorthand computed =>
    key.kind.isKey computed ∧ value.kind.isDefaulted ∧
      (shorthand → (value = key ∨ ∃ right, value.kind = assignmentPattern key right) ∧
        key.kind.isIdentifier ∧ computed = false)
  | arrayPattern elements => ∀ t ∈ elements, t.kind.isParam
  | assignmentPattern left right => left.kind.isTarget ∧ right.kind.isExpression
  | restElement argument => argument.kind.isTarget
  | templateLiteral quasis expressions =>
    (∀ t ∈ quasis, t.kind.isTemplateElement) ∧ ∀ t ∈ expressions, t.kind.isExpression
  | emptyStatement | blockComment .. | lineComment .. | identifier .. | privateIdentifier ..
  | numericLiteral .. | stringLiteral .. | regExpLiteral .. | templateElement .. => True

end ScriptFront.Script
