import ScriptFront.Script.Tree

namespace ScriptFront.Script

/-- The extent of every node in a tree whose extents do not matter. -/
def noSpan : Span := .emptyAt .start

/-!
A tree without its extents: the same constructs over the same parts, with the extent
of no characters at every node.
-/

mutual

/-- A construct whose nodes have lost their extents, at every depth. All else that it holds stays:
names, flags, texts and the order of the nodes. -/
def Construct.erase : Construct → Construct
  | .program body => .program (eraseAll body)
  | .blockComment content => .blockComment content
  | .lineComment content => .lineComment content
  | .variableDeclaration kind declarators => .variableDeclaration kind (eraseAll declarators)
  | .usingDeclaration isAwait declarators => .usingDeclaration isAwait (eraseAll declarators)
  | .variableDeclarator id init => .variableDeclarator (erase id) (eraseMaybe init)
  | .functionDeclaration id params body isAsync isGenerator =>
    .functionDeclaration (erase id) (eraseAll params) (erase body) isAsync isGenerator
  | .classDeclaration id base body => .classDeclaration (erase id) (eraseMaybe base) (erase body)
  | .classBody members => .classBody (eraseAll members)
  | .classMethod key params body => .classMethod (erase key) (eraseAll params) (erase body)
  | .classProperty key value => .classProperty (erase key) (eraseMaybe value)
  | .importDeclaration specifiers source =>
    .importDeclaration (eraseAll specifiers) (erase source)
  | .importSpecifier imported localName => .importSpecifier (erase imported) (erase localName)
  | .importDefaultSpecifier localName => .importDefaultSpecifier (erase localName)
  | .importNamespaceSpecifier localName => .importNamespaceSpecifier (erase localName)
  | .exportNamedDeclaration declaration specifiers source =>
    .exportNamedDeclaration (eraseMaybe declaration) (eraseAll specifiers) (eraseMaybe source)
  | .exportSpecifier localName exported => .exportSpecifier (erase localName) (erase exported)
  | .exportDefaultDeclaration declaration => .exportDefaultDeclaration (erase declaration)
  | .exportAllDeclaration exported source =>
    .exportAllDeclaration (eraseMaybe exported) (erase source)
  | .blockStatement body => .blockStatement (eraseAll body)
  | .expressionStatement expression => .expressionStatement (erase expression)
  | .emptyStatement => .emptyStatement
  | .ifStatement test consequent alternate =>
    .ifStatement (erase test) (erase consequent) (eraseMaybe alternate)
  | .withStatement object body => .withStatement (erase object) (erase body)
  | .tryStatement block handler finalizer =>
    .tryStatement (erase block) (eraseMaybe handler) (eraseMaybe finalizer)
  | .catchClause param body => .catchClause (eraseMaybe param) (erase body)
  | .switchStatement discriminant cases => .switchStatement (erase discriminant) (eraseAll cases)
  | .switchCase test consequent => .switchCase (eraseMaybe test) (eraseAll consequent)
  | .forStatement init test update body =>
    .forStatement (eraseMaybe init) (eraseMaybe test) (eraseMaybe update) (erase body)
  | .forInStatement left right body => .forInStatement (erase left) (erase right) (erase body)
  | .forOfStatement left right body isAwait =>
    .forOfStatement (erase left) (erase right) (erase body) isAwait
  | .whileStatement test body => .whileStatement (erase test) (erase body)
  | .doWhileStatement body test => .doWhileStatement (erase body) (erase test)
  | .returnStatement argument => .returnStatement (eraseMaybe argument)
  | .throwStatement argument => .throwStatement (erase argument)
  | .breakStatement label => .breakStatement (eraseMaybe label)
  | .continueStatement label => .continueStatement (eraseMaybe label)
  | .labeledStatement label body => .labeledStatement (erase label) (erase body)
  | .assignmentExpression operator target value =>
    .assignmentExpression operator (erase target) (erase value)
  | .conditionalExpression test consequent alternate =>
    .conditionalExpression (erase test) (erase consequent) (erase alternate)
  | .binaryExpression layer operator left right =>
    .binaryExpression layer operator (erase left) (erase right)
  | .unaryExpression operator argument => .unaryExpression operator (erase argument)
  | .updateExpression operator argument isLeading =>
    .updateExpression operator (erase argument) isLeading
  | .memberExpression object member computed optional =>
    .memberExpression (erase object) (erase member) computed optional
  | .callExpression callee arguments optional =>
    .callExpression (erase callee) (eraseAll arguments) optional
  | .taggedTemplateExpression tag quasi => .taggedTemplateExpression (erase tag) (erase quasi)
  | .newExpression callee => .newExpression (erase callee)
  | .awaitExpression argument => .awaitExpression (erase argument)
  | .sequenceExpression expressions => .sequenceExpression (eraseAll expressions)
  | .arrowFunctionExpression params body expression isAsync =>
    .arrowFunctionExpression (eraseAll params) (erase body) expression isAsync
  | .functionExpression id params body isAsync isGenerator =>
    .functionExpression (eraseMaybe id) (eraseAll params) (erase body) isAsync isGenerator
  | .classExpression id base body =>
    .classExpression (eraseMaybe id) (eraseMaybe base) (erase body)
  | .objectExpression properties => .objectExpression (eraseAll properties)
  | .property key value shorthand computed =>
    .property (erase key) (erase value) shorthand computed
  | .propertyMethod key params body computed =>
    .propertyMethod (erase key) (eraseAll params) (erase body) computed
  | .arrayExpression elements => .arrayExpression (eraseAll elements)
  | .spreadElement argument => .spreadElement (erase argument)
  | .objectPattern properties => .objectPattern (eraseAll properties)
  | .propertyPattern key value shorthand computed =>
    .propertyPattern (erase key) (erase value) shorthand computed
  | .arrayPattern elements => .arrayPattern (eraseAll elements)
  | .assignmentPattern left right => .assignmentPattern (erase left) (erase right)
  | .restElement argument => .restElement (erase argument)
  | .identifier symbol => .identifier symbol
  | .privateIdentifier symbol => .privateIdentifier symbol
  | .numericLiteral value raw float => .numericLiteral value raw float
  | .stringLiteral value raw => .stringLiteral value raw
  | .regExpLiteral pattern flags raw => .regExpLiteral pattern flags raw
  | .templateLiteral quasis expressions =>
    .templateLiteral (eraseAll quasis) (eraseAll expressions)
  | .templateElement raw cooked tail => .templateElement raw cooked tail

/-- A tree without its extents: the one of the root is replaced by that of no characters, and so are
those of all nodes below it. -/
def erase : Node Construct → Node Construct
  | ⟨kind, _⟩ => ⟨kind.erase, noSpan⟩

/-- The trees of a list, each without its extents. The list keeps its length and its order. -/
def eraseAll : List (Node Construct) → List (Node Construct)
  | [] => []
  | t :: others => erase t :: eraseAll others

/-- A tree that may be missing, without its extents if it is there. -/
def eraseMaybe : Option (Node Construct) → Option (Node Construct)
  | none => none
  | some t => some (erase t)

end

attribute [simp] Construct.erase

/-- Erasing a tree erases what it is made of and puts one fixed span around it. -/
theorem erase_eq (t : Tree) : erase t = ⟨t.kind.erase, noSpan⟩ := by
  cases t with
  | mk kind span => rfl

@[simp] theorem eraseAll_nil : eraseAll [] = [] := rfl

@[simp] theorem eraseAll_cons (t : Tree) (others : List Tree) :
    eraseAll (t :: others) = erase t :: eraseAll others := rfl

theorem erase_program (body : List Tree) (span : Span) :
    erase ⟨.program body, span⟩ = ⟨.program (eraseAll body), noSpan⟩ := by
  rw [erase_eq, Construct.erase]

end ScriptFront.Script
