import ScriptFront.Parsing.Parser
import ScriptFront.Script.TokenKind

namespace ScriptFront.Script

/-- The word that a declaration of variables starts with. -/
inductive VariableKind where
  | varWord
  | letWord
  | constWord
deriving DecidableEq, Repr

/-- The name of the word that a declaration begins with. -/
def VariableKind.name : VariableKind → String
  | varWord => "Var"
  | letWord => "Let"
  | constWord => "Const"

/-- The layer of the grammar at which two operands were joined. The operator tells it as well, and
the node keeps both. -/
inductive OperatorLayer where
  | additive
  | multiplicative
  /-- Comparison and logic. -/
  | comparative
deriving DecidableEq, Repr

/-- The name of a layer of operators. -/
def OperatorLayer.name : OperatorLayer → String
  | additive => "add"
  | multiplicative => "mul"
  | comparative => "com"

/-- The constructs of a script. Every node of a syntax tree is one of them, with the extent of its
tokens. -/
inductive Construct where
  /-- A whole script. -/
  | program (body : List (Node Construct))
  /-- Slash-star to star-slash; the text between them. -/
  | blockComment (content : String)
  /-- Two slashes to the end of the line; the text behind them. -/
  | lineComment (content : String)
  /-- The word `var`, `let` or `const` with its declarators. -/
  | variableDeclaration (kind : VariableKind) (declarators : List (Node Construct))
  /-- The words `using` or `await using` with its declarators. -/
  | usingDeclaration (isAwait : Bool) (declarators : List (Node Construct))
  /-- One declared pattern and its initial value. -/
  | variableDeclarator (id : Node Construct) (init : Option (Node Construct))
  /-- A function with its name, parameters and body. -/
  | functionDeclaration (id : Node Construct) (params : List (Node Construct))
    (body : Node Construct) (isAsync : Bool) (isGenerator : Bool)
  /-- A class with its name, the class that it extends, and its body. -/
  | classDeclaration (id : Node Construct) (base : Option (Node Construct)) (body : Node Construct)
  /-- The braces of a class. -/
  | classBody (members : List (Node Construct))
  /-- A method of a class. -/
  | classMethod (key : Node Construct) (params : List (Node Construct)) (body : Node Construct)
  /-- A property of a class, maybe with a value. -/
  | classProperty (key : Node Construct) (value : Option (Node Construct))
  /-- An import, without specifiers when only the effects of the source are wanted. -/
  | importDeclaration (specifiers : List (Node Construct)) (source : Node Construct)
  /-- One name of an import list, and the name that it has here. -/
  | importSpecifier (imported : Node Construct) (localName : Node Construct)
  /-- The default binding of an import. -/
  | importDefaultSpecifier (localName : Node Construct)
  /-- All of a module under one name. -/
  | importNamespaceSpecifier (localName : Node Construct)
  /-- An export of a declaration, or of a list of names, maybe from a source. -/
  | exportNamedDeclaration (declaration : Option (Node Construct))
    (specifiers : List (Node Construct)) (source : Option (Node Construct))
  /-- One name of an export list, and the name that others see. -/
  | exportSpecifier (localName : Node Construct) (exported : Node Construct)
  /-- The default export. -/
  | exportDefaultDeclaration (declaration : Node Construct)
  /-- An export of all that another module exports, maybe under one name. -/
  | exportAllDeclaration (exported : Option (Node Construct)) (source : Node Construct)
  /-- Statements in braces. -/
  | blockStatement (body : List (Node Construct))
  /-- An expression where a statement is expected. -/
  | expressionStatement (expression : Node Construct)
  /-- A lone semicolon as the body of a branch or a loop. -/
  | emptyStatement
  | ifStatement (test : Node Construct) (consequent : Node Construct)
    (alternate : Option (Node Construct))
  | withStatement (object : Node Construct) (body : Node Construct)
  | tryStatement (block : Node Construct) (handler : Option (Node Construct))
    (finalizer : Option (Node Construct))
  /-- The handler of a `try`, whose parameter may be left out. -/
  | catchClause (param : Option (Node Construct)) (body : Node Construct)
  | switchStatement (discriminant : Node Construct) (cases : List (Node Construct))
  /-- One case, or the default one if it has no test, with the statements up to the next. -/
  | switchCase (test : Option (Node Construct)) (consequent : List (Node Construct))
  /-- A loop with three clauses, each of which may be left out. -/
  | forStatement (init : Option (Node Construct)) (test : Option (Node Construct))
    (update : Option (Node Construct)) (body : Node Construct)
  | forInStatement (left : Node Construct) (right : Node Construct) (body : Node Construct)
  | forOfStatement (left : Node Construct) (right : Node Construct) (body : Node Construct)
    (isAwait : Bool)
  | whileStatement (test : Node Construct) (body : Node Construct)
  | doWhileStatement (body : Node Construct) (test : Node Construct)
  | returnStatement (argument : Option (Node Construct))
  | throwStatement (argument : Node Construct)
  | breakStatement (label : Option (Node Construct))
  | continueStatement (label : Option (Node Construct))
  | labeledStatement (label : Node Construct) (body : Node Construct)
  /-- An assignment by any of the assignment operators. -/
  | assignmentExpression (operator : TokenKind) (target : Node Construct) (value : Node Construct)
  /-- A choice between two expressions. -/
  | conditionalExpression (test : Node Construct) (consequent : Node Construct)
    (alternate : Node Construct)
  /-- Two operands, with the layer of operators that joined them. -/
  | binaryExpression (layer : OperatorLayer) (operator : TokenKind) (left : Node Construct)
    (right : Node Construct)
  | unaryExpression (operator : TokenKind) (argument : Node Construct)
  /-- An increment or decrement, before or behind a name. -/
  | updateExpression (operator : TokenKind) (argument : Node Construct) (isLeading : Bool)
  /-- A property by name or, when `computed`, by an expression in square brackets. -/
  | memberExpression (object : Node Construct) (member : Node Construct) (computed : Bool)
    (optional : Bool)
  | callExpression (callee : Node Construct) (arguments : List (Node Construct)) (optional : Bool)
  /-- A template right behind an expression. -/
  | taggedTemplateExpression (tag : Node Construct) (quasi : Node Construct)
  | newExpression (callee : Node Construct)
  | awaitExpression (argument : Node Construct)
  /-- Expressions in parentheses, separated by commas. -/
  | sequenceExpression (expressions : List (Node Construct))
  /-- An arrow function, whose body is an expression or a block. -/
  | arrowFunctionExpression (params : List (Node Construct)) (body : Node Construct)
    (expression : Bool) (isAsync : Bool)
  | functionExpression (id : Option (Node Construct)) (params : List (Node Construct))
    (body : Node Construct) (isAsync : Bool) (isGenerator : Bool)
  | classExpression (id : Option (Node Construct)) (base : Option (Node Construct))
    (body : Node Construct)
  | objectExpression (properties : List (Node Construct))
  /-- A property of an object; a shorthand one is its own value. -/
  | property (key : Node Construct) (value : Node Construct) (shorthand : Bool) (computed : Bool)
  /-- A method of an object. -/
  | propertyMethod (key : Node Construct) (params : List (Node Construct)) (body : Node Construct)
    (computed : Bool)
  | arrayExpression (elements : List (Node Construct))
  /-- A spread among arguments, elements or properties. -/
  | spreadElement (argument : Node Construct)
  | objectPattern (properties : List (Node Construct))
  /-- A property that a pattern takes apart; a shorthand one binds its own key. -/
  | propertyPattern (key : Node Construct) (value : Node Construct) (shorthand : Bool)
    (computed : Bool)
  | arrayPattern (elements : List (Node Construct))
  /-- A pattern with a default value. -/
  | assignmentPattern (left : Node Construct) (right : Node Construct)
  /-- The pattern that takes what is left. -/
  | restElement (argument : Node Construct)
  | identifier (symbol : String)
  /-- A name behind a hash sign, which is not part of the symbol. -/
  | privateIdentifier (symbol : String)
  /-- A number, its spelling, and whether that has a fraction. -/
  | numericLiteral (value : Float) (raw : String) (float : Bool)
  /-- The text that a string stands for, and its spelling with the quotes. -/
  | stringLiteral (value : String) (raw : String)
  /-- The pattern between slashes and the flags behind them. -/
  | regExpLiteral (pattern : String) (flags : Option String) (raw : String)
  /-- The text segments and the interpolated expressions of a template. -/
  | templateLiteral (quasis : List (Node Construct)) (expressions : List (Node Construct))
  /-- One text segment: its spelling, what it stands for, and whether it is the last. -/
  | templateElement (raw : String) (cooked : String) (tail : Bool)

/-- A syntax tree. -/
abbrev Tree := Node Construct

instance : Inhabited Tree := ⟨⟨.emptyStatement, default⟩⟩

/-- One part of a construct. The view of a construct as a list of named parts serves the printing of
trees and the walk over them. -/
inductive Field where
  | child (t : Tree)
  | child? (t : Option Tree)
  | children (ts : List Tree)
  | flag (b : Bool)
  | text (s : String)
  | text? (s : Option String)
  | number (x : Float)
  | tokenKind (kind : TokenKind)
  | layer (l : OperatorLayer)
  | variableKind (kind : VariableKind)

/-- The trees in one part. -/
def Field.trees : Field → List Tree
  | child t => [t]
  | child? t => t.toList
  | children ts => ts
  | _ => []

namespace Construct

/-- The name of a construct and its parts, named and in order: all that a written
tree shows of it. -/
def view : Construct → String × List (String × Field)
  | program body => ("Program", [("body", .children body)])
  | blockComment content => ("BlockComment", [("content", .text content)])
  | lineComment content => ("LineComment", [("content", .text content)])
  | variableDeclaration kind declarators =>
    ("VariableDeclaration", [("kind", .variableKind kind),
      ("declarators", .children declarators)])
  | usingDeclaration isAwait declarators =>
    ("UsingDeclaration", [("await", .flag isAwait), ("declarators", .children declarators)])
  | variableDeclarator id init =>
    ("VariableDeclarator", [("id", .child id), ("init", .child? init)])
  | functionDeclaration id params body isAsync isGenerator =>
    ("FunctionDeclaration", [("id", .child id), ("params", .children params),
      ("body", .child body), ("async", .flag isAsync), ("generator", .flag isGenerator)])
  | classDeclaration id base body =>
    ("ClassDeclaration", [("id", .child id), ("extends", .child? base), ("body", .child body)])
  | classBody members => ("ClassBody", [("members", .children members)])
  | classMethod key params body =>
    ("ClassMethod", [("key", .child key), ("params", .children params), ("body", .child body)])
  | classProperty key value => ("ClassProperty", [("key", .child key), ("value", .child? value)])
  | importDeclaration specifiers source =>
    ("ImportDeclaration", [("specifiers", .children specifiers), ("source", .child source)])
  | importSpecifier imported localName =>
    ("ImportSpecifier", [("imported", .child imported), ("local", .child localName)])
  | importDefaultSpecifier localName => ("ImportDefaultSpecifier", [("local", .child localName)])
  | importNamespaceSpecifier localName =>
    ("ImportNamespaceSpecifier", [("local", .child localName)])
  | exportNamedDeclaration declaration specifiers source =>
    ("ExportNamedDeclaration", [("declaration", .child? declaration),
      ("specifiers", .children specifiers), ("source", .child? source)])
  | exportSpecifier localName exported =>
    ("ExportSpecifier", [("local", .child localName), ("exported", .child exported)])
  | exportDefaultDeclaration declaration =>
    ("ExportDefaultDeclaration", [("declaration", .child declaration)])
  | exportAllDeclaration exported source =>
    ("ExportAllDeclaration", [("exported", .child? exported), ("source", .child source)])
  | blockStatement body => ("BlockStatement", [("body", .children body)])
  | expressionStatement expression => ("ExpressionStatement", [("expression", .child expression)])
  | emptyStatement => ("EmptyStatement", [])
  | ifStatement test consequent alternate =>
    ("IfStatement", [("test", .child test), ("consequent", .child consequent),
      ("alternate", .child? alternate)])
  | withStatement object body =>
    ("WithStatement", [("object", .child object), ("body", .child body)])
  | tryStatement block handler finalizer =>
    ("TryStatement", [("block", .child block), ("handler", .child? handler),
      ("finalizer", .child? finalizer)])
  | catchClause param body => ("CatchClause", [("param", .child? param), ("body", .child body)])
  | switchStatement discriminant cases =>
    ("SwitchStatement", [("discriminant", .child discriminant), ("cases", .children cases)])
  | switchCase test consequent =>
    ("SwitchCase", [("test", .child? test), ("consequent", .children consequent)])
  | forStatement init test update body =>
    ("ForStatement", [("init", .child? init), ("test", .child? test), ("update", .child? update),
      ("body", .child body)])
  | forInStatement left right body =>
    ("ForInStatement", [("left", .child left), ("right", .child right), ("body", .child body)])
  | forOfStatement left right body isAwait =>
    ("ForOfStatement", [("left", .child left), ("right", .child right), ("body", .child body),
      ("await", .flag isAwait)])
  | whileStatement test body => ("WhileStatement", [("test", .child test), ("body", .child body)])
  | doWhileStatement body test =>
    ("DoWhileStatement", [("body", .child body), ("test", .child test)])
  | returnStatement argument => ("ReturnStatement", [("argument", .child? argument)])
  | throwStatement argument => ("ThrowStatement", [("argument", .child argument)])
  | breakStatement label => ("BreakStatement", [("label", .child? label)])
  | continueStatement label => ("ContinueStatement", [("label", .child? label)])
  | labeledStatement label body =>
    ("LabeledStatement", [("label", .child label), ("body", .child body)])
  | assignmentExpression operator target value =>
    ("AssignmentExpression", [("operator", .tokenKind operator), ("target", .child target),
      ("value", .child value)])
  | conditionalExpression test consequent alternate =>
    ("ConditionalExpression", [("test", .child test), ("consequent", .child consequent),
      ("alternate", .child alternate)])
  | binaryExpression layer operator left right =>
    ("BinaryExpression", [("kind", .layer layer), ("operator", .tokenKind operator),
      ("left", .child left), ("right", .child right)])
  | unaryExpression operator argument =>
    ("UnaryExpression", [("operator", .tokenKind operator), ("argument", .child argument)])
  | updateExpression operator argument isLeading =>
    ("UpdateExpression", [("operator", .tokenKind operator), ("argument", .child argument),
      ("prefix", .flag isLeading)])
  | memberExpression object member computed optional =>
    ("MemberExpression", [("object", .child object), ("property", .child member),
      ("computed", .flag computed), ("optional", .flag optional)])
  | callExpression callee arguments optional =>
    ("CallExpression", [("callee", .child callee), ("arguments", .children arguments),
      ("optional", .flag optional)])
  | taggedTemplateExpression tag quasi =>
    ("TaggedTemplateExpression", [("tag", .child tag), ("quasi", .child quasi)])
  | newExpression callee => ("NewExpression", [("callee", .child callee)])
  | awaitExpression argument => ("AwaitExpression", [("argument", .child argument)])
  | sequenceExpression expressions =>
    ("SequenceExpression", [("expressions", .children expressions)])
  | arrowFunctionExpression params body expression isAsync =>
    ("ArrowFunctionExpression", [("params", .children params), ("body", .child body),
      ("expression", .flag expression), ("async", .flag isAsync)])
  | functionExpression id params body isAsync isGenerator =>
    ("FunctionExpression", [("id", .child? id), ("params", .children params),
      ("body", .child body), ("async", .flag isAsync), ("generator", .flag isGenerator)])
  | classExpression id base body =>
    ("ClassExpression", [("id", .child? id), ("extends", .child? base), ("body", .child body)])
  | objectExpression properties => ("ObjectExpression", [("properties", .children properties)])
  | property key value shorthand computed =>
    ("Property", [("key", .child key), ("value", .child value), ("shorthand", .flag shorthand),
      ("computed", .flag computed)])
  | propertyMethod key params body computed =>
    ("PropertyMethod", [("key", .child key), ("params", .children params), ("body", .child body),
      ("computed", .flag computed)])
  | arrayExpression elements => ("ArrayExpression", [("elements", .children elements)])
  | spreadElement argument => ("SpreadElement", [("argument", .child argument)])
  | objectPattern properties => ("ObjectPattern", [("properties", .children properties)])
  | propertyPattern key value shorthand computed =>
    ("PropertyPattern", [("key", .child key), ("value", .child value),
      ("shorthand", .flag shorthand), ("computed", .flag computed)])
  | arrayPattern elements => ("ArrayPattern", [("elements", .children elements)])
  | assignmentPattern left right =>
    ("AssignmentPattern", [("left", .child left), ("right", .child right)])
  | restElement argument => ("RestElement", [("argument", .child argument)])
  | identifier symbol => ("Identifier", [("symbol", .text symbol)])
  | privateIdentifier symbol => ("PrivateIdentifier", [("symbol", .text symbol)])
  | numericLiteral value raw float =>
    ("NumericLiteral", [("value", .number value), ("raw", .text raw), ("float", .flag float)])
  | stringLiteral value raw => ("StringLiteral", [("value", .text value), ("raw", .text raw)])
  | regExpLiteral pattern flags raw =>
    ("RegExpLiteral", [("pattern", .text pattern), ("flags", .text? flags), ("raw", .text raw)])
  | templateLiteral quasis expressions =>
    ("TemplateLiteral", [("quasis", .children quasis), ("expressions", .children expressions)])
  | templateElement raw cooked tail =>
    ("TemplateElement", [("raw", .text raw), ("cooked", .text cooked), ("tail", .flag tail)])

/-- The name of a construct, without what it holds. -/
def name (c : Construct) : String := c.view.1

/-- The trees directly inside a construct, in order. -/
def children (c : Construct) : List Tree := c.view.2.flatMap fun (_, field) => field.trees

/-- Whether the construct is a name, private or not. -/
def isIdentifier : Construct → Bool
  | identifier _ => true
  | privateIdentifier _ => true
  | _ => false

end Construct

end ScriptFront.Script
