namespace ScriptFront.Script

/-- The statements that start with a word and an expression in parentheses. They differ in nothing
but the wording of what is missing. -/
inductive Head where
  | ifHead
  | withHead
  | whileHead
  | switchHead
deriving DecidableEq, Repr

/-- What a rule of the grammar can miss. Each one has one wording. -/
inductive Complaint where
  | word
  | identifier
  | string
  | number
  | fraction
  | numericLiteral
  | regExpEnd
  | templateOpen
  | templatePart
  | interpolationEnd
  | templateEnd
  | computedKeyEnd
  | pattern
  | patternColon
  | objectPatternEnd
  | arrayPatternEnd
  | parametersEnd
  | blockOpen
  | blockEnd
  | asyncFunction
  | functionParen
  | classOpen
  | classEnd
  | expression
  | memberEnd
  | argumentsEnd
  | sequenceComma
  | groupEnd
  | arrowParen
  | arrowBehindParams
  | arrowBehindParam
  | propertyColon
  | objectEnd
  | arrayEnd
  | ternaryColon
  | declaration
  /-- A declarator without a value where one is needed; the keyword names the declaration. -/
  | declaratorEquals (keyword : String)
  | importFrom
  | namespaceAs
  | importListOpen
  | importListEnd
  | sourceString
  | exportAllFrom
  | exportListEnd
  | exportSourceString
  | blockCommentEnd
  | lineCommentEnd
  | labelColon
  | headOpen (head : Head)
  | headEnd (head : Head)
  | doWhile
  | catchEnd
  | catchOrFinally
  | switchOpen
  | caseColon
  | defaultColon
  | switchBody
  | switchEnd
  | forParen
  | forOf
  | forInitSemicolon
  | forTestSemicolon
  | forEnd
deriving DecidableEq, Repr

/-- The wording of every complaint. -/
def Complaint.message : Complaint → String
  | word => "Expected word"
  | identifier => "Expected identifier"
  | string => "Expected string"
  | number => "Expected number"
  | fraction => "Expected number after decimal period"
  | numericLiteral => "Invalid numeric literal"
  | regExpEnd => "Expected slash to end regular expression"
  | templateOpen => "Expected back quote to open template"
  | templatePart => "Unexpected token in template literal"
  | interpolationEnd => "Expected close bracket to close expression"
  | templateEnd => "Expected back quote to end template"
  | computedKeyEnd => "Expected close square to end computed key"
  | pattern => "Expected identifier or pattern"
  | patternColon => "Expected colon after pattern key"
  | objectPatternEnd => "Expected closing bracket to end Object pattern"
  | arrayPatternEnd => "Expected closing square bracket to end Array pattern"
  | parametersEnd => "Expected parenthesis to close function params"
  | blockOpen => "Expected bracket to open block"
  | blockEnd => "Expected bracket to end block"
  | asyncFunction => "Expected function keyword after async"
  | functionParen => "Expected parenthesis after function identifier"
  | classOpen => "Expected bracket to open class body"
  | classEnd => "Expected bracket to close class body"
  | expression => "Expected expression"
  | memberEnd => "Expected closing square bracket in member expression"
  | argumentsEnd => "Expected closing parenthesis to end argument list"
  | sequenceComma => "Expected comma for sequence"
  | groupEnd => "Expected closing parenthesis to end group expression"
  | arrowParen => "Expected parenthesis to open arrow parameters"
  | arrowBehindParams => "Expected arrow after parameters list"
  | arrowBehindParam => "Expected arrow after parameter"
  | propertyColon => "Expected colon after property key"
  | objectEnd => "Expected closing bracket to end Object literal"
  | arrayEnd => "Expected closing square bracket to end Array literal"
  | ternaryColon => "Expected colon to finalize ternary expression"
  | declaration => "Expected declaration"
  | declaratorEquals keyword =>
    "Expected Equals after identifier in " ++ keyword ++ " declaration"
  | importFrom => "Expected from after import specifiers"
  | namespaceAs => "Expected as for namespace specifier"
  | importListOpen => "Expected bracket to list imports"
  | importListEnd => "Expected bracket to end import list"
  | sourceString => "Expected string after from"
  | exportAllFrom => "Expected from in export all declaration"
  | exportListEnd => "Expected bracket to end export list"
  | exportSourceString => "Expected string after export from"
  | blockCommentEnd => "Expected asterisk slash to end block comment"
  | lineCommentEnd => "Expected line break to end line comment"
  | labelColon => "Expected colon after label"
  | headOpen .ifHead => "Expected parenthesis after If keyword"
  | headOpen .withHead => "Expected parenthesis after with keyword"
  | headOpen .whileHead => "Expected parenthesis after while keyword"
  | headOpen .switchHead => "Expected parenthesis after switch keyword"
  | headEnd .ifHead => "Expected parenthesis after If condition"
  | headEnd .withHead => "Expected parenthesis after with namespace"
  | headEnd .whileHead => "Expected parenthesis after while condition"
  | headEnd .switchHead => "Expected parenthesis after switch discriminant expression"
  | doWhile => "Expected while after do"
  | catchEnd => "Expected close parenthesis after catch"
  | catchOrFinally => "Expected catch or finally after try block"
  | switchOpen => "Expected OpenBracket after switch discriminant"
  | caseColon => "Expected colon after switch case expression"
  | defaultColon => "Expected colon after switch default case"
  | switchBody => "Unexpected token inside switch body"
  | switchEnd => "Expected bracket to end switch body"
  | forParen => "Expected parenthesis after 'for'"
  | forOf => "Expected of in for await statement"
  | forInitSemicolon => "Expected semicolon after 'init'"
  | forTestSemicolon => "Expected semicolon after 'test'"
  | forEnd => "Expected closing parenthesis in for expression"

end ScriptFront.Script
