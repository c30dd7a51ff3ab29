import ScriptFront.Proofs.Forward
import ScriptFront.Script.Parse

namespace ScriptFront.Script

open ScriptFront.Parser

/-- Two sets of rules that nobody can tell apart with fewer than `n` tokens left, and all of which
take a token when they succeed. Unfolding the grammar once more makes the number larger by one,
which is how the depth of the rules is found not to matter. -/
structure Rules.Settled (n : Nat) (r r' : Rules) : Prop where
  statement : ∀ allowIn, Taking n (r.statement allowIn) (r'.statement allowIn)
  expression : ∀ allowIn, Taking n (r.expression allowIn) (r'.expression allowIn)
  binding : ∀ allowIn, Taking n (r.binding allowIn) (r'.binding allowIn)
  ifStatement : ∀ allowIn, Taking n (r.ifStatement allowIn) (r'.ifStatement allowIn)

variable {n : Nat} {α : Type}

section Tools

/-- Skipping layout goes on and succeeds, maybe over no token at all, so a rule that ends in it need
not take one. -/
theorem trim_steady : Steady n trim trim :=
  fun s _ => ⟨rfl, s.reach_skipWhile _⟩

theorem trimSeparators_steady : Steady n trimSeparators trimSeparators :=
  fun s _ => ⟨rfl, s.reach_skipWhile _⟩

/-- What a rule eats it takes. Nearly every construct begins with it or with `expect`, which is why
a rule that begins so may call the rules of the grammar on fewer tokens. -/
theorem eat_taking : Taking n eat eat :=
  taking_consume.andThen fun _ => trim_steady.bind fun _ => steady_pure _

theorem complain_taking (complaint : Complaint) :
    Taking n (complain complaint : Rule α) (complain complaint) :=
  taking_fail _

/-- A token that was asked for is taken, or the rule fails where it stands. -/
theorem expect_taking (kind : TokenKind) (complaint : Complaint) :
    Taking n (expect kind complaint) (expect kind complaint) :=
  taking_expect kind _

/-- Between two items there may be a comma or none; the answer alone tells the list whether to go
on. -/
theorem commaFollows_steady : Steady n commaFollows commaFollows := by
  refine trim_steady.bind fun _ => (steady_accept _).bind fun _ => .ite ?_ (steady_pure _)
  exact trim_steady.bind fun _ => steady_pure _

variable {item item' : Rule α} {stop : List TokenKind}

/-- A list takes at least one token for each item, so both sides of it run out at once, and a list
of no items takes none. -/
theorem commaSeparated_steady (each : Taking n item item') :
    Steady n (commaSeparated stop item) (commaSeparated stop item') :=
  steady_items each commaFollows_steady

/-- A list of statements or of members takes at least one token for each of them, whatever stands
between. -/
theorem separated_steady (each : Taking n item item') :
    Steady n (separated stop item) (separated stop item') :=
  steady_items each (trimSeparators_steady.bind fun _ => steady_pure _)

end Tools

section Leaves

theorem nameText_taking (anyWord : Bool) : Taking n (nameText anyWord) (nameText anyWord) := by
  refine .ite ?_ ?_
  · exact (taking_expectTag _ _).andThen fun _ => steady_pure _
  · exact (expect_taking _ _).andThen fun _ => steady_pure _

theorem anyName_taking (anyWord : Bool) : Taking n (anyName anyWord) (anyName anyWord) := by
  refine (steady_observe _).then fun start => (steady_accept _).then fun _ => .ite ?_ ?_
  · exact (nameText_taking anyWord).andThen fun _ => steady_observe _
  · exact (nameText_taking anyWord).andThen fun _ => steady_observe _

theorem plainName_taking : Taking n plainName plainName :=
  (steady_observe _).then fun _ => (nameText_taking false).andThen fun _ => steady_observe _

theorem stringLiteral_taking : Taking n stringLiteral stringLiteral :=
  (steady_observe _).then fun _ => (expect_taking _ _).andThen fun _ => steady_observe _

/-- The last step of a number takes nothing: the value of its spelling is a value or the rule fails.
-/
theorem numericNode_steady (start : Nat) (float : Bool) (raw : String) : Steady n
    (match Double.read? raw with
      | some value => makeNode start (.numericLiteral value raw float)
      | none => complain .numericLiteral : Rule Tree)
    (match Double.read? raw with
      | some value => makeNode start (.numericLiteral value raw float)
      | none => complain .numericLiteral) := by
  cases Double.read? raw with
  | some value => exact steady_observe _
  | none => exact (complain_taking _).steady

theorem numericLiteral_taking : Taking n numericLiteral numericLiteral := by
  refine (steady_observe _).then fun start => (expect_taking _ _).andThen fun whole => ?_
  refine (steady_accept _).bind fun float => .ite ?_ ?_
  · refine (expect_taking _ _).steady.bind fun fraction => (steady_pure _).bind fun raw => ?_
    exact numericNode_steady start float raw
  · exact (steady_pure _).bind fun raw => numericNode_steady start float raw

/-- The text of a regular expression may be empty. The induction is on its budget, which is the same
on both sides. -/
theorem regExpText_steady (budget : Nat) : Steady n (regExpText budget) (regExpText budget) := by
  induction budget with
  | zero => exact steady_pure _
  | succ budget ih =>
    unfold regExpText
    refine (steady_observe _).bind fun _ => .ite (steady_pure _) ?_
    refine taking_consume.steady.bind fun token => ?_
    split
    · exact steady_pure _
    · refine (steady_observe _).bind fun _ => .ite ?_ ?_
      · refine taking_consume.steady.bind fun next => (steady_pure _).bind fun _ => ?_
        exact ih.bind fun _ => steady_pure _
      · exact (steady_pure _).bind fun _ => ih.bind fun _ => steady_pure _
    · exact ih.bind fun _ => steady_pure _

/-- The opening slash is taken whatever text follows, and the budget of the text is read off the
same state on both sides. -/
theorem regExpLiteral_taking : Taking n regExpLiteral regExpLiteral := by
  have node (start : Nat) (pattern : String) : Steady n
      (do
        let flags := (← consumeIf .identifier).map (·.text)
        makeNode start (.regExpLiteral pattern flags ("/" ++ pattern ++ "/" ++ flags.getD "")) :
        Rule Tree) _ :=
    (steady_consumeIf _).bind fun _ => steady_observe _
  refine (steady_observe _).then fun start => taking_consume.andThen fun _ => ?_
  refine (steady_observe _).bind fun budget => (regExpText_steady budget).bind fun text => ?_
  refine .ite ?_ ?_
  · exact (expect_taking _ _).steady.bind fun _ => node start text.1
  · exact node start text.1

/-- The opener of a comment is taken, with or without a text behind it. -/
theorem blockComment_taking : Taking n blockComment blockComment := by
  refine (steady_observe _).then fun start => taking_consume.andThen fun _ => ?_
  refine (steady_consumeIf _).bind fun content => (expect_taking _ _).steady.bind fun _ => ?_
  exact (steady_observe _).bind fun comment => trim_steady.bind fun _ => steady_pure _

theorem lineComment_taking : Taking n lineComment lineComment := by
  refine (steady_observe _).then fun start => taking_consume.andThen fun _ => ?_
  refine (steady_consumeIf _).bind fun content => (steady_observe _).bind fun comment => ?_
  refine (steady_observe _).bind fun _ => .ite ?_ ?_
  · exact (expect_taking _ _).steady.bind fun _ => trim_steady.bind fun _ => steady_pure _
  · exact trim_steady.bind fun _ => steady_pure _

end Leaves

/-!
Every rule below is shown to take a token before it calls back any of the rules `r`
that it was given, so that what it knows of them for fewer than `n` tokens tells
about itself for one token more.
-/

variable {r r' : Rules} (inner : Rules.Settled n r r') (allowIn : Bool)
include inner

section Patterns

/-- A key in square brackets has taken the bracket before its expression is parsed; any other key is
a token itself. -/
theorem propertyKey_taking :
    Taking (n + 1) (propertyKey r allowIn) (propertyKey r' allowIn) := by
  refine taking_accept_ite _ ?_ ?_
  · refine trim_steady.bind fun _ => (inner.expression _).steady.bind fun key => ?_
    exact trim_steady.bind fun _ => (expect_taking _ _).steady.bind fun _ => steady_pure _
  · refine (steady_observe _).then fun kind => ?_
    dsimp only
    split
    · exact stringLiteral_taking.andThen fun _ => steady_pure _
    · exact numericLiteral_taking.andThen fun _ => steady_pure _
    · exact (anyName_taking true).andThen fun _ => steady_pure _

/-- A default value stands behind an equals sign, and without the sign nothing is taken. -/
theorem withDefault_steady (start : Nat) (left : Tree) :
    Steady n (withDefault r allowIn start left) (withDefault r' allowIn start left) := by
  refine (steady_accept _).bind fun _ => .ite ?_ (steady_pure _)
  refine trim_steady.bind fun _ => (inner.expression _).steady.bind fun right => ?_
  exact trim_steady.bind fun _ => steady_observe _

theorem bindingWithDefault_taking :
    Taking n (bindingWithDefault r allowIn) (bindingWithDefault r' allowIn) := by
  refine (steady_observe _).then fun start => (inner.binding _).andThen fun left => ?_
  exact trim_steady.bind fun _ => withDefault_steady inner allowIn start left

theorem restOrBinding_taking :
    Taking n (restOrBinding r allowIn) (restOrBinding r' allowIn) := by
  refine (steady_observe _).then fun _ => .ite ?_ (bindingWithDefault_taking inner allowIn)
  refine (steady_observe _).then fun start => eat_taking.andThen fun _ => ?_
  exact (inner.binding _).steady.bind fun _ => steady_observe _

theorem parameters_steady : Steady n (parameters r allowIn) (parameters r' allowIn) := by
  refine (commaSeparated_steady (restOrBinding_taking inner allowIn)).bind fun params => ?_
  exact (expect_taking _ _).steady.bind fun _ => trim_steady.bind fun _ => steady_pure _

theorem arrayPattern_taking :
    Taking (n + 1) (arrayPattern r allowIn) (arrayPattern r' allowIn) := by
  refine (steady_observe _).then fun start => eat_taking.bind fun _ => ?_
  refine (commaSeparated_steady (restOrBinding_taking inner allowIn)).bind fun elements => ?_
  exact (expect_taking _ _).steady.bind fun _ => steady_observe _

/-- A member of a pattern begins with its points or its key, and in both cases has taken a token
before a rule of the grammar is called. -/
theorem patternMember_taking :
    Taking (n + 1) (patternMember r allowIn) (patternMember r' allowIn) := by
  refine (steady_observe _).then fun start => taking_accept_ite _ ?_ ?_
  · exact trim_steady.bind fun _ => (inner.binding _).steady.bind fun _ => steady_observe _
  · refine (propertyKey_taking inner allowIn).bind fun key => trim_steady.bind fun _ => ?_
    refine (steady_accept _).bind fun _ => .ite ?_ (.ite (complain_taking _).steady ?_)
    · refine trim_steady.bind fun _ => ?_
      exact (bindingWithDefault_taking inner allowIn).steady.bind fun _ => steady_observe _
    · exact (withDefault_steady inner allowIn start key.1).bind fun _ => steady_observe _

theorem objectPattern_taking :
    Taking (n + 1) (objectPattern r allowIn) (objectPattern r' allowIn) := by
  refine (steady_observe _).then fun start => eat_taking.bind fun _ => ?_
  refine (commaSeparated_steady (patternMember_taking inner allowIn).fewer).bind fun members => ?_
  exact (expect_taking _ _).steady.bind fun _ => steady_observe _

/-- A pattern calls the rules behind its opening bracket only, so it takes one token more than they
are known to need. -/
theorem binding_taking : Taking (n + 1) (binding r allowIn) (binding r' allowIn) := by
  refine (steady_observe _).then fun kind => ?_
  split
  · exact objectPattern_taking inner allowIn
  · exact arrayPattern_taking inner allowIn
  · exact anyName_taking false
  · exact anyName_taking false
  · exact complain_taking _

end Patterns

section Callables

/-- The statements of a block are parsed behind its brace, with fewer tokens left than the block
began with. -/
theorem block_taking : Taking (n + 1) (block r allowIn) (block r' allowIn) := by
  refine (steady_observe _).then fun start => (expect_taking _ _).bind fun _ => ?_
  refine trimSeparators_steady.bind fun _ => ?_
  refine (separated_steady (inner.statement _)).bind fun body => ?_
  refine (expect_taking _ _).steady.bind fun _ => (steady_observe _).bind fun node => ?_
  exact trim_steady.bind fun _ => steady_pure _

theorem parametersAndBody_steady :
    Steady n (parametersAndBody r allowIn) (parametersAndBody r' allowIn) := by
  refine trim_steady.bind fun _ => (parameters_steady inner allowIn).bind fun params => ?_
  exact (block_taking inner allowIn).below.bind fun _ => steady_pure _

omit inner in
theorem generatorStar_steady : Steady n generatorStar generatorStar :=
  (steady_accept _).bind fun _ => trim_steady.bind fun _ => steady_pure _

theorem functionDeclaration_taking (start : Nat) (isAsync : Bool) :
    Taking (n + 1) (functionDeclaration r allowIn start isAsync)
      (functionDeclaration r' allowIn start isAsync) := by
  refine eat_taking.bind fun _ => generatorStar_steady.bind fun isGenerator => ?_
  refine (anyName_taking false).steady.bind fun id => trim_steady.bind fun _ => ?_
  refine (expect_taking _ _).steady.bind fun _ => ?_
  exact (parametersAndBody_steady inner allowIn).bind fun _ => steady_observe _

theorem functionExpression_taking (start : Nat) (isAsync : Bool) :
    Taking (n + 1) (functionExpression r allowIn start isAsync)
      (functionExpression r' allowIn start isAsync) := by
  refine eat_taking.bind fun _ => generatorStar_steady.bind fun isGenerator => ?_
  refine (steady_observe _).bind fun _ => .ite ?_ ?_
  · refine (anyName_taking false).steady.bind fun id => trim_steady.bind fun _ => ?_
    refine (steady_pure _).bind fun _ => (expect_taking _ _).steady.bind fun _ => ?_
    exact (parametersAndBody_steady inner allowIn).bind fun _ => steady_observe _
  · refine (steady_pure _).bind fun _ => (expect_taking _ _).steady.bind fun _ => ?_
    exact (parametersAndBody_steady inner allowIn).bind fun _ => steady_observe _

/-- A body may be a block or an expression. As its rule is called behind the arrow, that it takes a
token need not be said here. -/
theorem arrowBody_steady : Steady n (arrowBody r allowIn) (arrowBody r' allowIn) := by
  refine (steady_observe _).bind fun _ => .ite ?_ ?_
  · exact (block_taking inner allowIn).below.bind fun _ => steady_pure _
  · exact (inner.expression _).steady.bind fun _ => steady_pure _

theorem arrowFunction_taking (start : Nat) (isAsync : Bool) :
    Taking (n + 1) (arrowFunction r allowIn start isAsync)
      (arrowFunction r' allowIn start isAsync) := by
  refine (expect_taking _ _).bind fun _ => trim_steady.bind fun _ => ?_
  refine (parameters_steady inner allowIn).bind fun params => ?_
  refine (expect_taking _ _).steady.bind fun _ => trim_steady.bind fun _ => ?_
  exact (arrowBody_steady inner allowIn).bind fun _ => steady_observe _

/-- The parameter is a token itself, and the body comes behind it. -/
theorem singleParamArrow_taking (start : Nat) (isAsync : Bool) :
    Taking (n + 1) (singleParamArrow r allowIn start isAsync)
      (singleParamArrow r' allowIn start isAsync) := by
  refine plainName_taking.bind fun param => trim_steady.bind fun _ => ?_
  refine (expect_taking _ _).steady.bind fun _ => trim_steady.bind fun _ => ?_
  exact (arrowBody_steady inner allowIn).bind fun _ => steady_observe _

theorem classHeritage_steady : Steady n (classHeritage r allowIn) (classHeritage r' allowIn) := by
  refine (steady_accept _).bind fun _ => .ite ?_ (steady_pure _)
  refine trim_steady.bind fun _ => (inner.expression _).steady.bind fun base => ?_
  exact trim_steady.bind fun _ => steady_pure _

/-- A member begins with its name, behind which a method or a value may stand. -/
theorem classMember_taking :
    Taking (n + 1) (classMember r allowIn) (classMember r' allowIn) := by
  refine (steady_observe _).then fun start => (anyName_taking true).bind fun key => ?_
  refine trim_steady.bind fun _ => (steady_accept _).bind fun _ => .ite ?_ ?_
  · exact (parametersAndBody_steady inner allowIn).bind fun _ => steady_observe _
  · refine (steady_accept _).bind fun _ => .ite ?_ ?_
    · refine trim_steady.bind fun _ => (inner.expression _).steady.bind fun value => ?_
      exact (steady_pure _).bind fun _ => steady_observe _
    · exact (steady_pure _).bind fun _ => steady_observe _

theorem classBody_taking : Taking (n + 1) (classBody r allowIn) (classBody r' allowIn) := by
  refine (steady_observe _).then fun start => (expect_taking _ _).bind fun _ => ?_
  refine trimSeparators_steady.bind fun _ => ?_
  refine (separated_steady (classMember_taking inner allowIn).fewer).bind fun members => ?_
  refine (expect_taking _ _).steady.bind fun _ => (steady_observe _).bind fun body => ?_
  exact trim_steady.bind fun _ => steady_pure _

theorem classDeclaration_taking :
    Taking (n + 1) (classDeclaration r allowIn) (classDeclaration r' allowIn) := by
  refine (steady_observe _).then fun start => eat_taking.bind fun _ => ?_
  refine (anyName_taking false).steady.bind fun id => trim_steady.bind fun _ => ?_
  refine (classHeritage_steady inner allowIn).bind fun base => ?_
  exact (classBody_taking inner allowIn).below.bind fun _ => steady_observe _

theorem classExpression_taking :
    Taking (n + 1) (classExpression r allowIn) (classExpression r' allowIn) := by
  have body (start : Nat) (id : Option Tree) : Steady n
      (do
        let base ← classHeritage r allowIn
        let body ← classBody r allowIn
        makeNode start (.classExpression id base body) : Rule Tree)
      (do
        let base ← classHeritage r' allowIn
        let body ← classBody r' allowIn
        makeNode start (.classExpression id base body)) := by
    refine (classHeritage_steady inner allowIn).bind fun base => ?_
    exact (classBody_taking inner allowIn).below.bind fun _ => steady_observe _
  refine (steady_observe _).then fun start => eat_taking.bind fun _ => ?_
  refine (steady_observe _).bind fun _ => .ite ?_ ?_
  · refine (anyName_taking false).steady.bind fun id => trim_steady.bind fun _ => ?_
    exact (steady_pure _).bind fun id => body start id
  · exact (steady_pure _).bind fun id => body start id

end Callables

section Declarations

/-- A declarator is as good as the pattern it begins with. It is called behind the word of the
declaration, so the patterns are those of the rules, not of this depth. -/
theorem declarator_taking (keyword : String) :
    Taking n (declarator r allowIn keyword) (declarator r' allowIn keyword) := by
  refine (steady_observe _).then fun start => (inner.binding _).andThen fun id => ?_
  refine trim_steady.bind fun _ => (steady_accept _).bind fun _ => .ite ?_ ?_
  · exact trim_steady.bind fun _ => (inner.expression _).steady.bind fun _ => steady_observe _
  · refine (steady_observe _).bind fun _ => .ite (steady_observe _) (complain_taking _).steady

theorem declarators_steady (keyword : String) :
    Steady n (declarators r allowIn keyword) (declarators r' allowIn keyword) :=
  commaSeparated_steady (declarator_taking inner allowIn keyword)

/-- The word `var`, `let` or `const` is taken before any declarator. -/
theorem variableDeclaration_taking :
    Taking (n + 1) (variableDeclaration r allowIn) (variableDeclaration r' allowIn) := by
  refine (steady_observe _).then fun start => eat_taking.bind fun word => ?_
  exact (declarators_steady inner allowIn _).bind fun _ => steady_observe _

theorem usingDeclaration_taking (start : Nat) (isAwait : Bool) :
    Taking (n + 1) (usingDeclaration r allowIn start isAwait)
      (usingDeclaration r' allowIn start isAwait) := by
  refine eat_taking.bind fun _ => (declarators_steady inner allowIn _).bind fun found => ?_
  exact (steady_observe _).bind fun node => trimSeparators_steady.bind fun _ => steady_pure _

theorem declaration_taking : Taking (n + 1) (declaration r allowIn) (declaration r' allowIn) := by
  refine (steady_observe _).then fun start => (steady_observe _).then fun kind => ?_
  split
  · exact usingDeclaration_taking inner allowIn start false
  · exact variableDeclaration_taking inner allowIn
  · exact variableDeclaration_taking inner allowIn
  · exact variableDeclaration_taking inner allowIn
  · exact classDeclaration_taking inner allowIn
  · exact functionDeclaration_taking inner allowIn start false
  · refine eat_taking.bind fun _ => (steady_observe _).bind fun _ => .ite ?_ ?_
    · exact (functionDeclaration_taking inner allowIn start true).below
    · exact (complain_taking _).steady
  · exact complain_taking _

end Declarations

section Modules

omit inner

theorem moduleSource_taking (complaint : Complaint) :
    Taking n (moduleSource complaint) (moduleSource complaint) :=
  (steady_observe _).then fun _ => .ite stringLiteral_taking (complain_taking _)

theorem nameBehindAs_steady (anyWord : Bool) :
    Steady n (nameBehindAs anyWord) (nameBehindAs anyWord) := by
  refine (steady_accept _).bind fun _ => .ite ?_ (steady_pure _)
  refine trim_steady.bind fun _ => (anyName_taking anyWord).steady.bind fun name => ?_
  exact trim_steady.bind fun _ => steady_pure _

theorem importSpecifier_taking : Taking n importSpecifier importSpecifier := by
  refine (steady_observe _).then fun start => (anyName_taking true).andThen fun imported => ?_
  refine trim_steady.bind fun _ => (nameBehindAs_steady false).bind fun renamed => ?_
  exact steady_observe _

theorem exportSpecifier_taking : Taking n exportSpecifier exportSpecifier := by
  refine (steady_observe _).then fun start => (anyName_taking false).andThen fun name => ?_
  refine trim_steady.bind fun _ => (nameBehindAs_steady true).bind fun renamed => ?_
  exact steady_observe _

/-- A clause is a name, a star with a name, or a list between braces. -/
theorem importClause_taking : Taking (n + 1) importClause importClause := by
  refine (steady_observe _).then fun start => (steady_observe _).then fun _ => .ite ?_ ?_
  · refine (anyName_taking false).andThen fun name => ?_
    exact (steady_observe _).bind fun _ => steady_pure _
  · refine taking_accept_ite _ ?_ ?_
    · refine trim_steady.bind fun _ => (expect_taking _ _).steady.bind fun _ => ?_
      refine trim_steady.bind fun _ => (anyName_taking false).steady.bind fun name => ?_
      exact (steady_observe _).bind fun _ => steady_pure _
    · refine (expect_taking _ _).andThen fun _ => trim_steady.bind fun _ => ?_
      refine (commaSeparated_steady importSpecifier_taking).bind fun specifiers => ?_
      refine trim_steady.bind fun _ => (expect_taking _ _).steady.bind fun _ => ?_
      exact steady_pure _

/-- The word `import` is taken, whether clauses follow or the source at once. -/
theorem importDeclaration_taking : Taking n importDeclaration importDeclaration := by
  refine (steady_observe _).then fun start => eat_taking.andThen fun _ => ?_
  refine (steady_observe _).bind fun _ => .ite ?_ ?_
  · exact stringLiteral_taking.steady.bind fun _ => steady_observe _
  · refine (commaSeparated_steady importClause_taking.fewer).bind fun clauses => ?_
    refine trim_steady.bind fun _ => (expect_taking _ _).steady.bind fun _ => ?_
    refine trim_steady.bind fun _ => (moduleSource_taking _).steady.bind fun source => ?_
    exact steady_observe _

theorem exportAll_taking (start : Nat) : Taking n (exportAll start) (exportAll start) := by
  refine eat_taking.andThen fun _ => (nameBehindAs_steady true).bind fun exported => ?_
  refine (expect_taking _ _).steady.bind fun _ => trim_steady.bind fun _ => ?_
  exact (moduleSource_taking _).steady.bind fun _ => steady_observe _

theorem exportList_taking (start : Nat) : Taking n (exportList start) (exportList start) := by
  refine eat_taking.andThen fun _ => ?_
  refine (commaSeparated_steady exportSpecifier_taking).bind fun specifiers => ?_
  refine (expect_taking _ _).steady.bind fun _ => trim_steady.bind fun _ => ?_
  refine (steady_accept _).bind fun _ => .ite ?_ ?_
  · refine trim_steady.bind fun _ => (moduleSource_taking _).steady.bind fun source => ?_
    exact (steady_pure _).bind fun _ => steady_observe _
  · exact (steady_pure _).bind fun _ => steady_observe _

include inner

/-- The word `export` is taken before the declaration behind it, which so has fewer tokens to work
with. -/
theorem exportDeclaration_taking :
    Taking (n + 1) (exportDeclaration r allowIn) (exportDeclaration r' allowIn) := by
  refine (steady_observe _).then fun start => eat_taking.bind fun _ => ?_
  refine (steady_observe _).bind fun kind => ?_
  split
  · refine eat_taking.steady.bind fun _ => ?_
    exact (inner.expression _).steady.bind fun _ => steady_observe _
  · exact (exportAll_taking start).steady
  · exact (exportList_taking start).steady
  · exact (declaration_taking inner allowIn).below.bind fun _ => steady_observe _

end Modules

section Control

/-- The head of a statement stands between parentheses, and its expression is parsed behind the
first. -/
theorem parenthesized_steady (head : Head) :
    Steady n (parenthesized r head) (parenthesized r' head) := by
  refine (expect_taking _ _).steady.bind fun _ => trim_steady.bind fun _ => ?_
  refine (inner.expression _).steady.bind fun test => trim_steady.bind fun _ => ?_
  exact (expect_taking _ _).steady.bind fun _ => trim_steady.bind fun _ => steady_pure _

/-- A branch that is no block is a semicolon or a statement by the rules; in each case a token is
taken. -/
theorem branch_taking : Taking n (branch r allowIn) (branch r' allowIn) := by
  refine (steady_observe _).then fun _ => .ite (block_taking inner allowIn).fewer ?_
  refine (steady_observe _).then fun start => ?_
  cases n with
  | zero => exact fun s short => absurd short (Nat.not_lt_zero _)
  | succ n => exact taking_accept_ite _ (steady_observe _) (inner.statement _)

/-- The word `if` is taken before the test. The alternative after `else if` is one of the rules
again, which is why it is among them. -/
theorem ifStatement_taking : Taking (n + 1) (ifStatement r allowIn) (ifStatement r' allowIn) := by
  refine (steady_observe _).then fun start => eat_taking.bind fun _ => ?_
  refine (parenthesized_steady inner _).bind fun test => ?_
  refine (branch_taking inner allowIn).steady.bind fun consequent => trim_steady.bind fun _ => ?_
  refine (steady_accept _).bind fun _ => .ite ?_ ?_
  · refine trim_steady.bind fun _ => (steady_observe _).bind fun _ => .ite ?_ ?_
    · refine (inner.ifStatement _).steady.bind fun alternate => ?_
      exact (steady_pure _).bind fun _ => steady_observe _
    · refine (branch_taking inner allowIn).steady.bind fun alternate => ?_
      exact (steady_pure _).bind fun _ => steady_observe _
  · exact (steady_pure _).bind fun _ => steady_observe _

theorem withStatement_taking :
    Taking (n + 1) (withStatement r allowIn) (withStatement r' allowIn) := by
  refine (steady_observe _).then fun start => eat_taking.bind fun _ => ?_
  refine (parenthesized_steady inner _).bind fun object => ?_
  exact (branch_taking inner allowIn).steady.bind fun _ => steady_observe _

theorem whileStatement_taking :
    Taking (n + 1) (whileStatement r allowIn) (whileStatement r' allowIn) := by
  refine (steady_observe _).then fun start => eat_taking.bind fun _ => ?_
  refine (parenthesized_steady inner _).bind fun test => ?_
  exact (branch_taking inner allowIn).steady.bind fun _ => steady_observe _

theorem doWhileStatement_taking :
    Taking (n + 1) (doWhileStatement r allowIn) (doWhileStatement r' allowIn) := by
  refine (steady_observe _).then fun start => eat_taking.bind fun _ => ?_
  refine (block_taking inner allowIn).below.bind fun body => ?_
  refine (expect_taking _ _).steady.bind fun _ => trim_steady.bind fun _ => ?_
  exact (inner.expression _).steady.bind fun _ => steady_observe _

theorem catchParam_steady : Steady n (catchParam r allowIn) (catchParam r' allowIn) := by
  refine (steady_accept _).bind fun _ => .ite ?_ (steady_pure _)
  refine trim_steady.bind fun _ => (inner.binding _).steady.bind fun param => ?_
  refine trim_steady.bind fun _ => (expect_taking _ _).steady.bind fun _ => ?_
  exact trim_steady.bind fun _ => steady_pure _

theorem catchClause_steady : Steady n (catchClause r allowIn) (catchClause r' allowIn) := by
  refine (steady_observe _).bind fun _ => .ite ?_ (steady_pure _)
  refine (steady_observe _).bind fun start => eat_taking.steady.bind fun _ => ?_
  refine (catchParam_steady inner allowIn).bind fun param => ?_
  exact (block_taking inner allowIn).below.bind fun _ => (steady_observe _).map

theorem finalizer_steady : Steady n (finalizer r allowIn) (finalizer r' allowIn) := by
  refine (steady_accept _).bind fun _ => .ite ?_ (steady_pure _)
  exact trim_steady.bind fun _ => (block_taking inner allowIn).below.map

/-- The word `try` is taken before the block; the parts behind it may all be missing, and then the
rule fails. -/
theorem tryStatement_taking :
    Taking (n + 1) (tryStatement r allowIn) (tryStatement r' allowIn) := by
  refine (steady_observe _).then fun start => eat_taking.bind fun _ => ?_
  refine (block_taking inner allowIn).below.bind fun body => ?_
  refine (catchClause_steady inner allowIn).bind fun handler => ?_
  refine (finalizer_steady inner allowIn).bind fun finalizer => ?_
  exact .ite (complain_taking _).steady (steady_observe _)

theorem caseTest_taking : Taking (n + 1) (caseTest r allowIn) (caseTest r' allowIn) := by
  refine taking_accept_ite _ ?_ (taking_accept_ite _ ?_ (complain_taking _))
  · refine trim_steady.bind fun _ => (inner.expression _).steady.bind fun test => ?_
    exact (expect_taking _ _).steady.bind fun _ => steady_pure _
  · exact trim_steady.bind fun _ => (expect_taking _ _).steady.bind fun _ => steady_pure _

theorem switchCase_taking : Taking (n + 1) (switchCase r allowIn) (switchCase r' allowIn) := by
  refine (steady_observe _).then fun start => (caseTest_taking inner allowIn).bind fun test => ?_
  refine trimSeparators_steady.bind fun _ => ?_
  exact (separated_steady (inner.statement _)).bind fun _ => steady_observe _

/-- The cases take a token each, so that the list of them needs nothing between two cases. -/
theorem switchStatement_taking :
    Taking (n + 1) (switchStatement r allowIn) (switchStatement r' allowIn) := by
  refine (steady_observe _).then fun start => eat_taking.bind fun _ => ?_
  refine (parenthesized_steady inner _).bind fun discriminant => ?_
  refine (expect_taking _ _).steady.bind fun _ => trim_steady.bind fun _ => ?_
  refine (steady_items (switchCase_taking inner allowIn).fewer (steady_pure _)).bind fun cases => ?_
  exact (expect_taking _ _).steady.bind fun _ => steady_observe _

theorem forBody_steady : Steady n (forBody r allowIn) (forBody r' allowIn) := by
  refine trim_steady.bind fun _ => (expect_taking _ _).steady.bind fun _ => ?_
  exact trim_steady.bind fun _ => (branch_taking inner allowIn).steady

theorem forOf_steady (start : Nat) (left : Tree) (isAwait : Bool) :
    Steady n (forOf r allowIn start left isAwait) (forOf r' allowIn start left isAwait) := by
  refine (expect_taking _ _).steady.bind fun _ => trim_steady.bind fun _ => ?_
  refine (inner.expression _).steady.bind fun right => ?_
  exact (forBody_steady inner allowIn).bind fun _ => steady_observe _

theorem forIn_steady (start : Nat) (left : Tree) :
    Steady n (forIn r allowIn start left) (forIn r' allowIn start left) := by
  refine eat_taking.steady.bind fun _ => (inner.expression _).steady.bind fun right => ?_
  exact (forBody_steady inner allowIn).bind fun _ => steady_observe _

theorem forClause_steady (stop : TokenKind) :
    Steady n (forClause r allowIn stop) (forClause r' allowIn stop) :=
  (steady_observe _).bind fun _ => .ite (steady_pure _) (inner.expression _).steady.map

theorem forThree_steady (start : Nat) (init : Option Tree) :
    Steady n (forThree r allowIn start init) (forThree r' allowIn start init) := by
  refine (expect_taking _ _).steady.bind fun _ => trim_steady.bind fun _ => ?_
  refine (forClause_steady inner allowIn _).bind fun test => trim_steady.bind fun _ => ?_
  refine (expect_taking _ _).steady.bind fun _ => trim_steady.bind fun _ => ?_
  refine (forClause_steady inner allowIn _).bind fun update => ?_
  exact (forBody_steady inner allowIn).bind fun _ => steady_observe _

/-- The first clause of a header is a declaration or an expression without `in`. It may be either on
both sides alike, since the first token decides. -/
theorem forInit_steady : Steady n (forInit r) (forInit r') := by
  refine (steady_observe _).bind fun _ => .ite ?_ (inner.expression _).steady
  exact (variableDeclaration_taking inner false).below

/-- The word `for` and the parenthesis are taken before the header, and the three loops that a
header can begin are chosen by tokens that both sides see. -/
theorem forStatement_taking :
    Taking (n + 1) (forStatement r allowIn) (forStatement r' allowIn) := by
  refine (steady_observe _).then fun start => eat_taking.bind fun _ => ?_
  refine (steady_accept _).bind fun isAwait => trim_steady.bind fun _ => ?_
  refine (expect_taking _ _).steady.bind fun _ => trim_steady.bind fun _ => ?_
  refine (steady_observe _).bind fun _ => .ite (forThree_steady inner allowIn start none) ?_
  refine (forInit_steady inner).bind fun init => trim_steady.bind fun _ => ?_
  refine (steady_observe _).bind fun _ => .ite (forOf_steady inner allowIn start init isAwait) ?_
  refine (steady_observe _).bind fun _ => .ite (forIn_steady inner allowIn start init) ?_
  exact forThree_steady inner allowIn start (some init)

end Control

section Expressions

/-- A part of a template is its text, which is a token, or an interpolation, which begins with one.
-/
theorem templatePart_taking : Taking (n + 1) (templatePart r) (templatePart r') := by
  refine (steady_observe _).then fun start => taking_consumeIf _ ?_ ?_
  · intro token
    refine (steady_observe _).bind fun tail => (steady_observe _).bind fun segment => ?_
    exact steady_pure _
  · refine taking_accept_ite _ ?_ (complain_taking _)
    refine trim_steady.bind fun _ => (inner.expression _).steady.bind fun _ => ?_
    refine trim_steady.bind fun _ => (expect_taking _ _).steady.bind fun _ => ?_
    exact steady_pure _

/-- The opening back quote is taken, and each part takes a token. -/
theorem templateLiteral_taking : Taking (n + 1) (templateLiteral r) (templateLiteral r') := by
  refine (steady_observe _).then fun start => (expect_taking _ _).bind fun _ => ?_
  refine (steady_items (templatePart_taking inner).fewer (steady_pure _)).bind fun parts => ?_
  exact (expect_taking _ _).steady.bind fun _ => steady_observe _

theorem spreadOrExpression_taking :
    Taking n (spreadOrExpression r allowIn) (spreadOrExpression r' allowIn) := by
  refine (steady_observe _).then fun _ => .ite ?_ (inner.expression _)
  refine (steady_observe _).then fun start => eat_taking.andThen fun _ => ?_
  exact (inner.expression _).steady.bind fun _ => steady_observe _

theorem arrayExpression_taking : Taking (n + 1) (arrayExpression r) (arrayExpression r') := by
  refine (steady_observe _).then fun start => eat_taking.bind fun _ => ?_
  refine (commaSeparated_steady (spreadOrExpression_taking inner true)).bind fun elements => ?_
  exact (expect_taking _ _).steady.bind fun _ => steady_observe _

/-- A member of an object begins with its points or its key. -/
theorem objectMember_taking : Taking (n + 1) (objectMember r) (objectMember r') := by
  refine (steady_observe _).then fun start => taking_accept_ite _ ?_ ?_
  · exact trim_steady.bind fun _ => (inner.expression _).steady.bind fun _ => steady_observe _
  · refine (propertyKey_taking inner true).bind fun key => trim_steady.bind fun _ => ?_
    refine (steady_accept _).bind fun _ => .ite ?_ ?_
    · exact trim_steady.bind fun _ => (inner.expression _).steady.bind fun _ => steady_observe _
    · refine (steady_accept _).bind fun _ => .ite ?_ ?_
      · exact (parametersAndBody_steady inner true).bind fun _ => steady_observe _
      · exact .ite (complain_taking _).steady (steady_observe _)

theorem objectExpression_taking : Taking (n + 1) (objectExpression r) (objectExpression r') := by
  refine (steady_observe _).then fun start => eat_taking.bind fun _ => ?_
  refine (commaSeparated_steady (objectMember_taking inner).fewer).bind fun properties => ?_
  refine trim_steady.bind fun _ => (expect_taking _ _).steady.bind fun _ => ?_
  exact steady_observe _

theorem group_taking : Taking (n + 1) (group r) (group r') := by
  refine (steady_observe _).then fun start => eat_taking.bind fun _ => ?_
  refine (inner.expression _).steady.bind fun first => trim_steady.bind fun _ => ?_
  refine (steady_accept _).bind fun _ => .ite (steady_pure _) ?_
  refine (expect_taking _ _).steady.bind fun _ => trim_steady.bind fun _ => ?_
  refine (commaSeparated_steady (inner.expression _)).bind fun others => ?_
  exact (expect_taking _ _).steady.bind fun _ => steady_observe _

omit inner in
theorem jumpLabel_taking : Taking n jumpLabel jumpLabel := by
  refine eat_taking.andThen fun _ => (steady_observe _).bind fun _ => .ite ?_ (steady_pure _)
  exact (anyName_taking false).steady.bind fun _ => steady_pure _

omit inner in
theorem nameOrUpdate_taking (start : Nat) : Taking n (nameOrUpdate start) (nameOrUpdate start) := by
  refine (anyName_taking false).andThen fun argument => trim_steady.bind fun _ => ?_
  refine (steady_observe _).bind fun _ => .ite ?_ (steady_pure _)
  exact taking_consume.steady.bind fun _ => steady_observe _

omit inner in
theorem leadingUpdate_taking (start : Nat) :
    Taking n (leadingUpdate start) (leadingUpdate start) :=
  eat_taking.andThen fun _ => (anyName_taking false).steady.bind fun _ => steady_observe _

theorem asyncExpression_taking (start : Nat) :
    Taking (n + 1) (asyncExpression r allowIn start) (asyncExpression r' allowIn start) := by
  refine eat_taking.bind fun _ => (steady_observe _).bind fun _ => .ite ?_ ?_
  · exact (arrowFunction_taking inner allowIn start true).below
  refine (steady_observe _).bind fun _ => .ite ?_ ?_
  · exact (singleParamArrow_taking inner allowIn start true).below
  refine (steady_observe _).bind fun _ => .ite ?_ (complain_taking _).steady
  exact (functionExpression_taking inner allowIn start true).below

theorem unaryExpression_taking (start : Nat) :
    Taking (n + 1) (unaryExpression r allowIn start) (unaryExpression r' allowIn start) :=
  eat_taking.bind fun _ => (inner.expression _).steady.bind fun _ => steady_observe _

/-- Every expression begins with a token that its sort takes. The cases are those of the first
token. -/
theorem primary_taking : Taking (n + 1) (primary r allowIn) (primary r' allowIn) := by
  refine (steady_observe _).then fun start => (steady_observe _).then fun kind => ?_
  split
  · exact asyncExpression_taking inner allowIn start
  · exact functionExpression_taking inner allowIn start false
  · exact classExpression_taking inner allowIn
  · exact lineComment_taking
  · exact stringLiteral_taking
  · exact templateLiteral_taking inner
  · exact eat_taking.bind fun _ => (inner.expression _).steady.bind fun _ => steady_observe _
  · exact eat_taking.bind fun _ => (inner.expression _).steady.bind fun _ => steady_observe _
  · exact objectExpression_taking inner
  · exact arrayExpression_taking inner
  · refine (steady_observe _).then fun _ => .ite ?_ (group_taking inner)
    exact arrowFunction_taking inner allowIn start false
  · exact regExpLiteral_taking
  · exact numericLiteral_taking
  · exact jumpLabel_taking.andThen fun _ => steady_observe _
  · exact jumpLabel_taking.andThen fun _ => steady_observe _
  · exact nameOrUpdate_taking start
  · refine (steady_observe _).then fun _ => .ite ?_ (nameOrUpdate_taking start)
    exact singleParamArrow_taking inner allowIn start false
  · exact unaryExpression_taking inner allowIn start
  · exact unaryExpression_taking inner allowIn start
  · exact unaryExpression_taking inner allowIn start
  · exact unaryExpression_taking inner allowIn start
  · exact unaryExpression_taking inner allowIn start
  · exact leadingUpdate_taking start
  · exact leadingUpdate_taking start
  · exact complain_taking _

omit inner in
theorem namedMember_taking (start : Nat) (object : Tree) (optional : Bool) :
    Taking n (namedMember start object optional) (namedMember start object optional) :=
  (anyName_taking true).andThen fun _ => steady_observe _

theorem computedMember_taking (start : Nat) (object : Tree) (optional : Bool) :
    Taking (n + 1) (computedMember r start object optional)
      (computedMember r' start object optional) := by
  refine eat_taking.bind fun _ => (inner.expression _).steady.bind fun member => ?_
  refine trim_steady.bind fun _ => (expect_taking _ _).steady.bind fun _ => ?_
  exact steady_observe _

theorem call_taking (start : Nat) (callee : Tree) (optional : Bool) :
    Taking (n + 1) (call r start callee optional) (call r' start callee optional) := by
  refine eat_taking.bind fun _ => ?_
  refine (commaSeparated_steady (spreadOrExpression_taking inner true)).bind fun arguments => ?_
  exact (expect_taking _ _).steady.bind fun _ => steady_observe _

/-- What may follow an expression takes a token if it is there, so repeating it comes to an end. -/
theorem suffix_steady (start : Nat) (expression : Tree) :
    Steady n (suffix? r start expression) (suffix? r' start expression) := by
  refine (steady_observe _).bind fun kind => ?_
  split
  · exact eat_taking.steady.bind fun _ => (namedMember_taking start expression false).steady.map
  · exact (computedMember_taking inner start expression false).below.map
  · exact (call_taking inner start expression false).below.map
  · refine eat_taking.steady.bind fun _ => (steady_observe _).bind fun kind => ?_
    split
    · exact (computedMember_taking inner start expression true).below.map
    · exact (call_taking inner start expression true).below.map
    · exact (namedMember_taking start expression true).steady.map
  · exact (templateLiteral_taking inner).below.bind fun _ => (steady_observe _).map
  · exact steady_pure _

theorem suffixesWithin_steady (start budget : Nat) (expression : Tree) :
    Steady n (suffixesWithin r start budget expression)
      (suffixesWithin r' start budget expression) := by
  induction budget generalizing expression with
  | zero => exact steady_pure _
  | succ budget ih =>
    refine (suffix_steady inner start expression).bind fun found => ?_
    cases found with
    | none => exact steady_pure _
    | some longer => exact trim_steady.bind fun _ => ih longer

/-- The budget for what follows an expression is read behind the expression, where both sides have
come to the same state. -/
theorem memberOrCall_taking :
    Taking (n + 1) (memberOrCall r allowIn) (memberOrCall r' allowIn) := by
  refine (steady_observe _).then fun start => (primary_taking inner allowIn).bind fun first => ?_
  refine trim_steady.bind fun _ => (steady_observe _).bind fun budget => ?_
  exact suffixesWithin_steady inner start budget first

/-- A layer takes what its operand takes. The right operand is a whole expression, parsed behind the
operator. -/
theorem binary_taking (layer : OperatorLayer) {operand operand' : Rule Tree}
    (taking : Taking (n + 1) operand operand') :
    Taking (n + 1) (binary r allowIn layer operand) (binary r' allowIn layer operand') := by
  refine (steady_observe _).then fun start => taking.bind fun left => ?_
  refine trim_steady.bind fun _ => (steady_observe _).bind fun _ => .ite ?_ (steady_pure _)
  refine eat_taking.steady.bind fun _ => ?_
  exact (inner.expression _).steady.bind fun _ => steady_observe _

theorem additive_taking : Taking (n + 1) (additive r allowIn) (additive r' allowIn) :=
  binary_taking inner allowIn _ (binary_taking inner allowIn _
    (binary_taking inner allowIn _ (memberOrCall_taking inner allowIn)))

/-- A condition takes what its test takes, and both branches stand behind the question mark. -/
theorem conditional_taking : Taking (n + 1) (conditional r allowIn) (conditional r' allowIn) := by
  refine (steady_observe _).then fun start => (additive_taking inner allowIn).bind fun test => ?_
  refine trim_steady.bind fun _ => (steady_accept _).bind fun _ => .ite ?_ (steady_pure _)
  refine trim_steady.bind fun _ => (inner.expression _).steady.bind fun consequent => ?_
  refine trim_steady.bind fun _ => (expect_taking _ _).steady.bind fun _ => ?_
  exact trim_steady.bind fun _ => (inner.expression _).steady.bind fun _ => steady_observe _

/-- An expression takes what stands on its left. With one more token allowed than the rules know of,
it is the rule for expressions at the next depth. -/
theorem expression_taking : Taking (n + 1) (expression r allowIn) (expression r' allowIn) := by
  refine (steady_observe _).then fun start => (conditional_taking inner allowIn).bind fun left => ?_
  refine trim_steady.bind fun _ => (steady_observe _).bind fun _ => .ite ?_ (steady_pure _)
  refine eat_taking.steady.bind fun _ => (inner.expression _).steady.bind fun value => ?_
  exact trim_steady.bind fun _ => steady_observe _

end Expressions

section Statements

theorem expressionStatement_taking :
    Taking (n + 1) (expressionStatement r allowIn) (expressionStatement r' allowIn) :=
  (steady_observe _).then fun _ => (expression_taking inner allowIn).andThen fun _ =>
    steady_observe _

theorem returnStatement_taking :
    Taking (n + 1) (returnStatement r allowIn) (returnStatement r' allowIn) := by
  refine (steady_observe _).then fun start => eat_taking.bind fun _ => ?_
  refine (steady_observe _).bind fun _ => .ite (steady_observe _) ?_
  exact (inner.expression _).steady.bind fun _ => steady_observe _

theorem throwStatement_taking :
    Taking (n + 1) (throwStatement r allowIn) (throwStatement r' allowIn) := by
  refine (steady_observe _).then fun start => eat_taking.bind fun _ => ?_
  exact (inner.expression _).steady.bind fun _ => steady_observe _

theorem labeledStatement_taking :
    Taking (n + 1) (labeledStatement r allowIn) (labeledStatement r' allowIn) := by
  refine (steady_observe _).then fun start => plainName_taking.bind fun label => ?_
  refine trim_steady.bind fun _ => (expect_taking _ _).steady.bind fun _ => ?_
  exact trim_steady.bind fun _ => (inner.statement _).steady.bind fun _ => steady_observe _

theorem awaitUsing_taking : Taking (n + 1) (awaitUsing r allowIn) (awaitUsing r' allowIn) :=
  (steady_observe _).then fun start => eat_taking.bind fun _ =>
    (usingDeclaration_taking inner allowIn start true).below

/-- Every statement takes a token before it calls the rules, so one more token may be left than they
are known for. The cases are those of the first token. -/
theorem bareStatement_taking :
    Taking (n + 1) (bareStatement r allowIn) (bareStatement r' allowIn) := by
  have plain := expressionStatement_taking inner allowIn
  have declared := declaration_taking inner allowIn
  refine (steady_observe _).then fun kind => ?_
  split
  · exact declared
  · exact declared
  · exact declared
  · exact declared
  · exact declared
  · exact declared
  · exact (steady_observe _).then fun _ => .ite declared plain
  · exact ifStatement_taking inner allowIn
  · exact withStatement_taking inner allowIn
  · exact tryStatement_taking inner allowIn
  · exact forStatement_taking inner allowIn
  · exact doWhileStatement_taking inner allowIn
  · exact whileStatement_taking inner allowIn
  · exact switchStatement_taking inner allowIn
  · exact blockComment_taking
  · exact lineComment_taking
  · exact (steady_modifyProperties _).then fun _ => importDeclaration_taking
  · exact (steady_modifyProperties _).then fun _ => exportDeclaration_taking inner allowIn
  · exact returnStatement_taking inner allowIn
  · exact throwStatement_taking inner allowIn
  · exact block_taking inner allowIn
  · exact (steady_observe _).then fun _ => .ite (awaitUsing_taking inner allowIn) plain
  · exact (steady_observe _).then fun _ => .ite (labeledStatement_taking inner allowIn) plain
  · exact plain

/-- With the layout around it a statement still takes what it takes without. -/
theorem statement_taking : Taking (n + 1) (statement r allowIn) (statement r' allowIn) := by
  refine trim_steady.then fun _ => (bareStatement_taking inner allowIn).andThen fun node => ?_
  exact trimSeparators_steady.bind fun _ => steady_pure _

end Statements

/-- One unfolding knows one token more. -/
theorem Rules.Settled.unfold : Rules.Settled (n + 1) r.unfold r'.unfold where
  statement := statement_taking inner
  expression := expression_taking inner
  binding := binding_taking inner
  ifStatement := ifStatement_taking inner

omit inner

/-- Rules that are unfolded `n` times do not depend on the rules that they were
unfolded from, as long as fewer than `n` tokens are left. -/
theorem Rules.settled_unfolded (r r' : Rules) (n : Nat) :
    Rules.Settled n (r.unfolded n) (r'.unfolded n) := by
  induction n with
  | zero =>
    refine ⟨?_, ?_, ?_, ?_⟩ <;> exact fun _ s short => absurd short (Nat.not_lt_zero _)
  | succ n ih => exact ih.unfold

end ScriptFront.Script
