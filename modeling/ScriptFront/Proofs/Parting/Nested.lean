import ScriptFront.Proofs.Parting.Inside

namespace ScriptFront.Script

open ScriptFront.Parser

variable {ts : List (Token TokenKind)}

/-- Rules that keep the statements of all lists apart, at whatever depth they stand in what is
found. A statement is found between two places as well, from which its neighbours are told. -/
structure Rules.Keeps (ts : List (Token TokenKind)) (r : Rules) : Prop where
  measured : Measured ts
  settled : ∀ n, Rules.Settled n r r
  bounded : ∀ allowIn i, Lands ts i (r.statement allowIn) fun t j => Bounded ts i j t
  statement : ∀ allowIn, Finds ts (r.statement allowIn) (Neat ts)
  expression : ∀ allowIn, Finds ts (r.expression allowIn) (Neat ts)
  binding : ∀ allowIn, Finds ts (r.binding allowIn) (Neat ts)
  ifStatement : ∀ allowIn, Finds ts (r.ifStatement allowIn) (Neat ts)

variable {r : Rules} (keeps : r.Keeps ts) (allowIn : Bool)
include keeps

section Patterns

theorem propertyKey_neat : Finds ts (propertyKey r allowIn) fun key => Neat ts key.1 := by
  refine .accept (.trim (.bind (keeps.expression allowIn) fun key neat => ?_)) (.seen fun kind => ?_)
  · exact .trim (.expect fun _ => .pure neat)
  · split
    · exact .bind stringLiteral_neat fun key neat => .pure neat
    · exact .bind numericLiteral_neat fun key neat => .pure neat
    · exact .bind (anyName_neat true) fun key neat => .pure neat

theorem withDefault_neat {start : Nat} {left : Tree} (neatLeft : Neat ts left) :
    Finds ts (withDefault r allowIn start left) (Neat ts) := by
  refine .accept (.trim (.bind (keeps.expression allowIn) fun right neatRight => ?_)) (.pure neatLeft)
  exact .trim (.plain rfl ⟨neatLeft, neatRight⟩)

theorem bindingWithDefault_neat : Finds ts (bindingWithDefault r allowIn) (Neat ts) :=
  .mark fun _ => .bind (keeps.binding allowIn) fun _ neat => .trim (withDefault_neat keeps allowIn neat)

theorem restOrBinding_neat : Finds ts (restOrBinding r allowIn) (Neat ts) := by
  refine .test (.mark fun _ => .eat fun _ => ?_) (bindingWithDefault_neat keeps allowIn)
  exact .bind (keeps.binding allowIn) fun _ neat => .plain rfl neat

theorem parameters_neat : Finds ts (parameters r allowIn) fun params => ∀ t ∈ params, Neat ts t := by
  refine .bind (.commaSeparated (restOrBinding_neat keeps allowIn)) fun params neat => ?_
  exact .expect fun _ => .trim (.pure neat)

theorem arrayPattern_neat : Finds ts (arrayPattern r allowIn) (Neat ts) := by
  refine .mark fun _ => .eat fun _ => ?_
  refine .bind (.commaSeparated (restOrBinding_neat keeps allowIn)) fun elements neat => ?_
  exact .expect fun _ => .plain rfl neat

theorem patternMember_neat : Finds ts (patternMember r allowIn) (Neat ts) := by
  refine .mark fun start => .accept (.trim (.bind (keeps.binding allowIn) fun _ neat => ?_)) ?_
  · exact .plain rfl neat
  refine .bind (propertyKey_neat keeps allowIn) fun ⟨key, computed⟩ neatKey => ?_
  refine .trim (.accept (.trim (.bind (bindingWithDefault_neat keeps allowIn) fun value neat => ?_)) ?_)
  · exact .plain rfl ⟨neatKey, neat, trivial, trivial⟩
  · refine .ite (.complain _) (.bind (withDefault_neat keeps allowIn neatKey) fun value neat => ?_)
    exact .plain rfl ⟨neatKey, neat, trivial, trivial⟩

theorem objectPattern_neat : Finds ts (objectPattern r allowIn) (Neat ts) := by
  refine .mark fun _ => .eat fun _ => ?_
  refine .bind (.commaSeparated (patternMember_neat keeps allowIn)) fun properties neat => ?_
  exact .expect fun _ => .plain rfl neat

theorem binding_neat : Finds ts (binding r allowIn) (Neat ts) := by
  refine .seen fun kind => ?_
  split
  · exact objectPattern_neat keeps allowIn
  · exact arrayPattern_neat keeps allowIn
  · exact anyName_neat false
  · exact anyName_neat false
  · exact .complain _

end Patterns

section Callables

/-- A list of statements is kept apart, and so are the lists inside it. -/
theorem statements_neat {stop : List TokenKind} :
    Finds ts (separated stop (r.statement allowIn)) fun body =>
      body.IsChain (Parted ts) ∧ ∀ t ∈ body, Neat ts t := by
  have inside : Finds ts (separated stop (r.statement allowIn)) fun body => ∀ t ∈ body, Neat ts t :=
    .separated (keeps.statement allowIn)
  intro i
  apply ((items_parted keeps.measured (keeps.bounded allowIn) i).and (inside i)).mono
  exact fun _ _ _ ⟨⟨chain, _⟩, neat⟩ => ⟨chain, neat⟩

/-- The statements between braces are kept apart, and each is neat inside. Blocks, cases and whole
programs are the three constructs that list statements. -/
theorem block_neat : Finds ts (block r allowIn) (Neat ts) := by
  refine .mark fun _ => .expect fun _ => .skip (fun _ => trimSeparators_steady) fun _ => ?_
  refine .bind (statements_neat keeps allowIn) fun body ⟨chain, neat⟩ => ?_
  exact .expect fun _ => .bind (.node chain neat) fun _ neat => .trim (.pure neat)

theorem parametersAndBody_neat : Finds ts (parametersAndBody r allowIn) fun parts =>
    (∀ t ∈ parts.1, Neat ts t) ∧ Neat ts parts.2 := by
  refine .trim (.bind (parameters_neat keeps allowIn) fun params neatParams => ?_)
  exact .bind (block_neat keeps allowIn) fun body neatBody => .pure ⟨neatParams, neatBody⟩

theorem functionDeclaration_neat (start : Nat) (isAsync : Bool) :
    Finds ts (functionDeclaration r allowIn start isAsync) (Neat ts) := by
  refine .eat fun _ => .skip (fun _ => generatorStar_steady) fun _ => ?_
  refine .bind (anyName_neat false) fun id neatId => .trim (.expect fun _ => ?_)
  refine .bind (parametersAndBody_neat keeps allowIn) fun _ ⟨neatParams, neatBody⟩ => ?_
  exact .plain rfl ⟨neatId, neatParams, neatBody, trivial, trivial⟩

theorem functionTail_neat (start : Nat) (isAsync isGenerator : Bool) {id : Option Tree}
    (neatId : ∀ t ∈ id, Neat ts t) : Finds ts
      (do
        let _ ← expect .openParen .functionParen
        let (params, body) ← parametersAndBody r allowIn
        makeNode start (.functionExpression id params body isAsync isGenerator) : Rule Tree)
      (Neat ts) := by
  refine .expect fun _ => .bind (parametersAndBody_neat keeps allowIn) fun _ ⟨params, body⟩ => ?_
  exact .plain rfl ⟨neatId, params, body, trivial, trivial⟩

theorem functionExpression_neat (start : Nat) (isAsync : Bool) :
    Finds ts (functionExpression r allowIn start isAsync) (Neat ts) := by
  have rest (isGenerator : Bool) {id : Option Tree} (neatId : ∀ t ∈ id, Neat ts t) :=
    functionTail_neat keeps allowIn start isAsync isGenerator neatId
  refine .eat fun _ => .skip (fun _ => generatorStar_steady) fun isGenerator => .test ?_ ?_
  · exact .bind (anyName_neat false) fun id neat => .trim (rest isGenerator (neat_some neat))
  · exact rest isGenerator nofun

theorem arrowBody_neat : Finds ts (arrowBody r allowIn) fun body => Neat ts body.1 :=
  .test (.bind (block_neat keeps allowIn) fun _ neat => .pure neat)
    (.bind (keeps.expression allowIn) fun _ neat => .pure neat)

theorem arrowFunction_neat (start : Nat) (isAsync : Bool) :
    Finds ts (arrowFunction r allowIn start isAsync) (Neat ts) := by
  refine .expect fun _ => .trim (.bind (parameters_neat keeps allowIn) fun params neatParams => ?_)
  refine .expect fun _ => .trim (.bind (arrowBody_neat keeps allowIn) fun body neatBody => ?_)
  exact .plain rfl ⟨neatParams, neatBody, trivial, trivial⟩

theorem singleParamArrow_neat (start : Nat) (isAsync : Bool) :
    Finds ts (singleParamArrow r allowIn start isAsync) (Neat ts) := by
  refine .bind plainName_neat fun param neatParam => .trim (.expect fun _ => .trim ?_)
  refine .bind (arrowBody_neat keeps allowIn) fun body neatBody => ?_
  exact .plain rfl ⟨List.forall_mem_singleton.mpr neatParam, neatBody, trivial, trivial⟩

theorem classHeritage_neat : Finds ts (classHeritage r allowIn) fun base => ∀ t ∈ base, Neat ts t := by
  refine .accept (.trim (.bind (keeps.expression allowIn) fun base neat => .trim ?_)) (.pure nofun)
  exact .pure (neat_some neat)

theorem classMember_neat : Finds ts (classMember r allowIn) (Neat ts) := by
  refine .mark fun _ => .bind (anyName_neat true) fun key neatKey => .trim (.accept ?_ ?_)
  · refine .bind (parametersAndBody_neat keeps allowIn) fun _ ⟨neatParams, neatBody⟩ => ?_
    exact .plain rfl ⟨neatKey, neatParams, neatBody⟩
  · refine .accept (.trim (.bind (keeps.expression allowIn) fun value neat => ?_)) ?_
    · exact .plain rfl ⟨neatKey, neat_some neat⟩
    · exact .plain rfl ⟨neatKey, nofun⟩

theorem classBody_neat : Finds ts (classBody r allowIn) (Neat ts) := by
  refine .mark fun _ => .expect fun _ => .skip (fun _ => trimSeparators_steady) fun _ => ?_
  refine .bind (.separated (classMember_neat keeps allowIn)) fun members neat => .expect fun _ => ?_
  exact .bind (.plain rfl neat) fun _ neat => .trim (.pure neat)

theorem classDeclaration_neat : Finds ts (classDeclaration r allowIn) (Neat ts) := by
  refine .mark fun _ => .eat fun _ => .bind (anyName_neat false) fun id neatId => .trim ?_
  refine .bind (classHeritage_neat keeps allowIn) fun base neatBase => ?_
  exact .bind (classBody_neat keeps allowIn) fun body neatBody => .plain rfl ⟨neatId, neatBase, neatBody⟩

theorem classExpression_neat : Finds ts (classExpression r allowIn) (Neat ts) := by
  have rest (start : Nat) {id : Option Tree} (neatId : ∀ t ∈ id, Neat ts t) : Finds ts
      (do
        let base ← classHeritage r allowIn
        let body ← classBody r allowIn
        makeNode start (.classExpression id base body) : Rule Tree) (Neat ts) := by
    refine .bind (classHeritage_neat keeps allowIn) fun base neatBase => ?_
    exact .bind (classBody_neat keeps allowIn) fun _ neatBody => .plain rfl ⟨neatId, neatBase, neatBody⟩
  refine .mark fun start => .eat fun _ => .test ?_ (rest start nofun)
  exact .bind (anyName_neat false) fun id neat => .trim (rest start (neat_some neat))

end Callables

section Expressions

theorem templatePart_neat : Finds ts (templatePart r) fun part =>
    (∀ t ∈ part.segment?, Neat ts t) ∧ ∀ t ∈ part.interpolation?, Neat ts t := by
  refine .mark fun _ => .skip (fun _ => steady_consumeIf _) fun segment => ?_
  split
  · refine .seen fun tail => .bind (.plain rfl ⟨trivial, trivial, trivial⟩) fun segment neat => ?_
    exact .pure ⟨neat_some neat, nofun⟩
  · refine .accept (.trim (.bind (keeps.expression true) fun inner neat => ?_)) (.complain _)
    exact .trim (.expect fun _ => .pure ⟨nofun, neat_some neat⟩)

/-- The parts of a template are neat in the two lists of the node because they were neat as they
were found. -/
theorem templateLiteral_neat : Finds ts (templateLiteral r) (Neat ts) := by
  refine .mark fun _ => .expect fun _ => ?_
  refine .bind (.items (templatePart_neat keeps) fun _ => steady_pure _) fun parts neat => ?_
  refine .expect fun _ => .plain rfl ⟨fun t member => ?_, fun t member => ?_⟩
  · obtain ⟨part, isPart, inPart⟩ := List.mem_filterMap.mp member
    exact (neat part isPart).1 t inPart
  · obtain ⟨part, isPart, inPart⟩ := List.mem_filterMap.mp member
    exact (neat part isPart).2 t inPart

theorem spreadOrExpression_neat : Finds ts (spreadOrExpression r allowIn) (Neat ts) := by
  refine .test (.mark fun _ => .eat fun _ => ?_) (keeps.expression allowIn)
  exact .bind (keeps.expression allowIn) fun _ neat => .plain rfl neat

theorem arrayExpression_neat : Finds ts (arrayExpression r) (Neat ts) := by
  refine .mark fun _ => .eat fun _ => ?_
  refine .bind (.commaSeparated (spreadOrExpression_neat keeps true)) fun elements neat => ?_
  exact .expect fun _ => .plain rfl neat

theorem objectMember_neat : Finds ts (objectMember r) (Neat ts) := by
  refine .mark fun _ => .accept (.trim (.bind (keeps.expression true) fun _ neat => ?_)) ?_
  · exact .plain rfl neat
  refine .bind (propertyKey_neat keeps true) fun ⟨key, computed⟩ neatKey => .trim (.accept ?_ ?_)
  · refine .trim (.bind (keeps.expression true) fun value neat => ?_)
    exact .plain rfl ⟨neatKey, neat, trivial, trivial⟩
  · refine .accept (.bind (parametersAndBody_neat keeps true) fun _ ⟨params, body⟩ => ?_) ?_
    · exact .plain rfl ⟨neatKey, params, body, trivial⟩
    · exact .ite (.complain _) (.plain rfl ⟨neatKey, neatKey, trivial, trivial⟩)

theorem objectExpression_neat : Finds ts (objectExpression r) (Neat ts) := by
  refine .mark fun _ => .eat fun _ => ?_
  refine .bind (.commaSeparated (objectMember_neat keeps)) fun properties neat => ?_
  exact .trim (.expect fun _ => .plain rfl neat)

theorem group_neat : Finds ts (group r) (Neat ts) := by
  refine .mark fun _ => .eat fun _ => .bind (keeps.expression true) fun first neat => .trim ?_
  refine .accept (.pure neat) (.expect fun _ => .trim ?_)
  refine .bind (.commaSeparated (keeps.expression true)) fun others neatOthers => .expect fun _ => ?_
  exact .plain rfl (List.forall_mem_cons.mpr ⟨neat, neatOthers⟩)

omit keeps in
theorem jumpLabel_neat : Finds ts jumpLabel fun label => ∀ t ∈ label, Neat ts t := by
  refine .eat fun _ => .test (.bind (anyName_neat false) fun label neat => ?_) (.pure nofun)
  exact .pure (neat_some neat)

omit keeps in
theorem nameOrUpdate_neat (start : Nat) : Finds ts (nameOrUpdate start) (Neat ts) := by
  refine .bind (anyName_neat false) fun argument neat => .trim (.test ?_ (.pure neat))
  exact .skip (fun _ => taking_consume.steady) fun _ => .plain rfl ⟨trivial, neat, trivial⟩

theorem asyncExpression_neat (start : Nat) :
    Finds ts (asyncExpression r allowIn start) (Neat ts) := by
  refine .eat fun _ => .test (arrowFunction_neat keeps allowIn start true) (.test ?_ ?_)
  · exact singleParamArrow_neat keeps allowIn start true
  · exact .test (functionExpression_neat keeps allowIn start true) (.complain _)

theorem unaryExpression_neat (start : Nat) :
    Finds ts (unaryExpression r allowIn start) (Neat ts) :=
  .eat fun _ => .bind (keeps.expression allowIn) fun _ neat => .plain rfl ⟨trivial, neat⟩

omit keeps in
theorem leadingUpdate_neat (start : Nat) : Finds ts (leadingUpdate start) (Neat ts) :=
  .eat fun _ => .bind (anyName_neat false) fun _ neat => .plain rfl ⟨trivial, neat, trivial⟩

/-- Whatever an expression begins with, the statements inside it are kept apart. Only functions and
classes have any. -/
theorem primary_neat : Finds ts (primary r allowIn) (Neat ts) := by
  have unary (start : Nat) := unaryExpression_neat keeps allowIn start
  refine .mark fun start => .seen fun kind => ?_
  split
  · exact asyncExpression_neat keeps allowIn start
  · exact functionExpression_neat keeps allowIn start false
  · exact classExpression_neat keeps allowIn
  · exact lineComment_neat
  · exact stringLiteral_neat
  · exact templateLiteral_neat keeps
  · exact .eat fun _ => .bind (keeps.expression allowIn) fun _ neat => .plain rfl neat
  · exact .eat fun _ => .bind (keeps.expression allowIn) fun _ neat => .plain rfl neat
  · exact objectExpression_neat keeps
  · exact arrayExpression_neat keeps
  · exact .test (arrowFunction_neat keeps allowIn start false) (group_neat keeps)
  · exact regExpLiteral_neat
  · exact numericLiteral_neat
  · exact .bind jumpLabel_neat fun _ neat => .plain rfl neat
  · exact .bind jumpLabel_neat fun _ neat => .plain rfl neat
  · exact nameOrUpdate_neat start
  · exact .test (singleParamArrow_neat keeps allowIn start false) (nameOrUpdate_neat start)
  · exact unary start
  · exact unary start
  · exact unary start
  · exact unary start
  · exact unary start
  · exact leadingUpdate_neat start
  · exact leadingUpdate_neat start
  · exact .complain _

section Suffixes

variable {object : Tree} (neatObject : Neat ts object)
include neatObject

omit keeps in
theorem namedMember_neat (start : Nat) (optional : Bool) :
    Finds ts (namedMember start object optional) (Neat ts) :=
  .bind (anyName_neat true) fun _ neat => .plain rfl ⟨neatObject, neat, trivial, trivial⟩

theorem computedMember_neat (start : Nat) (optional : Bool) :
    Finds ts (computedMember r start object optional) (Neat ts) := by
  refine .eat fun _ => .bind (keeps.expression true) fun _ neat => .trim (.expect fun _ => ?_)
  exact .plain rfl ⟨neatObject, neat, trivial, trivial⟩

theorem call_neat (start : Nat) (optional : Bool) :
    Finds ts (call r start object optional) (Neat ts) := by
  refine .eat fun _ => .bind (.commaSeparated (spreadOrExpression_neat keeps true)) fun _ neat => ?_
  exact .expect fun _ => .plain rfl ⟨neatObject, neat, trivial⟩

theorem suffix?_neat (start : Nat) :
    Finds ts (suffix? r start object) fun longer => ∀ t ∈ longer, Neat ts t := by
  refine .seen fun kind => ?_
  split
  · exact .eat fun _ => .some (namedMember_neat neatObject start false)
  · exact .some (computedMember_neat keeps neatObject start false)
  · exact .some (call_neat keeps neatObject start false)
  · refine .eat fun _ => .seen fun kind => ?_
    split
    · exact .some (computedMember_neat keeps neatObject start true)
    · exact .some (call_neat keeps neatObject start true)
    · exact .some (namedMember_neat neatObject start true)
  · exact .bind (templateLiteral_neat keeps) fun _ neat => .some (.plain rfl ⟨neatObject, neat⟩)
  · exact .pure nofun

end Suffixes

/-- Each suffix adds a node around a neat one. The induction is on the budget. -/
theorem suffixesWithin_neat (start budget : Nat) {object : Tree} (neatObject : Neat ts object) :
    Finds ts (suffixesWithin r start budget object) (Neat ts) := by
  induction budget generalizing object with
  | zero => exact .pure neatObject
  | succ budget ih =>
    refine .bind (suffix?_neat keeps neatObject start) fun longer neat => ?_
    cases longer with
    | none => exact .pure neatObject
    | some longer => exact .trim (ih (neat longer rfl))

theorem memberOrCall_neat : Finds ts (memberOrCall r allowIn) (Neat ts) := by
  refine .mark fun start => .bind (primary_neat keeps allowIn) fun first neat => .trim ?_
  exact .seen fun budget => suffixesWithin_neat keeps start budget neat

theorem binary_neat (layer : OperatorLayer) {operand : Rule Tree}
    (each : Finds ts operand (Neat ts)) : Finds ts (binary r allowIn layer operand) (Neat ts) := by
  refine .mark fun _ => .bind each fun left neatLeft => .trim (.test (.eat fun _ => ?_) (.pure neatLeft))
  refine .bind (keeps.expression allowIn) fun right neatRight => ?_
  exact .plain rfl ⟨trivial, trivial, neatLeft, neatRight⟩

theorem conditional_neat : Finds ts (conditional r allowIn) (Neat ts) := by
  have additive : Finds ts (additive r allowIn) (Neat ts) :=
    binary_neat keeps allowIn _ <| binary_neat keeps allowIn _ <| binary_neat keeps allowIn _ <|
      memberOrCall_neat keeps allowIn
  refine .mark fun _ => .bind additive fun test neatTest => .trim (.accept (.trim ?_) (.pure neatTest))
  refine .bind (keeps.expression true) fun consequent neatConsequent => .trim (.expect fun _ => ?_)
  refine .trim (.bind (keeps.expression allowIn) fun alternate neatAlternate => ?_)
  exact .plain rfl ⟨neatTest, neatConsequent, neatAlternate⟩

/-- Expressions list no statements themselves, so that they are neat follows from their parts. -/
theorem expression_neat : Finds ts (expression r allowIn) (Neat ts) := by
  refine .mark fun _ => .bind (conditional_neat keeps allowIn) fun target neatTarget => .trim ?_
  refine .test (.eat fun _ => .bind (keeps.expression allowIn) fun _ neat => ?_) (.pure neatTarget)
  exact .trim (.plain rfl ⟨trivial, neatTarget, neat⟩)

end Expressions

end ScriptFront.Script
