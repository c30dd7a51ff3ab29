import ScriptFront.Proofs.Derivation.Callables

namespace ScriptFront.Script

open ScriptFront.Parser

variable {origin rest : List (Token TokenKind)} {so : Stretch} {base : List Opening}
  {r : Rules} (inner : r.Make) (allowIn : Bool)

section Templates

/-- The node of a part of a template, whichever of the two it is. -/
def TemplatePart.tree : TemplatePart → Tree
  | segment t => t
  | interpolation t => t

/-- A part holds a node of the sort that its name tells: a piece of text for a segment, an
expression for an interpolation. -/
def TemplatePart.Sorted : TemplatePart → Prop
  | segment t => t.kind.isTemplateElement = true
  | interpolation t => t.kind.isExpression = true

include inner

/-- Between the back quotes stand text and, in braces, code. -/
theorem templatePart_yields : Yields origin {} rest (templatePart r) fun part s =>
    Derives (.quote :: base) (.quote :: base) s [part.tree] ∧ part.Sorted := by
  apply yields_start
  apply yields_consumeIf
  · intro token left ofText
    have element (tail : Bool) : Yields origin ⟨[token], false⟩ left
        (makeNode origin.length (.templateElement token.text (cook token.text) tail) : Rule Tree)
        fun t s => Derives (.quote :: base) (.quote :: base) s [t] ∧
          t.kind = .templateElement token.text (cook token.text) tail :=
      leaf_yields rfl (.segment ofText) rfl
    apply yields_observe (fun rest => firstKind rest == some .backQuote) fun _ => rfl
    apply (element _).bind
    rintro t s left ⟨made, same⟩
    exact yields_pure ⟨made, by rw [TemplatePart.Sorted, same]; rfl⟩
  · have made : Derives (.quote :: base) (.quote :: base) {} [] := .nil
    apply made.accept .openTemplate
    · intro s left made
      apply made.trim
      intro s left made
      apply (inner.expression true _).bind made
      intro t s left made ofSort
      apply made.trim
      intro s left made
      apply made.expect (.closes .interpolation)
      intro _ s left _ made
      exact yields_pure ⟨made, ofSort⟩
    · exact yields_complain _

/-- A template opens and closes its back quotes, and its parts are those of its two lists together.
How text and expressions took turns does not show in the node, which is why the parts are compared
as sets. -/
theorem templateLiteral_makes : MakesTree rest (templateLiteral r) Construct.isTemplateLiteral := by
  intro base _ origin
  apply yields_begin base
  intro start made
  apply made.expect .openQuote
  intro _ s left _ made
  have parts : Yields origin s left (items (·.is .backQuote) (templatePart r) (pure true))
      fun parts s => Derives base (.quote :: base) s ([] ++ parts.flatMap fun part => [part.tree]) ∧
        ∀ part ∈ parts, part.Sorted :=
    items_yields (fun rest => firstKind rest == some .backQuote) (fun _ => rfl)
      (fun made => (templatePart_yields inner).behind.mono fun _ _ ⟨_, same, derived, sorted⟩ =>
        ⟨same ▸ made.append derived, sorted⟩)
      (fun made => yields_pure made) made
  apply parts.bind
  rintro parts s left ⟨made, sorts⟩
  apply made.expect (.closes .quote)
  intro _ s left _ made
  refine yields_tree made (fun t => ?_) ⟨fun t member => ?_, fun t member => ?_⟩ rfl rfl
  · have found (part : TemplatePart) :
        part.segment? = some t ∨ part.interpolation? = some t ↔ t = part.tree := by
      cases part <;> simp [TemplatePart.segment?, TemplatePart.interpolation?, TemplatePart.tree,
        eq_comm]
    simp only [Construct.children, Construct.view, List.flatMap_cons, List.flatMap_nil,
      Field.trees, List.append_nil, List.mem_append, List.mem_filterMap, List.nil_append,
      List.mem_flatMap, List.mem_singleton, ← exists_or, ← and_or_left, found]
  · obtain ⟨part, isPart, isSegment⟩ := List.mem_filterMap.mp member
    have sorted := sorts part isPart
    cases part <;> cases isSegment
    exact sorted
  · obtain ⟨part, isPart, isInterpolation⟩ := List.mem_filterMap.mp member
    have sorted := sorts part isPart
    cases part <;> cases isInterpolation
    exact sorted

end Templates

section Literals

include inner

theorem spreadOrExpression_makes :
    MakesTree rest (spreadOrExpression r allowIn) Construct.isArgument := by
  intro base _ origin
  apply yields_is
  · intro first
    apply yields_begin base
    intro start made
    apply made.eat (.plain (by decide)) first
    intro _ s _ made
    apply (inner.expression allowIn _).bind made
    intro argument s left made ofSort
    exact yields_tree made (by simp [Construct.view]) ofSort rfl rfl
  · exact (inner.expression allowIn _).mono
      (fun _ => Construct.isArgument_of_isExpression) base origin

theorem arrayExpression_makes (first : firstKind rest = some .openSquare) :
    MakesTree rest (arrayExpression r) Construct.isExpression := by
  intro base _ origin
  apply yields_begin base
  intro start made
  apply made.eat .openSquare first
  intro _ s _ made
  apply (commaSeparated_trees (fun _ => spreadOrExpression_makes inner true) made).bind
  rintro elements s left ⟨made, sorts⟩
  apply made.expect (.closes .square)
  intro _ s left _ made
  exact yields_tree made (by simp [Construct.view]) sorts rfl rfl

/-- A member is a spread element, a property or a method. A short property has made its key only,
and holds it twice. -/
theorem objectMember_makes : MakesTree rest (objectMember r) Construct.isObjectMember := by
  intro base _ origin
  apply yields_begin base
  intro start made
  apply made.accept (.plain (by decide))
  · intro s left made
    apply made.trim
    intro s left made
    apply (inner.expression true _).bind made
    intro argument s left made ofSort
    exact yields_tree made (by simp [Construct.view]) ofSort rfl rfl
  · apply (propertyKey_makes inner true).bind made
    rintro ⟨key, computed⟩ s left made ofKey
    apply made.trim
    intro s left made
    apply made.accept (.plain (by decide))
    · intro s left made
      apply made.trim
      intro s left made
      apply (inner.expression true _).bind made
      intro value s left made ofSort
      exact yields_tree made (by simp [Construct.view]) ⟨ofKey, ofSort, by simp⟩ rfl rfl
    rw [if_neg Bool.false_ne_true]
    apply made.accept .openParen
    · intro s left made
      apply (parametersAndBody_yields inner true made).bind
      rintro ⟨params, body⟩ s left ⟨made, shape⟩
      exact yields_tree made (by simp [Construct.view]) ⟨ofKey, shape⟩ rfl rfl
    rw [if_neg Bool.false_ne_true]
    split
    · exact yields_complain _
    · rename_i free
      obtain ⟨rfl, name⟩ : computed = false ∧ key.kind.isIdentifier = true := by
        simpa using free
      exact yields_tree made (by simp [Construct.view])
        ⟨ofKey, Construct.isExpression_of_isIdentifier name, fun _ => ⟨rfl, name, rfl⟩⟩ rfl rfl

theorem objectExpression_makes (first : firstKind rest = some .openBrace) :
    MakesTree rest (objectExpression r) Construct.isExpression := by
  intro base _ origin
  apply yields_begin base
  intro start made
  apply made.eat .openBrace first
  intro _ s _ made
  apply (commaSeparated_trees (fun _ => objectMember_makes inner) made).bind
  rintro properties s left ⟨made, sorts⟩
  apply made.trim
  intro s left made
  apply made.expect (.closes .brace)
  intro _ s left _ made
  exact yields_tree made (by simp [Construct.view]) sorts rfl rfl

/-- Parentheses leave no node: what was in them is the tree, unless a comma makes a sequence of it.
-/
theorem group_makes (first : firstKind rest = some .openParen) :
    MakesTree rest (group r) Construct.isExpression := by
  intro base _ origin
  apply yields_begin base
  intro start made
  apply made.eat .openParen first
  intro _ s _ made
  apply (inner.expression true _).bind made
  intro first s left made ofSort
  apply made.trim
  intro s left made
  apply made.accept (.closes .paren)
  · intro s left made
    exact yields_pure ⟨made, ofSort⟩
  · apply made.expect (.plain (by decide))
    intro _ s left _ made
    apply made.trim
    intro s left made
    apply (commaSeparated_trees (inner.expression true) made).bind
    rintro others s left ⟨made, sorts⟩
    apply made.expect (.closes .paren)
    intro _ s left _ made
    exact yields_tree made (by simp [Construct.view])
      ⟨List.cons_ne_nil _ _, List.forall_mem_cons.mpr ⟨ofSort, sorts⟩⟩ rfl rfl

end Literals

section Primary

variable [InCode base] {start : Nat} {word : TokenKind} (made : Derives base base so [])
include made

/-- The label is a name or missing, and the word in front of it is a plain token. -/
theorem jumpLabel_yields (free : word ∉ strictKinds) (first : firstKind rest = some word) :
    Yields origin so rest jumpLabel fun label s =>
      Derives base base s label.toList ∧ ∀ t ∈ label, t.kind.isIdentifier = true := by
  apply made.eat (.plain free) first
  intro _ s _ made
  apply yields_isAny
  · intro _ _ _
    apply (anyName_makes false).bind made
    intro label s left made name
    exact yields_pure ⟨made, by simpa using name⟩
  · exact yields_pure ⟨made, by simp⟩

/-- A name alone is the tree, and with an increment behind it a part of a new one. -/
theorem nameOrUpdate_yields : Yields origin so rest (nameOrUpdate start) fun t s =>
    Derives base base s [t] ∧ t.kind.isExpression = true := by
  apply (anyName_makes false).bind made
  intro argument s left made name
  apply made.trim
  intro s left made
  apply yields_isAny
  · intro kind update first
    apply yields_consume
    rintro operator left rfl
    obtain rfl : operator.kind = kind := Option.some.inj first
    have free : operator.kind ∉ strictKinds :=
      (by decide : ∀ kind ∈ [TokenKind.doublePlus, .doubleDash], kind ∉ strictKinds) _ update
    exact yields_tree (made.token (.plain free))
      (by simp [Construct.view]) ⟨update, name⟩ rfl rfl
  · exact yields_pure ⟨made, Construct.isExpression_of_isIdentifier name⟩

theorem leadingUpdate_yields (update : word ∈ [TokenKind.doublePlus, .doubleDash])
    (first : firstKind rest = some word) :
    Yields origin so rest (leadingUpdate start) fun t s =>
      Derives base base s [t] ∧ t.kind.isExpression = true := by
  have free : ∀ kind ∈ [TokenKind.doublePlus, .doubleDash], kind ∉ strictKinds := by decide
  apply made.eat (.plain (free word update)) first
  intro operator s ofWord made
  apply (anyName_makes false).bind made
  intro argument s left made name
  exact yields_tree made (by simp [Construct.view]) ⟨ofWord ▸ update, name⟩ rfl rfl

include inner

/-- A word and the expression behind it, which is the only tree in what they make. -/
theorem operand_yields (free : word ∉ strictKinds) (first : firstKind rest = some word)
    (whole : TokenKind → Tree → Construct)
    (parts : ∀ argument t, t ∈ (whole word argument).children ↔ t ∈ [argument])
    (wellFormed : ∀ argument, argument.kind.isExpression = true →
      (whole word argument).WellFormed)
    (plain : ∀ argument,
      ((whole word argument).isLeaf || (whole word argument).isModuleDeclaration) = false)
    (ofSort : ∀ argument, (whole word argument).isExpression = true) :
    Yields origin so rest (do
        let operator ← eat
        let argument ← r.expression allowIn
        makeNode start (whole operator.kind argument)) fun t s =>
      Derives base base s [t] ∧ t.kind.isExpression = true := by
  apply made.eat (.plain free) first
  rintro operator s rfl made
  apply (inner.expression allowIn _).bind made
  intro argument s left made expression
  exact yields_tree made (parts argument) (wellFormed argument expression) (plain argument)
    (ofSort argument)

/-- A unary operator is a plain token in front of its operand. -/
theorem unaryExpression_yields (sign : word ∈ signs) (first : firstKind rest = some word) :
    Yields origin so rest (unaryExpression r allowIn start) fun t s =>
      Derives base base s [t] ∧ t.kind.isExpression = true := by
  have free := (by decide : ∀ kind ∈ signs, kind ∉ strictKinds) _ sign
  exact operand_yields inner allowIn made free first .unaryExpression
    (by simp [Construct.view]) (fun _ expression => ⟨sign, expression⟩) (fun _ => rfl) fun _ => rfl

/-- Behind the word `async` a function of one of three shapes follows, and anything else is refused.
-/
theorem asyncExpression_yields (first : firstKind rest = some .kwAsync) :
    Yields origin so rest (asyncExpression r allowIn start) fun t s =>
      Derives base base s [t] ∧ t.kind.isExpression = true := by
  apply made.eat (.plain (by decide)) first
  intro _ s _ made
  apply yields_is
  · exact fun _ => arrowFunction_yields inner allowIn made
  apply yields_if (fun rest => firstKind rest == some .identifier &&
    firstKind (rest.tail.dropWhile Token.isSpace) == some .arrow) fun s => by
      rw [followedBy_eq_firstKind]; rfl
  · exact fun _ => singleParamArrow_yields inner allowIn made
  intro _
  apply yields_is
  · exact fun first => functionExpression_yields inner allowIn made first
  · exact yields_complain _

end Primary

section Layers

include inner

/-- Whatever an expression begins with, what is made is a tree that may stand as an expression. The
cases are those of the first token. -/
theorem primary_makes : MakesTree rest (primary r allowIn) Construct.isExpression := by
  intro base _ origin
  apply yields_begin base
  intro start made
  apply yields_currentKind
  have sign {word : TokenKind} (sign : word ∈ signs) (first : firstKind rest = some word) :
      Yields origin {} rest (unaryExpression r allowIn start) fun t s =>
        Derives base base s [t] ∧ t.kind.isExpression = true :=
    unaryExpression_yields inner allowIn made sign first
  split
  · rename_i first
    exact asyncExpression_yields inner allowIn made first
  · rename_i first
    exact functionExpression_yields inner allowIn made first
  · rename_i first
    exact classExpression_makes inner allowIn first base origin
  · rename_i first
    exact lineComment_makes (fun _ => rfl) first base origin
  · exact stringLiteral_makes.mono (fun _ => Construct.isExpression_of_isStringLiteral) base origin
  · exact (templateLiteral_makes inner).mono
      (fun _ => Construct.isExpression_of_isTemplateLiteral) base origin
  · rename_i first
    exact operand_yields inner allowIn made (by decide) first (fun _ => .newExpression)
      (by simp [Construct.view]) (fun _ => id) (fun _ => rfl) fun _ => rfl
  · rename_i first
    exact operand_yields inner allowIn made (by decide) first (fun _ => .awaitExpression)
      (by simp [Construct.view]) (fun _ => id) (fun _ => rfl) fun _ => rfl
  · rename_i first
    exact objectExpression_makes inner first base origin
  · rename_i first
    exact arrayExpression_makes inner first base origin
  · rename_i first
    apply yields_if (fun rest => arrowBehind 0 rest) fun _ => rfl
    · exact fun _ => arrowFunction_yields inner allowIn made
    · exact fun _ => group_makes inner first base origin
  · rename_i first
    exact (regExpLiteral_makes first).mono
      (fun _ => Construct.isExpression_of_isRegExp) base origin
  · exact numericLiteral_makes.mono (fun _ => Construct.isExpression_of_isKey) base origin
  · rename_i first
    apply (jumpLabel_yields made (by decide) first).bind
    rintro label s left ⟨made, names⟩
    exact yields_tree made (by simp [Construct.view]) names rfl rfl
  · rename_i first
    apply (jumpLabel_yields made (by decide) first).bind
    rintro label s left ⟨made, names⟩
    exact yields_tree made (by simp [Construct.view]) names rfl rfl
  · exact nameOrUpdate_yields made
  · apply yields_followedBy
    · exact fun _ => singleParamArrow_yields inner allowIn made
    · exact nameOrUpdate_yields made
  · rename_i first
    exact sign (by decide) first
  · rename_i first
    exact sign (by decide) first
  · rename_i first
    exact sign (by decide) first
  · rename_i first
    exact sign (by decide) first
  · rename_i first
    exact sign (by decide) first
  · rename_i first
    exact leadingUpdate_yields made (by decide) first
  · rename_i first
    exact leadingUpdate_yields made (by decide) first
  · exact yields_complain _

section Suffixes

variable [InCode base] {start : Nat} {object : Tree} {optional : Bool}
  (made : Derives base base so [object]) (ofSort : object.kind.isExpression = true)
include made ofSort

omit inner in
/-- The member goes behind the object that is already made, and both are the parts of the new node.
-/
theorem namedMember_yields : Yields origin so rest (namedMember start object optional) fun t s =>
    Derives base base s [t] ∧ t.kind.isExpression = true := by
  apply (anyName_makes true).bind made
  intro member s left made name
  exact yields_tree made (by simp [Construct.view]) ⟨ofSort, name⟩ rfl rfl

theorem computedMember_yields (first : firstKind rest = some .openSquare) :
    Yields origin so rest (computedMember r start object optional) fun t s =>
      Derives base base s [t] ∧ t.kind.isExpression = true := by
  apply made.eat .openSquare first
  intro _ s _ made
  apply (inner.expression true _).bind made
  intro member s left made ofMember
  apply made.trim
  intro s left made
  apply made.expect (.closes .square)
  intro _ s left _ made
  exact yields_tree made (by simp [Construct.view]) ⟨ofSort, ofMember⟩ rfl rfl

/-- The parenthesis is closed behind the arguments, which follow the callee in the list of parts. -/
theorem call_yields (first : firstKind rest = some .openParen) :
    Yields origin so rest (call r start object optional) fun t s =>
      Derives base base s [t] ∧ t.kind.isExpression = true := by
  apply made.eat .openParen first
  intro _ s _ made
  apply (commaSeparated_trees (fun _ => spreadOrExpression_makes inner true) made).bind
  rintro arguments s left ⟨made, sorts⟩
  apply made.expect (.closes .paren)
  intro _ s left _ made
  exact yields_tree made (by simp [Construct.view]) ⟨ofSort, sorts⟩ rfl rfl

/-- The expression is inside what is found behind it. -/
theorem suffix?_yields : Yields origin so rest (suffix? r start object) fun longer s =>
    Derives base base s [longer.getD object] ∧
      (longer.getD object).kind.isExpression = true := by
  apply yields_currentKind
  split
  · rename_i first
    apply made.eat (.plain (by decide)) first
    intro _ s _ made
    exact .map (namedMember_yields made ofSort)
  · rename_i first
    exact .map (computedMember_yields inner made ofSort first)
  · rename_i first
    exact .map (call_yields inner made ofSort first)
  · rename_i first
    apply made.eat (.plain (by decide)) first
    intro _ s _ made
    apply yields_currentKind
    split
    · rename_i next
      exact .map (computedMember_yields inner made ofSort next)
    · rename_i next
      exact .map (call_yields inner made ofSort next)
    · exact .map (namedMember_yields made ofSort)
  · apply (templateLiteral_makes inner).bind made
    intro quasi s left made isTemplate
    exact .map (yields_tree made (by simp [Construct.view])
      ⟨ofSort, isTemplate⟩ rfl rfl)
  · exact yields_pure ⟨made, ofSort⟩

/-- Each suffix takes the tree made so far as its first part. The induction is on the budget. -/
theorem suffixesWithin_yields (budget : Nat) :
    Yields origin so rest (suffixesWithin r start budget object) fun t s =>
      Derives base base s [t] ∧ t.kind.isExpression = true := by
  induction budget generalizing so rest object with
  | zero => exact yields_pure ⟨made, ofSort⟩
  | succ budget ih =>
    apply (suffix?_yields inner made ofSort).bind
    rintro (_ | longer) s left ⟨made, ofSort⟩
    · exact yields_pure ⟨made, ofSort⟩
    · apply made.trim
      intro s left made
      exact ih made ofSort

end Suffixes

/-- With all suffixes around it the tree is still an expression. -/
theorem memberOrCall_makes : MakesTree rest (memberOrCall r allowIn) Construct.isExpression := by
  intro base _ origin
  apply yields_begin base
  intro start made
  apply (primary_makes inner allowIn).bind made
  intro first s left made ofSort
  apply made.trim
  intro s left made
  apply yields_observe List.length fun _ => rfl
  exact suffixesWithin_yields inner made ofSort _

/-- One node joins the two operands, or the left one is returned as it is. The three layers are
cases of this one lemma. -/
theorem binary_makes (layer : OperatorLayer) {operand : Rule Tree}
    (operands : ∀ rest, MakesTree rest operand Construct.isExpression) :
    MakesTree rest (binary r allowIn layer operand) Construct.isExpression := by
  intro base _ origin
  apply yields_begin base
  intro start made
  apply (operands _).bind made
  intro left s rest made ofLeft
  apply made.trim
  intro s rest made
  apply yields_if (fun rest => (firstKind rest).any fun kind =>
    layer.operators.contains kind && (kind ≠ .kwIn || allowIn)) fun _ => rfl
  · intro joined
    obtain ⟨kind, first, listed⟩ := (Option.any_eq_true ..).mp joined
    have operator : kind ∈ layer.operators :=
      List.contains_iff_mem.mp (Bool.and_eq_true_iff.mp listed).1
    have free : kind ∉ strictKinds := by
      have all : ∀ kind ∈ layer.operators, kind ∉ strictKinds := by cases layer <;> decide
      exact all kind operator
    apply made.eat (.plain free) first
    intro token s ofKind made
    apply (inner.expression allowIn _).bind made
    intro right s rest made ofRight
    exact yields_tree made (by simp [Construct.view]) ⟨ofKind ▸ operator, ofLeft, ofRight⟩ rfl rfl
  · exact fun _ => yields_pure ⟨made, ofLeft⟩

theorem comparative_makes : MakesTree rest (comparative r allowIn) Construct.isExpression :=
  binary_makes inner allowIn _ fun _ => memberOrCall_makes inner allowIn

theorem multiplicative_makes : MakesTree rest (multiplicative r allowIn) Construct.isExpression :=
  binary_makes inner allowIn _ fun _ => comparative_makes inner allowIn

theorem additive_makes : MakesTree rest (additive r allowIn) Construct.isExpression :=
  binary_makes inner allowIn _ fun _ => multiplicative_makes inner allowIn

/-- The condition is a test alone, or a node over test and branches. -/
theorem conditional_makes : MakesTree rest (conditional r allowIn) Construct.isExpression := by
  intro base _ origin
  apply yields_begin base
  intro start made
  apply (additive_makes inner allowIn).bind made
  intro test s left made ofTest
  apply made.trim
  intro s left made
  apply made.accept (.plain (by decide))
  · intro s left made
    apply made.trim
    intro s left made
    apply (inner.expression true _).bind made
    intro consequent s left made ofConsequent
    apply made.trim
    intro s left made
    apply made.expect (.plain (by decide))
    intro _ s left _ made
    apply made.trim
    intro s left made
    apply (inner.expression allowIn _).bind made
    intro alternate s left made ofAlternate
    exact yields_tree made (by simp [Construct.view]) ⟨ofTest, ofConsequent, ofAlternate⟩ rfl rfl
  · exact yields_pure ⟨made, ofTest⟩

/-- An expression is what stands on its left, or an assignment over both sides. No condition is made
on what stands on the left, so the target is any expression. -/
theorem expression_makes : MakesTree rest (expression r allowIn) Construct.isExpression := by
  intro base _ origin
  apply yields_begin base
  intro start made
  apply (conditional_makes inner allowIn).bind made
  intro target s left made ofTarget
  apply made.trim
  intro s left made
  apply yields_isAny
  · intro kind operator first
    have free := (by decide : ∀ kind ∈ assignmentOperators, kind ∉ strictKinds) _ operator
    apply made.eat (.plain free) first
    intro token s ofKind made
    apply (inner.expression allowIn _).bind made
    intro value s left made ofValue
    apply made.trim
    intro s left made
    exact yields_tree made (by simp [Construct.view]) ⟨ofKind ▸ operator, ofTarget, ofValue⟩ rfl rfl
  · exact yields_pure ⟨made, ofTarget⟩

end Layers

end ScriptFront.Script
