import ScriptFront.Proofs.Derivation.Leaves
import ScriptFront.Script.Grammar.Declaration

namespace ScriptFront.Script

open ScriptFront.Parser

/-- Rules that make trees of the sorts that their names tell. Nothing is assumed of the tokens in
front of them, but for the rule of conditions, which is called at its word only. -/
structure Rules.Make (r : Rules) : Prop where
  statement : ∀ allowIn rest, MakesTree rest (r.statement allowIn) Construct.isStatement
  expression : ∀ allowIn rest, MakesTree rest (r.expression allowIn) Construct.isExpression
  binding : ∀ allowIn rest, MakesTree rest (r.binding allowIn) Construct.isTarget
  ifStatement : ∀ allowIn {rest}, firstKind rest = some .kwIf →
    MakesTree rest (r.ifStatement allowIn) Construct.isStatement

variable {origin rest : List (Token TokenKind)} {so : Stretch} {base opened : List Opening}
  [InCode opened] {trees : List Tree}

variable {r : Rules} (inner : r.Make) (allowIn : Bool)

section Patterns

theorem MakesTree.mono {p : Rule Tree} {typed typed' : Construct → Bool}
    (makes : MakesTree rest p typed) (weaker : ∀ c, typed c = true → typed' c = true) :
    MakesTree rest p typed' :=
  fun base _ origin => (makes base origin).mono fun _ _ ⟨made, ofSort⟩ => ⟨made, weaker _ ofSort⟩

include inner

/-- A computed key opens and closes a bracket around one expression, and any other key is a leaf, so
in both cases the key is the one tree that was made. -/
theorem propertyKey_makes : Makes rest (propertyKey r allowIn) (fun found => [found.1])
    fun found => found.1.kind.isKey found.2 = true := by
  intro base _ origin
  have named {p : Rule Tree} (makes : MakesTree rest p (Construct.isKey false)) :
      Yields origin {} rest (do let key ← p; return (key, false)) fun found s =>
        Derives base base s [found.1] ∧ found.1.kind.isKey found.2 = true :=
    (makes base origin).bind fun key s left made => yields_pure made
  have made : Derives base base {} [] := .nil
  apply made.accept .openSquare
  · intro s left made
    apply made.trim
    intro s left made
    apply (inner.expression allowIn _).bind made
    intro key s left made ofSort
    apply made.trim
    intro s left made
    apply made.expect (.closes .square)
    intro _ s left _ made
    exact yields_pure ⟨made, by simpa [Construct.isKey] using ofSort⟩
  · apply yields_currentKind
    split
    · exact named (stringLiteral_makes.mono fun _ => Construct.isKey_of_isStringLiteral)
    · exact named numericLiteral_makes
    · exact named ((anyName_makes true).mono fun _ => Construct.isKey_of_isIdentifier)

/-- The default value goes into a node around the pattern. -/
theorem withDefault_yields [InCode base] {start : Nat} {left : Tree}
    (made : Derives base base so [left])
    (target : left.kind.isTarget = true) :
    Yields origin so rest (withDefault r allowIn start left) fun t s => Derives base base s [t] ∧
      t.kind.isDefaulted = true ∧ (t = left ∨ ∃ right, t.kind = .assignmentPattern left right) := by
  apply made.accept (.plain (by decide))
  · intro s rest made
    apply made.trim
    intro s rest made
    apply (inner.expression allowIn _).bind made
    intro right s rest made ofSort
    apply made.trim
    intro s rest made
    refine made.makeNode (by simp [Construct.view]) ⟨target, ofSort⟩ rfl ?_
    intro t s same made
    exact ⟨made, by rw [same]; exact target, Or.inr ⟨right, same⟩⟩
  · exact yields_pure ⟨made, Construct.isDefaulted_of_isTarget target, Or.inl rfl⟩

/-- With a default value the pattern becomes a part of a new node, and without one it is itself the
tree. -/
theorem bindingWithDefault_makes :
    MakesTree rest (bindingWithDefault r allowIn) Construct.isDefaulted := by
  intro base _ origin
  apply yields_begin base
  intro start made
  apply (inner.binding allowIn _).bind made
  intro left s rest made target
  apply made.trim
  intro s rest made
  apply (withDefault_yields inner allowIn made target).mono
  exact fun t s ⟨made, defaulted, _⟩ => ⟨made, defaulted⟩

/-- A name or a pattern behind three periods. -/
theorem restElement_yields [InCode base] {start : Nat} {typed : Construct → Bool}
    (ofSort : ∀ argument, argument.kind.isTarget = true → typed (.restElement argument) = true)
    (made : Derives base base so []) :
    Yields origin so rest (do
      let argument ← r.binding allowIn
      makeNode start (.restElement argument) : Rule Tree) fun t s =>
      Derives base base s [t] ∧ typed t.kind = true := by
  apply (inner.binding allowIn _).bind made
  intro argument s left made target
  exact yields_tree made (by simp [Construct.view]) target rfl
    (ofSort argument target)

/-- A rest element wraps the pattern behind its points. Anything else is a pattern with or without a
default. -/
theorem restOrBinding_makes : MakesTree rest (restOrBinding r allowIn) Construct.isParam := by
  intro base _ origin
  apply yields_is
  · intro first
    apply yields_begin base
    intro start made
    apply made.eat (.plain (by decide)) first
    intro _ s _ made
    exact restElement_yields inner allowIn (fun _ target => target) made
  · exact (bindingWithDefault_makes inner allowIn).mono
      (fun _ => Construct.isParam_of_isDefaulted) base origin

/-- The parameters stand in the parentheses that the caller opened. -/
theorem parameters_yields (made : Derives base (.paren :: opened) so trees) :
    Yields origin so rest (parameters r allowIn) fun params s =>
      Derives base opened s (trees ++ params) ∧ ∀ t ∈ params, t.kind.isParam = true := by
  apply (commaSeparated_trees (fun _ => restOrBinding_makes inner allowIn) made).bind
  rintro params s left ⟨made, sorts⟩
  apply made.expect (.closes .paren)
  intro _ s left _ made
  apply made.trim
  exact fun s left made => yields_pure ⟨made, sorts⟩

/-- The bracket opened in front of the elements is closed behind them, and the elements are all the
parts. -/
theorem arrayPattern_makes (first : firstKind rest = some .openSquare) :
    MakesTree rest (arrayPattern r allowIn) Construct.isTarget := by
  intro base _ origin
  apply yields_begin base
  intro start made
  apply made.eat .openSquare first
  intro _ s _ made
  apply (commaSeparated_trees (fun _ => restOrBinding_makes inner allowIn) made).bind
  rintro elements s left ⟨made, sorts⟩
  apply made.expect (.closes .square)
  intro _ s left _ made
  exact yields_tree made (by simp [Construct.view]) sorts rfl rfl

/-- A member holds its key and its value. A short one has made one tree and holds it as both, so the
list of trees made is the list of parts up to repetition. -/
theorem patternMember_makes :
    MakesTree rest (patternMember r allowIn) Construct.isPatternMember := by
  intro base _ origin
  apply yields_begin base
  intro start made
  apply made.accept (.plain (by decide))
  · intro s left made
    apply made.trim
    intro s left made
    exact restElement_yields inner allowIn (fun _ _ => rfl) made
  · apply (propertyKey_makes inner allowIn).bind made
    rintro ⟨key, computed⟩ s left made ofKey
    apply made.trim
    intro s left made
    apply made.accept (.plain (by decide))
    · intro s left made
      apply made.trim
      intro s left made
      apply (bindingWithDefault_makes inner allowIn).bind made
      intro value s left made defaulted
      exact yields_tree made (by simp [Construct.view]) ⟨ofKey, defaulted, nofun⟩ rfl rfl
    · rw [if_neg Bool.false_ne_true]
      split
      · exact yields_complain _
      · rename_i free
        obtain ⟨rfl, name⟩ : computed = false ∧ key.kind.isIdentifier = true := by
          simpa using free
        apply (withDefault_yields inner allowIn made (Construct.isTarget_of_isIdentifier name)).bind
        rintro value s left ⟨derived, defaulted, binds⟩
        have wellFormed : (Construct.propertyPattern key value true false).WellFormed :=
          ⟨ofKey, defaulted, fun _ => ⟨binds, name, rfl⟩⟩
        rcases binds with rfl | ⟨right, same⟩
        · exact yields_tree derived (by simp [Construct.view])
            wellFormed rfl rfl
        · -- The name stands in the node with its default value too.
          have part : key ∈ value.kind.children := by
            simp [same, Construct.view]
          exact yields_tree (derived.again List.mem_cons_self part)
            (by simp [Construct.view]) wellFormed rfl rfl

theorem objectPattern_makes (first : firstKind rest = some .openBrace) :
    MakesTree rest (objectPattern r allowIn) Construct.isTarget := by
  intro base _ origin
  apply yields_begin base
  intro start made
  apply made.eat .openBrace first
  intro _ s _ made
  apply (commaSeparated_trees (fun _ => patternMember_makes inner allowIn) made).bind
  rintro properties s left ⟨made, sorts⟩
  apply made.expect (.closes .brace)
  intro _ s left _ made
  exact yields_tree made (by simp [Construct.view]) sorts rfl rfl

theorem binding_makes : MakesTree rest (binding r allowIn) Construct.isTarget := by
  intro base _ origin
  have name : MakesTree rest (anyName false) Construct.isTarget :=
    (anyName_makes false).mono fun _ => Construct.isTarget_of_isIdentifier
  apply yields_currentKind
  split
  · rename_i first
    exact objectPattern_makes inner allowIn first base origin
  · rename_i first
    exact arrayPattern_makes inner allowIn first base origin
  · exact name base origin
  · exact name base origin
  · exact yields_complain _

end Patterns

section Callables

include inner

/-- The statements between the braces are all the parts of a block. Only layout follows its closing
brace. -/
theorem block_makes : MakesTree rest (block r allowIn) Construct.isBlock := by
  intro base _ origin
  apply yields_begin base
  intro start made
  apply made.expect .openBrace
  intro _ s left _ made
  apply made.trimSeparators
  intro s left made
  apply (separated_trees (inner.statement allowIn) made).bind
  rintro body s left ⟨made, sorts⟩
  apply made.expect (.closes .brace)
  intro _ s left _ made
  refine made.makeNode_bind (by simp [Construct.view]) sorts rfl ?_
  intro node s left same made
  apply made.trim
  exact fun s left made => yields_pure ⟨made, congrArg Construct.isBlock same⟩

/-- The parenthesis in front of the parameters is the caller's, too. -/
theorem parametersAndBody_yields (made : Derives base (.paren :: opened) so trees) :
    Yields origin so rest (parametersAndBody r allowIn) fun found s =>
      Derives base opened s (trees ++ found.1 ++ [found.2]) ∧ CallableShape found.1 found.2 := by
  apply made.trim
  intro s left made
  apply (parameters_yields inner allowIn made).bind
  rintro params s left ⟨made, sorts⟩
  apply (block_makes inner allowIn).bind made
  intro body s left made ofSort
  exact yields_pure ⟨made, sorts, ofSort⟩

omit inner in
/-- The star, if there is one, is a plain token and makes no tree. -/
theorem generatorStar_yields (made : Derives base opened so trees) :
    Yields origin so rest generatorStar fun _ s => Derives base opened s trees := by
  have trimmed {isGenerator : Bool} {s : Stretch} {left : List (Token TokenKind)}
      (made : Derives base opened s trees) :
      Yields origin s left (do trim; return isGenerator : Rule Bool) fun _ s =>
        Derives base opened s trees := by
    apply made.trim
    exact fun s left made => yields_pure made
  apply made.accept (.plain (by decide))
  · exact fun s left made => trimmed made
  · exact trimmed made

section Functions

variable [InCode base] {start : Nat} {isAsync : Bool}

/-- A function is made of its name, its parameters and its body in this order. The word `async` may
stand in front and is not part of this rule. -/
theorem functionDeclaration_yields (made : Derives base base so [])
    (first : firstKind rest = some .kwFunction) :
    Yields origin so rest (functionDeclaration r allowIn start isAsync) fun t s =>
      Derives base base s [t] ∧ t.kind.isDeclaration = true := by
  apply made.eat (.plain (by decide)) first
  intro _ s _ made
  apply (generatorStar_yields made).bind
  intro isGenerator s left made
  apply (anyName_makes false).bind made
  intro id s left made name
  apply made.trim
  intro s left made
  apply made.expect .openParen
  intro _ s left _ made
  apply (parametersAndBody_yields inner allowIn made).bind
  rintro ⟨params, body⟩ s left ⟨made, shape⟩
  exact yields_tree made (by simp [Construct.view]) ⟨name, shape⟩ rfl rfl

/-- A function expression behind the place of its name. -/
theorem functionTail_yields (id : Option Tree) {isGenerator : Bool}
    (made : Derives base base so id.toList) (name : ∀ t ∈ id, t.kind.isIdentifier = true) :
    Yields origin so rest
      (do
        let _ ← expect .openParen .functionParen
        let (params, body) ← parametersAndBody r allowIn
        makeNode start (.functionExpression id params body isAsync isGenerator) : Rule Tree)
      fun t s => Derives base base s [t] ∧ t.kind.isExpression = true := by
  apply made.expect .openParen
  intro _ s left _ made
  apply (parametersAndBody_yields inner allowIn made).bind
  rintro ⟨params, body⟩ s left ⟨made, shape⟩
  exact yields_tree made (by simp [Construct.view]) ⟨name, shape⟩ rfl rfl

/-- The name may be missing, and then parameters and body are all the parts. -/
theorem functionExpression_yields (made : Derives base base so [])
    (first : firstKind rest = some .kwFunction) :
    Yields origin so rest (functionExpression r allowIn start isAsync) fun t s =>
      Derives base base s [t] ∧ t.kind.isExpression = true := by
  apply made.eat (.plain (by decide)) first
  intro _ s _ made
  apply (generatorStar_yields made).bind
  intro isGenerator s left made
  apply yields_isAny
  · intro _ _ _
    apply (anyName_makes false).bind made
    intro id s left made name
    apply made.trim
    intro s left made
    exact functionTail_yields inner allowIn (some id) made (by simpa using name)
  · exact functionTail_yields inner allowIn none made (by simp)

/-- An arrow function tells by a flag whether its body is a block, and the flag is right: no
expression is a block. -/
theorem arrowBody_makes : Makes rest (arrowBody r allowIn) (fun found => [found.1]) fun found =>
    (found.1.kind.isBlock = true ∨ found.1.kind.isExpression = true) ∧
      (found.2 = false ↔ found.1.kind.isBlock = true) := by
  intro base _ origin
  have other {c : Construct} (isExpression : c.isExpression = true) : c.isBlock = false := by
    cases c <;> first | rfl | cases isExpression
  have made : Derives base base {} [] := .nil
  apply yields_is
  · intro _
    apply (block_makes inner allowIn).bind made
    intro body s left made ofSort
    exact yields_pure ⟨made, Or.inl ofSort, by simp [ofSort]⟩
  · apply (inner.expression allowIn _).bind made
    intro body s left made ofSort
    exact yields_pure ⟨made, Or.inr ofSort, by simp [other ofSort]⟩

/-- The parameters stand in parentheses, which are closed before the arrow. -/
theorem arrowFunction_yields (made : Derives base base so []) :
    Yields origin so rest (arrowFunction r allowIn start isAsync) fun t s =>
      Derives base base s [t] ∧ t.kind.isExpression = true := by
  apply made.expect .openParen
  intro _ s left _ made
  apply made.trim
  intro s left made
  apply (parameters_yields inner allowIn made).bind
  rintro params s left ⟨made, sorts⟩
  apply made.expect (.plain (by decide))
  intro _ s left _ made
  apply made.trim
  intro s left made
  apply (arrowBody_makes inner allowIn).bind made
  rintro ⟨body, expression⟩ s left made shape
  exact yields_tree made (by simp [Construct.view]) ⟨sorts, shape⟩ rfl rfl

/-- The one parameter is a plain name, and the body follows behind the arrow. -/
theorem singleParamArrow_yields (made : Derives base base so []) :
    Yields origin so rest (singleParamArrow r allowIn start isAsync) fun t s =>
      Derives base base s [t] ∧ t.kind.isExpression = true := by
  apply plainName_makes.bind made
  intro param s left made name
  apply made.trim
  intro s left made
  apply made.expect (.plain (by decide))
  intro _ s left _ made
  apply made.trim
  intro s left made
  apply (arrowBody_makes inner allowIn).bind made
  rintro ⟨body, expression⟩ s left made shape
  have isParam : param.kind.isParam = true :=
    Construct.isParam_of_isDefaulted
      (Construct.isDefaulted_of_isTarget (Construct.isTarget_of_isIdentifier name))
  exact yields_tree made (by simp [Construct.view]) ⟨by simpa using isParam, shape⟩ rfl rfl

end Functions

section Classes

theorem classHeritage_makes : Makes rest (classHeritage r allowIn) Option.toList fun found =>
    ∀ t ∈ found, t.kind.isExpression = true := by
  intro base _ origin
  have made : Derives base base {} [] := .nil
  apply made.accept (.plain (by decide))
  · intro s left made
    apply made.trim
    intro s left made
    apply (inner.expression allowIn _).bind made
    intro heritage s left made ofSort
    apply made.trim
    exact fun s left made => yields_pure ⟨made, by simpa using ofSort⟩
  · exact yields_pure ⟨made, by simp⟩

/-- A member is a method, with parameters and a body, or a property, maybe with a value. -/
theorem classMember_makes : MakesTree rest (classMember r allowIn) Construct.isClassMember := by
  intro base _ origin
  apply yields_begin base
  intro start made
  apply (anyName_makes true).bind made
  intro key s left made name
  apply made.trim
  intro s left made
  apply made.accept .openParen
  · intro s left made
    apply (parametersAndBody_yields inner allowIn made).bind
    rintro ⟨params, body⟩ s left ⟨made, shape⟩
    exact yields_tree made (by simp [Construct.view]) ⟨name, shape⟩ rfl rfl
  · have node (value : Option Tree) {s : Stretch} {left : List (Token TokenKind)}
        (made : Derives base base s (key :: value.toList))
        (sorts : ∀ t ∈ value, t.kind.isExpression = true) :
        Yields origin s left (makeNode start (.classProperty key value) : Rule Tree) fun t s =>
          Derives base base s [t] ∧ t.kind.isClassMember = true :=
      yields_tree made (by simp [Construct.view]) ⟨name, sorts⟩ rfl rfl
    apply made.accept (.plain (by decide))
    · intro s left made
      apply made.trim
      intro s left made
      apply (inner.expression allowIn _).bind made
      intro value s left made ofSort
      exact node (some value) made (by simpa using ofSort)
    · exact node none made (by simp)

theorem classBody_makes : MakesTree rest (classBody r allowIn) Construct.isClassBody := by
  intro base _ origin
  apply yields_begin base
  intro start made
  apply made.expect .openBrace
  intro _ s left _ made
  apply made.trimSeparators
  intro s left made
  apply (separated_trees (fun _ => classMember_makes inner allowIn) made).bind
  rintro members s left ⟨made, sorts⟩
  apply made.expect (.closes .brace)
  intro _ s left _ made
  refine made.makeNode_bind (by simp [Construct.view]) sorts rfl ?_
  intro body s left same made
  apply made.trim
  exact fun s left made => yields_pure ⟨made, congrArg Construct.isClassBody same⟩

/-- A class holds its name, its base if it has one, and its body. -/
theorem classDeclaration_makes (first : firstKind rest = some .kwClass) :
    MakesTree rest (classDeclaration r allowIn) Construct.isDeclaration := by
  intro base _ origin
  apply yields_begin base
  intro start made
  apply made.eat (.plain (by decide)) first
  intro _ s _ made
  apply (anyName_makes false).bind made
  intro id s left made name
  apply made.trim
  intro s left made
  apply (classHeritage_makes inner allowIn).bind made
  intro heritage s left made sorts
  apply (classBody_makes inner allowIn).bind made
  intro body s left made ofSort
  exact yields_tree made (by simp [Construct.view]) ⟨name, sorts, ofSort⟩ rfl rfl

theorem classExpression_makes (first : firstKind rest = some .kwClass) :
    MakesTree rest (classExpression r allowIn) Construct.isExpression := by
  intro base _ origin
  apply yields_begin base
  intro start made
  apply made.eat (.plain (by decide)) first
  intro _ s _ made
  have rest (id : Option Tree) {s : Stretch} {left : List (Token TokenKind)}
      (made : Derives base base s id.toList) (name : ∀ t ∈ id, t.kind.isIdentifier = true) :
      Yields origin s left
        (do
          let heritage ← classHeritage r allowIn
          let body ← classBody r allowIn
          makeNode start (.classExpression id heritage body) : Rule Tree)
        fun t s => Derives base base s [t] ∧ t.kind.isExpression = true := by
    apply (classHeritage_makes inner allowIn).bind made
    intro heritage s left made sorts
    apply (classBody_makes inner allowIn).bind made
    intro body s left made ofSort
    exact yields_tree made (by simp [Construct.view]) ⟨name, sorts, ofSort⟩ rfl rfl
  apply yields_is
  · intro _
    apply (anyName_makes false).bind made
    intro id s left made name
    apply made.trim
    intro s left made
    exact rest (some id) made (by simpa using name)
  · exact rest none made (by simp)

end Classes

end Callables

section Declarations

include inner

/-- A declarator holds a pattern, and its value if it has one. -/
theorem declarator_makes (keyword : String) :
    MakesTree rest (declarator r allowIn keyword) Construct.isDeclarator := by
  intro base _ origin
  apply yields_begin base
  intro start made
  apply (inner.binding allowIn _).bind made
  intro id s left made target
  apply made.trim
  intro s left made
  apply made.accept (.plain (by decide))
  · intro s left made
    apply made.trim
    intro s left made
    apply (inner.expression allowIn _).bind made
    intro init s left made ofSort
    exact yields_tree made (by simp [Construct.view]) ⟨target, by simpa using ofSort⟩ rfl rfl
  · rw [if_neg Bool.false_ne_true]
    apply yields_if (fun rest => rest.isEmpty ||
      ((firstKind rest).any ([.semicolon, .comma, .kwOf, .closeBrace].contains ·)) ||
      (!allowIn && firstKind rest == some .kwIn)) fun s => by
        simp only [declaratorEnds, TokenCursor.willContinue, Bool.not_not]; rfl
    · intro _
      exact yields_tree made (by simp [Construct.view]) ⟨target, by simp⟩ rfl rfl
    · exact fun _ => yields_complain _

theorem declarators_yields [InCode base] {keyword : String} (made : Derives base opened so trees) :
    Yields origin so rest (declarators r allowIn keyword) fun found s =>
      Derives base opened s (trees ++ found) ∧ ∀ t ∈ found, t.kind.isDeclarator = true :=
  commaSeparated_trees (fun _ => declarator_makes inner allowIn keyword) made

/-- The first word is a plain token, whichever of the three it is. The rule behind it does not
depend on it. -/
theorem variableDeclaration_makes {word : TokenKind} (free : word ∉ strictKinds)
    (first : firstKind rest = some word) :
    MakesTree rest (variableDeclaration r allowIn) Construct.isVariableDeclaration := by
  intro base _ origin
  apply yields_begin base
  intro start made
  apply made.eat (.plain free) first
  intro _ s _ made
  apply (declarators_yields inner allowIn made).bind
  rintro found s left ⟨made, sorts⟩
  exact yields_tree made (by simp [Construct.view]) sorts rfl rfl

/-- The separators that the rule takes behind the declaration are plain tokens and make no tree. -/
theorem usingDeclaration_yields [InCode base] {start : Nat} {isAwait : Bool}
    (made : Derives base base so []) (first : firstKind rest = some .kwUsing) :
    Yields origin so rest (usingDeclaration r allowIn start isAwait) fun t s =>
      Derives base base s [t] ∧ t.kind.isDeclaration = true := by
  apply made.eat (.plain (by decide)) first
  intro _ s _ made
  apply (declarators_yields inner allowIn made).bind
  rintro found s left ⟨made, sorts⟩
  refine made.makeNode_bind (by simp [Construct.view]) sorts rfl ?_
  intro node s left same made
  apply made.trimSeparators
  exact fun s left made => yields_pure ⟨made, by rw [same]; rfl⟩

/-- Every sort of declaration is made behind its own first word; any other word is refused. -/
theorem declaration_makes : MakesTree rest (declaration r allowIn) Construct.isDeclaration := by
  intro base _ origin
  have fromWord {word : TokenKind} (free : word ∉ strictKinds)
      (first : firstKind rest = some word) :=
    (variableDeclaration_makes inner allowIn free first).mono
      (fun _ => Construct.isDeclaration_of_isVariableDeclaration) base origin
  apply yields_begin base
  intro start made
  apply yields_currentKind
  split
  · rename_i first
    exact usingDeclaration_yields inner allowIn made first
  · rename_i first
    exact fromWord (by decide) first
  · rename_i first
    exact fromWord (by decide) first
  · rename_i first
    exact fromWord (by decide) first
  · rename_i first
    exact classDeclaration_makes inner allowIn first base origin
  · rename_i first
    exact functionDeclaration_yields inner allowIn made first
  · rename_i first
    apply made.eat (.plain (by decide)) first
    intro _ s _ made
    apply yields_is
    · exact fun next => functionDeclaration_yields inner allowIn made next
    · exact yields_complain _
  · exact yields_complain _

end Declarations

end ScriptFront.Script
