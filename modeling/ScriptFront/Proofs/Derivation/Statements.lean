import ScriptFront.Proofs.Derivation.Expressions
import ScriptFront.Proofs.Grammar.Progress

namespace ScriptFront.Script

open ScriptFront.Parser

variable {origin rest : List (Token TokenKind)} {so : Stretch} {base opened : List Opening}
  {trees : List Tree} {start : Nat}

section Modules

/-- A node that wants nothing but the mark of a module. The rules for imports and exports make such
nodes, and the mark is set before they are called. -/
def Declares (base : List Opening) (t : Tree) (s : Stretch) : Prop :=
  ∃ trees, Derives base base s trees ∧ (∀ u, u ∈ t.kind.children ↔ u ∈ trees) ∧
    t.kind.WellFormed ∧ t.kind.isModuleDeclaration = true

/-- Marking the module before the declaration is parsed is the mark that its node asks for. -/
theorem Declares.marked {t : Tree} {s : Stretch} (declares : Declares base t s) :
    Derives base base (⟨[], true⟩ ++ s) [t] := by
  obtain ⟨trees, made, parts, wellFormed, ofSort⟩ := declares
  exact made.module parts wellFormed ofSort

/-- The mark is set before the declaration is read. -/
theorem markModule_yields {p : Rule Tree} (declares : Yields origin {} rest p (Declares base)) :
    Yields origin {} rest (do markModule; p) fun t s =>
      Derives base base s [t] ∧ t.kind.isStatement = true := by
  have behind : Yields origin ⟨[], true⟩ rest p fun t s =>
      ∃ step, s = ⟨[], true⟩ ++ step ∧ Declares base t step := Yields.behind declares
  apply yields_markModule
  apply behind.mono
  rintro t _ ⟨step, rfl, made⟩
  obtain ⟨-, -, -, -, ofSort⟩ := id made
  exact ⟨made.marked, Construct.isStatement_of_isModuleDeclaration ofSort⟩

/-- The node of an import or an export is made over the parts collected, and counts as one that
marks. -/
theorem declaration_yields {c : Construct} (made : Derives base base so trees)
    (parts : ∀ t, t ∈ c.children ↔ t ∈ trees) (wellFormed : c.WellFormed)
    (ofSort : c.isModuleDeclaration = true) :
    Yields origin so rest (makeNode start c : Rule Tree) (Declares base) := by
  apply (makeNode_yields start c).mono
  rintro ⟨kind, span⟩ s ⟨rfl, rfl, -⟩
  exact ⟨trees, made, parts, wellFormed, ofSort⟩

theorem moduleSource_makes (complaint : Complaint) :
    MakesTree rest (moduleSource complaint) Construct.isStringLiteral := by
  intro base _ origin
  apply yields_is
  · exact fun _ => stringLiteral_makes base origin
  · exact yields_complain _

theorem nameBehindAs_makes (anyWord : Bool) :
    Makes rest (nameBehindAs anyWord) Option.toList fun name =>
      ∀ t ∈ name, t.kind.isIdentifier = true := by
  intro base _ origin
  have made : Derives base base {} [] := .nil
  apply made.accept (.plain (by decide))
  · intro s left made
    apply made.trim
    intro s left made
    apply (anyName_makes anyWord).bind made
    intro name s left made isName
    apply made.trim
    exact fun s left made => yields_pure ⟨made, by simpa using isName⟩
  · exact yields_pure ⟨made, by simp⟩

/-- Without another name the one name stands in the node twice. -/
theorem renamed_yields {sort : Construct → Bool} {anyWord : Bool} {c : Tree → Construct}
    {name : Tree} [InCode base] (made : Derives base base so [name])
    (parts : ∀ other, (c other).children = [name, other])
    (wellFormed : ∀ other, other.kind.isIdentifier = true → (c other).WellFormed)
    (plain : ∀ other, ((c other).isLeaf || (c other).isModuleDeclaration) = false)
    (ofSort : ∀ other, sort (c other) = true) (isName : name.kind.isIdentifier = true) :
    Yields origin so rest (do
      let renamed ← nameBehindAs anyWord
      makeNode start (c (renamed.getD name)) : Rule Tree) fun t s =>
      Derives base base s [t] ∧ sort t.kind = true := by
  apply (nameBehindAs_makes anyWord).bind made
  rintro (_ | other) s left made isOther
  · exact yields_tree made (fun t => by rw [parts]; simp) (wellFormed _ isName) (plain _) (ofSort _)
  · have isOther := isOther other rfl
    exact yields_tree made (fun t => by rw [parts]; simp) (wellFormed _ isOther) (plain _) (ofSort _)

/-- A specifier holds the imported name and its new one, or the imported name twice. -/
theorem importSpecifier_makes : MakesTree rest importSpecifier Construct.isImportSpecifier := by
  intro base _ origin
  apply yields_begin base
  intro start made
  apply (anyName_makes true).bind made
  intro imported s left made isName
  apply made.trim
  intro s left made
  exact renamed_yields (c := .importSpecifier imported) made (fun _ => rfl)
    (fun _ isOther => ⟨isName, isOther⟩) (fun _ => rfl) (fun _ => rfl) isName

theorem importClause_makes : Makes rest importClause id fun found =>
    ∀ t ∈ found, t.kind.isImportSpecifier = true := by
  intro base _ origin
  have specifier {c : Construct} {s : Stretch} {left : List (Token TokenKind)} {name : Tree}
      {start : Nat} (made : Derives base base s [name]) (parts : c.children = [name])
      (wellFormed : c.WellFormed) (plain : (c.isLeaf || c.isModuleDeclaration) = false)
      (ofSort : c.isImportSpecifier = true) :
      Yields origin s left (do
        let specifier ← makeNode start c
        return [specifier] : Rule (List Tree)) fun found s =>
        Derives base base s found ∧ ∀ t ∈ found, t.kind.isImportSpecifier = true := by
    refine made.makeNode_bind (fun t => by rw [parts]) wellFormed plain ?_
    intro t s left same made
    exact yields_pure ⟨made, by simpa [same] using ofSort⟩
  apply yields_begin base
  intro start made
  apply yields_isAny
  · intro _ _ _
    apply (anyName_makes false).bind made
    intro name s left made isName
    exact specifier made rfl isName rfl rfl
  apply made.accept (.plain (by decide))
  · intro s left made
    apply made.trim
    intro s left made
    apply made.expect (.plain (by decide))
    intro _ s left _ made
    apply made.trim
    intro s left made
    apply (anyName_makes false).bind made
    intro name s left made isName
    exact specifier made rfl isName rfl rfl
  · apply made.expect .openBrace
    intro _ s left _ made
    apply made.trim
    intro s left made
    apply (commaSeparated_trees (fun _ => importSpecifier_makes) made).bind
    rintro found s left ⟨made, sorts⟩
    apply made.trim
    intro s left made
    apply made.expect (.closes .brace)
    intro _ s left _ made
    exact yields_pure ⟨made, sorts⟩

/-- The specifiers of all clauses come one after the other, and the source last. -/
theorem importDeclaration_yields [InCode base] (first : firstKind rest = some .kwImport) :
    Yields origin {} rest importDeclaration (Declares base) := by
  apply yields_begin base
  intro start made
  apply made.eat (.plain (by decide)) first
  intro _ s _ made
  apply yields_is
  · intro _
    apply stringLiteral_makes.bind made
    intro source s left made isString
    exact declaration_yields made (by simp [Construct.view]) ⟨by simp, isString⟩ rfl
  · apply (commaSeparated_yields (fun _ => importClause_makes) made).bind
    rintro clauses s left ⟨made, sorts⟩
    apply made.trim
    intro s left made
    apply made.expect (.plain (by decide))
    intro _ s left _ made
    apply made.trim
    intro s left made
    apply (moduleSource_makes _).bind made
    intro source s left made isString
    refine declaration_yields made (by simp [Construct.view]) ⟨fun t member => ?_, isString⟩ rfl
    obtain ⟨clause, isClause, inClause⟩ := List.mem_flatten.mp member
    exact sorts clause isClause t inClause

theorem exportSpecifier_makes : MakesTree rest exportSpecifier Construct.isExportSpecifier := by
  intro base _ origin
  apply yields_begin base
  intro start made
  apply (anyName_makes false).bind made
  intro name s left made isName
  apply made.trim
  intro s left made
  exact renamed_yields (c := .exportSpecifier name) made (fun _ => rfl)
    (fun _ isOther => ⟨isName, isOther⟩) (fun _ => rfl) (fun _ => rfl) isName

variable [InCode base] (made : Derives base base so [])
include made

/-- An export of everything holds its new name, if it has one, and the source. -/
theorem exportAll_yields (first : firstKind rest = some .asterisk) :
    Yields origin so rest (exportAll start) (Declares base) := by
  apply made.eat (.plain (by decide)) first
  intro _ s _ made
  apply (nameBehindAs_makes true).bind made
  intro exported s left made isName
  apply made.expect (.plain (by decide))
  intro _ s left _ made
  apply made.trim
  intro s left made
  apply (moduleSource_makes _).bind made
  intro source s left made isString
  exact declaration_yields made (by simp [Construct.view]) ⟨isName, isString⟩ rfl

theorem exportList_yields (first : firstKind rest = some .openBrace) :
    Yields origin so rest (exportList start) (Declares base) := by
  apply made.eat .openBrace first
  intro _ s _ made
  apply (commaSeparated_trees (fun _ => exportSpecifier_makes) made).bind
  rintro specifiers s left ⟨made, sorts⟩
  apply made.expect (.closes .brace)
  intro _ s left _ made
  apply made.trim
  intro s left made
  have node (source : Option Tree) {s : Stretch} {left : List (Token TokenKind)}
      (made : Derives base base s (specifiers ++ source.toList))
      (isString : ∀ t ∈ source, t.kind.isStringLiteral = true) :
      Yields origin s left
        (makeNode start (.exportNamedDeclaration none specifiers source) : Rule Tree)
        (Declares base) :=
    declaration_yields made (by simp [Construct.view]) ⟨by simp, sorts, isString⟩ rfl
  apply made.accept (.plain (by decide))
  · intro s left made
    apply made.trim
    intro s left made
    apply (moduleSource_makes _).bind made
    intro source s left made isString
    exact node (some source) made (by simpa using isString)
  · exact node none (by simpa using made) (by simp)

omit made

/-- The four forms of an export, by the token behind the word. Each marks the module. -/
theorem exportDeclaration_yields {r : Rules} (inner : r.Make) (allowIn : Bool)
    (first : firstKind rest = some .kwExport) :
    Yields origin {} rest (exportDeclaration r allowIn) (Declares base) := by
  apply yields_begin base
  intro start made
  apply made.eat (.plain (by decide)) first
  intro _ s _ made
  apply yields_currentKind
  split
  · rename_i next
    apply made.eat (.plain (by decide)) next
    intro _ s _ made
    apply (inner.expression allowIn _).bind made
    intro value s left made ofSort
    exact declaration_yields made (by simp [Construct.view]) ofSort rfl
  · rename_i next
    exact exportAll_yields made next
  · rename_i next
    exact exportList_yields made next
  · apply (declaration_makes inner allowIn).bind made
    intro exported s left made ofSort
    exact declaration_yields made (by simp [Construct.view])
      ⟨by simpa using ofSort, by simp, by simp⟩ rfl

end Modules

variable {r : Rules} (inner : r.Make) (allowIn : Bool)
include inner

section Control

/-- The parentheses of a head close around one expression, which is all that is made. -/
theorem parenthesized_makes (head : Head) :
    MakesTree rest (parenthesized r head) Construct.isExpression := by
  intro base _ origin
  have made : Derives base base {} [] := .nil
  apply made.expect .openParen
  intro _ s left _ made
  apply made.trim
  intro s left made
  apply (inner.expression true _).bind made
  intro t s left made ofSort
  apply made.trim
  intro s left made
  apply made.expect (.closes .paren)
  intro _ s left _ made
  apply made.trim
  exact fun s left made => yields_pure ⟨made, ofSort⟩

/-- A branch is a block, a statement, or a lone semicolon, which has a node of its own. -/
theorem branch_makes : MakesTree rest (branch r allowIn) Construct.isBranch := by
  intro base _ origin
  apply yields_is
  · exact fun _ => (block_makes inner allowIn).mono
      (fun _ => Construct.isBranch_of_isBlock) base origin
  · apply yields_begin base
    intro start made
    apply made.accept (.plain (by decide))
    · intro s left made
      exact yields_tree made (by simp [Construct.view]) trivial rfl rfl
    · exact (inner.statement allowIn _).mono
        (fun _ => Construct.isBranch_of_isStatement) base origin

/-- A condition holds its test, its branch and, behind `else`, its other branch. With another `if`
there the rule for conditions is used directly. -/
theorem ifStatement_makes (first : firstKind rest = some .kwIf) :
    MakesTree rest (ifStatement r allowIn) Construct.isStatement := by
  intro base _ origin
  apply yields_begin base
  intro start made
  apply made.eat (.plain (by decide)) first
  intro _ s _ made
  apply (parenthesized_makes inner _).bind made
  intro test s left made ofTest
  apply (branch_makes inner allowIn).bind made
  intro consequent s left made ofConsequent
  apply made.trim
  intro s left made
  have node (alternate : Option Tree) {s : Stretch} {left : List (Token TokenKind)}
      (made : Derives base base s ([test, consequent] ++ alternate.toList))
      (sorts : ∀ t ∈ alternate, t.kind.isBranch = true) :
      Yields origin s left
        (makeNode start (.ifStatement test consequent alternate) : Rule Tree) fun t s =>
          Derives base base s [t] ∧ t.kind.isStatement = true :=
    yields_tree made (by simp [Construct.view]) ⟨ofTest, ofConsequent, sorts⟩ rfl rfl
  apply made.accept (.plain (by decide))
  · intro s left made
    apply made.trim
    intro s left made
    apply yields_is
    · intro next
      apply ((inner.ifStatement allowIn next).mono
        (fun _ => Construct.isBranch_of_isStatement)).bind made
      intro alternate s left made ofSort
      exact node (some alternate) made (by simpa using ofSort)
    · apply (branch_makes inner allowIn).bind made
      intro alternate s left made ofSort
      exact node (some alternate) made (by simpa using ofSort)
  · exact node none made (by simp)

theorem withStatement_makes (first : firstKind rest = some .kwWith) :
    MakesTree rest (withStatement r allowIn) Construct.isStatement := by
  intro base _ origin
  apply yields_begin base
  intro start made
  apply made.eat (.plain (by decide)) first
  intro _ s _ made
  apply (parenthesized_makes inner _).bind made
  intro object s left made ofObject
  apply (branch_makes inner allowIn).bind made
  intro body s left made ofBody
  exact yields_tree made (by simp [Construct.view]) ⟨ofObject, ofBody⟩ rfl rfl

theorem whileStatement_makes (first : firstKind rest = some .kwWhile) :
    MakesTree rest (whileStatement r allowIn) Construct.isStatement := by
  intro base _ origin
  apply yields_begin base
  intro start made
  apply made.eat (.plain (by decide)) first
  intro _ s _ made
  apply (parenthesized_makes inner _).bind made
  intro test s left made ofTest
  apply (branch_makes inner allowIn).bind made
  intro body s left made ofBody
  exact yields_tree made (by simp [Construct.view]) ⟨ofTest, ofBody⟩ rfl rfl

/-- Body and test come in the order in which the source has them. -/
theorem doWhileStatement_makes (first : firstKind rest = some .kwDo) :
    MakesTree rest (doWhileStatement r allowIn) Construct.isStatement := by
  intro base _ origin
  apply yields_begin base
  intro start made
  apply made.eat (.plain (by decide)) first
  intro _ s _ made
  apply (block_makes inner allowIn).bind made
  intro body s left made ofBody
  apply made.expect (.plain (by decide))
  intro _ s left _ made
  apply made.trim
  intro s left made
  apply (inner.expression allowIn _).bind made
  intro test s left made ofTest
  exact yields_tree made (by simp [Construct.view]) ⟨ofBody, ofTest⟩ rfl rfl

theorem catchParam_makes : Makes rest (catchParam r allowIn) Option.toList fun param =>
    ∀ t ∈ param, t.kind.isTarget = true := by
  intro base _ origin
  have made : Derives base base {} [] := .nil
  apply made.accept .openParen
  · intro s left made
    apply made.trim
    intro s left made
    apply (inner.binding allowIn _).bind made
    intro param s left made ofSort
    apply made.trim
    intro s left made
    apply made.expect (.closes .paren)
    intro _ s left _ made
    apply made.trim
    exact fun s left made => yields_pure ⟨made, by simpa using ofSort⟩
  · exact yields_pure ⟨made, by simp⟩

theorem catchClause_makes : Makes rest (catchClause r allowIn) Option.toList fun handler =>
    ∀ t ∈ handler, t.kind.isCatchClause = true := by
  intro base _ origin
  apply yields_is
  · intro first
    apply yields_begin base
    intro start made
    apply made.eat (.plain (by decide)) first
    intro _ s _ made
    apply (catchParam_makes inner allowIn).bind made
    intro param s left made ofParam
    apply (block_makes inner allowIn).bind made
    intro body s left made ofBody
    apply Yields.map
    refine made.makeNode (by simp [Construct.view]) ⟨ofParam, ofBody⟩ rfl ?_
    exact fun _ _ same made => ⟨made, by simp [same, Construct.isCatchClause]⟩
  · exact yields_pure ⟨.nil, by simp⟩

theorem finalizer_makes : Makes rest (finalizer r allowIn) Option.toList fun handler =>
    ∀ t ∈ handler, t.kind.isBlock = true := by
  intro base _ origin
  have made : Derives base base {} [] := .nil
  apply made.accept (.plain (by decide))
  · intro s left made
    apply made.trim
    intro s left made
    apply Yields.map
    apply ((block_makes inner allowIn).extends made).mono
    exact fun _ _ ⟨made, ofSort⟩ => ⟨made, by simpa using ofSort⟩
  · exact yields_pure ⟨made, by simp⟩

/-- One of handler and last block is there, which is what the node asks for; the rule refuses a
`try` without both. -/
theorem tryStatement_makes (first : firstKind rest = some .kwTry) :
    MakesTree rest (tryStatement r allowIn) Construct.isStatement := by
  intro base _ origin
  apply yields_begin base
  intro start made
  apply made.eat (.plain (by decide)) first
  intro _ s _ made
  apply (block_makes inner allowIn).bind made
  intro body s left made ofBody
  apply (catchClause_makes inner allowIn).bind made
  intro handler s left made ofHandler
  apply (finalizer_makes inner allowIn).bind made
  intro finalizer s left made ofFinalizer
  split
  · exact yields_complain _
  · rename_i handled
    have either : handler.isSome ∨ finalizer.isSome := by
      cases handler <;> cases finalizer <;> simp_all
    exact yields_tree made (by simp [Construct.view])
      ⟨ofBody, ofHandler, ofFinalizer, either⟩ rfl rfl

theorem caseTest_makes : Makes rest (caseTest r allowIn) Option.toList fun test =>
    ∀ t ∈ test, t.kind.isExpression = true := by
  intro base _ origin
  have made : Derives base base {} [] := .nil
  apply made.accept (.plain (by decide))
  · intro s left made
    apply made.trim
    intro s left made
    apply (inner.expression allowIn _).bind made
    intro test s left made ofSort
    apply made.expect (.plain (by decide))
    exact fun _ s left _ made => yields_pure ⟨made, by simpa using ofSort⟩
  rw [if_neg Bool.false_ne_true]
  apply made.accept (.plain (by decide))
  · intro s left made
    apply made.trim
    intro s left made
    apply made.expect (.plain (by decide))
    exact fun _ s left _ made => yields_pure ⟨made, by simp⟩
  · exact yields_complain _

theorem switchCase_makes : MakesTree rest (switchCase r allowIn) Construct.isSwitchCase := by
  intro base _ origin
  apply yields_begin base
  intro start made
  apply (caseTest_makes inner allowIn).bind made
  intro test s left made ofTest
  apply made.trimSeparators
  intro s left made
  apply (separated_trees (inner.statement allowIn) made).bind
  rintro consequent s left ⟨made, sorts⟩
  exact yields_tree made (by simp [Construct.view]) ⟨ofTest, sorts⟩ rfl rfl

/-- Nothing but cases stands between the braces. -/
theorem switchStatement_makes (first : firstKind rest = some .kwSwitch) :
    MakesTree rest (switchStatement r allowIn) Construct.isStatement := by
  intro base _ origin
  apply yields_begin base
  intro start made
  apply made.eat (.plain (by decide)) first
  intro _ s _ made
  apply (parenthesized_makes inner _).bind made
  intro discriminant s left made ofDiscriminant
  apply made.expect .openBrace
  intro _ s left _ made
  apply made.trim
  intro s left made
  apply (items_yields (fun rest => firstKind rest == some .closeBrace) (fun _ => rfl)
    (fun made => (switchCase_makes inner allowIn).extends made)
    (fun made => yields_pure made) made).bind
  rintro cases s left ⟨made, sorts⟩
  apply made.expect (.closes .brace)
  intro _ s left _ made
  exact yields_tree made (by simp [Construct.view]) ⟨ofDiscriminant, sorts⟩ rfl rfl

section Loops

/-- The parentheses that end here are the loop's. -/
theorem forBody_yields [InCode opened] (made : Derives base (.paren :: opened) so trees) :
    Yields origin so rest (forBody r allowIn) fun body s =>
      Derives base opened s (trees ++ [body]) ∧ body.kind.isBranch = true := by
  apply made.trim
  intro s left made
  apply made.expect (.closes .paren)
  intro _ s left _ made
  apply made.trim
  intro s left made
  exact (branch_makes inner allowIn).extends made

theorem forClause_makes (stop : TokenKind) : Makes rest (forClause r allowIn stop) Option.toList
    fun clause => ∀ t ∈ clause, t.kind.isExpression = true := by
  intro base _ origin
  apply yields_is
  · exact fun _ => yields_pure ⟨.nil, by simp⟩
  · apply Yields.map
    apply (inner.expression allowIn _ base origin).mono
    exact fun _ _ ⟨made, ofSort⟩ => ⟨made, by simpa using ofSort⟩

theorem forInit_makes : MakesTree rest (forInit r) Construct.isForInit := by
  intro base _ origin
  apply yields_isAny
  · intro word listed first
    have free : ∀ kind ∈ [TokenKind.kwConst, .kwVar, .kwLet], kind ∉ strictKinds := by decide
    exact (variableDeclaration_makes inner false (free word listed) first).mono
      (fun _ => Construct.isForInit_of_isVariableDeclaration) base origin
  · exact (inner.expression false _).mono
      (fun _ => Construct.isForInit_of_isExpression) base origin

variable [InCode base]

/-- Behind the first clause, which has been made already, the values and the body follow. The
parenthesis is closed in between. -/
theorem forOf_yields {left : Tree} {isAwait : Bool} (made : Derives base (.paren :: base) so [left])
    (ofLeft : left.kind.isForInit = true) :
    Yields origin so rest (forOf r allowIn start left isAwait) fun t s =>
      Derives base base s [t] ∧ t.kind.isStatement = true := by
  apply made.expect (.plain (by decide))
  intro _ s _ _ made
  apply made.trim
  intro s _ made
  apply (inner.expression allowIn _).bind made
  intro right s _ made ofRight
  apply (forBody_yields inner allowIn made).bind
  rintro body s _ ⟨made, ofBody⟩
  exact yields_tree made (by simp [Construct.view]) ⟨ofLeft, ofRight, ofBody⟩ rfl rfl

theorem forIn_yields {left : Tree} (made : Derives base (.paren :: base) so [left])
    (ofLeft : left.kind.isForInit = true) (first : firstKind rest = some .kwIn) :
    Yields origin so rest (forIn r allowIn start left) fun t s =>
      Derives base base s [t] ∧ t.kind.isStatement = true := by
  apply made.eat (.plain (by decide)) first
  intro _ s _ made
  apply (inner.expression allowIn _).bind made
  intro right s _ made ofRight
  apply (forBody_yields inner allowIn made).bind
  rintro body s _ ⟨made, ofBody⟩
  exact yields_tree made (by simp [Construct.view]) ⟨ofLeft, ofRight, ofBody⟩ rfl rfl

/-- Test and update may both be missing, and the first clause too. -/
theorem forThree_yields (init : Option Tree) (made : Derives base (.paren :: base) so init.toList)
    (ofInit : ∀ t ∈ init, t.kind.isForInit = true) :
    Yields origin so rest (forThree r allowIn start init) fun t s =>
      Derives base base s [t] ∧ t.kind.isStatement = true := by
  apply made.expect (.plain (by decide))
  intro _ s left _ made
  apply made.trim
  intro s left made
  apply (forClause_makes inner allowIn _).bind made
  intro test s left made ofTest
  apply made.trim
  intro s left made
  apply made.expect (.plain (by decide))
  intro _ s left _ made
  apply made.trim
  intro s left made
  apply (forClause_makes inner allowIn _).bind made
  intro update s left made ofUpdate
  apply (forBody_yields inner allowIn made).bind
  rintro body s left ⟨made, ofBody⟩
  exact yields_tree made (by simp [Construct.view]) ⟨ofInit, ofTest, ofUpdate, ofBody⟩ rfl rfl

omit [InCode base]

/-- The parenthesis of the header is open in all three loops until the body begins. -/
theorem forStatement_makes (first : firstKind rest = some .kwFor) :
    MakesTree rest (forStatement r allowIn) Construct.isStatement := by
  intro base _ origin
  apply yields_begin base
  intro start made
  apply made.eat (.plain (by decide)) first
  intro _ s _ made
  have head {isAwait : Bool} {s : Stretch} {left : List (Token TokenKind)}
      (made : Derives base base s []) : Yields origin s left
      (do
        trim
        let _ ← expect .openParen .forParen
        trim
        if ← at? .semicolon then
          forThree r allowIn start none
        else
          let init ← forInit r
          trim
          if isAwait || (← at? .kwOf) then forOf r allowIn start init isAwait
          else if ← at? .kwIn then forIn r allowIn start init
          else forThree r allowIn start (some init) : Rule Tree)
      fun t s => Derives base base s [t] ∧ t.kind.isStatement = true := by
    apply made.trim
    intro s left made
    apply made.expect .openParen
    intro _ s left _ made
    apply made.trim
    intro s left made
    apply yields_is
    · exact fun _ => forThree_yields inner allowIn none made (by simp)
    apply (forInit_makes inner).bind made
    intro init s left made ofInit
    apply made.trim
    intro s left made
    apply yields_observe (fun rest => firstKind rest == some .kwOf) fun _ => rfl
    apply Yields.ite
    · exact forOf_yields inner allowIn made ofInit
    apply yields_is
    · exact fun next => forIn_yields inner allowIn made ofInit next
    · exact forThree_yields inner allowIn (some init) made (by simpa using ofInit)
  apply made.accept (.plain (by decide))
  · exact fun s left made => head made
  · exact head made

end Loops

end Control

section Statements

theorem expressionStatement_makes :
    MakesTree rest (expressionStatement r allowIn) Construct.isStatement := by
  intro base _ origin
  apply yields_begin base
  intro start made
  apply (expression_makes inner allowIn).bind made
  intro inside s left made ofSort
  exact yields_tree made (by simp [Construct.view]) ofSort rfl rfl

theorem returnStatement_makes (first : firstKind rest = some .kwReturn) :
    MakesTree rest (returnStatement r allowIn) Construct.isStatement := by
  intro base _ origin
  apply yields_begin base
  intro start made
  apply made.eat (.plain (by decide)) first
  intro _ s _ made
  apply yields_if (fun rest => rest.isEmpty ||
    (firstKind rest).any ([.semicolon, .closeBrace].contains ·)) fun s => by
      simp only [TokenCursor.willContinue, Bool.not_not]; rfl
  · intro _
    exact yields_tree made (by simp [Construct.view]) (by simp [Construct.WellFormed]) rfl rfl
  · intro _
    apply (inner.expression allowIn _).bind made
    intro argument s left made ofSort
    exact yields_tree made (by simp [Construct.view])
      (by simpa [Construct.WellFormed] using ofSort) rfl rfl

theorem throwStatement_makes (first : firstKind rest = some .kwThrow) :
    MakesTree rest (throwStatement r allowIn) Construct.isStatement := by
  intro base _ origin
  apply yields_begin base
  intro start made
  apply made.eat (.plain (by decide)) first
  intro _ s _ made
  apply (inner.expression allowIn _).bind made
  intro argument s left made ofSort
  exact yields_tree made (by simp [Construct.view]) ofSort rfl rfl

theorem labeledStatement_makes :
    MakesTree rest (labeledStatement r allowIn) Construct.isStatement := by
  intro base _ origin
  apply yields_begin base
  intro start made
  apply plainName_makes.bind made
  intro label s left made name
  apply made.trim
  intro s left made
  apply made.expect (.plain (by decide))
  intro _ s left _ made
  apply made.trim
  intro s left made
  apply (inner.statement allowIn _).bind made
  intro body s left made ofSort
  exact yields_tree made (by simp [Construct.view]) ⟨name, ofSort⟩ rfl rfl

/-- The word `await` is one more plain token in front of the declaration. -/
theorem awaitUsing_makes (first : firstKind rest = some .kwAwait)
    (next : firstKind (rest.tail.dropWhile Token.isSpace) = some .kwUsing) :
    MakesTree rest (awaitUsing r allowIn) Construct.isDeclaration := by
  intro base _ origin
  apply yields_begin base
  intro start made
  apply made.eat (.plain (by decide)) first
  intro _ s _ made
  exact usingDeclaration_yields inner allowIn made next

/-- Whatever a statement begins with, its rule makes one tree that may stand as a statement. The
cases are those of the first token, and three of them look at the token behind it. -/
theorem bareStatement_makes : MakesTree rest (bareStatement r allowIn) Construct.isStatement := by
  intro base _ origin
  have plain : Yields origin {} rest (expressionStatement r allowIn) fun t s =>
      Derives base base s [t] ∧ t.kind.isStatement = true :=
    expressionStatement_makes inner allowIn base origin
  have declared : Yields origin {} rest (declaration r allowIn) fun t s =>
      Derives base base s [t] ∧ t.kind.isStatement = true :=
    (declaration_makes inner allowIn).mono (fun _ => Construct.isStatement_of_isDeclaration) base
      origin
  apply yields_currentKind
  split
  · exact declared
  · exact declared
  · exact declared
  · exact declared
  · exact declared
  · exact declared
  · exact yields_followedBy (fun _ => declared) plain
  · rename_i first
    exact ifStatement_makes inner allowIn first base origin
  · rename_i first
    exact withStatement_makes inner allowIn first base origin
  · rename_i first
    exact tryStatement_makes inner allowIn first base origin
  · rename_i first
    exact forStatement_makes inner allowIn first base origin
  · rename_i first
    exact doWhileStatement_makes inner allowIn first base origin
  · rename_i first
    exact whileStatement_makes inner allowIn first base origin
  · rename_i first
    exact switchStatement_makes inner allowIn first base origin
  · rename_i first
    exact blockComment_makes first base origin
  · rename_i first
    exact lineComment_makes (fun _ => rfl) first base origin
  · rename_i first
    exact markModule_yields (importDeclaration_yields first)
  · rename_i first
    exact markModule_yields (exportDeclaration_yields inner allowIn first)
  · rename_i first
    exact returnStatement_makes inner allowIn first base origin
  · rename_i first
    exact throwStatement_makes inner allowIn first base origin
  · exact (block_makes inner allowIn).mono (fun _ => Construct.isStatement_of_isBlock) base origin
  · rename_i first
    apply yields_followedBy
    · intro next
      exact (awaitUsing_makes inner allowIn first next).mono
        (fun _ => Construct.isStatement_of_isDeclaration) base origin
    · exact plain
  · exact yields_followedBy (fun _ => labeledStatement_makes inner allowIn base origin) plain
  · exact plain

/-- The layout in front of a statement and the separators behind it are tokens without a tree. -/
theorem statement_makes : MakesTree rest (statement r allowIn) Construct.isStatement := by
  intro base _ origin
  have made : Derives base base {} [] := .nil
  apply made.trim
  intro s left made
  apply (bareStatement_makes inner allowIn).bind made
  intro node s left made ofSort
  apply made.trimSeparators
  exact fun s left made => yields_pure ⟨made, ofSort⟩

end Statements

end ScriptFront.Script
