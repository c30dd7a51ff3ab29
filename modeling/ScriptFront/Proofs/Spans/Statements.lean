import ScriptFront.Proofs.Spans.Expressions
import ScriptFront.Script.Parse

namespace ScriptFront.Script

open ScriptFront.Parser

variable {ts : List (Token TokenKind)} {i : Nat} (lexed : Lexed ts) {r : Rules}
  (inner : r.Lays ts) (allowIn : Bool)
include lexed inner

section Declarations

theorem declarator_laid (keyword : String) (i : Nat) :
    Lands ts i (declarator r allowIn keyword) fun t j => Laid ts i j t := by
  apply lands_mark
  apply (inner.binding allowIn i).bind
  intro id j _ laidId
  apply trim_lands.bind
  intro _ k _ _
  apply lands_accept_ite
  · intro _ _ _
    apply trim_lands.bind
    intro _ l _ _
    apply (inner.expression allowIn l).bind
    intro init m _ laidInit
    have name : Laid ts i m id := laidId.mono (by omega) (by omega)
    exact lands_laid lexed name.solid ⟨name, (laidInit.mono (by omega) (by omega)).some⟩
  · apply lands_if
    · have name : Laid ts i k id := laidId.mono (by omega) (by omega)
      exact lands_laid lexed name.solid ⟨name, .none⟩
    · exact lands_fail _

theorem declarators_laid (keyword : String) (i : Nat) :
    Lands ts i (declarators r allowIn keyword) fun nodes j => LaidAll ts i j nodes :=
  commaSeparated_laid (declarator_laid lexed inner allowIn keyword) _ i

/-- A declaration without declarators still has its word. -/
theorem variableDeclaration_spanned (solid : Solid ts i) :
    Lands ts i (variableDeclaration r allowIn) fun t j => Spanned ts i j t := by
  apply lands_mark
  apply eat_lands.bind
  rintro word j _ ⟨-, further⟩
  apply (declarators_laid lexed inner allowIn _ j).bind
  intro nodes k _ laid
  exact lands_spanned lexed ⟨i, by omega, by omega, solid⟩
    ⟨trivial, laid.mono (by omega) (by omega)⟩

/-- The separators that this rule takes are taken after its node was made, so they are a gap behind
it. -/
theorem usingDeclaration_spanned {start : Nat} (since : start ≤ i) (solid : Solid ts start)
    (isAwait : Bool) :
    Lands ts i (usingDeclaration r allowIn start isAwait) fun t j => Spanned ts start j t := by
  apply eat_lands.bind
  rintro _ j _ ⟨-, further⟩
  apply (declarators_laid lexed inner allowIn _ j).bind
  intro nodes k _ laid
  refine Lands.bind (lands_spanned lexed ⟨start, by omega, by omega, solid⟩
    ⟨trivial, laid.mono (by omega) (by omega)⟩) ?_
  intro node l _ spanned
  apply trimSeparators_lands.bind
  intro _ m onward gap
  exact lands_pure (spanned.beyond gap onward)

/-- Each sort of declaration reaches over all that it took, from its first word on. -/
theorem declaration_spanned (i : Nat) :
    Lands ts i (declaration r allowIn) fun t j => Spanned ts i j t := by
  have since := Nat.le_refl i
  apply lands_mark
  apply lands_currentKind
  split
  · rename_i atKind
    exact usingDeclaration_spanned lexed inner allowIn since
      (lexed.solid_of_kind atKind (by decide)) false
  · rename_i atKind
    exact variableDeclaration_spanned lexed inner allowIn (lexed.solid_of_kind atKind (by decide))
  · rename_i atKind
    exact variableDeclaration_spanned lexed inner allowIn (lexed.solid_of_kind atKind (by decide))
  · rename_i atKind
    exact variableDeclaration_spanned lexed inner allowIn (lexed.solid_of_kind atKind (by decide))
  · exact classDeclaration_spanned lexed inner allowIn i
  · exact functionDeclaration_spanned lexed inner allowIn since false
  · apply eat_lands.bind
    intro _ j onward _
    exact lands_if (functionDeclaration_spanned lexed inner allowIn onward true) (lands_fail _)
  · exact lands_fail _

end Declarations

section Modules

omit inner in
theorem moduleSource_laid (complaint : Complaint) :
    Lands ts i (moduleSource complaint) fun t j => Laid ts i j t := by
  exact lands_if (stringLiteral_laid lexed) (lands_fail _)

omit inner in
theorem nameBehindAs_laid (anyWord : Bool) :
    Lands ts i (nameBehindAs anyWord) fun name j => MaybeLaid ts i j name := by
  apply lands_accept_ite
  · intro _ _ _
    apply trim_lands.bind
    intro _ j _ _
    apply (anyName_laid lexed anyWord).bind
    intro name k _ laid
    apply trim_lands.bind
    intro _ l _ _
    exact lands_pure (laid.mono (by omega) (by omega)).some
  · exact lands_pure .none

omit lexed inner in
/-- A name that is not changed stands for itself a second time. -/
theorem getD_laid {j : Nat} {name : Tree} {renamed : Option Tree} (own : Laid ts i j name)
    (other : MaybeLaid ts i j renamed) : Laid ts i j (renamed.getD name) := by
  cases renamed with
  | none => exact own
  | some t => exact other t rfl

omit inner in
/-- A specifier without a new name holds one tree in two fields. -/
theorem importSpecifier_laid (i : Nat) :
    Lands ts i importSpecifier fun t j => Laid ts i j t := by
  apply lands_mark
  apply (anyName_laid lexed true).bind
  intro imported j _ laidImported
  apply trim_lands.bind
  intro _ k _ _
  apply (nameBehindAs_laid lexed false).bind
  intro renamed l _ laidRenamed
  have name : Laid ts i l imported := laidImported.mono (by omega) (by omega)
  exact lands_laid lexed name.solid
    ⟨name, getD_laid name (laidRenamed.mono (by omega) (by omega))⟩

omit inner in
theorem exportSpecifier_laid (i : Nat) :
    Lands ts i exportSpecifier fun t j => Laid ts i j t := by
  apply lands_mark
  apply (anyName_laid lexed false).bind
  intro name j _ laidName
  apply trim_lands.bind
  intro _ k _ _
  apply (nameBehindAs_laid lexed true).bind
  intro renamed l _ laidRenamed
  have own : Laid ts i l name := laidName.mono (by omega) (by omega)
  exact lands_laid lexed own.solid
    ⟨own, getD_laid own (laidRenamed.mono (by omega) (by omega))⟩

omit inner in
theorem importClause_laid (i : Nat) :
    Lands ts i importClause fun nodes j => i ≤ j ∧ LaidAll ts i j nodes := by
  have alone {j : Nat} {t : Tree} (laid : Laid ts i j t) : i ≤ j ∧ LaidAll ts i j [t] :=
    ⟨by have some := laid.between.low_lt; omega, j, laid, Nat.le_refl j, trivial⟩
  apply lands_mark
  apply lands_if
  · apply (anyName_laid lexed false).bind
    intro name j _ laid
    refine Lands.bind (lands_laid lexed laid.solid laid) ?_
    intro specifier k _ laidSpecifier
    exact lands_pure (alone laidSpecifier)
  · apply lands_accept_ite
    · intro _ _ _
      apply trim_lands.bind
      intro _ j _ _
      apply lands_expect_trim lexed (by decide)
      intro _ l _
      apply (anyName_laid lexed false).bind
      intro name m _ laid
      have inside : Laid ts i m name := laid.mono (by omega) (by omega)
      refine Lands.bind (lands_laid lexed inside.solid inside) ?_
      intro specifier n _ laidSpecifier
      exact lands_pure (alone laidSpecifier)
    · apply lands_expect_trim lexed (by decide)
      intro _ k _
      apply (commaSeparated_laid (importSpecifier_laid lexed) _ k).bind
      intro specifiers l _ laid
      apply trim_lands.bind
      intro _ m _ _
      apply (expect_solid lexed _ (by decide)).bind
      intro _ n _ _
      exact lands_pure ⟨by omega, laid.mono (by omega) (by omega)⟩

omit inner in
/-- The lists of several clauses make up one list. -/
theorem importClauses_laid (stop : List TokenKind) (i : Nat) :
    Lands ts i (commaSeparated stop importClause) fun clauses j =>
      i ≤ j ∧ LaidAll ts i j clauses.flatten := by
  apply lands_items (importClause_laid lexed)
  · exact fun _ => commaFollows_onward
  · exact fun i => ⟨Nat.le_refl i, trivial⟩
  · rintro i j k l clause others ⟨order, first⟩ gap ⟨after, rest⟩
    exact ⟨by omega, first.append (rest.mono gap (Nat.le_refl l)) order (by omega)⟩

omit inner in
/-- The specifiers of all clauses are laid in one row. -/
theorem importDeclaration_spanned (i : Nat) :
    Lands ts i importDeclaration fun t j => Spanned ts i j t := by
  apply lands_mark
  apply eat_lands.bind
  intro _ j _ _
  apply lands_if
  · apply (stringLiteral_laid lexed).bind
    intro source k _ laid
    have inside : Laid ts i k source := laid.mono (by omega) (by omega)
    exact lands_spanned lexed inside.solid ⟨trivial, inside⟩
  · apply (importClauses_laid lexed _ j).bind
    rintro clauses k _ ⟨-, laidClauses⟩
    apply trim_lands.bind
    intro _ l _ _
    apply lands_expect_trim lexed (by decide)
    intro _ n _
    apply (moduleSource_laid lexed _).bind
    intro source o _ laid
    have inside : Laid ts i o source := laid.mono (by omega) (by omega)
    exact lands_spanned lexed inside.solid ⟨laidClauses.mono (by omega) (by omega), inside⟩

omit inner in
theorem exportAll_spanned {start : Nat} (since : start ≤ i) :
    Lands ts i (exportAll start) fun t j => Spanned ts start j t := by
  apply eat_lands.bind
  intro _ j _ _
  apply (nameBehindAs_laid lexed true).bind
  intro exported k _ laidExported
  apply lands_expect_trim lexed (by decide)
  intro _ m _
  apply (moduleSource_laid lexed _).bind
  intro source n _ laid
  have inside : Laid ts start n source := laid.mono (by omega) (by omega)
  exact lands_spanned lexed inside.solid ⟨laidExported.mono (by omega) (by omega), inside⟩

omit inner in
/-- Without a source the node is made behind the layout that follows the closing brace. That layout
belongs to no node. -/
theorem exportList_spanned {start : Nat} (since : start ≤ i) :
    Lands ts i (exportList start) fun t j => Spanned ts start j t := by
  apply eat_lands.bind
  intro _ j _ _
  apply (commaSeparated_laid (exportSpecifier_laid lexed) _ j).bind
  intro specifiers k _ laid
  apply (expect_solid lexed _ (by decide)).bind
  rintro _ l _ ⟨solid, rfl⟩
  apply trim_lands.bind
  intro _ m _ _
  have node (n : Nat) (source : Option Tree) (onward : m ≤ n)
      (laidSource : MaybeLaid ts start n source) :
      Lands ts n (makeNode start (.exportNamedDeclaration none specifiers source) : Rule Tree)
        fun t j => Spanned ts start j t :=
    lands_spanned lexed ⟨k, by omega, by omega, solid⟩
      ⟨.none, laid.mono (by omega) (by omega), laidSource⟩
  apply lands_accept_ite
  · intro _ _ _
    apply trim_lands.bind
    intro _ n _ _
    apply (moduleSource_laid lexed _).bind
    intro source o _ laidSource
    exact node o (some source) (by omega) (laidSource.mono (by omega) (by omega)).some
  · exact node m none (by omega) .none

theorem exportDeclaration_spanned (i : Nat) :
    Lands ts i (exportDeclaration r allowIn) fun t j => Spanned ts i j t := by
  apply lands_mark
  apply eat_lands.bind
  intro _ j since _
  apply lands_currentKind
  split
  · apply eat_lands.bind
    intro _ k _ _
    apply (inner.expression allowIn k).bind
    intro value l _ laid
    have inside : Laid ts i l value := laid.mono (by omega) (by omega)
    exact lands_spanned lexed inside.solid inside
  · exact exportAll_spanned lexed since
  · exact exportList_spanned lexed since
  · apply (declaration_spanned lexed inner allowIn j).bind
    intro exported k _ spanned
    have inside : Laid ts i k exported := spanned.laid.mono (by omega) (by omega)
    exact lands_spanned lexed inside.solid ⟨inside.some, trivial, .none⟩

end Modules

section Control

theorem parenthesized_laid (head : Head) (i : Nat) :
    Lands ts i (parenthesized r head) fun t j => Laid ts i j t := by
  apply lands_expect_trim lexed (by decide)
  intro _ k _
  apply (inner.expression true k).bind
  intro inside l _ laid
  apply trim_lands.bind
  intro _ m _ _
  apply lands_expect_trim lexed (by decide)
  intro _ o _
  exact lands_pure (laid.mono (by omega) (by omega))

/-- A lone semicolon is a node over itself. -/
theorem branch_laid (i : Nat) : Lands ts i (branch r allowIn) fun t j => Laid ts i j t := by
  apply lands_if (block_laid lexed inner allowIn i)
  apply lands_mark
  apply lands_accept_ite
  · intro token atToken ofKind
    have solid := lexed.solid_of_token atToken (by rw [ofKind]; decide)
    exact lands_laid lexed ⟨i, by omega, by omega, solid⟩ trivial
  · exact inner.statement allowIn i

/-- Without an `else` the layout behind the branch has been skipped before the node was made. -/
theorem ifStatement_spanned (i : Nat) :
    Lands ts i (ifStatement r allowIn) fun t j => Spanned ts i j t := by
  apply lands_mark
  apply eat_lands.bind
  intro _ j _ _
  apply (parenthesized_laid lexed inner .ifHead j).bind
  intro test k _ laidTest
  apply (branch_laid lexed inner allowIn k).bind
  intro consequent l _ laidConsequent
  apply trim_lands.bind
  intro _ m _ _
  have node (n : Nat) (alternate : Option Tree) (onward : m ≤ n)
      (laidAlternate : MaybeLaid ts i n alternate) :
      Lands ts n (makeNode i (.ifStatement test consequent alternate) : Rule Tree)
        fun t j => Spanned ts i j t := by
    have before : Laid ts i n test := laidTest.mono (by omega) (by omega)
    exact lands_spanned lexed before.solid
      ⟨before, laidConsequent.mono (by omega) (by omega), laidAlternate⟩
  apply lands_accept_ite
  · intro _ _ _
    apply trim_lands.bind
    intro _ n _ _
    apply lands_if
    · apply (inner.ifStatement allowIn n).bind
      intro alternate o _ laid
      exact node o (some alternate) (by omega) (laid.mono (by omega) (by omega)).some
    · apply (branch_laid lexed inner allowIn n).bind
      intro alternate o _ laid
      exact node o (some alternate) (by omega) (laid.mono (by omega) (by omega)).some
  · exact node m none (by omega) .none

theorem withStatement_spanned (i : Nat) :
    Lands ts i (withStatement r allowIn) fun t j => Spanned ts i j t := by
  apply lands_mark
  apply eat_lands.bind
  intro _ j _ _
  apply (parenthesized_laid lexed inner .withHead j).bind
  intro object k _ laidObject
  apply (branch_laid lexed inner allowIn k).bind
  intro body l _ laidBody
  have inside : Laid ts i l body := laidBody.mono (by omega) (by omega)
  exact lands_spanned lexed inside.solid ⟨laidObject.mono (by omega) (by omega), inside⟩

theorem whileStatement_spanned (i : Nat) :
    Lands ts i (whileStatement r allowIn) fun t j => Spanned ts i j t := by
  apply lands_mark
  apply eat_lands.bind
  intro _ j _ _
  apply (parenthesized_laid lexed inner .whileHead j).bind
  intro test k _ laidTest
  apply (branch_laid lexed inner allowIn k).bind
  intro body l _ laidBody
  have inside : Laid ts i l body := laidBody.mono (by omega) (by omega)
  exact lands_spanned lexed inside.solid ⟨laidTest.mono (by omega) (by omega), inside⟩

theorem doWhileStatement_spanned (i : Nat) :
    Lands ts i (doWhileStatement r allowIn) fun t j => Spanned ts i j t := by
  apply lands_mark
  apply eat_lands.bind
  intro _ j _ _
  apply (block_laid lexed inner allowIn j).bind
  intro body k _ laidBody
  apply lands_expect_trim lexed (by decide)
  intro _ m _
  apply (inner.expression allowIn m).bind
  intro test n _ laidTest
  have inside : Laid ts i n body := laidBody.mono (by omega) (by omega)
  exact lands_spanned lexed inside.solid ⟨inside, laidTest.mono (by omega) (by omega)⟩

theorem catchParam_laid (i : Nat) :
    Lands ts i (catchParam r allowIn) fun param j => MaybeLaid ts i j param := by
  apply lands_accept_ite
  · intro _ _ _
    apply trim_lands.bind
    intro _ j _ _
    apply (inner.binding allowIn j).bind
    intro param k _ laid
    apply trim_lands.bind
    intro _ l _ _
    apply lands_expect_trim lexed (by decide)
    intro _ n _
    exact lands_pure (laid.mono (by omega) (by omega)).some
  · exact lands_pure .none

theorem catchClause_laid (i : Nat) :
    Lands ts i (catchClause r allowIn) fun handler j => MaybeLaid ts i j handler := by
  apply lands_if
  · apply lands_mark
    apply eat_lands.bind
    intro _ j _ _
    apply (catchParam_laid lexed inner allowIn j).bind
    intro param k _ laidParam
    apply (block_laid lexed inner allowIn k).bind
    intro body l _ laidBody
    have inside : Laid ts i l body := laidBody.mono (by omega) (by omega)
    have parts : PartsLaid ts i l (.catchClause param body) :=
      ⟨laidParam.mono (by omega) (by omega), inside⟩
    exact ((lands_laid lexed inside.solid parts).mono fun _ _ _ laid => laid.some).map
  · exact lands_pure .none

theorem finalizer_laid (i : Nat) :
    Lands ts i (finalizer r allowIn) fun handler j => MaybeLaid ts i j handler := by
  apply lands_accept_ite
  · intro _ _ _
    apply trim_lands.bind
    intro _ j _ _
    have made := block_laid lexed inner allowIn j
    exact (made.mono fun _ _ _ laid => (laid.mono (by omega) (by omega)).some).map
  · exact lands_pure .none

/-- Handler and last block are laid behind the block, each if it is there. -/
theorem tryStatement_spanned (i : Nat) :
    Lands ts i (tryStatement r allowIn) fun t j => Spanned ts i j t := by
  apply lands_mark
  apply eat_lands.bind
  intro _ j _ _
  apply (block_laid lexed inner allowIn j).bind
  intro body k _ laidBody
  apply (catchClause_laid lexed inner allowIn k).bind
  intro handler l _ laidHandler
  apply (finalizer_laid lexed inner allowIn l).bind
  intro finalizer m _ laidFinalizer
  apply Lands.ite (lands_fail _)
  have inside : Laid ts i m body := laidBody.mono (by omega) (by omega)
  exact lands_spanned lexed inside.solid
    ⟨inside, laidHandler.mono (by omega) (by omega), laidFinalizer.mono (by omega) (by omega)⟩

/-- The colon behind a case is there even when the test is not. -/
theorem caseTest_laid (i : Nat) :
    Lands ts i (caseTest r allowIn) fun test j =>
      (∃ k, i ≤ k ∧ k < j ∧ Solid ts k) ∧ MaybeLaid ts i j test := by
  apply lands_accept_ite
  · intro _ _ _
    apply trim_lands.bind
    intro _ j _ _
    apply (inner.expression allowIn j).bind
    intro test k _ laid
    apply (expect_solid lexed _ (by decide)).bind
    rintro _ l _ ⟨solid, rfl⟩
    exact lands_pure ⟨⟨k, by omega, by omega, solid⟩, (laid.mono (by omega) (by omega)).some⟩
  · apply lands_accept_ite
    · intro _ _ _
      apply trim_lands.bind
      intro _ j _ _
      apply (expect_solid lexed _ (by decide)).bind
      rintro _ k _ ⟨solid, rfl⟩
      exact lands_pure ⟨⟨j, by omega, by omega, solid⟩, .none⟩
    · exact lands_fail _

theorem switchCase_laid (i : Nat) :
    Lands ts i (switchCase r allowIn) fun t j => Laid ts i j t := by
  apply lands_mark
  apply (caseTest_laid lexed inner allowIn i).bind
  rintro test j _ ⟨⟨colon, after, before, solid⟩, laidTest⟩
  apply trimSeparators_lands.bind
  intro _ k _ _
  apply (separated_laid (inner.statement allowIn) _ k).bind
  intro consequent l _ laid
  exact lands_laid lexed ⟨colon, by omega, by omega, solid⟩
    ⟨laidTest.mono (by omega) (by omega), laid.mono (by omega) (by omega)⟩

theorem switchStatement_spanned (i : Nat) :
    Lands ts i (switchStatement r allowIn) fun t j => Spanned ts i j t := by
  apply lands_mark
  apply eat_lands.bind
  intro _ j _ _
  apply (parenthesized_laid lexed inner .switchHead j).bind
  intro discriminant k _ laidDiscriminant
  apply lands_expect_trim lexed (by decide)
  intro _ m _
  apply (items_laid (switchCase_laid lexed inner allowIn) (fun _ => lands_pure trivial) m).bind
  intro cases n _ laid
  apply (expect_solid lexed _ (by decide)).bind
  intro _ o _ _
  have before : Laid ts i o discriminant := laidDiscriminant.mono (by omega) (by omega)
  exact lands_spanned lexed before.solid ⟨before, laid.mono (by omega) (by omega)⟩

theorem forBody_laid (i : Nat) : Lands ts i (forBody r allowIn) fun t j => Laid ts i j t := by
  apply trim_lands.bind
  intro _ j _ _
  apply lands_expect_trim lexed (by decide)
  intro _ l _
  apply (branch_laid lexed inner allowIn l).mono
  intro body m _ laid
  exact laid.mono (by omega) (by omega)

variable {start : Nat} (since : start ≤ i)
include since

theorem forOf_spanned {left : Tree} (laidLeft : Laid ts start i left) (isAwait : Bool) :
    Lands ts i (forOf r allowIn start left isAwait) fun t j => Spanned ts start j t := by
  apply lands_expect_trim lexed (by decide)
  intro _ k _
  apply (inner.expression allowIn k).bind
  intro right l _ laidRight
  apply (forBody_laid lexed inner allowIn l).bind
  intro body m _ laidBody
  have before : Laid ts start m left := laidLeft.mono (by omega) (by omega)
  exact lands_spanned lexed before.solid
    ⟨before, laidRight.mono (by omega) (by omega), laidBody.mono (by omega) (by omega), trivial⟩

theorem forIn_spanned {left : Tree} (laidLeft : Laid ts start i left) :
    Lands ts i (forIn r allowIn start left) fun t j => Spanned ts start j t := by
  apply eat_lands.bind
  intro _ j _ _
  apply (inner.expression allowIn j).bind
  intro right k _ laidRight
  apply (forBody_laid lexed inner allowIn k).bind
  intro body l _ laidBody
  have before : Laid ts start l left := laidLeft.mono (by omega) (by omega)
  exact lands_spanned lexed before.solid
    ⟨before, laidRight.mono (by omega) (by omega), laidBody.mono (by omega) (by omega)⟩

omit lexed since in
theorem forClause_laid (stop : TokenKind) (i : Nat) :
    Lands ts i (forClause r allowIn stop) fun clause j => MaybeLaid ts i j clause := by
  apply lands_if (lands_pure .none)
  exact ((inner.expression allowIn i).mono fun _ _ _ laid => laid.some).map

/-- The first clause was laid before this rule began, and the node reaches back to the word `for`.
-/
theorem forThree_spanned {init : Option Tree} (laidInit : MaybeLaid ts start i init) :
    Lands ts i (forThree r allowIn start init) fun t j => Spanned ts start j t := by
  apply lands_expect_trim lexed (by decide)
  intro _ k _
  apply (forClause_laid inner allowIn _ k).bind
  intro test l _ laidTest
  apply trim_lands.bind
  intro _ m _ _
  apply lands_expect_trim lexed (by decide)
  intro _ o _
  apply (forClause_laid inner allowIn _ o).bind
  intro update p _ laidUpdate
  apply (forBody_laid lexed inner allowIn p).bind
  intro body q _ laidBody
  have inside : Laid ts start q body := laidBody.mono (by omega) (by omega)
  exact lands_spanned lexed inside.solid
    ⟨laidInit.mono (by omega) (by omega), laidTest.mono (by omega) (by omega),
      laidUpdate.mono (by omega) (by omega), inside⟩

omit since in
theorem forInit_laid (i : Nat) : Lands ts i (forInit r) fun t j => Laid ts i j t := by
  have words : ∀ kind ∈ [TokenKind.kwConst, .kwVar, .kwLet], kind ∉ layoutKinds := by decide
  apply lands_isAny_ite
  · intro token atToken listed
    have solid := lexed.solid_of_token atToken (words token.kind listed)
    apply (variableDeclaration_spanned lexed inner false solid).mono
    exact fun _ _ _ spanned => spanned.laid
  · exact inner.expression false i

omit since in
/-- All three loops reach from the word `for` to the end of their body. -/
theorem forStatement_spanned (i : Nat) :
    Lands ts i (forStatement r allowIn) fun t j => Spanned ts i j t := by
  apply lands_mark
  apply eat_lands.bind
  intro _ j _ _
  apply (accept_onward _).bind
  intro isAwait k _ _
  apply trim_lands.bind
  intro _ l _ _
  apply lands_expect_trim lexed (by decide)
  intro _ n _
  apply lands_if (forThree_spanned lexed inner allowIn (by omega) .none)
  apply (forInit_laid lexed inner n).bind
  intro init o _ laid
  apply trim_lands.bind
  intro _ p _ _
  have before : Laid ts i p init := laid.mono (by omega) (by omega)
  apply lands_if (forOf_spanned lexed inner allowIn (by omega) before isAwait)
  exact lands_if (forIn_spanned lexed inner allowIn (by omega) before)
    (forThree_spanned lexed inner allowIn (by omega) before.some)

end Control

section Statements

theorem expressionStatement_spanned (i : Nat) :
    Lands ts i (expressionStatement r allowIn) fun t j => Spanned ts i j t := by
  apply lands_mark
  apply (expression_laid lexed inner allowIn i).bind
  intro expression j _ laid
  exact lands_spanned lexed laid.solid laid

/-- Without a value the node reaches over its word alone, which is solid. -/
theorem returnStatement_spanned (solid : Solid ts i) :
    Lands ts i (returnStatement r allowIn) fun t j => Spanned ts i j t := by
  apply lands_mark
  apply eat_lands.bind
  rintro _ j _ ⟨-, further⟩
  apply lands_if
  · exact lands_spanned lexed ⟨i, by omega, further, solid⟩ .none
  · apply (inner.expression allowIn j).bind
    intro argument k _ laid
    have inside : Laid ts i k argument := laid.mono (by omega) (by omega)
    exact lands_spanned lexed inside.solid inside.some

theorem throwStatement_spanned (i : Nat) :
    Lands ts i (throwStatement r allowIn) fun t j => Spanned ts i j t := by
  apply lands_mark
  apply eat_lands.bind
  intro _ j _ _
  apply (inner.expression allowIn j).bind
  intro argument k _ laid
  have inside : Laid ts i k argument := laid.mono (by omega) (by omega)
  exact lands_spanned lexed inside.solid inside

theorem labeledStatement_spanned (i : Nat) :
    Lands ts i (labeledStatement r allowIn) fun t j => Spanned ts i j t := by
  apply lands_mark
  apply (plainName_laid lexed).bind
  intro label j _ laidLabel
  apply trim_lands.bind
  intro _ k _ _
  apply lands_expect_trim lexed (by decide)
  intro _ m _
  apply (inner.statement allowIn m).bind
  intro body n _ laidBody
  have name : Laid ts i n label := laidLabel.mono (by omega) (by omega)
  exact lands_spanned lexed name.solid ⟨name, laidBody.mono (by omega) (by omega)⟩

theorem awaitUsing_spanned (solid : Solid ts i) :
    Lands ts i (awaitUsing r allowIn) fun t j => Spanned ts i j t := by
  apply lands_mark
  apply eat_lands.bind
  intro _ j since _
  exact usingDeclaration_spanned lexed inner allowIn since solid true

/-- Every statement reaches over all that its rule took, separators aside. The cases are those of
the first token. -/
theorem bareStatement_spanned (i : Nat) :
    Lands ts i (bareStatement r allowIn) fun t j => Spanned ts i j t := by
  have plain := expressionStatement_spanned lexed inner allowIn i
  have declared := declaration_spanned lexed inner allowIn i
  apply lands_currentKind
  split
  · exact declared
  · exact declared
  · exact declared
  · exact declared
  · exact declared
  · exact declared
  · exact lands_observe fun _ => Lands.ite declared plain
  · exact ifStatement_spanned lexed inner allowIn i
  · exact withStatement_spanned lexed inner allowIn i
  · exact tryStatement_spanned lexed inner allowIn i
  · exact forStatement_spanned lexed inner allowIn i
  · exact doWhileStatement_spanned lexed inner allowIn i
  · exact whileStatement_spanned lexed inner allowIn i
  · exact switchStatement_spanned lexed inner allowIn i
  · exact blockComment_spanned lexed
  · rename_i atKind
    exact lineComment_spanned lexed (lexed.solid_of_kind atKind (by decide))
  · apply (lands_modifyProperties _).bind
    rintro _ j _ rfl
    exact importDeclaration_spanned lexed j
  · apply (lands_modifyProperties _).bind
    rintro _ j _ rfl
    exact exportDeclaration_spanned lexed inner allowIn j
  · rename_i atKind
    exact returnStatement_spanned lexed inner allowIn (lexed.solid_of_kind atKind (by decide))
  · exact throwStatement_spanned lexed inner allowIn i
  · exact block_spanned lexed inner allowIn i
  · rename_i atKind
    have solid := lexed.solid_of_kind atKind (by decide)
    exact lands_observe fun _ => Lands.ite (awaitUsing_spanned lexed inner allowIn solid) plain
  · exact lands_observe fun _ => Lands.ite (labeledStatement_spanned lexed inner allowIn i) plain
  · exact plain

/-- A statement leaves out nothing but separators of the tokens that it takes. -/
theorem statement_spanned (i : Nat) :
    Lands ts i (statement r allowIn) fun t j => Spanned ts i j t := by
  apply trim_lands.bind
  intro _ j before gap
  apply (bareStatement_spanned lexed inner allowIn j).bind
  intro node k _ spanned
  apply trimSeparators_lands.bind
  intro _ l onward behind
  exact lands_pure (spanned.widen gap behind before onward)

end Statements

theorem Rules.Lays.unfold : r.unfold.Lays ts where
  statement allowIn i :=
    (statement_spanned lexed inner allowIn i).mono fun _ _ _ spanned => spanned.laid
  expression := expression_laid lexed inner
  binding := binding_laid lexed inner
  ifStatement allowIn i :=
    (ifStatement_spanned lexed inner allowIn i).mono fun _ _ _ spanned => spanned.laid

omit inner

/-- Rules that refuse everything lay whatever they accept. -/
theorem Rules.lays_unfolded (depth : Nat) : (Rules.refusing.unfolded depth).Lays ts := by
  induction depth with
  | zero => exact ⟨fun _ _ => lands_fail _, fun _ _ => lands_fail _, fun _ _ => lands_fail _,
      fun _ _ => lands_fail _⟩
  | succ depth ih => exact ih.unfold lexed

theorem parseStatement_spanned (i : Nat) :
    Lands ts i parseStatement fun t j => Spanned ts i j t := by
  intro s t u atTokens atPlace run
  have inner := Rules.lays_unfolded lexed s.rest.length
  exact statement_spanned lexed inner true i s t u atTokens atPlace run

end ScriptFront.Script
