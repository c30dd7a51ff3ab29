import ScriptFront.Proofs.Spans.Callables
import ScriptFront.Script.Grammar.Expression

namespace ScriptFront.Script

open ScriptFront.Parser

variable {ts : List (Token TokenKind)} {i : Nat} (lexed : Lexed ts) {r : Rules}
  (inner : r.Lays ts) (allowIn : Bool)
include lexed inner

section Expressions

/-- The tree of a part of a template is laid, whichever of the two it is. -/
def TemplatePart.Laid (ts : List (Token TokenKind)) (low high : Nat) (part : TemplatePart) : Prop :=
  MaybeLaid ts low high part.segment? ∧ MaybeLaid ts low high part.interpolation?

omit lexed inner in
/-- The segments of a template, or its expressions, taken out of its parts, are laid in order
because the parts are. -/
theorem filterMap_laid {f : TemplatePart → Option Tree} {part : TemplatePart}
    {others : List TemplatePart} {i j k l : Nat} (first : MaybeLaid ts i j (f part))
    (rest : LaidAll ts k l (others.filterMap f)) (before : i ≤ j) (gap : j ≤ k) (after : k ≤ l) :
    LaidAll ts i l ((part :: others).filterMap f) := by
  cases found : f part with
  | none =>
    rw [List.filterMap_cons_none found]
    exact rest.mono (by omega) (Nat.le_refl l)
  | some t =>
    rw [List.filterMap_cons_some found]
    exact ⟨j, first t found, by omega, rest.mono gap (Nat.le_refl l)⟩

/-- A part of a template is laid where it is found: a segment over its token, an expression between
the marks of its interpolation. -/
theorem templatePart_laid (i : Nat) :
    Lands ts i (templatePart r) fun part j => part.Laid ts i j := by
  apply lands_mark
  apply lands_consumeIf
  · intro token atToken ofKind
    have solid := lexed.solid_of_token atToken (by rw [ofKind]; decide)
    apply lands_observe
    intro tail
    refine Lands.bind (lands_laid lexed ⟨i, by omega, by omega, solid⟩
      ⟨trivial, trivial, trivial⟩) ?_
    intro segment j _ laid
    exact lands_pure ⟨laid.some, .none⟩
  · apply lands_accept_ite
    · intro _ _ _
      apply trim_lands.bind
      intro _ j _ _
      apply (inner.expression true j).bind
      intro expression k _ laid
      apply trim_lands.bind
      intro _ l _ _
      apply (expect_solid lexed _ (by decide)).bind
      intro _ m _ _
      exact lands_pure ⟨.none, (laid.mono (by omega) (by omega)).some⟩
    · exact lands_fail _

/-- The segments follow one another, and so do the interpolations. -/
theorem templateParts_laid (i : Nat) :
    Lands ts i (items (·.is .backQuote) (templatePart r) (pure true)) fun parts j =>
      i ≤ j ∧ LaidAll ts i j (parts.filterMap (·.segment?)) ∧
        LaidAll ts i j (parts.filterMap (·.interpolation?)) := by
  have each (i : Nat) : Lands ts i (templatePart r) fun part j => i ≤ j ∧ part.Laid ts i j :=
    (templatePart_laid lexed inner i).mono fun part j onward laid => ⟨onward, laid⟩
  apply lands_items each
  · exact fun _ => lands_pure trivial
  · exact fun i => ⟨Nat.le_refl i, trivial, trivial⟩
  · rintro i j k l part others ⟨order, segment, interpolation⟩ gap
      ⟨after, segments, interpolations⟩
    exact ⟨by omega, filterMap_laid segment segments order gap after,
      filterMap_laid interpolation interpolations order gap after⟩

/-- A template reaches from back quote to back quote, with segments and expressions in order in
their own lists. -/
theorem templateLiteral_laid (i : Nat) :
    Lands ts i (templateLiteral r) fun t j => Laid ts i j t := by
  apply lands_mark
  apply (expect_solid lexed _ (by decide)).bind
  rintro _ j _ ⟨solid, rfl⟩
  apply (templateParts_laid lexed inner (i + 1)).bind
  rintro parts k _ ⟨-, segments, interpolations⟩
  apply (expect_solid lexed _ (by decide)).bind
  intro _ l _ _
  exact lands_laid lexed ⟨i, by omega, by omega, solid⟩
    ⟨segments.mono (by omega) (by omega), interpolations.mono (by omega) (by omega)⟩

theorem spreadOrExpression_laid (i : Nat) :
    Lands ts i (spreadOrExpression r allowIn) fun t j => Laid ts i j t := by
  apply lands_if
  · apply lands_mark
    apply eat_lands.bind
    intro _ j _ _
    apply (inner.expression allowIn j).bind
    intro argument k _ laid
    have inside : Laid ts i k argument := laid.mono (by omega) (by omega)
    exact lands_laid lexed inside.solid inside
  · exact inner.expression allowIn i

theorem arrayExpression_laid (i : Nat) :
    Lands ts i (arrayExpression r) fun t j => Laid ts i j t := by
  apply lands_mark
  apply eat_lands.bind
  intro _ j _ _
  apply (commaSeparated_laid (spreadOrExpression_laid lexed inner true) _ j).bind
  intro elements k _ laid
  apply (expect_solid lexed _ (by decide)).bind
  rintro _ l _ ⟨solid, rfl⟩
  have inside : LaidAll ts i (k + 1) elements := laid.mono (by omega) (by omega)
  exact lands_laid lexed ⟨k, by omega, by omega, solid⟩ inside

/-- A short property holds one tree as its key and as its value, as in a pattern. -/
theorem objectMember_laid (i : Nat) :
    Lands ts i (objectMember r) fun t j => Laid ts i j t := by
  apply lands_mark
  apply lands_accept_ite
  · intro _ _ _
    apply trim_lands.bind
    intro _ j _ _
    apply (inner.expression true j).bind
    intro argument k _ laid
    have inside : Laid ts i k argument := laid.mono (by omega) (by omega)
    exact lands_laid lexed inside.solid inside
  · apply (propertyKey_laid lexed inner true i).bind
    intro key j _ laidKey
    apply trim_lands.bind
    intro _ k _ _
    apply lands_accept_ite
    · intro _ _ _
      apply trim_lands.bind
      intro _ l _ _
      apply (inner.expression true l).bind
      intro value m _ laidValue
      have name : Laid ts i m key.1 := laidKey.mono (by omega) (by omega)
      exact lands_laid lexed name.solid
        ⟨name, laidValue.mono (by omega) (by omega), trivial, trivial⟩
    · apply lands_accept_ite
      · intro _ _ _
        apply (parametersAndBody_laid lexed inner true (k + 1)).bind
        rintro ⟨params, body⟩ l _ ⟨laidParams, laidBody⟩
        have name : Laid ts i l key.1 := laidKey.mono (by omega) (by omega)
        exact lands_laid lexed name.solid
          ⟨name, laidParams.mono (by omega) (by omega), laidBody.mono (by omega) (by omega), trivial⟩
      · apply Lands.ite (lands_fail _)
        have name : Laid ts i k key.1 := laidKey.mono (by omega) (by omega)
        exact lands_laid lexed name.solid ⟨name, name, trivial, trivial⟩

theorem objectExpression_laid (i : Nat) :
    Lands ts i (objectExpression r) fun t j => Laid ts i j t := by
  apply lands_mark
  apply eat_lands.bind
  intro _ j _ _
  apply (commaSeparated_laid (objectMember_laid lexed inner) _ j).bind
  intro properties k _ laid
  apply trim_lands.bind
  intro _ l _ _
  apply (expect_solid lexed _ (by decide)).bind
  rintro _ m _ ⟨solid, rfl⟩
  have inside : LaidAll ts i (l + 1) properties := laid.mono (by omega) (by omega)
  exact lands_laid lexed ⟨l, by omega, by omega, solid⟩ inside

/-- The tree in a pair of parentheses does not reach to them, but a sequence does. -/
theorem group_laid (i : Nat) : Lands ts i (group r) fun t j => Laid ts i j t := by
  apply lands_mark
  apply eat_lands.bind
  intro _ j _ _
  apply (inner.expression true j).bind
  intro first k _ laidFirst
  apply trim_lands.bind
  intro _ l _ _
  apply lands_accept_ite
  · intro _ _ _
    exact lands_pure (laidFirst.mono (by omega) (by omega))
  · apply lands_expect_trim lexed (by decide)
    intro _ n _
    apply (commaSeparated_laid (inner.expression true) _ n).bind
    intro others o _ laidOthers
    apply (expect_solid lexed _ (by decide)).bind
    intro _ p _ _
    have inside : LaidAll ts i p (first :: others) :=
      ⟨k, laidFirst.mono (by omega) (by omega), by omega, laidOthers.mono (by omega) (by omega)⟩
    exact lands_laid lexed (laidFirst.mono (by omega) (by omega) : Laid ts i p first).solid inside

omit inner in
theorem jumpLabel_laid (i : Nat) :
    Lands ts i jumpLabel fun label j => i < j ∧ MaybeLaid ts i j label := by
  apply eat_lands.bind
  rintro _ j _ ⟨-, further⟩
  apply lands_if
  · apply (anyName_laid lexed false).bind
    intro label k _ laid
    exact lands_pure ⟨by omega, (laid.mono (by omega) (by omega)).some⟩
  · exact lands_pure ⟨further, .none⟩

omit inner in
/-- With an increment behind it the node reaches up to it. -/
theorem nameOrUpdate_laid (i : Nat) :
    Lands ts i (nameOrUpdate i) fun t j => Laid ts i j t := by
  apply (anyName_laid lexed false).bind
  intro argument j _ laid
  apply trim_lands.bind
  intro _ k _ _
  apply lands_if
  · apply lands_consume.bind
    intro operator l _ _
    have inside : Laid ts i l argument := laid.mono (by omega) (by omega)
    exact lands_laid lexed inside.solid ⟨trivial, inside, trivial⟩
  · exact lands_pure (laid.mono (by omega) (by omega))

omit inner in
theorem leadingUpdate_laid (i : Nat) :
    Lands ts i (leadingUpdate i) fun t j => Laid ts i j t := by
  apply eat_lands.bind
  intro operator j _ _
  apply (anyName_laid lexed false).bind
  intro argument k _ laid
  have inside : Laid ts i k argument := laid.mono (by omega) (by omega)
  exact lands_laid lexed inside.solid ⟨trivial, inside, trivial⟩

theorem asyncExpression_laid (i : Nat) :
    Lands ts i (asyncExpression r allowIn i) fun t j => Laid ts i j t := by
  apply eat_lands.bind
  intro _ j since _
  apply lands_if (arrowFunction_laid lexed inner allowIn since true)
  apply lands_if (singleParamArrow_laid lexed inner allowIn since true)
  exact lands_if (functionExpression_laid lexed inner allowIn since true) (lands_fail _)

theorem unaryExpression_laid (i : Nat) :
    Lands ts i (unaryExpression r allowIn i) fun t j => Laid ts i j t := by
  apply eat_lands.bind
  intro operator j _ _
  apply (inner.expression allowIn j).bind
  intro argument k _ laid
  have inside : Laid ts i k argument := laid.mono (by omega) (by omega)
  exact lands_laid lexed inside.solid ⟨trivial, inside⟩

/-- A word in front of a whole expression, which is the only part of the node. -/
theorem behindWord_laid {kind : Tree → Construct} (i : Nat)
    (parts : ∀ j argument, Laid ts i j argument → PartsLaid ts i j (kind argument)) :
    Lands ts i (do
      let _ ← eat
      let argument ← r.expression allowIn
      makeNode i (kind argument) : Rule Tree) fun t j => Laid ts i j t := by
  apply eat_lands.bind
  intro _ j _ _
  apply (inner.expression allowIn j).bind
  intro argument k _ laid
  have inside : Laid ts i k argument := laid.mono (by omega) (by omega)
  exact lands_laid lexed inside.solid (parts k argument inside)

/-- Whatever an expression begins with, its tree is laid from there to where the rule stops. The
cases are those of the first token. -/
theorem primary_laid (i : Nat) : Lands ts i (primary r allowIn) fun t j => Laid ts i j t := by
  have unary := unaryExpression_laid lexed inner allowIn i
  apply lands_mark
  apply lands_currentKind
  split
  · exact asyncExpression_laid lexed inner allowIn i
  · exact functionExpression_laid lexed inner allowIn (Nat.le_refl i) false
  · exact classExpression_laid lexed inner allowIn i
  · rename_i atKind
    have solid := lexed.solid_of_kind atKind (by decide)
    exact (lineComment_spanned lexed solid).mono fun _ _ _ spanned => spanned.laid
  · exact stringLiteral_laid lexed
  · exact templateLiteral_laid lexed inner i
  · exact behindWord_laid lexed inner allowIn i fun _ _ laid => laid
  · exact behindWord_laid lexed inner allowIn i fun _ _ laid => laid
  · exact objectExpression_laid lexed inner i
  · exact arrayExpression_laid lexed inner i
  · exact lands_if (arrowFunction_laid lexed inner allowIn (Nat.le_refl i) false)
      (group_laid lexed inner i)
  · rename_i atKind
    exact regExpLiteral_laid lexed (lexed.solid_of_kind atKind (by decide))
  · exact numericLiteral_laid lexed
  · rename_i atKind
    have solid := lexed.solid_of_kind atKind (by decide)
    apply (jumpLabel_laid lexed i).bind
    rintro label j _ ⟨further, laid⟩
    exact lands_laid lexed ⟨i, Nat.le_refl i, further, solid⟩ laid
  · rename_i atKind
    have solid := lexed.solid_of_kind atKind (by decide)
    apply (jumpLabel_laid lexed i).bind
    rintro label j _ ⟨further, laid⟩
    exact lands_laid lexed ⟨i, Nat.le_refl i, further, solid⟩ laid
  · exact nameOrUpdate_laid lexed i
  · exact lands_if (singleParamArrow_laid lexed inner allowIn (Nat.le_refl i) false)
      (nameOrUpdate_laid lexed i)
  · exact unary
  · exact unary
  · exact unary
  · exact unary
  · exact unary
  · exact leadingUpdate_laid lexed i
  · exact leadingUpdate_laid lexed i
  · exact lands_fail _

end Expressions

section Operators

variable {start : Nat}

omit inner in
/-- The new node reaches from the start of the object to the end of the member. -/
theorem namedMember_laid {object : Tree} (laid : Laid ts start i object) (optional : Bool) :
    Lands ts i (namedMember start object optional) fun t j => Laid ts start j t := by
  have since := laid.between.low_lt
  apply (anyName_laid lexed true).bind
  intro member j _ laidMember
  have inside : Laid ts start j object := laid.mono (by omega) (by omega)
  exact lands_laid lexed inside.solid
    ⟨inside, laidMember.mono (by omega) (by omega), trivial, trivial⟩

theorem computedMember_laid {object : Tree} (laid : Laid ts start i object) (optional : Bool) :
    Lands ts i (computedMember r start object optional) fun t j => Laid ts start j t := by
  have since := laid.between.low_lt
  apply eat_lands.bind
  intro _ j _ _
  apply (inner.expression true j).bind
  intro member k _ laidMember
  apply trim_lands.bind
  intro _ l _ _
  apply (expect_solid lexed _ (by decide)).bind
  intro _ m _ _
  have inside : Laid ts start m object := laid.mono (by omega) (by omega)
  exact lands_laid lexed inside.solid
    ⟨inside, laidMember.mono (by omega) (by omega), trivial, trivial⟩

theorem call_laid {callee : Tree} (laid : Laid ts start i callee) (optional : Bool) :
    Lands ts i (call r start callee optional) fun t j => Laid ts start j t := by
  have since := laid.between.low_lt
  apply eat_lands.bind
  intro _ j _ _
  apply (commaSeparated_laid (spreadOrExpression_laid lexed inner true) _ j).bind
  intro arguments k _ laidArguments
  apply (expect_solid lexed _ (by decide)).bind
  intro _ l _ _
  have inside : Laid ts start l callee := laid.mono (by omega) (by omega)
  exact lands_laid lexed inside.solid
    ⟨inside, laidArguments.mono (by omega) (by omega), trivial⟩

theorem suffix_laid {expression : Tree} (laid : Laid ts start i expression) :
    Lands ts i (suffix? r start expression) fun longer j => MaybeLaid ts start j longer := by
  have since := laid.between.low_lt
  have found {j : Nat} {rule : Rule Tree} (made : Lands ts j rule fun t k => Laid ts start k t) :
      Lands ts j (some <$> rule) fun longer k => MaybeLaid ts start k longer :=
    (made.mono fun _ _ _ laid => laid.some).map
  apply lands_currentKind
  split
  · apply eat_lands.bind
    intro _ j _ _
    exact found (namedMember_laid lexed (laid.mono (by omega) (by omega)) false)
  · exact found (computedMember_laid lexed inner laid false)
  · exact found (call_laid lexed inner laid false)
  · apply eat_lands.bind
    intro _ j _ _
    have longer : Laid ts start j expression := laid.mono (by omega) (by omega)
    apply lands_currentKind
    split
    · exact found (computedMember_laid lexed inner longer true)
    · exact found (call_laid lexed inner longer true)
    · exact found (namedMember_laid lexed longer true)
  · apply (templateLiteral_laid lexed inner i).bind
    intro quasi j _ laidQuasi
    have tag : Laid ts start j expression := laid.mono (by omega) (by omega)
    exact found (lands_laid lexed tag.solid ⟨tag, laidQuasi.mono (by omega) (by omega)⟩)
  · exact lands_pure .none

/-- The nodes reach further and further from the same start. The induction is on the budget. -/
theorem suffixesWithin_laid (budget : Nat) {expression : Tree}
    (laid : Laid ts start i expression) :
    Lands ts i (suffixesWithin r start budget expression) fun t j => Laid ts start j t := by
  induction budget generalizing i expression with
  | zero => exact lands_pure laid
  | succ budget ih =>
    apply (suffix_laid lexed inner laid).bind
    intro found j onward laidFound
    cases found with
    | none => exact lands_pure (laid.mono (Nat.le_refl start) onward)
    | some longer =>
      apply trim_lands.bind
      intro _ k further _
      exact ih ((laidFound longer rfl).mono (Nat.le_refl start) further)

theorem memberOrCall_laid (i : Nat) :
    Lands ts i (memberOrCall r allowIn) fun t j => Laid ts i j t := by
  apply lands_mark
  apply (primary_laid lexed inner allowIn i).bind
  intro expression j _ laid
  apply trim_lands.bind
  intro _ k further _
  apply lands_observe
  intro budget
  exact suffixesWithin_laid lexed inner budget (laid.mono (Nat.le_refl i) further)

theorem binary_laid (layer : OperatorLayer) {operand : Rule Tree}
    (each : Lands ts i operand fun t j => Laid ts i j t) :
    Lands ts i (binary r allowIn layer operand) fun t j => Laid ts i j t := by
  apply lands_mark
  apply each.bind
  intro left j _ laidLeft
  apply trim_lands.bind
  intro _ k _ _
  apply lands_if
  · apply eat_lands.bind
    intro operator l _ _
    apply (inner.expression allowIn l).bind
    intro right m _ laidRight
    have before : Laid ts i m left := laidLeft.mono (by omega) (by omega)
    exact lands_laid lexed before.solid
      ⟨trivial, trivial, before, laidRight.mono (by omega) (by omega)⟩
  · exact lands_pure (laidLeft.mono (by omega) (by omega))

theorem additive_laid (i : Nat) : Lands ts i (additive r allowIn) fun t j => Laid ts i j t := by
  have operand := memberOrCall_laid lexed inner allowIn i
  have compared := binary_laid lexed inner allowIn .comparative operand
  exact binary_laid lexed inner allowIn .additive
    (binary_laid lexed inner allowIn .multiplicative compared)

theorem conditional_laid (i : Nat) :
    Lands ts i (conditional r allowIn) fun t j => Laid ts i j t := by
  apply lands_mark
  apply (additive_laid lexed inner allowIn i).bind
  intro test j _ laidTest
  apply trim_lands.bind
  intro _ k _ _
  apply lands_accept_ite
  · intro _ _ _
    apply trim_lands.bind
    intro _ l _ _
    apply (inner.expression true l).bind
    intro consequent m _ laidConsequent
    apply trim_lands.bind
    intro _ n _ _
    apply lands_expect_trim lexed (by decide)
    intro _ p _
    apply (inner.expression allowIn p).bind
    intro alternate q _ laidAlternate
    have before : Laid ts i q test := laidTest.mono (by omega) (by omega)
    exact lands_laid lexed before.solid
      ⟨before, laidConsequent.mono (by omega) (by omega), laidAlternate.mono (by omega) (by omega)⟩
  · exact lands_pure (laidTest.mono (by omega) (by omega))

/-- An assignment reaches from its target to its value. -/
theorem expression_laid (i : Nat) :
    Lands ts i (expression r allowIn) fun t j => Laid ts i j t := by
  apply lands_mark
  apply (conditional_laid lexed inner allowIn i).bind
  intro target j _ laidTarget
  apply trim_lands.bind
  intro _ k _ _
  apply lands_if
  · apply eat_lands.bind
    intro operator l _ _
    apply (inner.expression allowIn l).bind
    intro value m _ laidValue
    apply trim_lands.bind
    intro _ n _ _
    have before : Laid ts i n target := laidTarget.mono (by omega) (by omega)
    exact lands_laid lexed before.solid
      ⟨trivial, before, laidValue.mono (by omega) (by omega)⟩
  · exact lands_pure (laidTarget.mono (by omega) (by omega))

end Operators

end ScriptFront.Script
