import ScriptFront.Proofs.RoundTrip.Layers

namespace ScriptFront.Script

open ScriptFront.Parser

variable {back after : List (Piece TokenKind)} {kinds : List TokenKind}

section Starts

/-- The tokens that a written expression can begin with. -/
def starters : List TokenKind :=
  [.identifier, .number, .string, .openParen, .openSquare] ++ unaryOperators

theorem operand_starts (e : Expr) (after : List (Piece TokenKind)) :
    ∃ kind ∈ starters, headKind (lead (operand e.isAtom e.items) after) = some kind := by
  cases e with
  | name word => exact ⟨.identifier, by decide, congrArg some word.wordKind_text⟩
  | number numeral => exact ⟨.number, by decide, by cases numeral <;> rfl⟩
  | string quoted => exact ⟨.string, by decide, rfl⟩
  | _ => exact ⟨.openParen, by decide, rfl⟩

theorem Expr.starts (e : Expr) (after : List (Piece TokenKind)) :
    ∃ kind ∈ starters, headKind (lead e.items after) = some kind := by
  cases e with
  | name word => exact operand_starts (.name word) after
  | number numeral => exact operand_starts (.number numeral) after
  | string quoted => exact operand_starts (.string quoted) after
  | unary operator argument => exact ⟨operator, List.mem_append_right _ operator.2, rfl⟩
  | array elements => exact ⟨.openSquare, by decide, rfl⟩
  | _ =>
    simp only [Expr.items, lead_append]
    exact operand_starts _ _

theorem Expr.headKind_ne (e : Expr) (after : List (Piece TokenKind)) {kind : TokenKind}
    (other : kind ∉ starters) : headKind (lead e.items after) ≠ some kind := by
  obtain ⟨first, listed, found⟩ := e.starts after
  rw [found]
  rintro ⟨⟩
  exact other listed

end Starts

section Elements

theorem commaFollows_yes (firm : Firm back) :
    Reads (symbolPiece .comma :: gap back) commaFollows fun more after =>
      more = true ∧ after = back := by
  apply reads_trim_firm (firm_cons rfl _)
  apply reads_accept_yes rfl
  apply reads_trim_gap firm
  exact reads_pure ⟨rfl, rfl⟩

theorem commaFollows_no (follows : Follows kinds back) (within : kinds ⊆ symbols)
    (apart : .comma ∉ kinds) :
    Reads back commaFollows fun more after => more = false ∧ after = back := by
  apply reads_trim_firm (follows.firm within)
  apply reads_accept_no (follows.headKind_ne apart)
  exact reads_pure ⟨rfl, rfl⟩

theorem spreadOrExpression_reads {e : Expr} (readable : e.Readable)
    (follows : Follows closers after) :
    Reads (lead e.items after) (spreadOrExpression Rules.whole true) (Found e.tree after) := by
  apply reads_if (b := false)
  · intro s here
    simpa [is_eq here] using e.headKind_ne after (by decide)
  exact readable after follows

theorem length_le_gap (pieces : List (Piece TokenKind)) : pieces.length ≤ (gap pieces).length := by
  cases pieces with
  | nil => exact le_refl _
  | cons x pieces => exact Nat.le_succ _

theorem length_le_lead (items : List Item) (after : List (Piece TokenKind)) :
    after.length ≤ (lead items after).length := by
  induction items with
  | nil => exact le_refl _
  | cons item items ih =>
    have behind := length_le_gap (lead items after)
    rw [lead_cons, List.length_append]
    omega

/-- The brackets that end a list of expressions. -/
def brackets : List TokenKind := [.closeParen, .closeSquare]

theorem bracket_follows {close : TokenKind} (closes : close ∈ brackets) (calm : NoArrow back) :
    Follows brackets (symbolPiece close :: back) := by
  have within : brackets ⊆ symbols := by decide
  exact follows_cons (within closes) closes calm

/-- Where an expression is written, no list of expressions ends. -/
theorem Expr.stays {close : TokenKind} (closes : close ∈ brackets) (e : Expr)
    (after : List (Piece TokenKind)) {s : State} (here : ahead s = lead e.items after) :
    (!s.willContinue || s.isAny [close]) = false := by
  obtain ⟨first, listed, found⟩ := e.starts after
  have apart : ∀ first ∈ starters, first ∉ brackets := by decide
  have other : first ≠ close := fun same => apart first listed (same ▸ closes)
  have filled : lead e.items after ≠ [] := by
    intro empty
    rw [empty] at found
    cases found
  rw [willContinue_eq here, isAny_eq here, found]
  simp [filled, other]

theorem Expr.itemLists_fit (es : List Expr) :
    ∀ item ∈ withCommas (Expr.itemLists es), item.Fits := by
  rw [Expr.itemLists_eq_map]
  exact withCommas_fits (List.forall_mem_map.mpr fun e _ => e.items_fit)

theorem lead_commas (e next : Expr) (others : List Expr) (after : List (Piece TokenKind)) :
    lead (withCommas (Expr.itemLists (e :: next :: others))) after =
      lead e.items (symbolPiece .comma ::
        gap (lead (withCommas (Expr.itemLists (next :: others))) after)) := by
  simp [Expr.itemLists, Item.pieces]

/-- Expressions with commas between them are read back up to the bracket that closes them. -/
theorem elementsWithin_reads {close : TokenKind} (closes : close ∈ brackets) (calm : NoArrow back)
    {es : List Expr} (readable : ∀ e ∈ es, e.Readable) (budget : Nat)
    (enough : (lead (withCommas (Expr.itemLists es)) (symbolPiece close :: back)).length ≤ budget) :
    Reads (lead (withCommas (Expr.itemLists es)) (symbolPiece close :: back))
      (itemsWithin (·.isAny [close]) (spreadOrExpression Rules.whole true) commaFollows budget)
      fun nodes after => eraseAll nodes = Expr.trees es ∧ after = symbolPiece close :: back := by
  have closed := bracket_follows closes calm
  induction es generalizing budget with
  | nil =>
    cases budget with
    | zero => exact reads_pure ⟨rfl, rfl⟩
    | succ budget =>
      apply reads_if (b := true)
      · intro s here
        simp [isAny_eq here, Expr.itemLists]
      exact reads_pure ⟨rfl, rfl⟩
  | cons e others ih =>
    obtain ⟨first, rest⟩ := List.forall_mem_cons.mp readable
    have some := length_le_lead (withCommas (Expr.itemLists (e :: others))) (symbolPiece close :: back)
    rw [List.length_cons] at some
    obtain ⟨budget, rfl⟩ := Nat.exists_eq_add_one_of_ne_zero (show budget ≠ 0 by omega)
    cases others with
    | nil =>
      simp only [Expr.itemLists, withCommas_singleton]
      apply reads_if fun s here => e.stays closes _ here
      apply (spreadOrExpression_reads first (closed.mono (by decide))).bind
      rintro t _ ⟨same, rfl⟩
      apply (commaFollows_no closed (by decide) (by decide)).bind
      rintro _ _ ⟨rfl, rfl⟩
      exact reads_pure ⟨by rw [eraseAll_cons, same]; rfl, rfl⟩
    | cons next others =>
      have fits := Expr.itemLists_fit (next :: others)
      have firm := firm_lead fits (closed.firm (by decide))
      have calm' := noArrow_lead fits closed.calm
      rw [lead_commas] at enough ⊢
      -- what stands behind the comma is itself the front of a shorter list
      generalize lead (withCommas (Expr.itemLists (next :: others))) (symbolPiece close :: back) =
        pieces at enough ih firm calm' ⊢
      have follows : Follows closers (symbolPiece .comma :: gap pieces) :=
        follows_cons (by decide) (by decide) calm'.gap
      have shorter := length_le_lead e.items (symbolPiece .comma :: gap pieces)
      have shorter' := length_le_gap pieces
      rw [List.length_cons] at shorter
      apply reads_if fun s here => e.stays closes _ here
      apply (spreadOrExpression_reads first follows).bind
      rintro t _ ⟨same, rfl⟩
      apply (commaFollows_yes firm).bind
      rintro _ _ ⟨rfl, rfl⟩
      apply (ih rest budget (by omega)).bind
      rintro nodes _ ⟨same', rfl⟩
      exact reads_pure ⟨by rw [eraseAll_cons, same, same']; rfl, rfl⟩

theorem elements_reads {close : TokenKind} (closes : close ∈ brackets) (calm : NoArrow back)
    {es : List Expr} (readable : ∀ e ∈ es, e.Readable) :
    Reads (lead (withCommas (Expr.itemLists es)) (symbolPiece close :: back))
      (commaSeparated [close] (spreadOrExpression Rules.whole true))
      fun nodes after => eraseAll nodes = Expr.trees es ∧ after = symbolPiece close :: back := by
  apply reads_observe fun s here => length_eq here
  exact elementsWithin_reads closes calm readable _ (le_refl _)

theorem elements_firm {close : TokenKind} (closes : close ∈ brackets) (calm : NoArrow back)
    (es : List Expr) :
    Firm (lead (withCommas (Expr.itemLists es)) (symbolPiece close :: back)) :=
  firm_lead (Expr.itemLists_fit es) ((bracket_follows closes calm).firm (by decide))

end Elements

section Forms

variable {e index : Expr} {es : List Expr}

theorem unaryExpression_reads (operator : {kind // kind ∈ unaryOperators})
    (readable : e.Readable) (follows : Follows closers after) :
    Reads (symbolPiece operator :: gap (lead e.items after)) (primary Rules.whole true)
      (Found (Expr.unary operator e).tree after) := by
  have reads (start : Nat) : Reads (symbolPiece operator :: gap (lead e.items after))
      (unaryExpression Rules.whole true start) (Found (Expr.unary operator e).tree after) := by
    apply reads_eat_gap (e.firm follows)
    intro token made
    apply (readable after follows).bind
    rintro t _ ⟨same, rfl⟩
    have kind : token.kind = operator := congrArg (·.kind) made
    rw [kind, Expr.tree, ← same]
    exact reads_node start _
  apply reads_any
  intro start
  apply reads_kind rfl
  obtain ⟨kind, listed⟩ := operator
  simp only [unaryOperators, List.mem_cons, List.not_mem_nil, or_false] at listed
  rcases listed with rfl | rfl | rfl | rfl | rfl
  all_goals exact reads start

theorem arrayExpression_reads (readable : ∀ e ∈ es, e.Readable) (calm : NoArrow after) :
    Reads (lead (Expr.array es).items after) (primary Rules.whole true)
      (FoundBefore (Expr.array es).tree after) := by
  have closes : TokenKind.closeSquare ∈ brackets := by decide
  simp only [Expr.items, lead_append, lead_cons, lead_nil]
  apply reads_any
  intro start
  apply reads_kind rfl
  apply reads_any
  intro start'
  apply reads_eat_gap (elements_firm closes calm.gap es)
  intro _ _
  apply (elements_reads closes calm.gap readable).bind
  rintro nodes _ ⟨same, rfl⟩
  apply reads_expect rfl
  intro _ _
  rw [Expr.tree, ← same]
  exact (reads_node start' _).mono fun _ _ found => found.beforeGap

theorem member_suffix (property : Word) (start : Nat) {t : Tree} (same : erase t = e.tree) :
    Reads (lead [.symbol .period, .word property] after) (suffix? Rules.whole start t)
      (FoundLonger (Expr.member e property).tree after) := by
  apply reads_kind rfl
  apply reads_eat_gap (firm_cons rfl _)
  intro _ _
  apply Reads.map
  apply (anyName_reads property true (Or.inl rfl)).bind
  rintro t' _ ⟨same', rfl⟩
  rw [Expr.tree, ← same, ← same']
  exact (reads_node start _).mono fun node _ found => ⟨node, rfl, found.beforeGap⟩

theorem computed_suffix (readable : index.Readable) (calm : NoArrow after) (start : Nat) {t : Tree}
    (same : erase t = e.tree) :
    Reads (lead (.symbol .openSquare :: index.items ++ [.symbol .closeSquare]) after)
      (suffix? Rules.whole start t) (FoundLonger (Expr.computed e index).tree after) := by
  have closed : Follows closers (symbolPiece .closeSquare :: gap after) :=
    follows_cons (by decide) (by decide) calm.gap
  simp only [lead_append, lead_cons, lead_nil]
  apply reads_kind rfl
  apply Reads.map
  apply reads_eat_gap (index.firm closed)
  intro _ _
  apply (readable _ closed).bind
  rintro t' _ ⟨same', rfl⟩
  apply reads_trim_firm (firm_cons rfl _)
  apply reads_expect rfl
  intro _ _
  rw [Expr.tree, ← same, ← same']
  exact (reads_node start _).mono fun node _ found => ⟨node, rfl, found.beforeGap⟩

theorem call_suffix (readable : ∀ e ∈ es, e.Readable) (calm : NoArrow after) (start : Nat) {t : Tree}
    (same : erase t = e.tree) :
    Reads (lead (.symbol .openParen :: withCommas (Expr.itemLists es) ++ [.symbol .closeParen]) after)
      (suffix? Rules.whole start t) (FoundLonger (Expr.call e es).tree after) := by
  have closes : TokenKind.closeParen ∈ brackets := by decide
  simp only [lead_append, lead_cons, lead_nil]
  apply reads_kind rfl
  apply Reads.map
  apply reads_eat_gap (elements_firm closes calm.gap es)
  intro _ _
  apply (elements_reads closes calm.gap readable).bind
  rintro nodes _ ⟨same', rfl⟩
  apply reads_expect rfl
  intro _ _
  rw [Expr.tree, ← same, ← same']
  exact (reads_node start _).mono fun node _ found => ⟨node, rfl, found.beforeGap⟩

end Forms

section Whole

variable {operator : TokenKind}

/-- An operator and the expression behind it, seen from what stands on its left. -/
theorem Expr.follows_operator {right : Expr} (listed : operator ∈ symbols)
    (inKinds : operator ∈ kinds) (calm : NoArrow after) :
    Follows kinds (symbolPiece operator :: gap (lead right.items after)) :=
  follows_cons listed inKinds (right.noArrow calm).gap

/-- What is read as an operand alone is read as an expression, if it takes all that could
go on with it. -/
theorem expression_of_primary {front : List (Piece TokenKind)} {tree : Tree}
    (reads : Reads front (primary Rules.whole true) (FoundBefore tree after))
    (follows : Follows closers after) :
    Reads front (Rules.whole.expression true) (Found tree after) :=
  expression_of_memberOrCall (memberOrCall_none reads follows closers_subset (by decide)) follows

theorem binary_readable (layer : OperatorLayer) (operator : {kind // kind ∈ layer.operators})
    {left right : Expr} (readable : left.Readable) (readable' : right.Readable) :
    (Expr.binary layer operator left right).Readable := by
  intro after follows
  have listed : operator.1 ∈ symbols := mem_symbols (Or.inr (Or.inl ⟨layer, operator.2⟩))
  have behind : Follows layer.operators (symbolPiece operator :: gap (lead right.items after)) :=
    Expr.follows_operator listed operator.2 follows.calm
  have within : layer.operators ⊆ symbols :=
    fun kind inLayer => mem_symbols (Or.inr (Or.inl ⟨layer, inLayer⟩))
  have apart : ∀ kind ∈ layer.operators, kind ∉ suffixMarks := by
    cases layer with
    | _ => decide
  have others := readable' after follows
  have firm := right.firm follows
  simp only [Expr.items, Expr.tree, lead_append, lead_cons]
  have single := memberOrCall_none (operand_primary readable (behind.mono within)) behind within apart
  apply expression_of_additive _ follows
  -- the layers below that of the operator let the operand through, those above it the whole
  cases layer with
  | comparative =>
    have joined : Reads _ (comparative Rules.whole true) _ :=
      binary_join operator.2 single firm others
    have passed : Reads _ (multiplicative Rules.whole true) _ :=
      binary_pass joined follows closers_subset (by decide)
    exact binary_pass passed follows closers_subset (by decide)
  | multiplicative =>
    have passed : Reads _ (comparative Rules.whole true) _ :=
      binary_pass single behind within (by decide)
    have joined : Reads _ (multiplicative Rules.whole true) _ :=
      binary_join operator.2 passed firm others
    exact binary_pass joined follows closers_subset (by decide)
  | additive =>
    have passed : Reads _ (comparative Rules.whole true) _ :=
      binary_pass single behind within (by decide)
    have passed' : Reads _ (multiplicative Rules.whole true) _ :=
      binary_pass passed behind within (by decide)
    exact binary_join operator.2 passed' firm others

theorem conditional_readable {test consequent alternate : Expr} (readable : test.Readable)
    (readable' : consequent.Readable) (readable'' : alternate.Readable) :
    (Expr.conditional test consequent alternate).Readable := by
  intro after follows
  have colon : Follows closers (symbolPiece .colon :: gap (lead alternate.items after)) :=
    Expr.follows_operator (by decide) (by decide) follows.calm
  have question : Follows [.question] (symbolPiece .question :: gap (lead consequent.items
      (symbolPiece .colon :: gap (lead alternate.items after)))) :=
    Expr.follows_operator (by decide) (by decide) colon.calm
  have apart : ∀ kind ∈ [TokenKind.question], ∀ layer : OperatorLayer, kind ∉ layer.operators := by
    intro kind one layer
    cases List.mem_singleton.mp one
    cases layer with
    | _ => decide
  simp only [Expr.items, Expr.tree, lead_append, lead_cons]
  have single := memberOrCall_none (operand_primary readable (question.mono (by decide))) question
    (by decide) (by decide)
  have passed := additive_pass single question (by decide) apart
  have joined := conditional_join passed (consequent.firm colon) (readable' _ colon)
    (alternate.firm follows) (readable'' after follows)
  exact expression_pass joined follows

theorem assignment_readable (operator : {kind // kind ∈ assignmentOperators}) {target value : Expr}
    (readable : target.Readable) (readable' : value.Readable) :
    (Expr.assignment operator target value).Readable := by
  intro after follows
  have behind : Follows assignmentOperators (symbolPiece operator :: gap (lead value.items after)) :=
    Expr.follows_operator (mem_symbols (Or.inr (Or.inr operator.2))) operator.2 follows.calm
  have within : assignmentOperators ⊆ symbols := fun kind listed => mem_symbols (Or.inr (Or.inr listed))
  have apart : ∀ kind ∈ assignmentOperators, ∀ layer : OperatorLayer, kind ∉ layer.operators := by
    intro kind listed layer
    revert kind
    cases layer with
    | _ => decide
  simp only [Expr.items, Expr.tree, lead_append, lead_cons]
  have single := memberOrCall_none (operand_primary readable (behind.mono within)) behind within
    (by decide)
  have passed := additive_pass single behind within apart
  have passed' := conditional_pass passed behind within (by decide)
  exact assignment_join operator.2 passed' (value.firm follows) (readable' after follows) follows

/-- An expression that is written as an operand with an access or a call behind it. -/
theorem suffix_readable {e whole : Expr} {kind : TokenKind} {items : List Item}
    (written : whole.items = operand e.isAtom e.items ++ .symbol kind :: items)
    (readable : e.Readable)
    (suffix : ∀ after, Follows closers after → ∀ start t, erase t = e.tree →
      Reads (lead (.symbol kind :: items) after) (suffix? Rules.whole start t)
        (FoundLonger whole.tree after)) : whole.Readable := by
  intro after follows
  have fits := whole.items_fit
  rw [written, List.forall_mem_append, List.forall_mem_cons] at fits
  obtain ⟨-, listed, fits⟩ := fits
  have behind : Follows symbols (lead (.symbol kind :: items) after) :=
    follows_cons listed listed (noArrow_lead fits follows.calm).gap
  have reads := memberOrCall_one (operand_primary readable behind)
    (behind.firm (List.Subset.refl symbols)) (lead_ne_nil (List.cons_ne_nil _ _) after)
    (suffix after follows) follows
  rw [written, lead_append]
  exact expression_of_memberOrCall reads follows

/-- Every expression is read back, however it is nested. -/
theorem Expr.readable (e : Expr) : e.Readable := by
  induction e with
  | name word =>
    intro after follows
    exact expression_of_primary (atom_primary rfl (follows.mono closers_subset)) follows
  | number numeral =>
    intro after follows
    exact expression_of_primary (atom_primary rfl (follows.mono closers_subset)) follows
  | string quoted =>
    intro after follows
    exact expression_of_primary (atom_primary rfl (follows.mono closers_subset)) follows
  | unary operator argument ih =>
    intro after follows
    have reads := unaryExpression_reads operator ih follows
    exact expression_of_primary (reads.mono fun _ _ found => found.before) follows
  | binary layer operator left right ih ih' => exact binary_readable layer operator ih ih'
  | assignment operator target value ih ih' => exact assignment_readable operator ih ih'
  | conditional test consequent alternate ih ih' ih'' => exact conditional_readable ih ih' ih''
  | member object property ih =>
    apply suffix_readable rfl ih
    intro after follows start t same
    exact member_suffix property start same
  | computed object index ih ih' =>
    apply suffix_readable (List.append_assoc _ _ _) ih
    intro after follows start t same
    exact computed_suffix ih' follows.calm start same
  | call callee arguments ih ih' =>
    apply suffix_readable (List.append_assoc _ _ _) ih
    intro after follows start t same
    exact call_suffix ih' follows.calm start same
  | array elements ih =>
    intro after follows
    exact expression_of_primary (arrayExpression_reads ih follows.calm) follows

end Whole

end ScriptFront.Script
