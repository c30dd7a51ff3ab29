import ScriptFront.Proofs.RoundTrip.Parsing

namespace ScriptFront.Script

open ScriptFront.Parser

variable {front back after : List (Piece TokenKind)} {kinds : List TokenKind} {tree : Tree}

theorem FoundBefore.reads_trim {α : Type} {goal : α → List (Piece TokenKind) → Prop}
    {f : Unit → Rule α} {t : Tree} {middle : List (Piece TokenKind)}
    (found : FoundBefore tree back t middle) (firm : Firm back) (next : Reads back (f ()) goal) :
    Reads middle (trim >>= f) goal := by
  rcases found.2 with rfl | rfl
  · exact reads_trim_firm firm next
  · exact reads_trim_gap firm next

section Suffixes

/-- The tokens that go on with an operand. -/
def suffixMarks : List TokenKind := [.period, .openSquare, .openParen, .optionalChain, .backQuote]

/-- One suffix is found, and nothing that could be another. -/
def FoundLonger (tree : Tree) (back : List (Piece TokenKind)) (longer : Option Tree)
    (middle : List (Piece TokenKind)) : Prop :=
  ∃ t, longer = some t ∧ FoundBefore tree back t middle

theorem suffix?_none (start : Nat) (t : Tree) (follows : Follows kinds back)
    (apart : ∀ kind ∈ kinds, kind ∉ suffixMarks) :
    Reads back (suffix? Rules.whole start t) fun longer after => longer = none ∧ after = back := by
  have other (kind : TokenKind) (isMark : kind ∈ suffixMarks) : headKind back ≠ some kind :=
    follows.headKind_ne fun inKinds => apart kind inKinds isMark
  apply reads_currentKind
  split
  · rename_i first
    exact absurd first (other .period (by decide))
  · rename_i first
    exact absurd first (other .openSquare (by decide))
  · rename_i first
    exact absurd first (other .openParen (by decide))
  · rename_i first
    exact absurd first (other .optionalChain (by decide))
  · rename_i first
    exact absurd first (other .backQuote (by decide))
  · exact reads_pure ⟨rfl, rfl⟩

/-- Where no suffix follows the loop gives back what it was given, whatever its budget. -/
theorem suffixesWithin_none (start budget : Nat) (t : Tree) (follows : Follows kinds back)
    (apart : ∀ kind ∈ kinds, kind ∉ suffixMarks) :
    Reads back (suffixesWithin Rules.whole start budget t) fun found after =>
      found = t ∧ after = back := by
  cases budget with
  | zero => exact reads_pure ⟨rfl, rfl⟩
  | succ budget =>
    apply (suffix?_none start t follows apart).bind
    rintro _ _ ⟨rfl, rfl⟩
    exact reads_pure ⟨rfl, rfl⟩

/-- An operand with no suffix. -/
theorem memberOrCall_none (operand : Reads front (primary Rules.whole true) (FoundBefore tree back))
    (follows : Follows kinds back) (within : kinds ⊆ symbols)
    (apart : ∀ kind ∈ kinds, kind ∉ suffixMarks) :
    Reads front (memberOrCall Rules.whole true) (Found tree back) := by
  apply reads_any
  intro start
  apply operand.bind
  intro t middle found
  apply found.reads_trim (follows.firm within)
  apply reads_any
  intro budget
  apply (suffixesWithin_none start budget t follows apart).mono
  rintro _ _ ⟨rfl, rfl⟩
  exact ⟨found.1, rfl⟩

/-- An operand with one suffix, behind which no other can stand. -/
theorem memberOrCall_one {longer : Tree}
    (operand : Reads front (primary Rules.whole true) (FoundBefore tree back))
    (firm : Firm back) (filled : back ≠ [])
    (suffix : ∀ start t, erase t = tree →
      Reads back (suffix? Rules.whole start t) (FoundLonger longer after))
    (follows : Follows closers after) :
    Reads front (memberOrCall Rules.whole true) (Found longer after) := by
  apply reads_any
  intro start
  apply operand.bind
  intro t middle found
  apply found.reads_trim firm
  apply reads_observe fun s here => length_eq here
  obtain ⟨budget, count⟩ := Nat.exists_eq_add_one_of_ne_zero (List.length_pos_iff.mpr filled).ne'
  rw [count]
  apply (suffix start t found.1).bind
  rintro _ middle ⟨t', rfl, found'⟩
  apply found'.reads_trim (follows.firm closers_subset)
  apply (suffixesWithin_none start budget t' follows (by decide)).mono
  rintro _ _ ⟨rfl, rfl⟩
  exact ⟨found'.1, rfl⟩

end Suffixes

section Layers

/-- An operand that no operator of the layer follows goes through the layer unchanged. -/
theorem binary_pass {layer : OperatorLayer} {operand : Rule Tree}
    (reads : Reads front operand (Found tree back)) (follows : Follows kinds back)
    (within : kinds ⊆ symbols) (apart : ∀ kind ∈ kinds, kind ∉ layer.operators) :
    Reads front (binary Rules.whole true layer operand) (Found tree back) := by
  apply reads_any
  intro start
  apply reads.bind
  rintro t _ ⟨same, rfl⟩
  apply reads_trim_firm (follows.firm within)
  apply reads_if (b := false)
  · intro s here
    rw [currentKind_eq here]
    simpa using follows.any_false apart
  exact reads_pure ⟨same, rfl⟩

/-- An operand, an operator of the layer and a whole expression make one node, so operators of all
layers group to the right. -/
theorem binary_join {layer : OperatorLayer} {operand : Rule Tree} {operator : TokenKind}
    {left right : Tree} (listed : operator ∈ layer.operators)
    (reads : Reads front operand (Found left (symbolPiece operator :: gap back)))
    (firm : Firm back) (others : Reads back (Rules.whole.expression true) (Found right after)) :
    Reads front (binary Rules.whole true layer operand)
      (Found (bare (.binaryExpression layer operator left right)) after) := by
  have solid := symbolPiece_solid (mem_symbols (Or.inr (Or.inl ⟨layer, listed⟩)))
  apply reads_any
  intro start
  apply reads.bind
  rintro t _ ⟨rfl, rfl⟩
  apply reads_trim_firm (firm_cons solid _)
  apply reads_if (b := true)
  · intro s here
    simp [currentKind_eq here, listed]
  apply reads_eat_gap firm
  intro token made
  apply others.bind
  rintro t' _ ⟨rfl, rfl⟩
  have kind : token.kind = operator := congrArg (·.kind) made
  rw [kind]
  exact reads_node start _

/-- All layers of binary operators let an operand through that none of theirs follows. -/
theorem additive_pass (reads : Reads front (memberOrCall Rules.whole true) (Found tree back))
    (follows : Follows kinds back) (within : kinds ⊆ symbols)
    (apart : ∀ kind ∈ kinds, ∀ layer : OperatorLayer, kind ∉ layer.operators) :
    Reads front (additive Rules.whole true) (Found tree back) := by
  have free (layer : OperatorLayer) : ∀ kind ∈ kinds, kind ∉ layer.operators :=
    fun kind inKinds => apart kind inKinds layer
  have compared : Reads front (comparative Rules.whole true) (Found tree back) :=
    binary_pass reads follows within (free .comparative)
  have multiplied : Reads front (multiplicative Rules.whole true) (Found tree back) :=
    binary_pass compared follows within (free .multiplicative)
  exact binary_pass multiplied follows within (free .additive)

/-- What no question mark follows goes through the layer of conditions unchanged. -/
theorem conditional_pass (reads : Reads front (additive Rules.whole true) (Found tree back))
    (follows : Follows kinds back) (within : kinds ⊆ symbols) (apart : .question ∉ kinds) :
    Reads front (conditional Rules.whole true) (Found tree back) := by
  apply reads_any
  intro start
  apply reads.bind
  rintro t _ ⟨same, rfl⟩
  apply reads_trim_firm (follows.firm within)
  apply reads_accept_no (follows.headKind_ne apart)
  exact reads_pure ⟨same, rfl⟩

theorem conditional_join {test consequent alternate : Tree} {middle : List (Piece TokenKind)}
    (reads : Reads front (additive Rules.whole true)
      (Found test (symbolPiece .question :: gap middle)))
    (firm : Firm middle) (yes : Reads middle (Rules.whole.expression true)
      (Found consequent (symbolPiece .colon :: gap back)))
    (firm' : Firm back) (no : Reads back (Rules.whole.expression true) (Found alternate after)) :
    Reads front (conditional Rules.whole true)
      (Found (bare (.conditionalExpression test consequent alternate)) after) := by
  apply reads_any
  intro start
  apply reads.bind
  rintro t _ ⟨rfl, rfl⟩
  apply reads_trim_firm (firm_cons rfl _)
  apply reads_accept_yes rfl
  apply reads_trim_gap firm
  apply yes.bind
  rintro t' _ ⟨rfl, rfl⟩
  apply reads_trim_firm (firm_cons rfl _)
  apply reads_expect rfl
  intro _ _
  apply reads_trim_gap firm'
  apply no.bind
  rintro t'' _ ⟨rfl, rfl⟩
  exact reads_node start _

/-- What only a closing token follows is a whole expression. -/
theorem expression_pass (reads : Reads front (conditional Rules.whole true) (Found tree after))
    (follows : Follows closers after) :
    Reads front (Rules.whole.expression true) (Found tree after) := by
  rw [Rules.whole_expression]
  apply reads_any
  intro start
  apply reads.bind
  rintro t _ ⟨same, rfl⟩
  apply reads_trim_firm (follows.firm closers_subset)
  apply reads_if (b := false)
  · intro s here
    rw [isAny_eq here]
    exact follows.any_false (by decide)
  exact reads_pure ⟨same, rfl⟩

/-- A target, an assignment sign and a whole expression make an assignment. -/
theorem assignment_join {operator : TokenKind} {target value : Tree}
    (listed : operator ∈ assignmentOperators)
    (reads : Reads front (conditional Rules.whole true)
      (Found target (symbolPiece operator :: gap back)))
    (firm : Firm back) (others : Reads back (Rules.whole.expression true) (Found value after))
    (follows : Follows closers after) :
    Reads front (Rules.whole.expression true)
      (Found (bare (.assignmentExpression operator target value)) after) := by
  have solid := symbolPiece_solid (mem_symbols (Or.inr (Or.inr listed)))
  rw [Rules.whole_expression]
  apply reads_any
  intro start
  apply reads.bind
  rintro t _ ⟨rfl, rfl⟩
  apply reads_trim_firm (firm_cons solid _)
  apply reads_if (b := true)
  · intro s here
    simp [isAny_eq here, listed]
  apply reads_eat_gap firm
  intro token made
  apply others.bind
  rintro t' _ ⟨rfl, rfl⟩
  apply reads_trim_firm (follows.firm closers_subset)
  have kind : token.kind = operator := congrArg (·.kind) made
  rw [kind]
  exact reads_node start _

theorem expression_of_additive (reads : Reads front (additive Rules.whole true) (Found tree after))
    (follows : Follows closers after) :
    Reads front (Rules.whole.expression true) (Found tree after) :=
  expression_pass (conditional_pass reads follows closers_subset (by decide)) follows

theorem closers_not_binary :
    ∀ kind ∈ closers, ∀ layer : OperatorLayer, kind ∉ layer.operators := by
  intro kind closes layer
  cases layer with
  | additive => revert kind; decide
  | multiplicative => revert kind; decide
  | comparative => revert kind; decide

/-- What is read by the innermost layer is a whole expression when a closing token follows. All the
layers between are passed. -/
theorem expression_of_memberOrCall
    (reads : Reads front (memberOrCall Rules.whole true) (Found tree after))
    (follows : Follows closers after) :
    Reads front (Rules.whole.expression true) (Found tree after) :=
  expression_of_additive (additive_pass reads follows closers_subset closers_not_binary) follows

end Layers

end ScriptFront.Script
