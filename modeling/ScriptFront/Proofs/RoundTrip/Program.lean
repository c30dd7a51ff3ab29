import ScriptFront.Proofs.RoundTrip.Readable

namespace ScriptFront.Script

open ScriptFront.Parser

variable {front back : List (Piece TokenKind)}

theorem follows_nil (kinds : List TokenKind) : Follows kinds [] where
  head := by simp
  calm := by simp [NoArrow]

theorem Firm.separators (firm : Firm front) (other : headKind front ≠ some .semicolon) :
    front.dropWhile separates = front := by
  cases front with
  | nil => rfl
  | cons x pieces =>
    have solid : x.isSpace = false := by
      by_contra layout
      have shorter := (List.dropWhile_sublist (l := pieces) Piece.isSpace).length_le
      rw [Firm, List.dropWhile_cons_of_pos (by simpa using layout)] at firm
      rw [firm, List.length_cons] at shorter
      omega
    have plain : x.kind ≠ .semicolon := by simpa using other
    rw [List.dropWhile_cons_of_neg (by simp [separates, solid, plain])]

section Labels

/-- No name at the front has a colon behind it. -/
def Unlabelled (front : List (Piece TokenKind)) : Prop :=
  headKind front = some .identifier →
    headKind (front.tail.dropWhile Piece.isSpace) ≠ some .colon

theorem operand_unlabelled (e : Expr) (firm : Firm back) (other : headKind back ≠ some .colon) :
    Unlabelled (lead (operand e.isAtom e.items) back) := by
  intro first
  cases e with
  | name word =>
    show headKind ((gap back).dropWhile Piece.isSpace) ≠ some .colon
    rw [firm.gap]
    exact other
  | number numeral => cases numeral <;> cases first
  | _ => cases first

theorem symbol_unlabelled (e : Expr) {kind : TokenKind} (listed : kind ∈ symbols)
    (other : kind ≠ .colon) (items : List Item) (after : List (Piece TokenKind)) :
    Unlabelled (lead (operand e.isAtom e.items) (lead (.symbol kind :: items) after)) :=
  operand_unlabelled e (firm_cons (symbolPiece_solid listed) _) (by simpa [Item.pieces] using other)

theorem Expr.unlabelled (e : Expr) : Unlabelled (lead e.items []) := by
  cases e with
  | name word => exact operand_unlabelled (.name word) rfl (by simp)
  | number numeral => exact operand_unlabelled (.number numeral) rfl (by simp)
  | string quoted => exact operand_unlabelled (.string quoted) rfl (by simp)
  | unary operator argument =>
    intro first
    have same : operator.1 = .identifier := Option.some.inj first
    have free : TokenKind.identifier ∉ unaryOperators := by decide
    exact absurd (same ▸ operator.2) free
  | binary layer operator left right =>
    have other : ∀ layer : OperatorLayer, .colon ∉ layer.operators := by
      intro layer
      cases layer with
      | _ => decide
    rw [Expr.items, lead_append]
    exact symbol_unlabelled left (mem_symbols (Or.inr (Or.inl ⟨layer, operator.2⟩)))
      (fun same => other layer (same ▸ operator.2)) _ []
  | assignment operator target value =>
    have other : .colon ∉ assignmentOperators := by decide
    rw [Expr.items, lead_append]
    exact symbol_unlabelled target (mem_symbols (Or.inr (Or.inr operator.2)))
      (fun same => other (same ▸ operator.2)) _ []
  | conditional test consequent alternate =>
    rw [Expr.items, List.append_assoc, lead_append]
    exact symbol_unlabelled test (by decide) (by decide) _ []
  | member object property =>
    rw [Expr.items, lead_append]
    exact symbol_unlabelled object (by decide) (by decide) _ []
  | computed object index =>
    rw [Expr.items, List.append_assoc, lead_append]
    exact symbol_unlabelled object (by decide) (by decide) _ []
  | call callee arguments =>
    rw [Expr.items, List.append_assoc, lead_append]
    exact symbol_unlabelled callee (by decide) (by decide) _ []
  | array elements =>
    intro first
    cases first

end Labels

/-- Pieces that are read as one expression, and that as a statement of their own. The first piece
has to be one that begins no other statement, and no label. -/
structure Standalone (front : List (Piece TokenKind)) (tree : Tree) : Prop where
  reads : Reads front (Rules.whole.expression true) (Found tree [])
  starts : ∃ kind ∈ .backQuote :: starters, headKind front = some kind
  firm : Firm front
  unlabelled : Unlabelled front

theorem Expr.standalone (e : Expr) : Standalone (lead e.items []) e.tree where
  reads := e.readable [] (follows_nil closers)
  starts := by
    obtain ⟨kind, listed, first⟩ := e.starts []
    exact ⟨kind, List.mem_cons_of_mem _ listed, first⟩
  firm := e.firm (follows_nil closers)
  unlabelled := e.unlabelled

section Statements

variable {tree : Tree} (alone : Standalone front tree)
include alone

theorem Standalone.ne_nil : front ≠ [] := by
  obtain ⟨kind, -, first⟩ := alone.starts
  rintro rfl
  cases first

theorem Standalone.headKind_ne {kind : TokenKind} (other : kind ∉ .backQuote :: starters) :
    headKind front ≠ some kind := by
  obtain ⟨kind, listed, first⟩ := alone.starts
  rw [first]
  rintro ⟨⟩
  exact other listed

theorem expressionStatement_reads : Reads front (expressionStatement Rules.whole true)
    (Found (bare (.expressionStatement tree)) []) := by
  have reads := alone.reads
  rw [Rules.whole_expression] at reads
  apply reads_any
  intro start
  apply reads.bind
  rintro t _ ⟨same, rfl⟩
  rw [← same]
  exact reads_node start _

theorem bareStatement_reads : Reads front (bareStatement Rules.whole true)
    (Found (bare (.expressionStatement tree)) []) := by
  obtain ⟨kind, listed, first⟩ := alone.starts
  have reads := expressionStatement_reads alone
  apply reads_kind first
  simp only [starters, unaryOperators, List.cons_append, List.nil_append, List.mem_cons,
    List.not_mem_nil, or_false] at listed
  rcases listed with rfl | rfl | rfl | rfl | rfl | rfl | rfl | rfl | rfl | rfl | rfl
  · exact reads
  · apply reads_if (b := false)
    · intro s here
      rw [followedBy_eq here]
      simpa using alone.unlabelled first
    exact reads
  all_goals exact reads

theorem statement_reads : Reads front (Rules.whole.statement true)
    (Found (bare (.expressionStatement tree)) []) := by
  rw [Rules.whole_statement]
  apply reads_trim_firm alone.firm
  apply (bareStatement_reads alone).bind
  rintro t _ ⟨same, rfl⟩
  apply reads_trimSeparators.bind
  rintro _ _ rfl
  exact reads_pure ⟨same, rfl⟩

end Statements

section Programs

/-- A program of one statement of the given shape. -/
def Alone (statement : Tree) (body : List Tree) : Prop := ∃ t, body = [t] ∧ erase t = statement

/-- Behind the last statement the tokens have ended. -/
theorem ended_reads {item : Rule Tree} {more : Rule Bool} (budget : Nat) :
    Reads [] (itemsWithin (fun _ => false) item more budget) fun nodes _ => nodes = [] := by
  cases budget with
  | zero => exact reads_pure rfl
  | succ budget =>
    apply reads_if (b := true)
    · intro s here
      simp [willContinue_eq here]
    exact reads_pure rfl

variable {tree : Tree} (alone : Standalone front tree)
include alone

theorem body_reads :
    Reads front (items (fun _ => false) grammar.node (do grammar.trivia; pure true))
      fun body _ => Alone (bare (.expressionStatement tree)) body := by
  have filled := alone.ne_nil
  obtain ⟨budget, count⟩ := Nat.exists_eq_add_one_of_ne_zero (List.length_pos_iff.mpr filled).ne'
  apply reads_observe fun s here => length_eq here
  rw [count]
  apply reads_if (b := false)
  · intro s here
    simp [willContinue_eq here, filled]
  apply (statement_reads alone).bind
  rintro t _ ⟨same, rfl⟩
  have more : Reads [] (do grammar.trivia; pure true) fun there after => there = true ∧ after = [] := by
    apply reads_trimSeparators.bind
    rintro _ _ rfl
    exact reads_pure ⟨rfl, rfl⟩
  apply more.bind
  rintro _ _ ⟨rfl, rfl⟩
  apply (ended_reads budget).bind
  rintro _ _ rfl
  exact reads_pure ⟨t, rfl, same⟩

/-- The separators in front of a program and the statements behind them. -/
theorem statements_reads :
    Reads front (do
        grammar.trivia
        items (fun _ => false) grammar.node (do grammar.trivia; pure true))
      fun body _ => Alone (bare (.expressionStatement tree)) body := by
  apply reads_trimSeparators.bind
  rintro _ _ rfl
  rw [alone.firm.separators (alone.headKind_ne (by decide))]
  exact body_reads alone

theorem produce_standalone (s : State) (here : ahead s = front) :
    ∃ program t, grammar.produce s = .ok program t ∧
      Alone (bare (.expressionStatement tree)) program.body ∧
      program.properties = s.properties := by
  obtain ⟨body, t, run, kept, found⟩ := statements_reads alone s here
  have unfolded : grammar.produce = (do
      grammar.trivia
      items (fun _ => false) grammar.node (do grammar.trivia; pure true)) >>= fun body => do
        return ⟨body, ← observe (·.properties)⟩ := (bind_assoc ..).symm
  refine ⟨⟨body, t.properties⟩, t, ?_, found, kept⟩
  rw [unfolded, bind_ok run]
  rfl

/-- A source whose tokens are one expression is a program of that expression alone. -/
theorem Standalone.parseWith {source : String} (options : Options)
    (spelled : ∃ tokens, tokenize source = .ok tokens ∧ tokens.map Token.piece = front) :
    ∃ parsed, parseWith source options = .ok parsed ∧
      erase parsed.tree = bare (.program [bare (.expressionStatement tree)]) ∧
      parsed.properties = options.properties := by
  obtain ⟨tokens, lexing, same⟩ := spelled
  obtain ⟨program, t, run, ⟨statement, found, shape⟩, kept⟩ :=
    produce_standalone alone (State.ofTokens tokens options) same
  have parsing : produce tokens options = .ok program := by
    unfold produce
    rw [run]
  refine ⟨_, parseWith_eq_ok_iff.mpr ⟨tokens, program, lexing, parsing, rfl⟩, ?_, kept⟩
  rw [programNode, erase_program, found, eraseAll_cons, eraseAll_nil, shape]
  rfl

end Programs

/-- What is written is read back: the text of an expression is a program of that
expression alone, and its tree is the tree of the expression. -/
theorem Expr.parseWith_text (e : Expr) (options : Options) :
    ∃ parsed, parseWith e.text options = .ok parsed ∧
      erase parsed.tree = bare (.program [bare (.expressionStatement e.tree)]) ∧
      parsed.properties = options.properties :=
  e.standalone.parseWith options e.tokenize_text

end ScriptFront.Script
