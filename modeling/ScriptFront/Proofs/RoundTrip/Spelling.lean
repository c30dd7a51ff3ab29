import Mathlib.Data.List.Find
import Mathlib.Data.List.TakeWhile
import ScriptFront.Proofs.Piece
import ScriptFront.Proofs.RoundTrip.Written

namespace ScriptFront.Script

/-- A run of characters that ends, or goes on with `stop`. -/
def Stopped (stop : Char) (cs : List Char) : Prop := cs = [] ∨ ∃ rest, cs = stop :: rest

/-- A run of characters that ends, or goes on with a space. -/
def Clear (cs : List Char) : Prop := cs = [] ∨ ∃ rest, cs = ' ' :: rest

/-- A character that no token goes over, unless it is a token itself or stands in text. A token in
front of it ends there, whatever follows it. -/
structure Stops (stop : Char) : Prop where
  brace : stop ≠ '\x7b'
  word : isWordPart stop = false
  digit : stop.isDigit = false
  punctuator : ∀ entry ∈ punctuators, stop ∉ entry.1.toList ∨ entry.1.toList = [stop]

theorem stops_space : Stops ' ' := ⟨by decide, by decide, by decide, by decide⟩

theorem stops_lineFeed : Stops '\n' := ⟨by decide, by decide, by decide, by decide⟩

theorem stops_closeBrace : Stops '\x7d' := ⟨by decide, by decide, by decide, by decide⟩

section Scanning

variable {stop : Char} {cs : List Char} (stopped : Stopped stop cs)
include stopped

/-- The run of characters that pass a test ends with a text when what stands behind begins with a
character that fails it. -/
theorem Stopped.takeWhile_append {test : Char → Bool} (stops : test stop = false)
    (text : List Char) : (text ++ cs).takeWhile test = text.takeWhile test := by
  induction text with
  | nil =>
    rcases stopped with rfl | ⟨rest, rfl⟩
    · rfl
    · simp [stops]
  | cons c text ih => simp only [List.cons_append, List.takeWhile_cons, ih]

theorem Stopped.head?_append {c : Char} (other : stop ≠ c) (text : List Char) :
    (text ++ cs).head? = some c ↔ text.head? = some c := by
  cases text with
  | cons d text => rfl
  | nil =>
    rcases stopped with rfl | ⟨rest, rfl⟩
    · rfl
    · simp [other]

/-- A run of characters that begins a longer text lies before the first place in it where
the run cannot go on. -/
theorem Stopped.isPrefixOf_append {mark text : List Char} (without : stop ∉ mark) :
    mark.isPrefixOf (text ++ cs) = mark.isPrefixOf text := by
  induction mark generalizing text with
  | nil => simp
  | cons c mark ih =>
    have other : c ≠ stop := fun same => without (by simp [same])
    have rest : stop ∉ mark := fun inside => without (List.mem_cons_of_mem c inside)
    cases text with
    | cons d text => simp only [List.cons_append, List.isPrefixOf, ih rest]
    | nil =>
      rcases stopped with rfl | ⟨others, rfl⟩
      · rfl
      · simp [List.isPrefixOf, other]

theorem scanPunctuator_stopped (stops : Stops stop) (c : Char) (text : List Char) :
    scanPunctuator (c :: text ++ cs) = scanPunctuator (c :: text) := by
  have same : punctuators.find? (fun entry => entry.1.toList.isPrefixOf (c :: text ++ cs)) =
      punctuators.find? fun entry => entry.1.toList.isPrefixOf (c :: text) := by
    apply List.find?_congr
    intro entry listed
    rcases stops.punctuator entry listed with without | alone
    · exact stopped.isPrefixOf_append without
    · simp [alone, List.isPrefixOf]
  unfold scanPunctuator
  rw [same]

/-- What stands before a character that stops it does not depend on what stands behind it,
unless it is a string, which may hold such characters itself. -/
theorem scanCode_stopped (stops : Stops stop) {c : Char} (text : List Char)
    (noQuote : c ≠ '"' ∧ c ≠ '\'') : scanCode (c :: text ++ cs) = scanCode (c :: text) := by
  have template := stopped.head?_append stops.brace text
  have word := stopped.takeWhile_append stops.word text
  have digits := stopped.takeWhile_append stops.digit text
  have punctuator := scanPunctuator_stopped stopped stops c text
  rw [List.cons_append] at punctuator ⊢
  simp only [scanCode, noQuote, or_self, if_false, template, word, digits, punctuator]

end Scanning

theorem scanCode_clear {cs : List Char} (clear : Clear cs) {c : Char} (text : List Char)
    (noQuote : c ≠ '"' ∧ c ≠ '\'') : scanCode (c :: text ++ cs) = scanCode (c :: text) :=
  scanCode_stopped clear stops_space text noQuote

section Pieces

/-- The tag of an operator, a punctuator or a reserved word. -/
def symbolTag (kind : TokenKind) : Option Tag :=
  match punctuators.find? (·.2.kind = kind) with
  | some (_, lexeme) => lexeme.tag
  | none => some .word

/-- A fixed word or sign as the lexer hands it out, told by its kind alone. -/
def symbolPiece (kind : TokenKind) : Piece TokenKind := ⟨⟨kind, symbolTag kind⟩, spelling kind⟩

/-- A word as the lexer hands it out: its kind depends on whether it is reserved, its tag does not.
-/
def Word.piece (word : Word) : Piece TokenKind := ⟨⟨wordKind word.text, some .word⟩, word.text⟩

/-- A run of digits as the lexer hands it out. -/
def Digits.piece (digits : Digits) : Piece TokenKind := ⟨⟨.number, none⟩, digits.text⟩

/-- A string as the lexer hands it out, with its quotes and its backslashes as they were written. -/
def Quoted.piece (quoted : Quoted) : Piece TokenKind := ⟨⟨.string, none⟩, quoted.raw⟩

/-- The mark at both ends of a template. -/
def backQuote : Piece TokenKind := ⟨⟨.backQuote, none⟩, "\x60"⟩

/-- The marks around an interpolation. -/
def openTemplate : Piece TokenKind := ⟨⟨.openTemplate, none⟩, "$\x7b"⟩

/-- The brace behind an interpolation or a block. -/
def closeBrace : Piece TokenKind := ⟨⟨.closeBrace, none⟩, "\x7d"⟩

@[simp] theorem kind_symbolPiece (kind : TokenKind) : (symbolPiece kind).kind = kind := rfl

@[simp] theorem Word.kind_piece (word : Word) : word.piece.kind = wordKind word.text := rfl

@[simp] theorem Digits.kind_piece (digits : Digits) : digits.piece.kind = .number := rfl

@[simp] theorem Quoted.kind_piece (quoted : Quoted) : quoted.piece.kind = .string := rfl

/-- The tokens of an item. -/
def Item.pieces : Item → List (Piece TokenKind)
  | symbol kind => [symbolPiece kind]
  | word w => [w.piece]
  | number (.whole digits) => [digits.piece]
  | number (.decimal digits fraction) => [digits.piece, symbolPiece .period, fraction.piece]
  | string quoted => [quoted.piece]

theorem Item.spelled_pieces (item : Item) : Piece.spelled item.pieces = item.text.toList := by
  cases item with
  | symbol kind => simp [pieces, text, symbolPiece]
  | word w => simp [pieces, text, Word.piece]
  | string quoted => simp [pieces, text, Quoted.piece]
  | number numeral =>
    cases numeral with
    | whole digits => simp [pieces, text, Numeral.raw, Digits.piece]
    | decimal digits fraction =>
      have period : spelling .period = "." := by decide
      simp [pieces, text, Numeral.raw, Digits.piece, symbolPiece, period]

/-- All tokens of written expressions that are always spelled the same, and the brace that
ends an interpolation. -/
def symbols : List TokenKind :=
  unaryOperators ++ OperatorLayer.additive.operators ++ OperatorLayer.multiplicative.operators ++
    OperatorLayer.comparative.operators ++ assignmentOperators ++
    [.openParen, .closeParen, .openSquare, .closeSquare, .closeBrace, .comma, .period, .question,
      .colon]

/-- A symbol of an item is one that expressions are written with. -/
def Item.Fits : Item → Prop
  | symbol kind => kind ∈ symbols
  | _ => True

/-- A symbol with a space or nothing behind it is read as itself, not as the beginning of a longer
one. -/
theorem symbol_scan {kind : TokenKind} (listed : kind ∈ symbols) {cs : List Char}
    (clear : Clear cs) : scanCode ((spelling kind).toList ++ cs) =
      .lexeme (symbolPiece kind).toLexeme (spelling kind).length := by
  have alone : ∀ kind ∈ symbols, scanCode (spelling kind).toList =
      .lexeme (symbolPiece kind).toLexeme (spelling kind).length := by decide
  have front : ∀ kind ∈ symbols, (spelling kind).toList ≠ [] ∧
      (spelling kind).toList.head? ∉ [some '"', some '\''] := by decide
  obtain ⟨filled, first⟩ := front kind listed
  rw [← alone kind listed]
  cases text : (spelling kind).toList with
  | nil => exact absurd text filled
  | cons c rest =>
    simp only [text, List.head?_cons, List.mem_cons, Option.some.injEq, List.not_mem_nil, or_false,
      not_or] at first
    exact scanCode_clear clear rest first

/-- A word that is stopped is read whole. -/
theorem word_scan (word : Word) {stop : Char} {cs : List Char} (stopped : Stopped stop cs)
    (stops : Stops stop) :
    scanCode (word.text.toList ++ cs) = .lexeme word.piece.toLexeme word.text.length := by
  have starts := word.starts
  have noQuote : word.first ≠ '"' ∧ word.first ≠ '\'' := by
    constructor
    · intro same
      rw [same] at starts
      exact absurd starts (by decide)
    · intro same
      rw [same] at starts
      exact absurd starts (by decide)
  have noBrace : word.others.head? ≠ some '\x7b' := by
    intro brace
    have part := word.goesOn _ (List.mem_of_head? brace)
    exact absurd part (by decide)
  have all : word.others.takeWhile isWordPart = word.others :=
    List.takeWhile_eq_self_iff.mpr word.goesOn
  rw [Word.text, String.toList_ofList, scanCode_stopped stopped stops word.others noQuote]
  simp [scanCode, noQuote, noBrace, starts, all, Word.piece, Word.text, Nat.add_comm]

theorem Digits.first_isDigit (digits : Digits) : digits.first.isDigit = true :=
  digits.isRun _ List.mem_cons_self

/-- A digit begins nothing but a number. -/
theorem isDigit_front {c : Char} (digit : c.isDigit = true) :
    c ≠ '"' ∧ c ≠ '\'' ∧ c ≠ '$' ∧ c ≠ '.' ∧ isWordStart c = false := by
  have other (d : Char) (notDigit : d.isDigit = false) : c ≠ d := by
    rintro rfl
    rw [digit] at notDigit
    cases notDigit
  have dollar := other '$' (by decide)
  have low := other '_' (by decide)
  refine ⟨other _ (by decide), other _ (by decide), dollar, other _ (by decide), ?_⟩
  have letter : c.isAlpha = false := by
    delta Char.isAlpha Char.isUpper Char.isLower
    simp [Char.isDigit, UInt32.le_iff_toNat_le] at digit ⊢
    omega
  simp [isWordStart, letter, dollar, low]

theorem digits_scan (digits : Digits) {cs : List Char}
    (ends : ∀ c ∈ cs.head?, c.isDigit = false) :
    scanCode (digits.text.toList ++ cs) = .lexeme digits.piece.toLexeme digits.text.length := by
  obtain ⟨notDouble, notSingle, notDollar, -, notWord⟩ := isDigit_front digits.first_isDigit
  have all : (digits.others ++ cs).takeWhile Char.isDigit = digits.others := by
    rw [List.takeWhile_append_of_pos fun c member => digits.isRun c (List.mem_cons_of_mem _ member)]
    cases cs with
    | nil => simp
    | cons c cs => simp [ends c rfl]
  rw [Digits.text, String.toList_ofList, List.cons_append]
  simp [scanCode, notDouble, notSingle, notDollar, notWord, digits.first_isDigit, all, Scan.plain,
    Digits.piece, Digits.text, Nat.add_comm]

theorem period_scan (digits : Digits) (cs : List Char) :
    scanCode ((spelling .period).toList ++ (digits.text.toList ++ cs)) =
      .lexeme (symbolPiece .period).toLexeme (spelling .period).length := by
  obtain ⟨-, -, -, notPeriod, -⟩ := isDigit_front digits.first_isDigit
  have period : (spelling .period).toList = ['.'] := by decide
  have dots : "...".toList = ['.', '.', '.'] := by decide
  have dot : ".".toList = ['.'] := by decide
  have table : punctuators =
      ("...", ⟨.spread, none⟩) :: (".", ⟨.period, none⟩) :: punctuators.drop 2 := rfl
  have found : scanPunctuator ('.' :: digits.first :: (digits.others ++ cs)) =
      .lexeme (symbolPiece .period).toLexeme (spelling .period).length := by
    unfold scanPunctuator
    rw [table, List.find?_cons_of_neg (by simp [dots, List.isPrefixOf, notPeriod.symm]),
      List.find?_cons_of_pos (by simp [dot, List.isPrefixOf])]
    decide
  rw [period, Digits.text, String.toList_ofList]
  exact found

/-- Between its quotes a string is read unit by unit; an escape takes its second character along.
The induction is on the units. -/
theorem scanString_units {quote : Char} (units : List (StringUnit quote)) (cs : List Char)
    (notSlash : quote ≠ '\\') :
    scanString quote (units.flatMap (·.chars) ++ quote :: cs) =
      .plain .string ((units.flatMap (·.chars)).length + 1) := by
  induction units with
  | nil =>
    unfold scanString
    simp
  | cons unit units ih =>
    cases unit with
    | plain c notQuote noEscape =>
      simp only [List.flatMap_cons, StringUnit.chars_plain, List.cons_append, List.nil_append]
      unfold scanString
      rw [if_neg notQuote, if_neg noEscape, ih]
      rfl
    | escape c =>
      simp only [List.flatMap_cons, StringUnit.chars_escape, List.cons_append, List.nil_append]
      unfold scanString
      rw [if_neg notSlash.symm, if_pos rfl]
      dsimp only
      rw [ih]
      rfl

theorem quoted_scan (quoted : Quoted) (cs : List Char) :
    scanCode (quoted.raw.toList ++ cs) = .lexeme quoted.piece.toLexeme quoted.raw.length := by
  have notSlash : quoted.quote ≠ '\\' := by
    rcases quoted.isQuote with same | same
    · rw [same]; decide
    · rw [same]; decide
  have rest := scanString_units quoted.units cs notSlash
  simp [Quoted.raw, scanCode, quoted.isQuote, rest, Scan.later, Scan.plain, Quoted.piece]
  omega

end Pieces

section Lines

/-- One space. -/
def space : Piece TokenKind := ⟨⟨.space, some .whiteSpace⟩, " "⟩

/-- A space in front of what follows, if something does. -/
def gap : List (Piece TokenKind) → List (Piece TokenKind)
  | [] => []
  | x :: pieces => space :: x :: pieces

/-- Items with a space behind each of them, and then some more pieces. -/
def lead : List Item → List (Piece TokenKind) → List (Piece TokenKind)
  | [], after => after
  | item :: items, after => item.pieces ++ gap (lead items after)

@[simp] theorem lead_nil (after : List (Piece TokenKind)) : lead [] after = after := rfl

@[simp] theorem lead_cons (item : Item) (items : List Item) (after : List (Piece TokenKind)) :
    lead (item :: items) after = item.pieces ++ gap (lead items after) := rfl

@[simp] theorem lead_append (first second : List Item) (after : List (Piece TokenKind)) :
    lead (first ++ second) after = lead first (lead second after) := by
  induction first with
  | nil => rfl
  | cons item items ih => rw [List.cons_append, lead_cons, lead_cons, ih]

theorem clear_gap (pieces : List (Piece TokenKind)) : Clear (Piece.spelled (gap pieces)) := by
  cases pieces with
  | nil => exact Or.inl rfl
  | cons x pieces => exact Or.inr ⟨Piece.spelled (x :: pieces), rfl⟩

theorem spells_gap {pieces : List (Piece TokenKind)} (spells : Spells {} pieces) :
    Spells {} (gap pieces) := by
  cases pieces with
  | nil => exact spells
  | cons x pieces => exact .cons (by decide) rfl spells

/-- Outside templates, only a back quote and the openings of comments change how the
next characters are read. -/
theorem spells_cons {x : Piece TokenKind} {pieces : List (Piece TokenKind)} (filled : x.text ≠ "")
    (scan : scanCode (x.text.toList ++ Piece.spelled pieces) = .lexeme x.toLexeme x.text.length)
    (calm : Modes.after {} x.kind = {}) (rest : Spells {} pieces) : Spells {} (x :: pieces) :=
  .cons filled scan (by rw [calm]; exact rest)

theorem wordKind_calm (word : String) : Modes.after {} (wordKind word) = {} :=
  wordKind_induct (Modes.after {} · = {}) rfl (by decide) word

theorem Word.spells (word : Word) {stop : Char} {pieces : List (Piece TokenKind)}
    (stopped : Stopped stop (Piece.spelled pieces)) (stops : Stops stop) (rest : Spells {} pieces) :
    Spells {} (word.piece :: pieces) :=
  spells_cons (by simp [Word.piece, Word.text, String.ofList_eq_empty_iff])
    (word_scan word stopped stops) (wordKind_calm _) rest

theorem Digits.spells (digits : Digits) {pieces : List (Piece TokenKind)}
    (ends : ∀ c ∈ (Piece.spelled pieces).head?, c.isDigit = false) (rest : Spells {} pieces) :
    Spells {} (digits.piece :: pieces) :=
  spells_cons (by simp [Digits.piece, Digits.text, String.ofList_eq_empty_iff])
    (digits_scan digits ends) rfl rest

/-- Each item of a written expression is read back as its pieces. -/
theorem Item.spells {item : Item} (fits : item.Fits) {pieces : List (Piece TokenKind)}
    (spells : Spells {} pieces) : Spells {} (item.pieces ++ gap pieces) := by
  have rest := spells_gap spells
  have clear := clear_gap pieces
  have noDigit : ∀ c ∈ (Piece.spelled (gap pieces)).head?, c.isDigit = false := by
    intro c first
    rcases clear with empty | ⟨others, same⟩
    · simp [empty] at first
    · rw [same] at first
      cases first
      decide
  cases item with
  | symbol kind =>
    have filled : ∀ kind ∈ symbols, spelling kind ≠ "" := by decide
    have calm : ∀ kind ∈ symbols, Modes.after {} kind = {} := by decide
    exact spells_cons (filled kind fits) (symbol_scan fits clear) (calm kind fits) rest
  | word w =>
    exact w.spells clear stops_space rest
  | string quoted =>
    exact spells_cons (by simp [Quoted.piece, Quoted.raw]) (quoted_scan quoted _) rfl rest
  | number numeral =>
    cases numeral with
    | whole digits => exact digits.spells noDigit rest
    | decimal digits fraction =>
      have last := fraction.spells noDigit rest
      have middle : Spells {} (symbolPiece .period :: fraction.piece :: gap pieces) :=
        spells_cons (by decide) (period_scan fraction _) rfl last
      apply digits.spells _ middle
      have period : (symbolPiece .period).text.toList = ['.'] := by decide
      simp [period]

theorem spells_lead {items : List Item} (fits : ∀ item ∈ items, item.Fits) :
    Spells {} (lead items []) := by
  induction items with
  | nil => exact .nil
  | cons item items ih =>
    have rest := ih fun other member => fits other (List.mem_cons_of_mem item member)
    exact Item.spells (fits item List.mem_cons_self) rest

theorem Item.pieces_ne_nil (item : Item) : item.pieces ≠ [] := by
  cases item with
  | number numeral => cases numeral <;> simp [pieces]
  | _ => simp [pieces]

theorem lead_ne_nil {items : List Item} (filled : items ≠ []) (after : List (Piece TokenKind)) :
    lead items after ≠ [] := by
  cases items with
  | nil => exact absurd rfl filled
  | cons item items => simp [item.pieces_ne_nil]

/-- The text of the items is their texts with one space between each two. -/
theorem spelled_lead (items : List Item) :
    Piece.spelled (lead items []) = [' '].intercalate (items.map (·.text.toList)) := by
  induction items with
  | nil => rfl
  | cons item items ih =>
    rw [lead_cons, Piece.spelled_append, item.spelled_pieces]
    cases items with
    | nil => simp [gap]
    | cons next others =>
      obtain ⟨x, pieces, front⟩ := List.exists_cons_of_ne_nil
        (lead_ne_nil (List.cons_ne_nil next others) [])
      rw [front] at ih ⊢
      rw [gap, Piece.spelled_cons, ih]
      simp [space, List.intercalate]

end Lines

section Expressions

theorem operand_fits (isAtom : Bool) {items : List Item} (fits : ∀ item ∈ items, item.Fits) :
    ∀ item ∈ operand isAtom items, item.Fits := by
  cases isAtom with
  | true => exact fits
  | false =>
    have opens : (Item.symbol .openParen).Fits := by unfold Item.Fits; decide
    have closes : (Item.symbol .closeParen).Fits := by unfold Item.Fits; decide
    simp only [operand, Bool.false_eq_true, if_false, List.cons_append, List.forall_mem_cons,
      List.forall_mem_append]
    exact ⟨opens, fits, closes, List.forall_mem_nil _⟩

theorem withCommas_fits {lists : List (List Item)}
    (fits : ∀ items ∈ lists, ∀ item ∈ items, item.Fits) : ∀ item ∈ withCommas lists, item.Fits := by
  induction lists with
  | nil => exact List.forall_mem_nil _
  | cons items others ih =>
    obtain ⟨first, rest⟩ := List.forall_mem_cons.mp fits
    have comma : (Item.symbol .comma).Fits := by unfold Item.Fits; decide
    cases others with
    | nil => simpa using first
    | cons next others =>
      rw [withCommas_cons, List.forall_mem_append, List.forall_mem_cons]
      exact ⟨first, comma, ih rest⟩

theorem mem_symbols {kind : TokenKind}
    (listed : kind ∈ unaryOperators ∨ (∃ layer : OperatorLayer, kind ∈ layer.operators) ∨
      kind ∈ assignmentOperators) : kind ∈ symbols := by
  simp only [symbols, List.mem_append]
  rcases listed with unary | ⟨layer, binary⟩ | assignment
  · simp [unary]
  · cases layer <;> simp [binary]
  · simp [assignment]

/-- Every item of a written expression is a word, a number, a string or a symbol that may be written
so. The induction is over the tree. -/
theorem Expr.items_fit (e : Expr) : ∀ item ∈ e.items, item.Fits := by
  have marks : ∀ kind ∈ [TokenKind.question, .colon, .period, .openSquare, .closeSquare, .openParen,
      .closeParen], (Item.symbol kind).Fits := by unfold Item.Fits; decide
  simp only [List.forall_mem_cons] at marks
  obtain ⟨question, colon, period, openSquare, closeSquare, openParen, closeParen, -⟩ := marks
  induction e with
  | name word => simp [Expr.items, Item.Fits]
  | number numeral => simp [Expr.items, Item.Fits]
  | string quoted => simp [Expr.items, Item.Fits]
  | unary operator argument ih =>
    simp only [Expr.items, List.forall_mem_cons]
    exact ⟨mem_symbols (Or.inl operator.2), ih⟩
  | binary layer operator left right ihLeft ihRight =>
    simp only [Expr.items, List.forall_mem_append, List.forall_mem_cons]
    exact ⟨operand_fits _ ihLeft, mem_symbols (Or.inr (Or.inl ⟨layer, operator.2⟩)), ihRight⟩
  | assignment operator target value ihTarget ihValue =>
    simp only [Expr.items, List.forall_mem_append, List.forall_mem_cons]
    exact ⟨operand_fits _ ihTarget, mem_symbols (Or.inr (Or.inr operator.2)), ihValue⟩
  | conditional test consequent alternate ihTest ihConsequent ihAlternate =>
    simp only [Expr.items, List.forall_mem_append, List.forall_mem_cons]
    exact ⟨⟨operand_fits _ ihTest, question, ihConsequent⟩, colon, ihAlternate⟩
  | member object property ih =>
    simp only [Expr.items, List.forall_mem_append, List.forall_mem_cons]
    exact ⟨operand_fits _ ih, period, trivial, List.forall_mem_nil _⟩
  | computed object index ihObject ihIndex =>
    simp only [Expr.items, List.forall_mem_append, List.forall_mem_cons]
    exact ⟨⟨operand_fits _ ihObject, openSquare, ihIndex⟩, closeSquare, List.forall_mem_nil _⟩
  | call callee arguments ihCallee ihArguments =>
    simp only [Expr.items, List.forall_mem_append, List.forall_mem_cons, Expr.itemLists_eq_map]
    exact ⟨⟨operand_fits _ ihCallee, openParen, withCommas_fits (List.forall_mem_map.mpr ihArguments)⟩,
      closeParen, List.forall_mem_nil _⟩
  | array elements ih =>
    simp only [Expr.items, List.forall_mem_append, List.forall_mem_cons, Expr.itemLists_eq_map]
    exact ⟨⟨openSquare, withCommas_fits (List.forall_mem_map.mpr ih)⟩, closeSquare,
      List.forall_mem_nil _⟩

/-- The text of an expression is cut into the tokens of its items, with a space between
any two items. -/
theorem Expr.tokenize_text (e : Expr) :
    ∃ tokens, tokenize e.text = .ok tokens ∧ tokens.map Token.piece = lead e.items [] := by
  apply (spells_lead e.items_fit).tokenize
  rw [spelled_lead, Expr.text, String.toList_intercalate, List.map_map]
  rfl

end Expressions

end ScriptFront.Script
