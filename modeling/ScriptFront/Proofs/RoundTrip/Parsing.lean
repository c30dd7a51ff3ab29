import ScriptFront.Proofs.Grammar.Progress
import ScriptFront.Proofs.Reading
import ScriptFront.Proofs.RoundTrip.Spelling

namespace ScriptFront.Script

open ScriptFront.Parser

variable {front back after : List (Piece TokenKind)} {x : Piece TokenKind}

section Layout

/-- No space comes first. -/
def Firm (pieces : List (Piece TokenKind)) : Prop := pieces.dropWhile Piece.isSpace = pieces

theorem firm_cons (solid : x.isSpace = false) (pieces : List (Piece TokenKind)) :
    Firm (x :: pieces) := by
  unfold Firm
  rw [List.dropWhile_cons_of_neg (by simp [solid])]

theorem Firm.gap (firm : Firm back) : (gap back).dropWhile Piece.isSpace = back := by
  cases back with
  | nil => rfl
  | cons x pieces => exact firm

theorem symbolPiece_solid {kind : TokenKind} (listed : kind ∈ symbols) :
    (symbolPiece kind).isSpace = false := by
  have all : ∀ kind ∈ symbols, (symbolPiece kind).isSpace = false := by decide
  exact all kind listed

/-- What items are written as begins with no layout, so a rule that skips layout in front of it
skips nothing. -/
theorem firm_lead {items : List Item} (fits : ∀ item ∈ items, item.Fits) (firm : Firm after) :
    Firm (lead items after) := by
  cases items with
  | nil => exact firm
  | cons item items =>
    rw [lead_cons]
    cases item with
    | symbol kind => exact firm_cons (symbolPiece_solid (fits _ List.mem_cons_self)) _
    | word w => exact firm_cons rfl _
    | string quoted => exact firm_cons rfl _
    | number numeral =>
      cases numeral with
      | whole digits => exact firm_cons rfl _
      | decimal digits fraction => exact firm_cons rfl _

variable {α : Type} {goal : α → List (Piece TokenKind) → Prop}

theorem reads_trim_firm {f : Unit → Rule α} (firm : Firm front) (next : Reads front (f ()) goal) :
    Reads front (trim >>= f) goal := by
  apply reads_trim.bind
  rintro _ _ rfl
  rw [firm]
  exact next

/-- The space between two items is skipped, and nothing else. -/
theorem reads_trim_gap {f : Unit → Rule α} (firm : Firm back) (next : Reads back (f ()) goal) :
    Reads (gap back) (trim >>= f) goal := by
  apply reads_trim.bind
  rintro _ _ rfl
  rw [firm.gap]
  exact next

theorem reads_eat_gap {f : Token TokenKind → Rule α} (firm : Firm back)
    (next : ∀ token, token.piece = x → Reads back (f token) goal) :
    Reads (x :: gap back) (eat >>= f) goal := by
  apply reads_eat.taken
  rw [firm.gap]
  exact next

end Layout

section Behind

/-- No arrow is ahead. -/
def NoArrow (pieces : List (Piece TokenKind)) : Prop := ∀ x ∈ pieces, x.kind ≠ .arrow

theorem NoArrow.gap (calm : NoArrow back) : NoArrow (gap back) := by
  cases back with
  | nil => exact calm
  | cons x pieces => exact List.forall_mem_cons.mpr ⟨by decide, calm⟩

theorem Item.noArrow {item : Item} (fits : item.Fits) : NoArrow item.pieces := by
  cases item with
  | symbol kind =>
    have all : ∀ kind ∈ symbols, kind ≠ .arrow := by decide
    simpa [NoArrow, Item.pieces] using all kind fits
  | word w =>
    have other := wordKind_induct (· ≠ .arrow) (by decide) (by decide) w.text
    simpa [NoArrow, Item.pieces] using other
  | string quoted => simp [NoArrow, Item.pieces]
  | number numeral =>
    cases numeral with
    | whole digits => simp [NoArrow, Item.pieces]
    | decimal digits fraction => simp [NoArrow, Item.pieces]

/-- Items of a written expression are no arrow, so no parenthesis among them is taken for that of
parameters. -/
theorem noArrow_lead {items : List Item} (fits : ∀ item ∈ items, item.Fits)
    (calm : NoArrow after) : NoArrow (lead items after) := by
  induction items with
  | nil => exact calm
  | cons item items ih =>
    obtain ⟨first, others⟩ := List.forall_mem_cons.mp fits
    exact List.forall_mem_append.mpr ⟨item.noArrow first, (ih others).gap⟩

/-- What stands behind an expression or a part of one: nothing, or one of the given symbols, and no
arrow anywhere. So no layer of the grammar goes on beyond its part. -/
structure Follows (kinds : List TokenKind) (after : List (Piece TokenKind)) : Prop where
  head : ∀ x ∈ after.head?, ∃ kind ∈ kinds, x = symbolPiece kind
  calm : NoArrow after

/-- The symbols that may stand behind a whole expression. -/
def closers : List TokenKind := [.closeParen, .closeSquare, .closeBrace, .comma, .colon]

variable {kinds : List TokenKind} {kind : TokenKind}

/-- A symbol of the listed kinds follows where it is written. -/
theorem follows_cons (listed : kind ∈ symbols) (inKinds : kind ∈ kinds) (calm : NoArrow back) :
    Follows kinds (symbolPiece kind :: back) where
  head x isHead := by
    cases isHead
    exact ⟨kind, inKinds, rfl⟩
  calm := by
    have all : ∀ kind ∈ symbols, kind ≠ .arrow := by decide
    exact List.forall_mem_cons.mpr ⟨all kind listed, calm⟩

variable (follows : Follows kinds after)
include follows

theorem Follows.mono {larger : List TokenKind} (within : kinds ⊆ larger) : Follows larger after where
  head x isHead := by
    obtain ⟨kind, listed, same⟩ := follows.head x isHead
    exact ⟨kind, within listed, same⟩
  calm := follows.calm

theorem Follows.firm (within : kinds ⊆ symbols) : Firm after := by
  cases after with
  | nil => rfl
  | cons x pieces =>
    obtain ⟨kind, listed, rfl⟩ := follows.head x rfl
    exact firm_cons (symbolPiece_solid (within listed)) pieces

theorem Follows.headKind_mem {kind : TokenKind} (first : headKind after = some kind) :
    kind ∈ kinds := by
  obtain ⟨x, isHead, rfl⟩ := Option.map_eq_some_iff.mp first
  obtain ⟨kind, listed, rfl⟩ := follows.head x isHead
  exact listed

theorem Follows.headKind_ne {kind : TokenKind} (other : kind ∉ kinds) :
    headKind after ≠ some kind :=
  fun first => other (follows.headKind_mem first)

/-- A test for kinds that are not among those that may follow fails. -/
theorem Follows.any_false {others : List TokenKind} (apart : ∀ kind ∈ kinds, kind ∉ others) :
    (headKind after).any (others.contains ·) = false := by
  cases first : headKind after with
  | none => rfl
  | some kind => simpa using apart kind (follows.headKind_mem first)

end Behind

/-- A tree of the given shape, with the pieces `after` still ahead. -/
def Found (tree : Tree) (after : List (Piece TokenKind)) (t : Tree)
    (back : List (Piece TokenKind)) : Prop :=
  erase t = tree ∧ back = after

/-- A node is found with its extents left aside. -/
theorem reads_node (start : Nat) (kind : Construct) :
    Reads front (makeNode start kind : Rule Tree) (Found (bare kind.erase) front) := by
  apply (reads_makeNode start kind).mono
  rintro t _ ⟨rfl, rfl⟩
  exact ⟨erase_eq t, rfl⟩

section Literals

theorem Digits.takeWhile_append (digits : Digits) (cs : List Char)
    (ends : ∀ c ∈ cs.head?, c.isDigit = false) :
    (digits.text.toList ++ cs).takeWhile Char.isDigit = digits.text.toList := by
  rw [Digits.text, String.toList_ofList, List.takeWhile_append_of_pos digits.isRun]
  cases cs with
  | nil => simp
  | cons c cs => simp [ends c rfl]

theorem Digits.dropWhile_append (digits : Digits) (cs : List Char)
    (ends : ∀ c ∈ cs.head?, c.isDigit = false) :
    (digits.text.toList ++ cs).dropWhile Char.isDigit = cs := by
  rw [Digits.text, String.toList_ofList, List.dropWhile_append_of_pos digits.isRun]
  cases cs with
  | nil => rfl
  | cons c cs => rw [List.dropWhile_cons_of_neg (by simp [ends c rfl])]

theorem Digits.toList_ne_nil (digits : Digits) : digits.text.toList ≠ [] := by
  simp [Digits.text]

/-- A text that begins with a digit has no sign. -/
theorem read?_of_digit (digits : Digits) (cs : List Char) {text : String}
    (spelled : text.toList = digits.text.toList ++ cs) :
    Double.read? text = (Double.unsigned? text.toList).or (Double.named? text.toList) := by
  have digit := digits.first_isDigit
  unfold Double.read?
  rw [spelled, Digits.text, String.toList_ofList, List.cons_append]
  split
  · rename_i same
    rw [(List.cons.inj same).1] at digit
    exact absurd digit (by decide)
  · rename_i same
    rw [(List.cons.inj same).1] at digit
    exact absurd digit (by decide)
  · rfl

/-- Every numeral can be read. -/
theorem Numeral.read?_raw (numeral : Numeral) : Double.read? numeral.raw = some numeral.value := by
  have readable : (Double.read? numeral.raw).isSome = true := by
    cases numeral with
    | whole digits =>
      have taken := digits.takeWhile_append [] (by simp)
      have left := digits.dropWhile_append [] (by simp)
      rw [List.append_nil] at taken left
      rw [Numeral.raw, read?_of_digit digits [] (by simp)]
      simp [Double.unsigned?, taken, left, digits.toList_ne_nil, Double.exponent?]
    | decimal digits fraction =>
      have spelled : (Numeral.decimal digits fraction).raw.toList =
          digits.text.toList ++ '.' :: fraction.text.toList := by
        simp [Numeral.raw]
      have taken := digits.takeWhile_append ('.' :: fraction.text.toList) (by simp)
      have left := digits.dropWhile_append ('.' :: fraction.text.toList) (by simp)
      have taken' := fraction.takeWhile_append [] (by simp)
      have left' := fraction.dropWhile_append [] (by simp)
      rw [List.append_nil] at taken' left'
      rw [read?_of_digit digits _ spelled, spelled]
      simp [Double.unsigned?, taken, left, taken', left', digits.toList_ne_nil, Double.exponent?]
  obtain ⟨value, found⟩ := Option.isSome_iff_exists.mp readable
  rw [Numeral.value, found, Option.getD_some]

theorem cookChars_units {quote : Char} (units : List (StringUnit quote)) :
    cookChars (units.flatMap (·.chars)) = units.map (·.value) := by
  induction units with
  | nil => rfl
  | cons unit units ih =>
    cases unit with
    | plain c notQuote notSlash =>
      rw [List.flatMap_cons, StringUnit.chars_plain, List.map_cons, ← ih, List.singleton_append,
        cookChars]
      · rfl
      · simp [notSlash]
    | escape c =>
      rw [List.flatMap_cons, StringUnit.chars_escape, List.map_cons, ← ih]
      rfl

theorem Quoted.cook_raw (quoted : Quoted) : cook (unquoted quoted.raw) = quoted.value := by
  have body : (unquoted quoted.raw).toList = quoted.units.flatMap (·.chars) := by
    simp [unquoted, Quoted.raw]
  rw [cook, body, cookChars_units, Quoted.value]

end Literals

section Atoms

theorem Name.wordKind_text (word : Name) : wordKind word.text = .identifier := by
  have absent : keywords.lookup word.text = none := by
    rw [List.lookup_eq_none_iff]
    intro entry listed
    have other : word.text ≠ entry.1 := fun same => word.free (same ▸ List.mem_map_of_mem listed)
    simpa using other
  rw [wordKind, absent, Option.getD_none]

/-- A word is read as a name, reserved or not where that is allowed. -/
theorem anyName_reads (word : Word) (anyWord : Bool)
    (allowed : anyWord = true ∨ wordKind word.text = .identifier) :
    Reads (word.piece :: back) (anyName anyWord)
      (Found (bare (.identifier word.text)) back) := by
  have noHash := wordKind_induct (· ≠ .hash) (by decide) (by decide) word.text
  have name : Reads (word.piece :: back) (nameText anyWord) fun text after =>
      text = word.text ∧ after = back := by
    have taken (token : Token TokenKind) (made : token.piece = word.piece) :
        Reads back (pure token.text : Rule String) fun text after =>
          text = word.text ∧ after = back :=
      reads_pure ⟨congrArg Piece.text made, rfl⟩
    cases anyWord with
    | true => exact reads_expectTag rfl taken
    | false =>
      rcases allowed with impossible | free
      · cases impossible
      · exact reads_expect free taken
  apply reads_any
  intro start
  apply reads_accept_no (by simpa using noHash)
  apply name.bind
  rintro _ _ ⟨rfl, rfl⟩
  exact reads_node start _

theorem headKind_gap (pieces : List (Piece TokenKind)) {kind : TokenKind} (other : kind ≠ .space) :
    headKind (gap pieces) ≠ some kind := by
  cases pieces with
  | nil => simp [gap]
  | cons x pieces => simpa [gap, space] using other.symm

theorem numericNode_reads (numeral : Numeral) (start : Nat) {raw : String}
    (same : raw = numeral.raw) : Reads (gap back)
      (match Double.read? raw with
        | some value => makeNode start (.numericLiteral value raw numeral.isFloat)
        | none => complain .numericLiteral : Rule Tree)
      (Found (bare (.numericLiteral numeral.value numeral.raw numeral.isFloat)) (gap back)) := by
  rw [same, numeral.read?_raw]
  exact reads_node start _

theorem numericLiteral_reads (numeral : Numeral) :
    Reads ((Item.number numeral).pieces ++ gap back) numericLiteral
      (Found (bare (.numericLiteral numeral.value numeral.raw numeral.isFloat)) (gap back)) := by
  apply reads_any
  intro start
  cases numeral with
  | whole digits =>
    apply reads_expect rfl
    intro token made
    apply reads_accept_no (headKind_gap back (by decide))
    exact numericNode_reads (.whole digits) start (congrArg Piece.text made)
  | decimal digits fraction =>
    apply reads_expect rfl
    intro token made
    apply reads_accept_yes rfl
    apply reads_expect rfl
    intro token' made'
    have text : token.text = digits.text := congrArg Piece.text made
    have text' : token'.text = fraction.text := congrArg Piece.text made'
    exact numericNode_reads (.decimal digits fraction) start (by rw [text, text']; rfl)

theorem stringLiteral_reads (quoted : Quoted) :
    Reads (quoted.piece :: back) stringLiteral
      (Found (bare (.stringLiteral quoted.value quoted.raw)) back) := by
  apply reads_any
  intro start
  apply reads_expect rfl
  intro token made
  have text : token.text = quoted.raw := congrArg Piece.text made
  rw [text, quoted.cook_raw]
  exact reads_node start _

end Atoms

/-- The whole of an expression is read back wherever it is written, if nothing follows
that could go on with it. -/
def Expr.Readable (e : Expr) : Prop :=
  ∀ after, Follows closers after →
    Reads (lead e.items after) (Rules.whole.expression true) (Found e.tree after)

theorem closers_subset : closers ⊆ symbols := by decide

theorem Expr.firm (e : Expr) (follows : Follows closers after) : Firm (lead e.items after) :=
  firm_lead e.items_fit (follows.firm closers_subset)

theorem Expr.noArrow (e : Expr) (calm : NoArrow after) : NoArrow (lead e.items after) :=
  noArrow_lead e.items_fit calm

section Operands

/-- A tree of the given shape, with the pieces `after` ahead, maybe behind a space. -/
def FoundBefore (tree : Tree) (after : List (Piece TokenKind)) (t : Tree)
    (back : List (Piece TokenKind)) : Prop :=
  erase t = tree ∧ (back = after ∨ back = gap after)

theorem Found.before {tree t : Tree} (found : Found tree after t back) :
    FoundBefore tree after t back :=
  ⟨found.1, Or.inl found.2⟩

theorem Found.beforeGap {tree t : Tree} (found : Found tree (gap after) t back) :
    FoundBefore tree after t back :=
  ⟨found.1, Or.inr found.2⟩

theorem name_primary (word : Name) {middle : List (Piece TokenKind)}
    (trimmed : middle.dropWhile Piece.isSpace = back) (follows : Follows symbols back) :
    Reads (word.piece :: middle) (primary Rules.whole true)
      (Found (bare (.identifier word.text)) back) := by
  have first : headKind (word.piece :: middle) = some .identifier :=
    congrArg some word.wordKind_text
  apply reads_any
  intro start
  apply reads_kind first
  apply reads_if (b := false)
  · intro s here
    rw [followedBy_eq here, List.tail_cons, trimmed]
    simpa using follows.headKind_ne (by decide)
  apply (anyName_reads word.toWord false (Or.inr word.wordKind_text)).bind
  rintro t _ ⟨same, rfl⟩
  apply reads_trim.bind
  rintro _ _ rfl
  rw [trimmed]
  apply reads_if (b := false)
  · intro s here
    rw [isAny_eq here]
    exact follows.any_false (by decide)
  exact reads_pure ⟨same, rfl⟩

theorem group_primary {e : Expr} (readable : e.Readable) (follows : Follows symbols back) :
    Reads (lead (.symbol .openParen :: e.items ++ [.symbol .closeParen]) back)
      (primary Rules.whole true) (FoundBefore e.tree back) := by
  have closed : Follows closers (symbolPiece .closeParen :: gap back) :=
    follows_cons (by decide) (by decide) follows.calm.gap
  have calm := e.noArrow closed.calm
  rw [List.cons_append, lead_cons, lead_append]
  apply reads_any
  intro start
  apply reads_kind rfl
  apply reads_if (b := false)
  · intro s here
    apply arrowFollows_eq_false here
    exact List.forall_mem_cons.mpr ⟨by decide, calm.gap⟩
  apply reads_any
  intro start'
  apply reads_eat_gap (e.firm closed)
  intro _ _
  apply (readable _ closed).bind
  rintro t _ ⟨same, rfl⟩
  apply reads_trim_firm (closed.firm closers_subset)
  apply reads_accept_yes rfl
  exact reads_pure ⟨same, Or.inr rfl⟩

theorem atom_primary {e : Expr} (isAtom : e.isAtom = true) (follows : Follows symbols back) :
    Reads (lead e.items back) (primary Rules.whole true) (FoundBefore e.tree back) := by
  cases e with
  | name word =>
    have firm := follows.firm (List.Subset.refl symbols)
    exact (name_primary word firm.gap follows).mono fun _ _ found => found.before
  | number numeral =>
    apply reads_any
    intro start
    apply reads_kind (by cases numeral <;> rfl)
    exact (numericLiteral_reads numeral).mono fun _ _ found => found.beforeGap
  | string quoted =>
    apply reads_any
    intro start
    apply reads_kind rfl
    exact (stringLiteral_reads quoted).mono fun _ _ found => found.beforeGap
  | _ => cases isAtom

/-- What stands on the left of something is read back as an operand. -/
theorem operand_primary {e : Expr} (readable : e.Readable) (follows : Follows symbols back) :
    Reads (lead (operand e.isAtom e.items) back) (primary Rules.whole true)
      (FoundBefore e.tree back) := by
  cases isAtom : e.isAtom with
  | true => exact atom_primary isAtom follows
  | false => exact group_primary readable follows

end Operands

end ScriptFront.Script
