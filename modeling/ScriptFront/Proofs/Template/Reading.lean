import ScriptFront.Proofs.RoundTrip.Program
import ScriptFront.Proofs.Template.Spelling

namespace ScriptFront.Script

open ScriptFront.Parser

variable {front back after : List (Piece TokenKind)} {quasis expressions : List Tree}

section Trees

/-- What the parts of a template say, layout aside: texts on the left, names on the right. -/
def Part.content : Part → String ⊕ String
  | text segment => .inl segment.raw
  | name interpolation => .inr interpolation.name.text

/-- What a template holds, in the order of the source: each text as it is meant, and each name. -/
def Template.contents (template : Template) : List (String ⊕ String) :=
  template.parts.map Part.content

/-- The tree of a text of a template. -/
def quasi (raw : String) (tail : Bool) : Tree := bare (.templateElement raw (cook raw) tail)

/-- The trees of the texts among some contents. The tail is one that nothing follows. -/
def quasisOf : List (String ⊕ String) → List Tree
  | [] => []
  | .inl raw :: contents => quasi raw contents.isEmpty :: quasisOf contents
  | .inr _ :: contents => quasisOf contents

/-- The trees of the names among some contents. -/
def namesOf (contents : List (String ⊕ String)) : List Tree :=
  (contents.filterMap Sum.getRight?).map fun symbol => bare (.identifier symbol)

/-- The syntax tree of a template. -/
def Template.tree (template : Template) : Tree :=
  bare (.templateLiteral (quasisOf template.contents) (namesOf template.contents))

end Trees

section Parts

/-- Parts of a template with the given trees, and the pieces `after` still ahead. -/
def PartsFound (quasis expressions : List Tree) (after : List (Piece TokenKind))
    (parts : List TemplatePart) (back : List (Piece TokenKind)) : Prop :=
  eraseAll (parts.filterMap (·.segment?)) = quasis ∧
    eraseAll (parts.filterMap (·.interpolation?)) = expressions ∧ back = after

/-- The pieces `front` are read as parts of a template, up to the pieces `after`. -/
def ReadsParts (front : List (Piece TokenKind)) (quasis expressions : List Tree)
    (after : List (Piece TokenKind)) : Prop :=
  ∀ budget, front.length ≤ budget →
    Reads front (itemsWithin (·.is .backQuote) (templatePart Rules.whole) (pure true) budget)
      (PartsFound quasis expressions after)

theorem readsParts_end (after : List (Piece TokenKind)) :
    ReadsParts (backQuote :: after) [] [] (backQuote :: after) := by
  intro budget enough
  obtain ⟨budget, rfl⟩ := Nat.exists_eq_add_one_of_ne_zero (Nat.ne_of_gt (Nat.lt_of_lt_of_le
    (Nat.succ_pos after.length) enough))
  apply reads_if (b := true)
  · intro s here
    simp [is_eq here, backQuote]
  exact reads_pure ⟨rfl, rfl, rfl⟩

/-- One part is read, and then the parts behind it. -/
theorem ReadsParts.cons {x : Piece TokenKind} {part : TemplatePart → Prop} {quasis' expressions' : List Tree}
    (first : Reads (x :: front) (templatePart Rules.whole) fun found left => part found ∧ left = back)
    (goesOn : x.kind ≠ .backQuote) (shorter : back.length ≤ front.length)
    (rest : ReadsParts back quasis expressions after)
    (joined : ∀ found parts left, part found → PartsFound quasis expressions after parts left →
      PartsFound quasis' expressions' after (found :: parts) left) :
    ReadsParts (x :: front) quasis' expressions' after := by
  intro budget enough
  rw [List.length_cons] at enough
  obtain ⟨budget, rfl⟩ := Nat.exists_eq_add_one_of_ne_zero (show budget ≠ 0 by omega)
  apply reads_if (b := false)
  · intro s here
    simp [willContinue_eq here, is_eq here, goesOn]
  apply first.bind
  rintro found left ⟨isPart, rfl⟩
  have more : Reads left (pure true) fun there after => there = true ∧ after = left :=
    reads_pure ⟨rfl, rfl⟩
  apply more.bind
  rintro _ _ ⟨rfl, rfl⟩
  apply (rest budget (by omega)).bind
  intro parts left others
  exact reads_pure (joined found parts left isPart others)

/-- A segment in front of parts already read is the first of all segments. -/
theorem segment_reads (segment : Segment) (rest : ReadsParts back quasis expressions after) :
    ReadsParts (segment.piece :: back)
      (quasi segment.raw (headKind back == some .backQuote) :: quasis) expressions after := by
  have first : Reads (segment.piece :: back) (templatePart Rules.whole) fun found left =>
      (∃ t, found = .segment t ∧
        erase t = quasi segment.raw (headKind back == some .backQuote)) ∧ left = back := by
    apply reads_any
    intro start
    apply reads_consumeIf_some rfl
    intro token made
    have text : token.text = segment.raw := congrArg Piece.text made
    dsimp only
    rw [text]
    apply reads_observe fun s here => is_eq here .backQuote
    apply (reads_node start _).bind
    rintro t _ ⟨same, rfl⟩
    exact reads_pure ⟨⟨t, rfl, same⟩, rfl⟩
  apply ReadsParts.cons first (by simp [Segment.piece]) le_rfl rest
  rintro _ parts left ⟨t, rfl, same⟩ ⟨texts, names, rfl⟩
  refine ⟨?_, names, rfl⟩
  rw [← same, ← texts]
  rfl

theorem Layout.dropWhile_pieces (layout : Layout) (firm : Firm back) :
    (layout.pieces ++ back).dropWhile Piece.isSpace = back := by
  have spaces : ∀ x ∈ layout.pieces, Piece.isSpace x = true := List.forall_mem_map.mpr fun _ _ => rfl
  rw [List.dropWhile_append_of_pos spaces]
  exact firm

/-- An interpolation in front of parts already read is the first of all expressions, with the layout
inside it skipped. -/
theorem interpolation_reads (interpolation : Interpolation) (calm : NoArrow back)
    (rest : ReadsParts back quasis expressions after) :
    ReadsParts (openTemplate :: (interpolation.code ++ closeBrace :: back)) quasis
      (bare (.identifier interpolation.name.text) :: expressions) after := by
  have follows : Follows closers (closeBrace :: back) := follows_cons (by decide) (by decide) calm
  have firm : Firm (closeBrace :: back) := firm_cons rfl back
  have name : Reads (interpolation.name.piece :: (interpolation.behind.pieces ++ closeBrace :: back))
      (Rules.whole.expression true)
      (Found (bare (.identifier interpolation.name.text)) (closeBrace :: back)) := by
    apply expression_of_primary ?_ follows
    apply (name_primary interpolation.name (interpolation.behind.dropWhile_pieces firm)
      (follows.mono closers_subset)).mono
    intro _ _ found
    exact found.before
  have first : Reads (openTemplate :: (interpolation.code ++ closeBrace :: back))
      (templatePart Rules.whole) fun found left =>
      (∃ t, found = .interpolation t ∧
        erase t = bare (.identifier interpolation.name.text)) ∧ left = back := by
    apply reads_any
    intro start
    apply reads_consumeIf_none (by simp [openTemplate])
    apply reads_accept_yes rfl
    apply reads_trim.bind
    rintro _ _ rfl
    rw [Interpolation.code, List.append_assoc, List.cons_append,
      interpolation.before.dropWhile_pieces (firm_cons rfl _)]
    apply name.bind
    rintro t _ ⟨same, rfl⟩
    apply reads_trim_firm firm
    apply reads_expect rfl
    intro _ _
    exact reads_pure ⟨⟨t, rfl, same⟩, rfl⟩
  apply ReadsParts.cons first (by simp [openTemplate]) (by simp; omega) rest
  rintro _ parts left ⟨t, rfl, same⟩ ⟨texts, names, rfl⟩
  refine ⟨texts, ?_, rfl⟩
  rw [← same, ← names]
  rfl

end Parts

section Whole

theorem Part.noArrow (part : Part) : NoArrow part.pieces := by
  cases part with
  | text segment => simp [NoArrow, Part.pieces, Segment.piece]
  | name interpolation =>
    have layout (layout : Layout) : NoArrow layout.pieces := by
      have all : ∀ kind ∈ layoutKinds, kind ≠ .arrow := by decide
      exact List.forall_mem_map.mpr fun kind _ => all kind.1 kind.2
    have name : interpolation.name.piece.kind ≠ .arrow := by
      rw [Word.kind_piece, interpolation.name.wordKind_text]
      decide
    have code : NoArrow interpolation.code := List.forall_mem_append.mpr
      ⟨layout _, List.forall_mem_cons.mpr ⟨name, layout _⟩⟩
    exact List.forall_mem_append.mpr ⟨List.forall_mem_cons.mpr ⟨by decide, code⟩, by decide⟩

theorem noArrow_parts (parts : List Part) (calm : NoArrow after) :
    NoArrow (partPieces parts after) := by
  refine List.forall_mem_append.mpr ⟨fun x member => ?_, calm⟩
  obtain ⟨part, -, inPart⟩ := List.mem_flatMap.mp member
  exact part.noArrow x inPart

/-- The closing back quote comes next exactly when no part is left. -/
theorem atEnd_parts (parts : List Part) (after : List (Piece TokenKind)) :
    (headKind (partPieces parts (backQuote :: after)) == some .backQuote) =
      (parts.map Part.content).isEmpty := by
  cases parts with
  | nil => rfl
  | cons part parts =>
    cases part with
    | text segment => rfl
    | name interpolation => rfl

/-- The parts of a template are read into its two lists. The induction is on the parts. -/
theorem parts_read (parts : List Part) (calm : NoArrow after) :
    ReadsParts (partPieces parts (backQuote :: after)) (quasisOf (parts.map Part.content))
      (namesOf (parts.map Part.content)) (backQuote :: after) := by
  have calm' : NoArrow (backQuote :: after) := List.forall_mem_cons.mpr ⟨by decide, calm⟩
  induction parts with
  | nil => exact readsParts_end after
  | cons part parts ih =>
    cases part with
    | text segment =>
      have reads := segment_reads segment ih
      rw [atEnd_parts] at reads
      rw [partPieces_text]
      exact reads
    | name interpolation =>
      rw [partPieces_name]
      exact interpolation_reads interpolation (noArrow_parts parts calm') ih

/-- A template is read back as an operand, wherever it stands. -/
theorem Template.primary_reads (template : Template) (calm : NoArrow after) :
    Reads (template.pieces after) (primary Rules.whole true) (Found template.tree after) := by
  have parts : Reads (partPieces template.parts (backQuote :: after))
      (items (·.is .backQuote) (templatePart Rules.whole) (pure true))
      (PartsFound (quasisOf template.contents) (namesOf template.contents) (backQuote :: after)) := by
    apply reads_observe fun s here => length_eq here
    exact parts_read template.parts calm _ le_rfl
  apply reads_any
  intro start
  apply reads_kind rfl
  apply reads_any
  intro start'
  apply reads_expect rfl
  intro _ _
  apply parts.bind
  rintro found _ ⟨texts, names, rfl⟩
  apply reads_expect rfl
  intro _ _
  rw [Template.tree, ← texts, ← names]
  exact reads_node start' _

theorem Template.standalone (template : Template) : Standalone (template.pieces []) template.tree where
  reads := by
    have calm : NoArrow [] := List.forall_mem_nil _
    have primary := (template.primary_reads calm).mono fun _ _ found => found.before
    exact expression_of_primary primary (follows_nil closers)
  starts := ⟨.backQuote, List.mem_cons_self, rfl⟩
  firm := firm_cons rfl _
  unlabelled first := by cases first

/-- A template is read back: its text is a program of that template alone. -/
theorem Template.parseWith_pieces (template : Template) (options : Options) :
    ∃ parsed, parseWith template.text options = .ok parsed ∧
      erase parsed.tree = bare (.program [bare (.expressionStatement template.tree)]) ∧
      parsed.properties = options.properties :=
  template.standalone.parseWith options template.tokenize_text

end Whole

end ScriptFront.Script
