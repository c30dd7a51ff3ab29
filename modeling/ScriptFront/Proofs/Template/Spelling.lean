import Mathlib.Data.List.Chain
import ScriptFront.Proofs.Lexed
import ScriptFront.Proofs.RoundTrip.Parsing

namespace ScriptFront.Script

section Texts

/-- Characters that are text of a template from the first to the last: neither a back quote
nor the opening of an interpolation is among them without a backslash in front. -/
inductive TemplateText : List Char → Prop
  | nil : TemplateText []
  | escape {c cs} : TemplateText cs → TemplateText ('\\' :: c :: cs)
  | plain {c cs} : c ≠ '\x60' → c ≠ '\\' → (c = '$' → cs.head? ≠ some '\x7b') →
      TemplateText cs → TemplateText (c :: cs)

/-- A back quote or the opening of an interpolation comes first. -/
def TextEnds (cs : List Char) : Prop :=
  (∃ rest, cs = '\x60' :: rest) ∨ ∃ rest, cs = '$' :: '\x7b' :: rest

variable {cs rest : List Char}

theorem TextEnds.length_zero (ends : TextEnds cs) : templateTextLength cs = 0 := by
  unfold templateTextLength
  rcases ends with ⟨rest, rfl⟩ | ⟨rest, rfl⟩
  · rfl
  · rfl

theorem TextEnds.head?_ne (ends : TextEnds cs) : cs.head? ≠ some '\x7b' := by
  rcases ends with ⟨rest, rfl⟩ | ⟨rest, rfl⟩
  · simp
  · simp

/-- The lexer takes the whole of a text, and nothing more. -/
theorem TemplateText.length_append (text : TemplateText cs) (ends : TextEnds rest) :
    templateTextLength (cs ++ rest) = cs.length := by
  induction text with
  | nil => exact ends.length_zero
  | @escape c cs text ih =>
    rw [List.cons_append, List.cons_append]
    unfold templateTextLength
    rw [if_neg (by simp), if_pos rfl]
    simpa using ih
  | @plain c cs noQuote noSlash noBrace text ih =>
    have goesOn : ¬ (c = '\x60' ∨ c = '$' ∧ (cs ++ rest).head? = some '\x7b') := by
      rintro (quote | ⟨dollar, brace⟩)
      · exact noQuote quote
      · cases cs with
        | nil => exact ends.head?_ne brace
        | cons d cs => exact noBrace dollar brace
    rw [List.cons_append]
    unfold templateTextLength
    rw [if_neg goesOn, if_neg noSlash, ih]
    rfl

/-- A text with a character in it is one token. -/
theorem TemplateText.scan_append (text : TemplateText cs) (filled : cs ≠ [])
    (ends : TextEnds rest) : scanTemplate (cs ++ rest) = .plain .templateText cs.length := by
  have length := text.length_append ends
  have positive := List.length_pos_iff.mpr filled
  have goesOn : ¬ TextEnds (cs ++ rest) := fun ended => by
    rw [ended.length_zero] at length
    omega
  unfold scanTemplate
  rw [if_neg, if_neg, length]
  · intro opens
    obtain ⟨others, same⟩ := List.isPrefixOf_iff_prefix.mp opens
    exact goesOn (Or.inr ⟨others, same.symm⟩)
  · intro quote
    obtain ⟨others, same⟩ := List.head?_eq_some_iff.mp quote
    exact goesOn (Or.inl ⟨others, same⟩)

end Texts

section Parts

/-- A text of a template, with a character in it. It has no back quote and no opening of an
interpolation outside an escape, and ends in no half escape. -/
structure Segment where
  chars : List Char
  filled : chars ≠ []
  text : TemplateText chars

/-- The text of a segment as it is written, backslashes included. -/
def Segment.raw (segment : Segment) : String := String.ofList segment.chars

/-- A segment as the lexer hands it out. -/
def Segment.piece (segment : Segment) : Piece TokenKind := ⟨⟨.templateText, none⟩, segment.raw⟩

/-- Any layout. -/
abbrev Layout := List {kind // kind ∈ layoutKinds}

/-- The character that a kind of layout is written with. -/
def layoutChar : TokenKind → Char
  | .lineBreak => '\n'
  | .carriageReturn => '\r'
  | .tab => '\t'
  | _ => ' '

/-- A character of layout as the lexer hands it out. -/
def layoutPiece (kind : TokenKind) : Piece TokenKind :=
  ⟨⟨kind, some .whiteSpace⟩, String.singleton (layoutChar kind)⟩

/-- Some layout as the lexer hands it out, one piece for each character. -/
def Layout.pieces (layout : Layout) : List (Piece TokenKind) :=
  layout.map fun kind => layoutPiece kind.1

@[simp] theorem Layout.pieces_cons (kind : {kind // kind ∈ layoutKinds}) (layout : Layout) :
    Layout.pieces (kind :: layout) = layoutPiece kind.1 :: layout.pieces := rfl

/-- A name in a template, with the layout on both sides of it. What is interpolated may be any
expression; names are enough to tell orders apart. -/
structure Interpolation where
  before : Layout
  name : Name
  behind : Layout

/-- What stands between the marks of an interpolation: a name with layout on both sides. -/
def Interpolation.code (interpolation : Interpolation) : List (Piece TokenKind) :=
  interpolation.before.pieces ++ interpolation.name.piece :: interpolation.behind.pieces

/-- What a template consists of: texts, and names between the marks of an interpolation. -/
inductive Part where
  | text (segment : Segment)
  | name (interpolation : Interpolation)

/-- Whether a part of a template is text. -/
def Part.isText : Part → Bool
  | text _ => true
  | name _ => false

/-- Not two texts, which would be one. -/
def Part.Apart (part next : Part) : Prop := ¬ (part.isText = true ∧ next.isText = true)

/-- A part of a template as the lexer hands it out: one piece of text, or an interpolation with its
two marks. -/
def Part.pieces : Part → List (Piece TokenKind)
  | text segment => [segment.piece]
  | name interpolation => openTemplate :: interpolation.code ++ [closeBrace]

/-- The pieces of some parts of a template, in front of other pieces. -/
def partPieces (parts : List Part) (after : List (Piece TokenKind)) : List (Piece TokenKind) :=
  parts.flatMap Part.pieces ++ after

@[simp] theorem partPieces_nil (after : List (Piece TokenKind)) : partPieces [] after = after := rfl

theorem partPieces_text (segment : Segment) (parts : List Part) (after : List (Piece TokenKind)) :
    partPieces (.text segment :: parts) after = segment.piece :: partPieces parts after := by
  simp [partPieces, Part.pieces]

theorem partPieces_name (interpolation : Interpolation) (parts : List Part)
    (after : List (Piece TokenKind)) : partPieces (.name interpolation :: parts) after =
      openTemplate :: (interpolation.code ++ closeBrace :: partPieces parts after) := by
  simp [partPieces, Part.pieces]

/-- A template: texts and names in any order, where no text follows a text. Two texts next to each
other would be read as one. -/
structure Template where
  parts : List Part
  apart : parts.IsChain Part.Apart

/-- The tokens of a template, in front of others. -/
def Template.pieces (template : Template) (after : List (Piece TokenKind)) : List (Piece TokenKind) :=
  backQuote :: partPieces template.parts (backQuote :: after)

/-- What a template is written with. -/
def Template.text (template : Template) : String := String.ofList (Piece.spelled (template.pieces []))

end Parts

section Lexing

variable {pieces : List (Piece TokenKind)}

/-- How the lexer reads in an interpolation outside all braces. -/
def interpolated : Modes := { stack := [.interpolation 0, .template] }

/-- Names and layout do not change how the next characters are read. -/
theorem spells_interpolated {x : Piece TokenKind} (filled : x.text ≠ "")
    (scan : scanCode (x.text.toList ++ Piece.spelled pieces) = .lexeme x.toLexeme x.text.length)
    (plain : x.kind ∈ .identifier :: layoutKinds) (rest : Spells interpolated pieces) :
    Spells interpolated (x :: pieces) := by
  have calm : ∀ kind ∈ .identifier :: layoutKinds, interpolated.after kind = interpolated := by
    decide
  exact .cons filled scan (by rw [calm _ plain]; exact rest)

theorem layout_scan {kind : TokenKind} (listed : kind ∈ layoutKinds) (cs : List Char) :
    scanCode (layoutChar kind :: cs) = .lexeme (layoutPiece kind).toLexeme 1 := by
  simp only [layoutKinds, List.mem_cons, List.not_mem_nil, or_false] at listed
  rcases listed with rfl | rfl | rfl | rfl
  · rfl
  · rfl
  · rfl
  · rfl

theorem stops_layoutChar {kind : TokenKind} (listed : kind ∈ layoutKinds) :
    Stops (layoutChar kind) := by
  simp only [layoutKinds, List.mem_cons, List.not_mem_nil, or_false] at listed
  rcases listed with rfl | rfl | rfl | rfl
  · exact stops_lineFeed
  · exact ⟨by decide, by decide, by decide, by decide⟩
  · exact ⟨by decide, by decide, by decide, by decide⟩
  · exact stops_space

/-- Layout inside an interpolation is read one token for each character. -/
theorem Layout.spells (layout : Layout) (rest : Spells interpolated pieces) :
    Spells interpolated (layout.pieces ++ pieces) := by
  induction layout with
  | nil => exact rest
  | cons kind layout ih =>
    refine spells_interpolated ?_ ?_ (List.mem_cons_of_mem _ kind.2) ih
    · simp [layoutPiece]
    · simpa [layoutPiece] using layout_scan kind.2 _

/-- Layout ends a name, and so does the end of an interpolation. -/
theorem Layout.stopped (layout : Layout) (pieces : List (Piece TokenKind)) :
    ∃ stop, Stops stop ∧ Stopped stop (Piece.spelled (layout.pieces ++ closeBrace :: pieces)) := by
  cases layout with
  | nil => exact ⟨'\x7d', stops_closeBrace, Or.inr ⟨_, rfl⟩⟩
  | cons kind layout =>
    refine ⟨layoutChar kind.1, stops_layoutChar kind.2,
      Or.inr ⟨Piece.spelled (Layout.pieces layout ++ closeBrace :: pieces), ?_⟩⟩
    simp [layoutPiece]

/-- Inside an interpolation the lexer is at code until its closing brace, which brings it back to
the template. -/
theorem Interpolation.spells (interpolation : Interpolation)
    (rest : Spells { stack := [.template] } pieces) :
    Spells interpolated (interpolation.code ++ closeBrace :: pieces) := by
  obtain ⟨stop, stops, stopped⟩ := interpolation.behind.stopped pieces
  rw [Interpolation.code, List.append_assoc]
  refine interpolation.before.spells (spells_interpolated ?_ (word_scan _ stopped stops) ?_ ?_)
  · simp [Word.piece, Word.text, String.ofList_eq_empty_iff]
  · exact List.mem_cons.mpr (Or.inl interpolation.name.wordKind_text)
  · exact interpolation.behind.spells (.cons (by decide) rfl rest)

/-- Behind a text stands no other text, so the lexer finds its end. -/
theorem textEnds_parts {segment : Segment} {parts : List Part} (after : List (Piece TokenKind))
    (apart : (.text segment :: parts).IsChain Part.Apart) :
    TextEnds (Piece.spelled (partPieces parts (backQuote :: after))) := by
  cases parts with
  | nil => exact Or.inl ⟨_, rfl⟩
  | cons next parts =>
    cases next with
    | text other => exact absurd ⟨rfl, rfl⟩ (List.isChain_cons_cons.mp apart).1
    | name interpolation =>
      rw [partPieces_name]
      exact Or.inr ⟨_, rfl⟩

/-- Parts of which no two neighbours are texts are read back one by one. Two texts next to each
other would be read as one. -/
theorem parts_spells {parts : List Part}
    (apart : parts.IsChain Part.Apart) :
    Spells { stack := [.template] } (partPieces parts [backQuote]) := by
  induction parts with
  | nil => exact .cons (by decide) rfl .nil
  | cons part parts ih =>
    have rest := ih apart.tail
    cases part with
    | text segment =>
      have filled : segment.raw ≠ "" := by
        simpa [Segment.raw, String.ofList_eq_empty_iff] using segment.filled
      have scan := segment.text.scan_append segment.filled (textEnds_parts [] apart)
      rw [partPieces_text]
      refine .cons filled ?_ rest
      simpa [Segment.piece, Segment.raw, Modes.scan, Modes.scanBehindComment, Scan.plain] using scan
    | name interpolation =>
      rw [partPieces_name]
      exact .cons (by decide) rfl (interpolation.spells rest)

/-- What a template is written with is cut into its tokens. -/
theorem Template.tokenize_text (template : Template) : ∃ tokens,
    tokenize template.text = .ok tokens ∧ tokens.map Token.piece = template.pieces [] := by
  have spells : Spells {} (template.pieces []) := .cons (by decide) rfl (parts_spells template.apart)
  exact spells.tokenize String.toList_ofList

end Lexing

end ScriptFront.Script
