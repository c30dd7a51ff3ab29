import ScriptFront.Proofs.Guarded

namespace ScriptFront

variable {κ : Type}

/-- A token without its extent. Two sources of which one is a part of the other have the same pieces
there, though their tokens stand at different places. -/
structure Piece (κ : Type) extends Lexeme κ where
  text : String
deriving DecidableEq, Repr

namespace Piece

/-- Whether the piece is mere layout. -/
def isSpace (x : Piece κ) : Bool := x.tag == some .whiteSpace

/-- The characters of some pieces, written one after the other. -/
def spelled (pieces : List (Piece κ)) : List Char := pieces.flatMap (·.text.toList)

@[simp] theorem spelled_nil : spelled ([] : List (Piece κ)) = [] := rfl

@[simp] theorem spelled_cons (x : Piece κ) (pieces : List (Piece κ)) :
    spelled (x :: pieces) = x.text.toList ++ spelled pieces := by
  simp [spelled]

/-- The text of a list of pieces is put together from the texts of its parts. -/
@[simp] theorem spelled_append (first second : List (Piece κ)) :
    spelled (first ++ second) = spelled first ++ spelled second := by
  simp [spelled]

end Piece

/-- What is left of a token when its extent is taken away. -/
def Token.piece (token : Token κ) : Piece κ := ⟨token.toLexeme, token.text⟩

@[simp] theorem Token.kind_piece (token : Token κ) : token.piece.kind = token.kind := rfl

@[simp] theorem Token.tag_piece (token : Token κ) : token.piece.tag = token.tag := rfl

@[simp] theorem Token.isSpace_piece (token : Token κ) : token.piece.isSpace = token.isSpace := rfl

namespace Script

/-- Pieces that the lexer finds one after the other when it starts in some modes and nothing follows
them. Each is found at the front of the text of all that follow, which is why writing more behind
them needs an argument. -/
inductive Spells : Modes → List (Piece TokenKind) → Prop
  | nil {modes} : Spells modes []
  | cons {modes x pieces} : x.text ≠ "" →
      modes.scan (x.text.toList ++ Piece.spelled pieces) = .lexeme x.toLexeme x.text.length →
      Spells (modes.after x.kind) pieces → Spells modes (x :: pieces)

/-- A piece that the scanner finds at the front is the next token of the lexer. -/
theorem run_piece {modes : Modes} {cursor : Cursor} {x : Piece TokenKind} {behind : List Char}
    {result : Except LexError (List (Token TokenKind))} (filled : x.text ≠ "")
    (ahead : cursor.rest = x.text.toList ++ behind)
    (scan : modes.scan (x.text.toList ++ behind) = .lexeme x.toLexeme x.text.length)
    (run : lexRule.Run (modes.after x.kind) (cursor.advanceBy x.text.toList.length) result) :
    ∃ token, token.piece = x ∧ lexRule.Run modes cursor (result.map (token :: ·)) := by
  have some : x.text.toList ≠ [] := fun empty => filled (String.toList_eq_nil_iff.mp empty)
  have more : cursor.rest ≠ [] := by
    rw [ahead]
    simp [some]
  rw [← ahead] at scan
  have step := lexRule_step_of_scan more scan
  rw [← String.length_toList, ahead, List.take_left, String.ofList_toList] at step
  exact ⟨_, rfl, .token more step run⟩

/-- Pieces that the lexer would find one after the other, each in the modes behind the ones before
it, are the run of the lexer over their text. With it a theorem about written trees needs no cursor.
-/
theorem Spells.run {modes : Modes} {pieces : List (Piece TokenKind)} (spells : Spells modes pieces)
    (cursor : Cursor) (ahead : cursor.rest = Piece.spelled pieces) :
    ∃ tokens, lexRule.Run modes cursor (.ok tokens) ∧ tokens.map Token.piece = pieces := by
  induction spells generalizing cursor with
  | nil => exact ⟨[], .finish ahead, rfl⟩
  | @cons modes x pieces filled scan rest ih =>
    rw [Piece.spelled_cons] at ahead
    obtain ⟨tokens, run, same⟩ := ih (cursor.advanceBy x.text.toList.length) (by
      rw [Cursor.rest_advanceBy, ahead, List.drop_left])
    obtain ⟨token, isPiece, whole⟩ := run_piece filled ahead scan run
    exact ⟨token :: tokens, whole, by rw [List.map_cons, isPiece, same]⟩

/-- A source that is spelled by some pieces is cut into exactly these. -/
theorem Spells.tokenize {pieces : List (Piece TokenKind)} (spells : Spells {} pieces)
    {source : String} (spelled : source.toList = Piece.spelled pieces) :
    ∃ tokens, tokenize source = .ok tokens ∧ tokens.map Token.piece = pieces := by
  obtain ⟨tokens, run, same⟩ := spells.run (.ofString source) spelled
  exact ⟨tokens, (LexRule.tokenize_run lexRule source).unique run, same⟩

end Script

end ScriptFront
