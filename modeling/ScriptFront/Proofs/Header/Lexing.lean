import ScriptFront.Proofs.Comments
import ScriptFront.Proofs.Composition.Interpolation

namespace ScriptFront.Script

variable {modes : Modes} {x : Piece TokenKind} {front pieces more : List (Piece TokenKind)}
  {cs : List Char} {lexeme : Lexeme TokenKind}

/-- The first piece is what the lexer finds at the front. -/
theorem Spells.uncons {length : Nat} (spells : Spells modes pieces)
    (spelled : Piece.spelled pieces = cs) (more : cs ≠ [])
    (found : modes.scan cs = .lexeme lexeme length) :
    ∃ text rest, pieces = ⟨lexeme, text⟩ :: rest ∧ Spells (modes.after lexeme.kind) rest ∧
      Piece.spelled rest = cs.drop length := by
  cases spells with
  | nil => exact absurd spelled.symm more
  | @cons _ x rest _ scan behind =>
    rw [← Piece.spelled_cons, spelled, found] at scan
    obtain ⟨rfl, rfl⟩ := Scan.lexeme.inj scan
    refine ⟨x.text, rest, rfl, behind, ?_⟩
    rw [← spelled, Piece.spelled_cons, ← String.length_toList, List.drop_left]

/-- The last piece is found in the modes that the others lead to. -/
theorem Spells.last (spells : Spells modes (front ++ [x])) :
    x.text ≠ "" ∧ ((front.map (·.kind)).foldl Modes.after modes).scan x.text.toList =
      .lexeme x.toLexeme x.text.length := by
  induction front generalizing modes with
  | nil =>
    cases spells with
    | cons filled scan _ => exact ⟨filled, by simpa using scan⟩
  | cons y front ih =>
    cases spells with
    | cons _ _ behind => exact ih behind

/-- Code that ends in a closing brace and is one token is the brace alone. -/
theorem scanCode_closeBrace
    (found : scanCode (cs ++ ['\x7d']) = .lexeme lexeme (cs ++ ['\x7d']).length) :
    lexeme.kind = .closeBrace := by
  cases cs with
  | nil =>
    cases found
    rfl
  | cons c cs =>
    by_cases isQuote : c = '"' ∨ c = '\''
    · rw [List.cons_append, scanCode, if_pos isQuote] at found
      obtain ⟨shorter, inner, whole⟩ := Scan.lexeme_of_later found
      obtain ⟨-, body, taken⟩ := scanString_lexeme inner
      obtain rfl : (cs ++ ['\x7d']).length = shorter := Nat.succ.inj whole
      rw [List.take_length] at taken
      obtain rfl : '\x7d' = c := List.singleton_inj.mp (List.append_inj' taken rfl).2
      exact absurd isQuote (by decide)
    · have fits := scanCode_fits c cs
      rw [scanCode_stopped (stopped_cons '\x7d' []) stops_closeBrace cs (not_or.mp isQuote)] at found
      rw [found] at fits
      have within := fits.2
      simp only [List.cons_append, List.length_cons, List.length_append] at within
      omega

/-- Only the mark at its end leads out of a template. -/
theorem Modes.backQuote_of_code {kind : TokenKind} (code : (modes.after kind).stack = [])
    (inside : modes.region = .template) : kind = .backQuote := by
  unfold Modes.after at code
  split at code <;> simp_all [Modes.region]

/-- A token that ends with a closing brace and leaves nothing open is that brace. With another first
character a token of the same length would go on differently. -/
theorem Modes.closeBrace_of_scan (code : (modes.after lexeme.kind).stack = [])
    (found : modes.scanBehindComment (cs ++ ['\x7d']) = .lexeme lexeme (cs ++ ['\x7d']).length) :
    lexeme.kind = .closeBrace := by
  unfold scanBehindComment at found
  split at found
  · rename_i atStack
    have mark := Modes.backQuote_of_code code (by rw [Modes.region, atStack])
    have spelled := scanTemplate_spelled (cs ++ ['\x7d'])
    rw [found] at spelled
    have text := spelled.punctuator ("\x60", ⟨.backQuote, none⟩) (by decide) mark.symm
    rw [List.take_length] at text
    cases cs with
    | nil => cases text
    | cons c cs => simp at text
  · exact scanCode_closeBrace found

section Sources

variable {source : String} {ts : List (Token TokenKind)}

/-- A comment up to the end of its line is not pending behind the line break. -/
theorem not_line_behind (genuine : ∀ token ∈ ts, Genuine token)
    (behind : Piece.spelled (ts.map Token.piece) = cs ++ ['\n']) :
    ((ts.map (·.kind)).foldl Modes.after {}).comment ≠ some .line := by
  intro pending
  rcases List.eq_nil_or_concat' ts with rfl | ⟨init, last, rfl⟩
  · cases pending
  · rw [List.map_append, List.foldl_append] at pending
    have text := (genuine last (by simp)).text_eq ("//", ⟨.doubleSlash, none⟩) (by decide)
      (Modes.pending_after pending).1
    have spelled : last.piece.text.toList = ['/'] ++ ['/'] := congrArg String.toList text
    rw [List.map_append, List.map_singleton, Piece.spelled_append, Piece.spelled_cons, spelled,
      Piece.spelled_nil, List.append_nil, ← List.append_assoc] at behind
    exact absurd (List.append_inj' behind rfl).2 (by decide)

/-- A source that has a closing brace at the beginning of its last line and nothing behind it
ends in that brace as a token, if no template and no comment is open there. -/
theorem last_closeBrace (run : tokenize source = .ok ts) (ends : source.toList = cs ++ ['\n', '\x7d'])
    (code : ((ts.map (·.kind)).foldl Modes.after {}).stack = []) (closed : ¬ Unclosed ts) :
    ∀ token ∈ ts.getLast?, token.kind = .closeBrace := by
  intro closer isLast
  obtain ⟨init, rfl⟩ := List.getLast?_eq_some_iff.mp isLast
  obtain ⟨spells, spelled⟩ := tokenize_spells run
  have listed : ∀ token ∈ init ++ [closer], Lexeme.Listed token.toLexeme := fun token member =>
    spells.listed _ (List.mem_map_of_mem member)
  have genuine : ∀ token ∈ init, Genuine token := fun token member =>
    tokenize_genuine run token (List.mem_append_left _ member)
  rw [List.map_append, List.map_singleton] at spells spelled
  obtain ⟨filled, found⟩ := spells.last
  rw [show (init.map Token.piece).map (·.kind) = init.map (·.kind) from List.map_map] at found
  rw [List.map_append, List.foldl_append] at code
  -- The brace is the last character of the last token.
  obtain ⟨inside, text, before⟩ : ∃ inside, closer.piece.text.toList = inside ++ ['\x7d'] ∧
      Piece.spelled (init.map Token.piece) ++ inside = cs ++ ['\n'] := by
    rcases List.eq_nil_or_concat' closer.piece.text.toList with none | ⟨inside, c, text⟩
    · exact absurd (String.toList_eq_nil_iff.mp none) filled
    · rw [Piece.spelled_append, Piece.spelled_cons, text, ends, Piece.spelled_nil, List.append_nil,
        ← List.append_assoc, List.append_cons cs '\n' ['\x7d']] at spelled
      obtain ⟨before, same⟩ := List.append_inj' spelled rfl
      exact ⟨inside, by rw [text, same], before⟩
  rw [← String.length_toList, text] at found
  generalize atModes : (init.map (·.kind)).foldl Modes.after {} = modes at found code
  unfold Modes.scan at found
  split at found
  · exact Modes.closeBrace_of_scan code found
  rename_i style pending
  split at found
  · exact Modes.closeBrace_of_scan code found
  -- Otherwise the token is the text of a comment that goes on to the end of the source.
  obtain ⟨isText, whole⟩ := Scan.lexeme.inj found
  cases style with
  | block =>
    refine absurd (unclosed_of_hangs listed (List.map_append ..) ⟨?_, Or.inr ?_⟩) closed
    · rw [atModes, pending]
    · exact congrArg (fun lexeme => [lexeme.kind]) isText.symm
  | line =>
    unfold CommentStyle.bodyLength at whole
    have all := List.takeWhile_eq_self_iff.mp ((List.takeWhile_prefix _).eq_of_length whole)
    rcases List.eq_nil_or_concat' inside with rfl | ⟨shorter, c, rfl⟩
    · rw [List.append_nil] at before
      exact absurd (atModes ▸ pending) (not_line_behind genuine before)
    · rw [← List.append_assoc] at before
      obtain rfl : c = '\n' := List.singleton_inj.mp (List.append_inj' before rfl).2
      simpa using all '\n' (by simp)

theorem stops_semicolon : Stops ';' := ⟨by decide, by decide, by decide, by decide⟩

/-- Pieces that leave no template and no comment open are found as well in front of others
that begin with a character which stops them. -/
theorem Spells.append {stop : Char} {rest : List Char} (spells : Spells modes pieces)
    (stops : Stops stop) (begins : Piece.spelled more = stop :: rest)
    (code : ((pieces.map (·.kind)).foldl Modes.after modes).stack = [])
    (quiet : pieces = [] → modes.comment = none)
    (last : ∀ x ∈ pieces.getLast?, x.kind ∉ commentKinds) (others : Spells {} more) :
    Spells modes (pieces ++ more) := by
  induction spells with
  | @nil modes =>
    obtain ⟨stack, comment⟩ := modes
    obtain rfl : stack = [] := code
    obtain rfl : comment = none := quiet rfl
    exact others
  | @cons modes x pieces filled scan behind ih =>
    refine .cons filled ((Spells.cons filled scan behind).scan_append stops begins ?_)
      (ih code ?_ fun y isLast => last y ?_)
    · rintro rfl
      refine ⟨Modes.not_text_of_code code, fun _ _ isText => ?_⟩
      exact absurd (isText ▸ last x rfl) (by decide)
    · rintro rfl
      exact Modes.comment_none (last x rfl)
    · rw [List.getLast?_cons, Option.mem_def.mp isLast]
      rfl

/-- What stands in front of the first clause of a loop. -/
def loopFront : List (Piece TokenKind) := [symbolPiece .kwFor, space, symbolPiece .openParen]

/-- What stands behind the first clause of a loop that has neither another clause nor a body. -/
def loopBack : List (Piece TokenKind) :=
  [semicolon, space, semicolon, space, symbolPiece .closeParen, space, semicolon]

theorem loopBack_spells : Spells {} loopBack := by
  have closes : Spells {} [symbolPiece .closeParen, space, semicolon] :=
    .cons (by decide) rfl (.cons (by decide) rfl (.cons (by decide) rfl .nil))
  refine .cons (by decide) rfl (.cons (by decide) rfl ?_)
  exact .cons (by decide) rfl (.cons (by decide) rfl closes)

/-- A source that leaves nothing open is cut into its own tokens in the first clause of a
loop. -/
theorem tokenize_header (run : tokenize source = .ok ts)
    (code : ((ts.map (·.kind)).foldl Modes.after {}).stack = [])
    (last : ∀ token ∈ ts.getLast?, token.kind ∉ commentKinds) :
    ∃ ts', tokenize ("for (" ++ source ++ "; ; ) ;") = .ok ts' ∧
      ts'.map Token.piece = loopFront ++ ts.map Token.piece ++ loopBack := by
  obtain ⟨spells, spelled⟩ := tokenize_spells run
  have inner : Spells {} (ts.map Token.piece ++ loopBack) := by
    refine spells.append stops_semicolon rfl ?_ (fun _ => rfl) (last_piece last) loopBack_spells
    rwa [List.map_map]
  have whole : Spells {} (loopFront ++ (ts.map Token.piece ++ loopBack)) :=
    .cons (by decide) rfl (.cons (by decide) rfl (.cons (by decide) rfl inner))
  rw [List.append_assoc]
  refine whole.tokenize ?_
  rw [Piece.spelled_append, Piece.spelled_append, spelled]
  have front : Piece.spelled loopFront = "for (".toList := rfl
  have back : Piece.spelled loopBack = "; ; ) ;".toList := rfl
  simp only [front, back, String.toList_append, List.append_assoc]

end Sources

end ScriptFront.Script
