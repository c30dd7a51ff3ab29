import Mathlib.Data.List.Infix
import ScriptFront.Proofs.Composition.Lexing

namespace ScriptFront

/-- A place of a text, seen from the start of a source in which the text stands at `origin`:
only its first line has characters in front of it. -/
def Position.shift (p origin : Position) (text : List Char) : Position where
  line := origin.line + (p.line - 1)
  column := if '\n' ∈ text.take p.offset then p.column else origin.column + (p.column - 1)
  offset := origin.offset + p.offset

/-- The position behind a text, counted from any origin, by the position behind the same text alone:
the lines add up, and the column is that of the text when the text has a line end and adds up
otherwise. The counters wrap on both sides alike. -/
theorem Position.advanceAll_eq (origin : Position) (cs : List Char) :
    origin.advanceAll cs =
      ⟨origin.line + ((behind cs).line - 1),
        if '\n' ∈ cs then (behind cs).column else origin.column + ((behind cs).column - 1),
        origin.offset + cs.length⟩ := by
  induction cs using List.reverseRecOn with
  | nil => simp [behind]
  | append_singleton cs c ih =>
    rw [advanceAll_append, ih, behind_concat, advanceAll_cons, advanceAll_nil]
    -- In 32 bits as well, one more is one more: no case is made of the numbers running over.
    have onward (a b : UInt32) : a + (b - 1) + 1 = a + (b + 1 - 1) := by
      rw [UInt32.add_assoc, UInt32.sub_add_cancel, UInt32.add_sub_cancel]
    have length : origin.offset + cs.length + 1 = origin.offset + (cs ++ [c]).length := by
      rw [List.length_append, List.length_singleton, Nat.add_assoc]
    by_cases feed : c = '\n'
    · subst feed
      simp only [advance, if_true, List.mem_append, List.mem_singleton, or_true, Position.mk.injEq]
      exact ⟨onward _ _, trivial, length⟩
    · simp only [advance, feed, Ne.symm feed, if_false, List.mem_append, List.mem_singleton, or_false,
        Position.mk.injEq]
      refine ⟨trivial, ?_, length⟩
      split
      · rfl
      · exact onward _ _

/-- In front of a position of the text alone, shifting by an origin is counting from the origin on.
-/
theorem Position.shift_behind (origin : Position) {read text : List Char} (front : read <+: text) :
    (behind read).shift origin text = origin.advanceAll read := by
  have taken : text.take read.length = read := (List.prefix_iff_eq_take.mp front).symm
  rw [advanceAll_eq, shift, behind, taken]

/-- The same extent, seen from the start of a source in which the text stands at `origin`: both ends
are moved alike. -/
def Span.shift (origin : Position) (text : List Char) (span : Span) : Span :=
  ⟨span.start.shift origin text, span.stop.shift origin text⟩

/-- The same error, of a source in which the text stands at `origin`. -/
def LexError.shift (origin : Position) (text : List Char) : LexError → LexError
  | unterminatedString p => unterminatedString (p.shift origin text)
  | escapeAtEnd p => escapeAtEnd (p.shift origin text)
  | unexpectedEnd p => unexpectedEnd (p.shift origin text)

/-- The same token, of a source in which the text stands at `origin`. -/
def Token.shift {κ : Type} (origin : Position) (text : List Char) (token : Token κ) : Token κ :=
  { token with span := token.span.shift origin text }

/-- What a text is cut into, when it stands at `origin`. -/
def LexRule.shifted {κ : Type} (origin : Position) (text : List Char) :
    Except LexError (List (Token κ)) → Except LexError (List (Token κ))
  | .ok tokens => .ok (tokens.map (·.shift origin text))
  | .error e => .error (e.shift origin text)

/-- Two cursors in front of the same characters: one has read some characters from the start
of a text, the other the same characters from `origin`. -/
structure Cursor.Shifted (origin : Position) (text : List Char) (alone within : Cursor) : Prop where
  rest : within.rest = alone.rest
  position : ∃ read, read ++ alone.rest = text ∧ alone.position = .behind read ∧
    within.position = origin.advanceAll read

namespace Cursor.Shifted

variable {origin : Position} {text : List Char} {alone within : Cursor}

/-- The position of the cursor behind a comment is the shifted position of the cursor alone. -/
theorem position_eq (shifted : Shifted origin text alone within) :
    within.position = alone.position.shift origin text := by
  obtain ⟨read, whole, here, there⟩ := shifted.position
  rw [here, there, Position.shift_behind origin ⟨alone.rest, whole⟩]

/-- Shifted cursors stay shifted when both go over the same number of characters. -/
theorem advanceBy (shifted : Shifted origin text alone within) (n : Nat) :
    Shifted origin text (alone.advanceBy n) (within.advanceBy n) where
  rest := by simp only [rest_advanceBy, shifted.rest]
  position := by
    obtain ⟨read, whole, here, there⟩ := shifted.position
    refine ⟨read ++ alone.rest.take n, ?_, ?_, ?_⟩
    · rw [rest_advanceBy, List.append_assoc, List.take_append_drop, whole]
    · rw [Position.behind_append, ← here]
      rfl
    · rw [Position.advanceAll_append, ← there, ← shifted.rest]
      rfl

end Cursor.Shifted

namespace Script

section Shifting

variable {origin : Position} {text : List Char} {alone within : Cursor} {modes : Modes}

/-- The rule looks at the characters ahead alone, and so does a step that succeeds. -/
theorem step_shift {token : Token TokenKind} {modes' : Modes} {alone' : Cursor}
    (more : alone.rest ≠ []) (shifted : Cursor.Shifted origin text alone within)
    (step : lexRule.step (modes, alone) = .ok token (modes', alone')) :
    ∃ within', lexRule.step (modes, within) = .ok (token.shift origin text) (modes', within') ∧
      Cursor.Shifted origin text alone' within' := by
  obtain ⟨length, -, found, -⟩ := lexRule_step more step
  generalize token.toLexeme = lexeme at found
  cases (lexRule_step_of_scan more found).symm.trans step
  have next := shifted.advanceBy length
  refine ⟨within.advanceBy length, ?_, next⟩
  rw [← shifted.rest] at more found
  rw [lexRule_step_of_scan more found, next.position_eq, shifted.position_eq, shifted.rest]
  rfl

/-- Where the rule stands shows in its errors, and there in nothing but the place. -/
theorem step_shift_error {e : LexError} {left : Modes × Cursor} (more : alone.rest ≠ [])
    (shifted : Cursor.Shifted origin text alone within)
    (step : lexRule.step (modes, alone) = .error e left) :
    ∃ left', lexRule.step (modes, within) = .error (e.shift origin text) left' := by
  have read := lexRule_read modes (shifted.rest ▸ more)
  obtain ⟨-, ⟨found, rfl⟩ | ⟨before, found, rfl⟩⟩ := lexRule_error more (LexRule.step_error more step)
  · rw [shifted.rest, found] at read
    rw [LexError.shift, ← shifted.position_eq]
    exact ⟨_, LexRule.step_of_error read⟩
  · rw [shifted.rest, found] at read
    rw [LexError.shift, ← (shifted.advanceBy before).position_eq]
    exact ⟨_, LexRule.step_of_error read⟩

/-- Cutting a text into tokens gives the same tokens or the same error wherever the text
stands, as long as the lexer starts in the same modes. -/
theorem run_shift {result : Except LexError (List (Token TokenKind))}
    (run : lexRule.Run modes alone result) (shifted : Cursor.Shifted origin text alone within) :
    lexRule.Run modes within (LexRule.shifted origin text result) := by
  induction run generalizing within with
  | finish ended => exact .finish (by rw [shifted.rest, ended])
  | fail more failed =>
    obtain ⟨left, failed'⟩ := step_shift_error more shifted failed
    exact .fail (by rwa [shifted.rest]) failed'
  | @token modes alone token modes' alone' result more step rest ih =>
    obtain ⟨within', step', next⟩ := step_shift more shifted step
    have run' := LexRule.Run.token (by rwa [shifted.rest]) step' (ih next)
    cases result <;> exact run'

end Shifting

namespace CommentStyle

/-- What a comment begins with. -/
def opener : CommentStyle → Piece TokenKind
  | block => ⟨⟨.slashAsterisk, none⟩, "/*"⟩
  | line => ⟨⟨.doubleSlash, none⟩, "//"⟩

/-- What a comment ends before, which is a token of its own. -/
def closer : CommentStyle → Piece TokenKind
  | block => ⟨⟨.asteriskSlash, none⟩, "*/"⟩
  | line => newLine

/-- What stands between the two. -/
def text (body : String) : Piece TokenKind := ⟨⟨.commentText, none⟩, body⟩

/-- A whole comment. An empty body is no token. -/
def pieces (style : CommentStyle) (body : String) : List (Piece TokenKind) :=
  style.opener :: (if body = "" then [] else [text body]) ++ [style.closer]

/-- A comment as it is written. -/
def written (style : CommentStyle) (body : String) : String :=
  style.opener.text ++ body ++ style.closer.text

/-- In code the opener of a comment is found before any shorter sign that it begins with. -/
theorem opener_scan (style : CommentStyle) (cs : List Char) :
    ({} : Modes).scan (style.opener.text.toList ++ cs) =
      .lexeme style.opener.toLexeme style.opener.text.length := by
  cases style <;> rfl

theorem opener_filled (style : CommentStyle) : style.opener.text ≠ "" := by
  cases style <;> decide

theorem after_opener (style : CommentStyle) :
    ({} : Modes).after style.opener.kind = { comment := some style } := by
  cases style <;> rfl

/-- A body goes up to the first end of the comment. The end cannot begin in the body and
stop behind it, since no character occurs in it twice. -/
theorem bodyLength_closer (style : CommentStyle) {body : List Char}
    (closed : ¬ style.closer.text.toList <:+: body) (cs : List Char) :
    style.bodyLength (body ++ (style.closer.text.toList ++ cs)) = body.length := by
  cases style with
  | line =>
    have inside : ∀ c ∈ body, decide (c ≠ '\n') = true := by
      intro c member
      refine decide_eq_true ?_
      rintro rfl
      exact closed ((List.singleton_infix_iff _ _).mpr member)
    rw [bodyLength, List.takeWhile_append_of_pos inside]
    simp [closer, newLine]
  | block =>
    induction body with
    | nil => rfl
    | cons c body ih =>
      have inner : ¬ block.closer.text.toList <:+: body :=
        fun found => closed (List.infix_cons found)
      have goesOn : ¬ (c = '*' ∧ (body ++ (block.closer.text.toList ++ cs)).head? = some '/') := by
        rintro ⟨rfl, slash⟩
        cases body with
        | nil => cases slash
        | cons d body =>
          obtain rfl : d = '/' := Option.some.inj slash
          exact closed ⟨[], body, rfl⟩
      rw [List.cons_append, bodyLength, if_neg goesOn, ih inner, List.length_cons]

/-- Where a comment may end, its end is found, whether or not a body is still expected. -/
theorem closer_scan (style : CommentStyle) {modes : Modes} (code : modes.region = .code)
    (pending : modes.comment = none ∨ modes.comment = some style) (cs : List Char) :
    modes.scan (style.closer.text.toList ++ cs) =
      .lexeme style.closer.toLexeme style.closer.text.length := by
  obtain ⟨stack, comment⟩ := modes
  rcases stack with _ | ⟨_ | depth, outer⟩
  · rcases pending with rfl | rfl <;> cases style <;> rfl
  · cases code
  · rcases pending with rfl | rfl <;> cases style <;> rfl

theorem closer_filled (style : CommentStyle) : style.closer.text ≠ "" := by
  cases style <;> decide

/-- Behind its closer a comment at the outermost level leaves the lexer as it was at the start of a
source, which is why the rest is read as if it stood alone. -/
theorem after_closer (style : CommentStyle) {modes : Modes} (code : modes.stack = []) :
    modes.after style.closer.kind = {} := by
  obtain ⟨stack, comment⟩ := modes
  obtain rfl : stack = [] := code
  cases style <;> rfl

end CommentStyle

/-- A comment is pending behind its opener alone, and in code. -/
theorem Modes.pending_after {modes : Modes} {kind : TokenKind} {style : CommentStyle}
    (pending : (modes.after kind).comment = some style) :
    kind = style.opener.kind ∧ (modes.after kind).region = .code := by
  unfold after at pending ⊢
  split at pending <;> try cases pending
  all_goals
    rename_i free
    exact ⟨rfl, Modes.code_of_stack free⟩

section Runs

variable {style : CommentStyle} {body : String} {cs : List Char} {cursor : Cursor}
  {result : Except LexError (List (Token TokenKind))}

/-- Behind the end of a comment the lexer is back in its first modes. -/
theorem run_closer {modes : Modes} (code : modes.stack = [])
    (pending : modes.comment = none ∨ modes.comment = some style)
    (ahead : cursor.rest = style.closer.text.toList ++ cs)
    (run : lexRule.Run {} (cursor.advanceBy style.closer.text.toList.length) result) :
    ∃ token, token.piece = style.closer ∧ lexRule.Run modes cursor (result.map (token :: ·)) :=
  run_piece style.closer_filled ahead
    (style.closer_scan (by rw [Modes.region, code]) pending cs) (by rwa [style.after_closer code])

/-- The rest of a comment behind its opener, whatever the body holds. -/
theorem run_body (closed : ¬ style.closer.text.toList <:+: body.toList)
    (ahead : cursor.rest = body.toList ++ (style.closer.text.toList ++ cs))
    (run : lexRule.Run {} (cursor.advanceBy (body ++ style.closer.text).toList.length) result) :
    ∃ tokens, style.opener :: tokens.map Token.piece = style.pieces body ∧
      lexRule.Run { comment := some style } cursor (result.map (tokens ++ ·)) := by
  have length : style.bodyLength cursor.rest = body.toList.length := by
    rw [ahead]
    exact style.bodyLength_closer closed cs
  rw [String.toList_append, List.length_append, ← Cursor.advanceBy_advanceBy] at run
  by_cases empty : body = ""
  · subst empty
    have pending : ({ comment := some style } : Modes).comment = some style := rfl
    obtain ⟨token, isCloser, run⟩ := run_closer rfl (.inr pending) ahead run
    exact ⟨[token], by simp [CommentStyle.pieces, isCloser], run⟩
  · have behind : (cursor.advanceBy body.toList.length).rest =
        style.closer.text.toList ++ cs := by
      rw [Cursor.rest_advanceBy, ahead, List.drop_left]
    have calm : ({} : Modes).comment = none := rfl
    obtain ⟨token, isCloser, run⟩ := run_closer rfl (.inl calm) behind run
    have front : ({ comment := some style } : Modes).scan
        (body.toList ++ (style.closer.text.toList ++ cs)) =
          .lexeme (CommentStyle.text body).toLexeme body.length := by
      simp only [Modes.scan, ← ahead, length, String.length_toList]
      split
      · rename_i none
        exact absurd (String.length_eq_zero_iff.mp none) empty
      · rfl
    obtain ⟨inner, isBody, run⟩ := run_piece (x := CommentStyle.text body) empty ahead front run
    refine ⟨[inner, token], by simp [CommentStyle.pieces, isCloser, isBody, empty], ?_⟩
    cases result <;> exact run

end Runs

/-- A comment keeps its body from being read: it is an opener, the body unless that is empty,
and an end, whatever the body holds. What follows the comment is cut into tokens, or fails, as
if it stood alone, only further on. -/
theorem tokenize_comment (style : CommentStyle) (body rest : String)
    (closed : ¬ style.closer.text.toList <:+: body.toList) :
    match tokenize rest with
    | .ok tokens => ∃ comment, comment.map Token.piece = style.pieces body ∧
        tokenize (style.written body ++ rest) =
          .ok (comment ++ tokens.map (·.shift (.behind (style.written body).toList) rest.toList))
    | .error e => tokenize (style.written body ++ rest) =
        .error (e.shift (.behind (style.written body).toList) rest.toList) := by
  let cursor := Cursor.ofString (style.written body ++ rest)
  have ahead : cursor.rest = style.opener.text.toList ++
      (body.toList ++ (style.closer.text.toList ++ rest.toList)) := by
    simp [cursor, Cursor.ofString, CommentStyle.written]
  have length : (style.written body).toList.length =
      style.opener.text.toList.length + (body ++ style.closer.text).toList.length := by
    simp [CommentStyle.written]
  have behind : lexRule.Run {} (cursor.advanceBy (style.written body).toList.length)
      (LexRule.shifted (.behind (style.written body).toList) rest.toList (tokenize rest)) := by
    refine run_shift (LexRule.tokenize_run lexRule rest) ⟨?_, [], rfl, rfl, ?_⟩
    · simp [cursor, Cursor.ofString, Cursor.advanceBy]
    · simp [cursor, Cursor.ofString, Cursor.advanceBy, Position.start_advanceAll]
  rw [length, ← Cursor.advanceBy_advanceBy] at behind
  obtain ⟨others, isPieces, run⟩ := run_body closed (by
    rw [Cursor.rest_advanceBy, ahead, List.drop_left]) behind
  obtain ⟨first, isOpener, run⟩ := run_piece style.opener_filled ahead (style.opener_scan _) (by
    rwa [style.after_opener])
  have whole := (LexRule.tokenize_run lexRule (style.written body ++ rest)).unique run
  cases alone : tokenize rest with
  | ok tokens =>
    rw [alone] at whole
    exact ⟨first :: others, by rw [List.map_cons, isOpener, isPieces], whole⟩
  | error e =>
    rw [alone] at whole
    exact whole

/-- A body full of openers hides all of them from what follows, and a line comment without
a body is nothing but its two ends. -/
theorem tokenize_comment_openers :
    tokenize (CommentStyle.block.written "\x60$\x7b \"' // /*\n**" ++ "a 'b") =
        .error (.unterminatedString ⟨2, 7, 21⟩) ∧
      ∃ comment, comment.map Token.piece = CommentStyle.line.pieces "" ∧
        tokenize (CommentStyle.line.written "" ++ "\x7d") = .ok (comment ++
          [⟨⟨.closeBrace, none⟩, "\x7d", ⟨⟨2, 1, 3⟩, ⟨2, 2, 4⟩⟩⟩]) := by
  have block := tokenize_comment .block "\x60$\x7b \"' // /*\n**" "a 'b" (by decide)
  have line := tokenize_comment .line "" "\x7d" (by decide)
  have failed : tokenize "a 'b" = .error (.unterminatedString ⟨1, 3, 2⟩) := by decide +kernel
  have brace : tokenize "\x7d" =
      .ok [⟨⟨.closeBrace, none⟩, "\x7d", ⟨⟨1, 1, 0⟩, ⟨1, 2, 1⟩⟩⟩] := by decide +kernel
  rw [failed] at block
  rw [brace] at line
  exact ⟨block, line⟩

end Script

end ScriptFront
