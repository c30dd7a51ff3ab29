import ScriptFront.Proofs.Composition.Unclosed

namespace ScriptFront.Script

section Appending

variable {stop : Char} {cs rest : List Char} {lexeme : Lexeme TokenKind} {length : Nat}

/-- Characters that go on with the one that stops a token. -/
theorem stopped_cons (stop : Char) (rest : List Char) : Stopped stop (stop :: rest) :=
  Or.inr ⟨rest, rfl⟩

/-- A string that is closed does not depend on what stands behind it. -/
theorem scanString_append {quote : Char} (found : scanString quote cs = .lexeme lexeme length) :
    scanString quote (cs ++ rest) = .lexeme lexeme length := by
  fun_induction scanString quote cs generalizing length with
  | case1 => cases found
  | case2 =>
    rw [List.cons_append]
    unfold scanString
    rwa [if_pos rfl]
  | case3 => cases found
  | case4 escaped cs notQuote ih =>
    obtain ⟨shorter, inner, rfl⟩ := Scan.lexeme_of_later found
    rw [List.cons_append, List.cons_append]
    unfold scanString
    rw [if_neg notQuote, if_pos rfl]
    dsimp only
    rw [ih inner]
    rfl
  | case5 c cs notQuote notSlash ih =>
    obtain ⟨shorter, inner, rfl⟩ := Scan.lexeme_of_later found
    rw [List.cons_append]
    unfold scanString
    rw [if_neg notQuote, if_neg notSlash, ih inner]
    rfl

/-- What is found in code is found again with more text behind it, if that begins with a character
that stops every token. -/
theorem scanCode_append {c : Char} (stops : Stops stop)
    (found : scanCode (c :: cs) = .lexeme lexeme length) :
    scanCode (c :: cs ++ stop :: rest) = .lexeme lexeme length := by
  by_cases isQuote : c = '"' ∨ c = '\''
  · rw [scanCode, if_pos isQuote] at found
    obtain ⟨shorter, inner, rfl⟩ := Scan.lexeme_of_later found
    rw [List.cons_append, scanCode, if_pos isQuote, scanString_append inner]
    rfl
  · rw [scanCode_stopped (stopped_cons stop rest) stops cs (not_or.mp isQuote), found]

theorem templateTextLength_append (short : templateTextLength cs < cs.length) :
    templateTextLength (cs ++ rest) = templateTextLength cs := by
  fun_induction templateTextLength cs with
  | case1 => simp at short
  | case2 c cs stops =>
    have stops' : c = '\x60' ∨ c = '$' ∧ (cs ++ rest).head? = some '\x7b' := by
      rcases stops with quote | ⟨dollar, brace⟩
      · exact .inl quote
      · refine .inr ⟨dollar, ?_⟩
        rw [List.head?_append, brace]
        rfl
    rw [List.cons_append]
    unfold templateTextLength
    rw [if_pos stops']
  | case3 => simp at short
  | case4 escaped cs goesOn ih =>
    have goesOn' : ¬ ('\\' = '\x60' ∨ '\\' = '$' ∧ (escaped :: (cs ++ rest)).head? = some '\x7b') :=
      goesOn
    rw [List.cons_append, List.cons_append]
    conv_lhs => unfold templateTextLength
    rw [if_neg goesOn', if_pos rfl]
    dsimp only
    rw [ih (by simpa using short)]
  | case5 c cs goesOn noEscape ih =>
    have more : templateTextLength cs < cs.length := by simpa using short
    have goesOn' : ¬ (c = '\x60' ∨ c = '$' ∧ (cs ++ rest).head? = some '\x7b') := by
      cases cs with
      | nil => simp at more
      | cons d cs => exact goesOn
    rw [List.cons_append]
    conv_lhs => unfold templateTextLength
    rw [if_neg goesOn', if_neg noEscape, ih more]

theorem bodyLength_line (cs rest : List Char) :
    CommentStyle.line.bodyLength (cs ++ '\n' :: rest) = CommentStyle.line.bodyLength cs := by
  unfold CommentStyle.bodyLength
  rw [(stopped_cons '\n' rest).takeWhile_append (by decide)]

theorem bodyLength_block (short : CommentStyle.block.bodyLength cs < cs.length) :
    CommentStyle.block.bodyLength (cs ++ rest) = CommentStyle.block.bodyLength cs := by
  induction cs with
  | nil => simp at short
  | cons c cs ih =>
    rw [List.cons_append, CommentStyle.bodyLength, CommentStyle.bodyLength]
    rw [CommentStyle.bodyLength] at short
    by_cases closes : c = '*' ∧ cs.head? = some '/'
    · have closes' : c = '*' ∧ (cs ++ rest).head? = some '/' := by
        rw [List.head?_append, closes.2]
        exact ⟨closes.1, rfl⟩
      rw [if_pos closes, if_pos closes']
    · rw [if_neg closes] at short ⊢
      have more : CommentStyle.block.bodyLength cs < cs.length := by simpa using short
      have goesOn : ¬ (c = '*' ∧ (cs ++ rest).head? = some '/') := by
        cases cs with
        | nil => simp at more
        | cons d cs => exact closes
      rw [if_neg goesOn, ih more]

/-- The same in a template. A text that goes up to the end is left out, since more text would
lengthen it. -/
theorem scanTemplate_append {c : Char} (stops : Stops stop)
    (found : scanTemplate (c :: cs) = .lexeme lexeme length)
    (closed : length < (c :: cs).length ∨ lexeme.kind ≠ .templateText) :
    scanTemplate (c :: cs ++ stop :: rest) = .lexeme lexeme length := by
  have noDollar : stop ≠ '$' := by
    rintro rfl
    exact absurd stops.word (by decide)
  unfold scanTemplate at found ⊢
  rw [(stopped_cons stop rest).isPrefixOf_append (by simp [noDollar, stops.brace])]
  rw [List.cons_append, List.head?_cons] at *
  split at found
  · rename_i quote
    rw [if_pos quote, found]
  rename_i noQuote
  rw [if_neg noQuote]
  split at found
  · rename_i opens
    rw [if_pos opens, found]
  · rename_i noOpening
    rw [if_neg noOpening]
    obtain ⟨rfl, rfl⟩ := Scan.lexeme.inj found
    have short := closed.resolve_right (by simp)
    rw [← List.cons_append, templateTextLength_append short]
    rfl

/-- A comment whose body ends before the characters do has the same body whatever follows. -/
theorem CommentStyle.bodyLength_append (style : CommentStyle)
    (short : style.bodyLength cs < cs.length) :
    style.bodyLength (cs ++ rest) = style.bodyLength cs := by
  cases style with
  | block => exact bodyLength_block short
  | line =>
    unfold bodyLength at short ⊢
    rw [List.takeWhile_append, if_neg (Nat.ne_of_lt short)]

/-- What is found at the front of some characters is found there as well when they go on
with one that stops it, unless it is text that goes on behind that. -/
theorem Modes.scan_append {modes : Modes} {c : Char} (stops : Stops stop)
    (found : modes.scan (c :: cs) = .lexeme lexeme length)
    (closed : length < (c :: cs).length ∨ (modes.region = .template → lexeme.kind ≠ .templateText) ∧
      ∀ style, modes.comment = some style → lexeme.kind = .commentText →
        style = .line ∧ stop = '\n') :
    modes.scan (c :: cs ++ stop :: rest) = .lexeme lexeme length := by
  have behind (found : modes.scanBehindComment (c :: cs) = .lexeme lexeme length) :
      modes.scanBehindComment (c :: cs ++ stop :: rest) = .lexeme lexeme length := by
    unfold scanBehindComment at found ⊢
    split at found
    · rename_i outer atStack
      have inside : modes.region = .template := by rw [Modes.region, atStack]
      exact scanTemplate_append stops found (closed.imp_right fun whole => whole.1 inside)
    · exact scanCode_append stops found
  unfold scan at found ⊢
  cases pending : modes.comment with
  | none =>
    rw [pending] at found
    exact behind found
  | some style =>
    rw [pending] at found
    dsimp only at found ⊢
    have body : style.bodyLength (c :: cs ++ stop :: rest) = style.bodyLength (c :: cs) := by
      by_cases short : style.bodyLength (c :: cs) < (c :: cs).length
      · exact style.bodyLength_append short
      · have all := Nat.le_antisymm (style.bodyLength_le (c :: cs)) (Nat.not_lt.mp short)
        rw [all] at found
        obtain ⟨rfl, rfl⟩ := Scan.lexeme.inj found
        rcases closed with short | ⟨-, atLine⟩
        · exact absurd short (Nat.lt_irrefl _)
        · obtain ⟨rfl, rfl⟩ := atLine style pending rfl
          exact bodyLength_line _ rest
    rw [body]
    split at found
    · exact behind found
    · exact found

end Appending

section Sources

/-- A lexeme that is found in front of some pieces is one more piece. -/
theorem Spells.of_scan {modes : Modes} {cs : List Char} {lexeme : Lexeme TokenKind} {length : Nat}
    {pieces : List (Piece TokenKind)} (found : modes.scan cs = .lexeme lexeme length)
    (fits : (Scan.lexeme lexeme length).Fits cs) (spells : Spells (modes.after lexeme.kind) pieces)
    (spelled : Piece.spelled pieces = cs.drop length) :
    Spells modes (⟨lexeme, String.ofList (cs.take length)⟩ :: pieces) ∧
      Piece.spelled (⟨lexeme, String.ofList (cs.take length)⟩ :: pieces) = cs := by
  obtain ⟨some, within⟩ := fits
  have filled : cs.take length ≠ [] := List.ne_nil_of_length_pos (by rw [List.length_take]; omega)
  have size : (String.ofList (cs.take length)).length = length := by
    rw [String.length_ofList, List.length_take, Nat.min_eq_left within]
  have whole : cs.take length ++ Piece.spelled pieces = cs := by
    rw [spelled, List.take_append_drop]
  refine ⟨.cons (fun empty => filled (String.ofList_eq_empty_iff.mp empty)) ?_ spells, ?_⟩
  · rw [String.toList_ofList, whole, size, found]
  · rw [Piece.spelled_cons, String.toList_ofList, whole]

/-- The lexer finds the pieces that it has cut a source into. -/
theorem spells_of_run {modes : Modes} {cursor : Cursor} {ts : List (Token TokenKind)}
    (run : lexRule.Run modes cursor (.ok ts)) :
    Spells modes (ts.map Token.piece) ∧ Piece.spelled (ts.map Token.piece) = cursor.rest := by
  generalize answer : Except.ok ts = result at run
  induction run generalizing ts with
  | finish ended =>
    cases answer
    exact ⟨.nil, ended.symm⟩
  | fail => cases answer
  | @token modes cursor token modes' cursor' result more step rest ih =>
    cases result with
    | error e => cases answer
    | ok others =>
      cases answer
      obtain ⟨spells, spelled⟩ := ih rfl
      obtain ⟨length, fits, found, text, rfl, rfl⟩ := lexRule_step more step
      rw [Cursor.rest_advanceBy] at spelled
      rw [List.map_cons, Token.piece, text]
      exact Spells.of_scan found fits spells spelled

/-- The tokens of a source spell it, and would be found again in this order. -/
theorem tokenize_spells {source : String} {ts : List (Token TokenKind)}
    (run : tokenize source = .ok ts) :
    Spells {} (ts.map Token.piece) ∧ Piece.spelled (ts.map Token.piece) = source.toList := by
  have whole := LexRule.tokenize_run lexRule source
  rw [show lexRule.tokenize source = .ok ts from run] at whole
  exact spells_of_run whole

/-- A comment that was opened with slash-star and goes on to the end. -/
def Modes.Hangs (modes : Modes) (kinds : List TokenKind) : Prop :=
  modes.comment = some .block ∧ (kinds = [] ∨ kinds = [.commentText])

theorem Modes.comment_after {modes : Modes} {kind : TokenKind}
    (pending : (modes.after kind).comment = some .block) : kind = .slashAsterisk := by
  unfold Modes.after at pending
  split at pending <;> first | rfl | cases pending

/-- A line feed as a token of its own. -/
def newLine : Piece TokenKind := ⟨⟨.lineBreak, some .whiteSpace⟩, "\n"⟩

/-- A line break at code is always a token of its own, even behind the opener of a comment of one
line, whose text is then empty. -/
theorem newLine_scan {modes : Modes} (code : modes.stack = []) (noBlock : modes.comment ≠ some .block)
    (cs : List Char) : modes.scan ('\n' :: cs) = .lexeme newLine.toLexeme 1 := by
  obtain ⟨stack, comment⟩ := modes
  obtain rfl : stack = [] := code
  rcases comment with _ | _ | _
  · rfl
  · exact absurd rfl noBlock
  · rfl

/-- The first of some pieces is found as well when more pieces follow them, if these begin
with a character that stops it; a text that comes last could go on behind that. -/
theorem Spells.scan_append {modes : Modes} {x : Piece TokenKind}
    {pieces more : List (Piece TokenKind)} {stop : Char} {rest : List Char}
    (spells : Spells modes (x :: pieces)) (stops : Stops stop)
    (begins : Piece.spelled more = stop :: rest)
    (last : pieces = [] → (modes.region = .template → x.kind ≠ .templateText) ∧
      ∀ style, modes.comment = some style → x.kind = .commentText → style = .line ∧ stop = '\n') :
    modes.scan (x.text.toList ++ Piece.spelled (pieces ++ more)) =
      .lexeme x.toLexeme x.text.length := by
  cases spells with
  | cons filled scan behind =>
    have nonempty : x.text.toList ≠ [] := fun empty => filled (String.toList_eq_nil_iff.mp empty)
    obtain ⟨c, cs, front⟩ : ∃ c cs, x.text.toList ++ Piece.spelled pieces = c :: cs :=
      List.exists_cons_of_ne_nil (List.append_ne_nil_of_left_ne_nil nonempty _)
    rw [Piece.spelled_append, ← List.append_assoc, front, begins]
    rw [front] at scan
    refine Modes.scan_append stops scan ?_
    rw [← front, List.length_append, String.length_toList]
    cases behind with
    | nil => exact Or.inr (last rfl)
    | cons filled' =>
      rw [Piece.spelled_cons, List.length_append]
      have := List.length_pos_iff.mpr fun empty => filled' (String.toList_eq_nil_iff.mp empty)
      exact Or.inl (by omega)

/-- No text of a template comes last where the lexer is in code at the end. -/
theorem Modes.not_text_of_code {modes : Modes} {kind : TokenKind}
    (code : (modes.after kind).stack = []) (inside : modes.region = .template) :
    kind ≠ .templateText := by
  rintro rfl
  rw [Modes.after_text inside] at code
  rw [Modes.region, code] at inside
  cases inside

/-- When a new line follows, the lexer finds the same pieces, if it was in code at the end
and no comment hangs; and behind the new line it starts anew. -/
theorem Spells.newLine {modes : Modes} {pieces more : List (Piece TokenKind)}
    (spells : Spells modes pieces)
    (code : ((pieces.map (·.kind)).foldl Modes.after modes).stack = [])
    (closed : ∀ before after, pieces.map (·.kind) = before ++ after →
      ¬ (before.foldl Modes.after modes).Hangs after)
    (others : Spells {} more) : Spells modes (pieces ++ Script.newLine :: more) := by
  induction spells with
  | @nil modes =>
    have noBlock : modes.comment ≠ some .block := fun pending =>
      closed [] [] rfl ⟨pending, Or.inl rfl⟩
    refine .cons (by decide) (newLine_scan code noBlock _) ?_
    obtain ⟨stack, comment⟩ := modes
    obtain rfl : stack = [] := code
    exact others
  | @cons modes x pieces filled scan rest ih =>
    refine .cons filled ((Spells.cons filled scan rest).scan_append stops_lineFeed rfl ?_)
      (ih code fun before after split => ?_)
    · rintro rfl
      refine ⟨Modes.not_text_of_code code, fun style pending isText => ?_⟩
      cases style with
      | line => exact ⟨rfl, rfl⟩
      | block => exact absurd ⟨pending, Or.inr (by rw [isText])⟩ (closed [] [x.kind] rfl)
    · exact closed (x.kind :: before) after (by rw [List.map_cons, split]; rfl)

/-- Pieces that spell a text are pieces that the lexer can find. -/
theorem Spells.listed {modes : Modes} {pieces : List (Piece TokenKind)}
    (spells : Spells modes pieces) : ∀ x ∈ pieces, Lexeme.Listed x.toLexeme := by
  induction spells with
  | nil => exact List.forall_mem_nil _
  | @cons modes x pieces filled scan rest ih =>
    have listed := modes.scan_listed (x.text.toList ++ Piece.spelled pieces)
    rw [scan] at listed
    exact List.forall_mem_cons.mpr ⟨listed, ih⟩

/-- The opener of a comment has no tag. -/
theorem Lexeme.Listed.opener {lexeme : Lexeme TokenKind} (listed : Lexeme.Listed lexeme)
    (ofKind : lexeme.kind = .slashAsterisk) : lexeme = ⟨.slashAsterisk, none⟩ := by
  cases listed with
  | plain plain => rw [← ofKind]
  | word text =>
    exact absurd ofKind (wordKind_induct (· ≠ .slashAsterisk) (by decide) (by decide) text)
  | punctuator member =>
    have all : ∀ entry ∈ punctuators, entry.2.kind = .slashAsterisk →
        entry.2 = ⟨.slashAsterisk, none⟩ := by decide
    exact all _ member ofKind

/-- A comment that hangs at the end of some tokens is not closed in them. -/
theorem unclosed_of_hangs {ts : List (Token TokenKind)} {before after : List TokenKind}
    (listed : ∀ token ∈ ts, Lexeme.Listed token.toLexeme)
    (split : ts.map (·.kind) = before ++ after)
    (hangs : (before.foldl Modes.after {}).Hangs after) : Unclosed ts := by
  obtain ⟨pending, short⟩ := hangs
  rcases List.eq_nil_or_concat' before with rfl | ⟨front, last, rfl⟩
  · cases pending
  rw [List.foldl_append] at pending
  obtain rfl : last = .slashAsterisk := Modes.comment_after pending
  rw [List.append_assoc] at split
  obtain ⟨earlier, later, rfl, -, behind⟩ := List.map_eq_append_iff.mp split
  obtain ⟨opener, rest, rfl, ofKind, same⟩ := List.map_eq_cons_iff.mp behind
  have ofOpener := (listed opener (by simp)).opener ofKind
  refine .of_append ?_ earlier
  rcases short with rfl | rfl
  · obtain rfl := List.map_eq_nil_iff.mp same
    exact .opener ofOpener
  · obtain ⟨text, others, rfl, ofText, none⟩ := List.map_eq_cons_iff.mp same
    obtain rfl := List.map_eq_nil_iff.mp none
    exact .text ofOpener ofText

/-- A semicolon as a token. -/
def semicolon : Piece TokenKind := ⟨⟨.semicolon, none⟩, ";"⟩

/-- Two sources of which the first one leaves nothing open are cut into their own tokens
when the second one is written behind the first one, with a new line and a semicolon
between them. -/
theorem tokenize_append {first second : String} {ts₁ ts₂ : List (Token TokenKind)}
    (run₁ : tokenize first = .ok ts₁) (run₂ : tokenize second = .ok ts₂)
    (delimited : Delimited .code (ts₁.map (·.kind))) (closed : ¬ Unclosed ts₁) :
    ∃ ts, tokenize (first ++ "\n;" ++ second) = .ok ts ∧
      ts.map Token.piece =
        ts₁.map Token.piece ++ newLine :: semicolon :: ts₂.map Token.piece := by
  obtain ⟨spells₁, spelled₁⟩ := tokenize_spells run₁
  obtain ⟨spells₂, spelled₂⟩ := tokenize_spells run₂
  have kinds : (ts₁.map Token.piece).map (·.kind) = ts₁.map (·.kind) := List.map_map
  have listed : ∀ token ∈ ts₁, Lexeme.Listed token.toLexeme := fun token member =>
    spells₁.listed _ (List.mem_map_of_mem member)
  have behind : Spells {} (semicolon :: ts₂.map Token.piece) :=
    .cons (by decide) rfl spells₂
  refine Spells.tokenize (spells₁.newLine ?_ (fun before after split hangs => ?_) behind) ?_
  · rw [kinds]
    exact delimited.modes_after rfl
  · exact closed (unclosed_of_hangs listed (kinds ▸ split) hangs)
  · rw [Piece.spelled_append, spelled₁, Piece.spelled_cons, Piece.spelled_cons, spelled₂]
    simp [newLine, semicolon]

end Sources

end ScriptFront.Script
