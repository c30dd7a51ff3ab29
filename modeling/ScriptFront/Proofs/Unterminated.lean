import ScriptFront.Proofs.Munch
import ScriptFront.Proofs.RoundTrip.Written

namespace ScriptFront.Script

section Taking

variable {cs : List Char} {n : Nat}

/-- Template text ends as well where the characters are cut off behind it, unless the cut
is inside the opening of the next interpolation. -/
theorem templateTextLength_take (within : templateTextLength cs ≤ n) (clear : cs[n]? ≠ some '\x7b') :
    templateTextLength (cs.take n) = templateTextLength cs := by
  fun_induction templateTextLength cs generalizing n with
  | case1 => rw [List.take_nil, templateTextLength]
  | case2 c cs stops =>
    cases n with
    | zero => rw [List.take_zero, templateTextLength]
    | succ n =>
      have stops' : c = '\x60' ∨ c = '$' ∧ (cs.take n).head? = some '\x7b' := by
        refine stops.imp_right fun ⟨dollar, brace⟩ => ⟨dollar, ?_⟩
        cases n with
        | zero => exact absurd (by simpa [List.head?_eq_getElem?] using brace) clear
        | succ n => rwa [List.head?_take, if_neg (Nat.succ_ne_zero n)]
      rw [List.take_succ_cons]
      unfold templateTextLength
      rw [if_pos stops']
  | case3 goesOn =>
    obtain ⟨n, rfl⟩ : ∃ m, n = m + 1 := ⟨n - 1, by omega⟩
    rw [List.take_succ_cons, List.take_nil]
    rfl
  | case4 escaped cs goesOn ih =>
    obtain ⟨n, rfl⟩ : ∃ m, n = m + 2 := ⟨n - 2, by omega⟩
    rw [List.take_succ_cons, List.take_succ_cons]
    conv_lhs => unfold templateTextLength
    rw [if_neg (by simp), if_pos rfl]
    dsimp only
    rw [ih (by omega) (by simpa using clear)]
  | case5 c cs goesOn noEscape ih =>
    obtain ⟨n, rfl⟩ : ∃ m, n = m + 1 := ⟨n - 1, by omega⟩
    have goesOn' : ¬ (c = '\x60' ∨ c = '$' ∧ (cs.take n).head? = some '\x7b') := by
      rintro (quote | ⟨dollar, brace⟩)
      · exact goesOn (.inl quote)
      · rw [List.head?_take] at brace
        split at brace
        · cases brace
        · exact goesOn (.inr ⟨dollar, brace⟩)
    rw [List.take_succ_cons]
    conv_lhs => unfold templateTextLength
    rw [if_neg goesOn', if_neg noEscape, ih (by omega) (by simpa using clear)]

/-- So does the body of a comment, unless the cut is inside its end. -/
theorem CommentStyle.bodyLength_take (style : CommentStyle) (within : style.bodyLength cs ≤ n)
    (clear : cs[n]? ≠ some '/') : style.bodyLength (cs.take n) = style.bodyLength cs := by
  cases style with
  | line =>
    unfold bodyLength at within ⊢
    rw [take_takeWhile within]
  | block =>
    induction cs generalizing n with
    | nil => rw [List.take_nil]
    | cons c cs ih =>
      cases n with
      | zero =>
        rw [Nat.le_zero.mp within]
        rfl
      | succ n =>
        rw [List.take_succ_cons, bodyLength, bodyLength]
        rw [bodyLength] at within
        by_cases closes : c = '*' ∧ cs.head? = some '/'
        · have closes' : c = '*' ∧ (cs.take n).head? = some '/' := by
            refine ⟨closes.1, ?_⟩
            cases n with
            | zero => exact absurd (by simpa [List.head?_eq_getElem?] using closes.2) clear
            | succ n =>
              rw [List.head?_take, if_neg (Nat.succ_ne_zero n)]
              exact closes.2
          rw [if_pos closes, if_pos closes']
        · have goesOn : ¬ (c = '*' ∧ (cs.take n).head? = some '/') := by
            rintro ⟨star, slash⟩
            rw [List.head?_take] at slash
            split at slash
            · cases slash
            · exact closes ⟨star, slash⟩
          rw [if_neg closes] at within ⊢
          rw [if_neg goesOn, ih (by simpa using clear) (by omega)]

variable {c : Char} {lexeme : Lexeme TokenKind} {length : Nat}

/-- A token of a template is found again in the text cut off behind it. The cut must not fall
between the two characters that open an interpolation. -/
theorem scanTemplate_take (found : scanTemplate (c :: cs) = .lexeme lexeme length)
    (within : length ≤ n) (clear : (c :: cs)[n]? ≠ some '\x7b') :
    scanTemplate ((c :: cs).take n) = .lexeme lexeme length := by
  have fits := scanTemplate_fits c cs
  rw [found] at fits
  have some : n ≠ 0 := by
    have := fits.1
    omega
  unfold scanTemplate at found ⊢
  rw [List.head?_take, if_neg some]
  split at found
  · rename_i quote
    rwa [if_pos quote]
  rename_i noQuote
  rw [if_neg noQuote]
  have opening : ['$', '\x7b'].isPrefixOf ((c :: cs).take n) = true ↔
      ['$', '\x7b'].isPrefixOf (c :: cs) = true ∧ 2 ≤ n := by
    rw [List.isPrefixOf_iff_prefix, List.isPrefixOf_iff_prefix, List.prefix_take_iff]
    rfl
  split at found
  · rename_i opens
    obtain ⟨rfl, rfl⟩ := Scan.lexeme.inj found
    rw [if_pos (opening.mpr ⟨opens, within⟩)]
    rfl
  · rename_i noOpening
    obtain ⟨rfl, rfl⟩ := Scan.lexeme.inj found
    rw [if_neg fun opens => noOpening (opening.mp opens).1, templateTextLength_take within clear]
    rfl

/-- What is found at the front of some characters is found there as well when they are cut
off behind it, unless the cut tears one of the two pairs that end text. -/
theorem Modes.scan_take {modes : Modes} (found : modes.scan (c :: cs) = .lexeme lexeme length)
    (within : length ≤ n) (noBrace : (c :: cs)[n]? ≠ some '\x7b')
    (noSlash : (c :: cs)[n]? ≠ some '/') :
    modes.scan ((c :: cs).take n) = .lexeme lexeme length := by
  have behind (found : modes.scanBehindComment (c :: cs) = .lexeme lexeme length) :
      modes.scanBehindComment ((c :: cs).take n) = .lexeme lexeme length := by
    unfold scanBehindComment at found ⊢
    split at found
    · exact scanTemplate_take found within noBrace
    · exact scanCode_take found within
  unfold scan at found ⊢
  split at found
  · exact behind found
  · rename_i style _
    have body : style.bodyLength ((c :: cs).take n) = style.bodyLength (c :: cs) := by
      refine style.bodyLength_take ?_ noSlash
      split at found
      · rename_i empty
        omega
      · obtain ⟨-, rfl⟩ := Scan.lexeme.inj found
        exact within
    rw [body]
    split at found
    · exact behind found
    · exact found

end Taking

section Strings

/-- A string that is open in what follows was open there already. -/
theorem Scan.unterminated_of_later {scan : Scan} {n : Nat} (found : scan.later n = .unterminated) :
    scan = .unterminated := by
  cases scan with
  | lexeme lexeme length => cases found
  | unterminated => rfl
  | escapeAtEnd before => cases found

/-- A backslash at the end is found in what follows, so many characters earlier as were counted in.
-/
theorem Scan.escapeAtEnd_of_later {scan : Scan} {n before : Nat}
    (found : scan.later n = .escapeAtEnd before) :
    ∃ fewer, scan = .escapeAtEnd fewer ∧ before = fewer + n := by
  cases scan with
  | lexeme lexeme length => cases found
  | unterminated => cases found
  | escapeAtEnd fewer =>
    cases found
    exact ⟨fewer, rfl, rfl⟩

variable {quote : Char} {cs : List Char} {before : Nat}

/-- Where no closing quote is found, the characters are units of a string up to the end. -/
theorem scanString_unterminated (found : scanString quote cs = .unterminated) :
    ∃ units : List (StringUnit quote), cs = units.flatMap (·.chars) := by
  fun_induction scanString quote cs with
  | case1 => exact ⟨[], rfl⟩
  | case2 => cases found
  | case3 => cases found
  | case4 escaped cs _ ih =>
    obtain ⟨units, rfl⟩ := ih (Scan.unterminated_of_later found)
    exact ⟨.escape escaped :: units, rfl⟩
  | case5 c cs notQuote notSlash ih =>
    obtain ⟨units, rfl⟩ := ih (Scan.unterminated_of_later found)
    exact ⟨.plain c notQuote notSlash :: units, rfl⟩

/-- Where only a backslash is missing its character, units of a string stand before it. -/
theorem scanString_escapeAtEnd (found : scanString quote cs = .escapeAtEnd before) :
    ∃ units : List (StringUnit quote), cs = units.flatMap (·.chars) ++ ['\\'] ∧
      (units.flatMap (·.chars)).length = before := by
  fun_induction scanString quote cs generalizing before with
  | case1 => cases found
  | case2 => cases found
  | case3 =>
    obtain rfl := Scan.escapeAtEnd.inj found
    exact ⟨[], rfl, rfl⟩
  | case4 escaped cs _ ih =>
    obtain ⟨fewer, inner, rfl⟩ := Scan.escapeAtEnd_of_later found
    obtain ⟨units, rfl, rfl⟩ := ih inner
    exact ⟨.escape escaped :: units, rfl, rfl⟩
  | case5 c cs notQuote notSlash ih =>
    obtain ⟨fewer, inner, rfl⟩ := Scan.escapeAtEnd_of_later found
    obtain ⟨units, rfl, rfl⟩ := ih inner
    exact ⟨.plain c notQuote notSlash :: units, rfl, by simp⟩

end Strings

/-- Where the scanner finds no lexeme it is at a quote, in whatever modes. -/
theorem Modes.scan_failed {modes : Modes} {c : Char} {cs : List Char} {failure : Scan}
    (found : modes.scan (c :: cs) = failure)
    (failed : ∀ lexeme length, failure ≠ .lexeme lexeme length) :
    (c = '"' ∨ c = '\'') ∧ (scanString c cs).later 1 = failure := by
  have behind (found : modes.scanBehindComment (c :: cs) = failure) :
      (c = '"' ∨ c = '\'') ∧ (scanString c cs).later 1 = failure := by
    have lexeme {l : Lexeme TokenKind} {length : Nat} (found : Scan.lexeme l length = failure)
        {P : Prop} : P :=
      absurd found.symm (failed l length)
    unfold scanBehindComment at found
    split at found
    · unfold scanTemplate at found
      split at found
      · exact lexeme found
      · split at found <;> exact lexeme found
    · rw [scanCode] at found
      split at found
      · rename_i isQuote
        exact ⟨isQuote, found⟩
      split at found
      · exact lexeme found
      split at found
      · exact lexeme found
      split at found
      · exact lexeme found
      · unfold scanPunctuator at found
        split at found <;> exact lexeme found
  unfold scan at found
  split at found
  · exact behind found
  · split at found
    · exact behind found
    · exact absurd found.symm (failed _ _)

/-- A string without an end that is all there is behind some characters, and the error
that the lexer reports for it: between its quote and the end stand units of a string, and
perhaps a backslash that has no character to take with it. -/
inductive OpenString (before : List Char) : List Char → LexError → Prop
  | unterminated {quote : Char} (units : List (StringUnit quote)) : quote = '"' ∨ quote = '\'' →
      OpenString before (quote :: units.flatMap (·.chars)) (.unterminatedString (.behind before))
  | escapeAtEnd {quote : Char} (units : List (StringUnit quote)) : quote = '"' ∨ quote = '\'' →
      OpenString before (quote :: units.flatMap (·.chars) ++ ['\\'])
        (.escapeAtEnd (.behind (before ++ quote :: units.flatMap (·.chars))))

/-- The error at a place where the rule fails is one of a string without an end. -/
theorem openString_of_read {modes : Modes} {cursor : Cursor} {before : List Char} {e : LexError}
    {left : Modes × Cursor} (more : cursor.rest ≠ []) (place : cursor.position = .behind before)
    (read : lexRule.read (modes, cursor) = .error e left) : OpenString before cursor.rest e := by
  obtain ⟨-, failed⟩ := lexRule_error more read
  obtain ⟨c, cs, ahead⟩ := List.exists_cons_of_ne_nil more
  rw [ahead] at failed ⊢
  rcases failed with ⟨found, rfl⟩ | ⟨length, found, rfl⟩
  · obtain ⟨isQuote, inner⟩ := Modes.scan_failed found (by simp)
    obtain ⟨units, rfl⟩ := scanString_unterminated (Scan.unterminated_of_later inner)
    rw [place]
    exact .unterminated units isQuote
  · obtain ⟨isQuote, inner⟩ := Modes.scan_failed found (by simp)
    obtain ⟨fewer, behind, rfl⟩ := Scan.escapeAtEnd_of_later inner
    obtain ⟨units, rfl, size⟩ := scanString_escapeAtEnd behind
    have reached : (cursor.advanceBy (fewer + 1)).position =
        .behind (before ++ c :: units.flatMap (·.chars)) := by
      have front : (c :: (units.flatMap (·.chars) ++ ['\\'])).take (fewer + 1) =
          c :: units.flatMap (·.chars) := by
        rw [List.take_succ_cons, ← size, List.take_left]
      rw [Position.behind_append, ← place, ← front, ← ahead]
      rfl
    rw [reached]
    exact .escapeAtEnd units isQuote

/-- The place that the error tells is counted from the characters before it. -/
theorem OpenString.counted {source : String} {before after : List Char} {e : LexError}
    (opened : OpenString before after e) (whole : source.toList = before ++ after) :
    e.position.Counted source := by
  cases opened with
  | unterminated units =>
    exact Position.counted_behind ⟨_, whole.symm⟩
  | @escapeAtEnd quote units =>
    exact Position.counted_behind ⟨['\\'], by simp [whole]⟩

theorem OpenString.head {before after : List Char} {e : LexError}
    (opened : OpenString before after e) : after.head? = some '"' ∨ after.head? = some '\'' := by
  cases opened with
  | unterminated units isQuote => exact isQuote.imp (congrArg some) (congrArg some)
  | escapeAtEnd units isQuote => exact isQuote.imp (congrArg some) (congrArg some)

/-- What is found in front of such a string is found there as well without it: a quote ends
no pair of characters that the scanner looks for. -/
theorem OpenString.scan_before {modes : Modes} {before cut after : List Char} {e : LexError}
    {lexeme : Lexeme TokenKind} {length : Nat} (opened : OpenString before after e)
    (found : modes.scan (cut ++ after) = .lexeme lexeme length) (within : length ≤ cut.length)
    (more : cut ++ after ≠ []) : modes.scan cut = .lexeme lexeme length := by
  have atCut : (cut ++ after)[cut.length]? = after.head? := by
    rw [List.getElem?_append_right (Nat.le_refl _), Nat.sub_self, List.head?_eq_getElem?]
  have same : (cut ++ after).take cut.length = cut := List.take_left
  obtain ⟨c, cs, ahead⟩ := List.exists_cons_of_ne_nil more
  rw [← same]
  rw [ahead] at found atCut ⊢
  refine Modes.scan_take found within ?_ ?_ <;> rw [atCut] <;>
    rcases opened.head with quote | quote <;> rw [quote] <;> decide

/-- Up to the string that makes it fail, the lexer finds pieces that it finds as well when
the characters end there. -/
theorem spells_of_error {modes : Modes} {cursor : Cursor} {e : LexError}
    (run : lexRule.Run modes cursor (.error e)) {before : List Char}
    (place : cursor.position = .behind before) :
    ∃ pieces after, Spells modes pieces ∧ cursor.rest = Piece.spelled pieces ++ after ∧
      OpenString (before ++ Piece.spelled pieces) after e := by
  generalize answer : Except.error e = result at run
  induction run generalizing before with
  | finish => cases answer
  | @fail modes cursor e' left more failed =>
    cases answer
    refine ⟨[], cursor.rest, .nil, rfl, ?_⟩
    rw [Piece.spelled_nil, List.append_nil]
    exact openString_of_read more place (LexRule.step_error more failed)
  | @token modes cursor token modes' cursor' result more step rest ih =>
    cases result with
    | ok ts => cases answer
    | error e' =>
      cases answer
      obtain ⟨length, fits, found, -, rfl, rfl⟩ := lexRule_step more step
      have place' : (cursor.advanceBy length).position =
          .behind (before ++ cursor.rest.take length) := by
        rw [Position.behind_append, ← place]
        rfl
      obtain ⟨pieces, after, spells, others, opened⟩ := ih place' rfl
      rw [Cursor.rest_advanceBy] at others
      -- The text up to the string, cut off there: its first piece stays the same.
      generalize front : cursor.rest.take length ++ Piece.spelled pieces = cut
      have text : cursor.rest = cut ++ after := by
        rw [← front, List.append_assoc, ← others, List.take_append_drop]
      have size : (cursor.rest.take length).length = length := by
        rw [List.length_take, Nat.min_eq_left fits.2]
      have within : length ≤ cut.length := by
        rw [← front, List.length_append, size]
        exact Nat.le_add_right _ _
      have foundCut : modes.scan cut = .lexeme token.toLexeme length := by
        rw [text] at found more
        exact opened.scan_before found within more
      have behindFirst : Piece.spelled pieces = cut.drop length := by
        rw [← front, List.drop_append_of_le_length size.ge, List.drop_eq_nil_of_le size.le,
          List.nil_append]
      obtain ⟨spells', spelled⟩ := Spells.of_scan foundCut ⟨fits.1, within⟩ spells behindFirst
      refine ⟨_, after, spells', by rw [spelled]; exact text, ?_⟩
      rw [spelled, ← front, ← List.append_assoc]
      exact opened

/-- The lexer fails only at a string without an end. Such a string begins behind text that
is cut into tokens when it stands alone, and goes on to the end of the source; the error
tells where it begins, or where the backslash is that nothing follows. Line and column of
that place are those that counting gives. -/
theorem tokenize_error {source : String} {e : LexError} (failed : tokenize source = .error e) :
    e.position.Counted source ∧ ∃ before after, source.toList = before ++ after ∧
      (∃ ts, tokenize (String.ofList before) = .ok ts) ∧ OpenString before after e := by
  have whole := LexRule.tokenize_run lexRule source
  rw [show lexRule.tokenize source = .error e from failed] at whole
  have atStart : (Cursor.ofString source).position = .behind [] := rfl
  obtain ⟨pieces, after, spells, text, opened⟩ := spells_of_error whole atStart
  have front : (String.ofList (Piece.spelled pieces)).toList = Piece.spelled pieces :=
    String.toList_ofList
  obtain ⟨ts, run, -⟩ := spells.tokenize front
  exact ⟨opened.counted text, Piece.spelled pieces, after, text, ⟨ts, run⟩, opened⟩

/-- A quote in a comment opens no string, and one behind a template does. -/
theorem tokenize_error_template :
    tokenize "/* ' */ \x60$\x7ba\x7d\x60\n'b\\" = .error (.escapeAtEnd ⟨2, 3, 17⟩) ∧
      Position.Counted "/* ' */ \x60$\x7ba\x7d\x60\n'b\\" ⟨2, 3, 17⟩ ∧
      ∃ before after, "/* ' */ \x60$\x7ba\x7d\x60\n'b\\".toList = before ++ after ∧
        (∃ ts, tokenize (String.ofList before) = .ok ts) ∧
          OpenString before after (.escapeAtEnd ⟨2, 3, 17⟩) := by
  have failed : tokenize "/* ' */ \x60$\x7ba\x7d\x60\n'b\\" = .error (.escapeAtEnd ⟨2, 3, 17⟩) := by
    decide +kernel
  exact ⟨failed, tokenize_error failed⟩

end ScriptFront.Script
