import ScriptFront.Proofs.Composition.Lexing

namespace ScriptFront.Script

section Taking

variable {cs : List Char} {lexeme : Lexeme TokenKind} {length n : Nat}

/-- Cutting a text behind the front that passes a test leaves this front as it is. -/
theorem take_takeWhile {test : Char → Bool} (within : (cs.takeWhile test).length ≤ n) :
    (cs.take n).takeWhile test = cs.takeWhile test := by
  induction cs generalizing n with
  | nil => simp
  | cons c cs ih =>
    by_cases goesOn : test c = true
    · rw [List.takeWhile_cons_of_pos goesOn, List.length_cons] at within
      obtain ⟨n, rfl⟩ : ∃ m, n = m + 1 := ⟨n - 1, by omega⟩
      rw [List.take_succ_cons, List.takeWhile_cons_of_pos goesOn, List.takeWhile_cons_of_pos goesOn,
        ih (by omega)]
    · cases n with
      | zero => rw [List.takeWhile_cons_of_neg goesOn, List.take_zero, List.takeWhile_nil]
      | succ n => rw [List.take_succ_cons, List.takeWhile_cons_of_neg goesOn,
          List.takeWhile_cons_of_neg goesOn]

/-- A string is found again in the text cut off behind its closing quote. -/
theorem scanString_take {quote : Char} (found : scanString quote cs = .lexeme lexeme length)
    (within : length ≤ n) : scanString quote (cs.take n) = .lexeme lexeme length := by
  fun_induction scanString quote cs generalizing length n with
  | case1 => cases found
  | case2 cs =>
    cases found
    obtain ⟨n, rfl⟩ : ∃ m, n = m + 1 := ⟨n - 1, by omega⟩
    rw [List.take_succ_cons]
    unfold scanString
    exact if_pos rfl
  | case3 => cases found
  | case4 escaped cs notQuote ih =>
    obtain ⟨shorter, inner, rfl⟩ := Scan.lexeme_of_later found
    obtain ⟨n, rfl⟩ : ∃ m, n = m + 2 := ⟨n - 2, by omega⟩
    rw [List.take_succ_cons, List.take_succ_cons]
    unfold scanString
    rw [if_neg notQuote, if_pos rfl]
    dsimp only
    rw [ih inner (by omega)]
    rfl
  | case5 c cs notQuote notSlash ih =>
    obtain ⟨shorter, inner, rfl⟩ := Scan.lexeme_of_later found
    obtain ⟨n, rfl⟩ : ∃ m, n = m + 1 := ⟨n - 1, by omega⟩
    rw [List.take_succ_cons]
    unfold scanString
    rw [if_neg notQuote, if_neg notSlash, ih inner (by omega)]
    rfl

/-- The first punctuator that fits some characters still fits when they are cut off behind
it, and those in front of it in the list, which did not fit before, do not fit then. -/
theorem scanPunctuator_take (found : scanPunctuator cs = .lexeme lexeme length)
    (within : length ≤ n) : scanPunctuator (cs.take n) = .lexeme lexeme length := by
  have fits (text : List Char) : text.isPrefixOf (cs.take n) = true ↔
      text.isPrefixOf cs = true ∧ text.length ≤ n := by
    rw [List.isPrefixOf_iff_prefix, List.isPrefixOf_iff_prefix, List.prefix_take_iff]
  unfold scanPunctuator at found ⊢
  cases first : punctuators.find? fun entry => entry.1.toList.isPrefixOf cs with
  | none =>
    have none : punctuators.find? (fun entry => entry.1.toList.isPrefixOf (cs.take n)) = none := by
      rw [List.find?_eq_none] at first ⊢
      exact fun entry listed fit => first entry listed ((fits _).mp fit).1
    rw [first] at found
    rw [none]
    exact found
  | some entry =>
    rw [first] at found
    obtain ⟨rfl, rfl⟩ := Scan.lexeme.inj found
    obtain ⟨fit, before, after, split, others⟩ := List.find?_eq_some_iff_append.mp first
    have same : punctuators.find? (fun entry => entry.1.toList.isPrefixOf (cs.take n)) =
        some entry := by
      refine List.find?_eq_some_iff_append.mpr
        ⟨(fits _).mpr ⟨fit, by rwa [String.length_toList]⟩, before, after, split, ?_⟩
      intro other listed
      have misfit := others other listed
      rw [Bool.not_eq_true'] at misfit ⊢
      rw [Bool.eq_false_iff] at misfit ⊢
      exact fun fit => misfit ((fits _).mp fit).1
    rw [same]

/-- A token of code is found as well when the characters are cut off somewhere behind it. -/
theorem scanCode_take {c : Char} (found : scanCode (c :: cs) = .lexeme lexeme length)
    (within : length ≤ n) : scanCode ((c :: cs).take n) = .lexeme lexeme length := by
  have fits := scanCode_fits c cs
  rw [found] at fits
  obtain ⟨n, rfl⟩ : ∃ m, n = m + 1 := ⟨n - 1, by have := fits.1; omega⟩
  have punctuator : scanPunctuator (c :: cs) = .lexeme lexeme length →
      scanPunctuator (c :: cs.take n) = .lexeme lexeme length :=
    fun found => scanPunctuator_take found within
  rw [scanCode] at found
  rw [List.take_succ_cons, scanCode]
  by_cases isQuote : c = '"' ∨ c = '\''
  · rw [if_pos isQuote] at found ⊢
    obtain ⟨shorter, inner, rfl⟩ := Scan.lexeme_of_later found
    rw [scanString_take inner (by omega)]
    rfl
  rw [if_neg isQuote] at found ⊢
  by_cases opens : c = '$' ∧ cs.head? = some '\x7b'
  · rw [if_pos opens] at found
    obtain ⟨rfl, rfl⟩ := Scan.lexeme.inj found
    have opens' : c = '$' ∧ (cs.take n).head? = some '\x7b' := by
      rw [List.head?_take, if_neg (by omega)]
      exact opens
    rw [if_pos opens']
    rfl
  have noOpening : ¬ (c = '$' ∧ (cs.take n).head? = some '\x7b') := by
    rintro ⟨dollar, brace⟩
    rw [List.head?_take] at brace
    split at brace
    · cases brace
    · exact opens ⟨dollar, brace⟩
  rw [if_neg opens] at found
  rw [if_neg noOpening]
  split at found
  · rename_i starts
    obtain ⟨rfl, rfl⟩ := Scan.lexeme.inj found
    rw [if_pos starts, take_takeWhile (by simpa using within)]
  rename_i noWord
  rw [if_neg noWord]
  split at found
  · rename_i digit
    obtain ⟨rfl, rfl⟩ := Scan.lexeme.inj found
    rw [if_pos digit, take_takeWhile (by simpa using within)]
    rfl
  · rename_i noDigit
    rw [if_neg noDigit]
    exact punctuator found

end Taking

/-- The kinds of tokens that are no code: what they are shows from where they stand alone. -/
def textKinds : List TokenKind := [.templateText, .commentText]

section Contexts

variable {modes : Modes} {c : Char} {cs : List Char} {lexeme : Lexeme TokenKind} {length : Nat}

/-- The two tokens that begin something inside a template are found in code too, with the same kind
and length. -/
theorem scanCode_of_scanTemplate (found : scanTemplate (c :: cs) = .lexeme lexeme length)
    (noText : lexeme.kind ∉ textKinds) : scanCode (c :: cs) = .lexeme lexeme length := by
  unfold scanTemplate at found
  split at found
  · rename_i quote
    obtain rfl : c = '\x60' := Option.some.inj quote
    rw [← found]
    rfl
  split at found
  · rename_i opens
    obtain ⟨rest, ahead⟩ : ['$', '\x7b'] <+: c :: cs := List.isPrefixOf_iff_prefix.mp opens
    rw [← ahead, ← found]
    rfl
  · obtain ⟨rfl, -⟩ := Scan.lexeme.inj found
    exact absurd (by decide) noText

/-- Whatever the characters belong to, what is found at their front and is no text is what
ordinary code has there. -/
theorem Modes.scanCode_of_scan (found : modes.scan (c :: cs) = .lexeme lexeme length)
    (noText : lexeme.kind ∉ textKinds) : scanCode (c :: cs) = .lexeme lexeme length := by
  revert found
  refine Modes.scan_induct (P := fun scan => scan = .lexeme lexeme length → _)
    (fun style _ _ found => ?_) (fun _ _ found => ?_) fun _ => id
  · obtain ⟨rfl, -⟩ := Scan.lexeme.inj found
    exact absurd (by decide) noText
  · exact scanCode_of_scanTemplate found noText

end Contexts

section Sources

variable {source : String} {ts : List (Token TokenKind)} {token : Token TokenKind}

/-- What the lexer saw when it made a token: its lexeme at the front of the characters from its
place on, and its text there. The modes are kept, since the same characters may be read in several
ways. -/
structure ReadIn (source : String) (token : Token TokenKind) (modes : Modes) : Prop where
  more : source.toList.drop token.span.start.offset ≠ []
  scan : modes.scan (source.toList.drop token.span.start.offset) =
    .lexeme token.toLexeme token.text.length
  front : token.text.toList <+: source.toList.drop token.span.start.offset

/-- Each token of a run was read in some modes at the characters it stands in. -/
theorem reach_readIn {modes : Modes} {cursor : Cursor}
    (reach : lexRule.Reach source ts modes cursor) : ∀ token ∈ ts, ∃ modes, ReadIn source token modes := by
  induction reach with
  | start => exact List.forall_mem_nil _
  | @next ts modes cursor token modes' cursor' previous more step ih =>
    refine List.forall_mem_append.mpr ⟨ih, List.forall_mem_singleton.mpr ⟨modes, ?_⟩⟩
    obtain ⟨-, -, -, -, -, -, span⟩ := LexRule.step_ok more step
    obtain ⟨whole, place⟩ := previous.split
    have ahead : source.toList.drop token.span.start.offset = cursor.rest := by
      rw [span, place, ← whole]
      exact List.drop_left
    obtain ⟨length, ⟨some, within⟩, found, text, -, -⟩ := lexRule_step more step
    have size : token.text.length = length := by
      rw [text, String.length_ofList, List.length_take, Nat.min_eq_left within]
    refine ⟨ahead ▸ more, ?_, ?_⟩
    · rw [ahead, found, size]
    · rw [ahead, text, String.toList_ofList]
      exact List.take_prefix _ _

end Sources

section Alone

variable {c : Char} {cs : List Char} {lexeme : Lexeme TokenKind} {front : String}

/-- A source that begins like some code and holds its first token begins with that token. -/
theorem scan_front {length : Nat} (found : scanCode (c :: cs) = .lexeme lexeme length)
    (begins : front.toList <+: c :: cs) (within : length ≤ front.length) :
    Modes.scan {} front.toList = .lexeme lexeme length := by
  have cut : (c :: cs).take front.length = front.toList := by
    rw [← String.length_toList]
    exact (List.prefix_iff_eq_take.mp begins).symm
  rw [← cut]
  exact scanCode_take found within

/-- A token of code that stands alone is the same token. -/
theorem tokenize_alone (found : scanCode (c :: cs) = .lexeme lexeme front.length)
    (begins : front.toList <+: c :: cs) :
    ∃ one, tokenize front = .ok [one] ∧ one.toLexeme = lexeme := by
  have fits := scanCode_fits c cs
  rw [found] at fits
  have filled : front ≠ "" := by
    rintro rfl
    exact absurd fits.1 (by decide)
  have scan := scan_front found begins (Nat.le_refl _)
  have spells : Spells {} [⟨lexeme, front⟩] := .cons filled (by simpa using scan) .nil
  have spelled : front.toList = Piece.spelled [⟨lexeme, front⟩] := by simp
  obtain ⟨ts, run, same⟩ := spells.tokenize spelled
  obtain ⟨one, others, rfl, ofOne, rest⟩ := List.map_eq_cons_iff.mp same
  obtain rfl := List.map_eq_nil_iff.mp rest
  exact ⟨one, run, congrArg Piece.toLexeme ofOne⟩

/-- Behind the first token something follows, and that is no part of it. -/
theorem length_of_alone {length : Nat} {one : Token TokenKind}
    (found : scanCode (c :: cs) = .lexeme lexeme length) (begins : front.toList <+: c :: cs)
    (within : length ≤ front.length) (run : tokenize front = .ok [one]) :
    front.length = length := by
  obtain ⟨spells, spelled⟩ := tokenize_spells run
  have text : one.text = front := by
    rw [← String.toList_inj, ← spelled]
    simp [Token.piece]
  cases spells with
  | cons _ scan _ =>
    have whole : Modes.scan {} front.toList = .lexeme one.toLexeme front.length := by
      simpa [Token.piece, text] using scan
    rw [scan_front found begins within] at whole
    exact (Scan.lexeme.inj whole).2.symm

end Alone

/-- A token is the longest one that stands at its place: its text is a token of the same
kind and tag when it is a source of its own, and no longer piece of the source from there on
is a single token. -/
structure Longest (source : String) (token : Token TokenKind) : Prop where
  front : token.text.toList <+: source.toList.drop token.span.start.offset
  alone : ∃ one, tokenize token.text = .ok [one] ∧ one.kind = token.kind ∧ one.tag = token.tag
  longest : ∀ piece : String, piece.toList <+: source.toList.drop token.span.start.offset →
    ∀ one, tokenize piece = .ok [one] → piece.length ≤ token.text.length

/-- Every token but the text of templates and comments is as long as a token can be at its
place, and is the token that the lexer finds when it starts there anew: what stands before
it and behind it, and the templates around it, make no difference. -/
theorem tokenize_longest {source : String} {ts : List (Token TokenKind)}
    (run : tokenize source = .ok ts) :
    ∀ token ∈ ts, token.kind ≠ .templateText → token.kind ≠ .commentText →
      Longest source token := by
  obtain ⟨modes, cursor, reach, -⟩ := (LexRule.tokenize_run lexRule source).reaches .start run
  intro token member noTemplate noComment
  obtain ⟨modes, read⟩ := reach_readIn reach token member
  obtain ⟨c, cs, ahead⟩ := List.exists_cons_of_ne_nil read.more
  have scan := read.scan
  have front := read.front
  rw [ahead] at scan front
  have found := Modes.scanCode_of_scan scan (by simp [textKinds, noTemplate, noComment])
  refine ⟨read.front, ?_, ?_⟩
  · obtain ⟨one, alone, same⟩ := tokenize_alone found front
    exact ⟨one, alone, congrArg (·.kind) same, congrArg (·.tag) same⟩
  · rw [ahead]
    intro piece begins one alone
    by_contra longer
    have whole := length_of_alone found begins (by omega) alone
    omega

/-- Two dots in an interpolation are two tokens, since only three make a spread. -/
theorem tokenize_longest_neighbours : ∃ ts, tokenize "\x60$\x7ba/b..c\x7d\x60" = .ok ts ∧
    ∃ token ∈ ts, token.kind = .period ∧ token.kind ≠ .templateText ∧ token.kind ≠ .commentText ∧
      Longest "\x60$\x7ba/b..c\x7d\x60" token := by
  have listed : (tokenize "\x60$\x7ba/b..c\x7d\x60").map (·.map (·.kind)) =
      .ok [.backQuote, .openTemplate, .identifier, .slash, .identifier, .period, .period,
        .identifier, .closeBrace, .backQuote] := by decide +kernel
  cases run : tokenize "\x60$\x7ba/b..c\x7d\x60" with
  | error e =>
    rw [run] at listed
    cases listed
  | ok ts =>
    rw [run] at listed
    have kinds : TokenKind.period ∈ ts.map (·.kind) := by
      rw [show ts.map (·.kind) = _ from Except.ok.inj listed]
      decide
    obtain ⟨token, member, ofKind⟩ := List.mem_map.mp kinds
    have noText : token.kind ≠ .templateText ∧ token.kind ≠ .commentText := by
      rw [ofKind]
      decide
    exact ⟨ts, rfl, token, member, ofKind, noText.1, noText.2,
      tokenize_longest run token member noText.1 noText.2⟩

end ScriptFront.Script
