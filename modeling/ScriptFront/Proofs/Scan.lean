import ScriptFront.Script.Read

/-!
What the lexer finds, as a function of the characters ahead: which lexeme stands at their front,
and how long it is. Nothing is said here of how a cursor gets there.
-/

namespace ScriptFront.Script

/-- What stands at the front of some characters: a lexeme of a given length, or a string that the
source ends in. No answer is that of a reader which asked for a character behind the end, so where a
reader is found to do what a scan tells, it never asked for one. -/
inductive Scan where
  | lexeme (lexeme : Lexeme TokenKind) (length : Nat)
  /-- No closing quote follows. -/
  | unterminated
  /-- The last character is a backslash with nothing behind it; `before` characters
  stand in front of it. -/
  | escapeAtEnd (before : Nat)
deriving DecidableEq, Repr

namespace Scan

/-- A lexeme without a tag. -/
def plain (kind : TokenKind) (length : Nat) : Scan := lexeme ⟨kind, none⟩ length

/-- The same finding, `n` characters further on. -/
def later (n : Nat) : Scan → Scan
  | lexeme l length => lexeme l (length + n)
  | unterminated => unterminated
  | escapeAtEnd before => escapeAtEnd (before + n)

/-- Only a lexeme is found as a lexeme further on, and it is the same one. -/
theorem lexeme_of_later {scan : Scan} {n length : Nat} {lexeme : Lexeme TokenKind}
    (found : scan.later n = .lexeme lexeme length) :
    ∃ shorter, scan = .lexeme lexeme shorter ∧ length = shorter + n := by
  cases scan with
  | lexeme inner shorter =>
    cases found
    exact ⟨shorter, rfl, rfl⟩
  | unterminated => cases found
  | escapeAtEnd before => cases found

end Scan

/-- Operators, punctuation and layout. Of two entries where one begins with the
other, the longer stands first, so that the first match is the longest. -/
def punctuators : List (String × Lexeme TokenKind) := [
  ("...", ⟨.spread, none⟩),
  (".", ⟨.period, none⟩),
  ("/*", ⟨.slashAsterisk, none⟩),
  ("//", ⟨.doubleSlash, none⟩),
  ("/=", ⟨.slashEquals, some .operator⟩),
  ("/", ⟨.slash, some .operator⟩),
  ("?.", ⟨.optionalChain, none⟩),
  ("?", ⟨.question, none⟩),
  ("*=", ⟨.asteriskEquals, some .operator⟩),
  ("*/", ⟨.asteriskSlash, none⟩),
  ("*", ⟨.asterisk, some .operator⟩),
  ("++", ⟨.doublePlus, some .operator⟩),
  ("+=", ⟨.plusEquals, some .operator⟩),
  ("+", ⟨.plus, some .operator⟩),
  ("--", ⟨.doubleDash, some .operator⟩),
  ("-=", ⟨.dashEquals, some .operator⟩),
  ("-", ⟨.dash, some .operator⟩),
  ("%=", ⟨.percentEquals, some .operator⟩),
  ("%", ⟨.percent, some .operator⟩),
  ("&&", ⟨.doubleAmpersand, some .operator⟩),
  ("&=", ⟨.ampersandEquals, some .operator⟩),
  ("&", ⟨.ampersand, some .operator⟩),
  ("||", ⟨.doublePipe, some .operator⟩),
  ("|=", ⟨.pipeEquals, some .operator⟩),
  ("|", ⟨.pipe, some .operator⟩),
  (">=", ⟨.moreThanEqual, some .operator⟩),
  (">", ⟨.moreThan, some .operator⟩),
  ("<=", ⟨.lessThanEqual, some .operator⟩),
  ("<", ⟨.lessThan, some .operator⟩),
  ("===", ⟨.tripleEquals, some .operator⟩),
  ("==", ⟨.doubleEquals, some .operator⟩),
  ("=>", ⟨.arrow, none⟩),
  ("=", ⟨.equals, some .operator⟩),
  ("!==", ⟨.notDoubleEquals, some .operator⟩),
  ("!=", ⟨.notEquals, some .operator⟩),
  ("!", ⟨.exclamation, some .operator⟩),
  ("\n", ⟨.lineBreak, some .whiteSpace⟩),
  ("\r", ⟨.carriageReturn, some .whiteSpace⟩),
  ("\t", ⟨.tab, some .whiteSpace⟩),
  (" ", ⟨.space, some .whiteSpace⟩),
  ("\x60", ⟨.backQuote, none⟩),
  ("\\", ⟨.backSlash, none⟩),
  ("#", ⟨.hash, none⟩),
  (";", ⟨.semicolon, none⟩),
  (":", ⟨.colon, none⟩),
  (",", ⟨.comma, none⟩),
  ("(", ⟨.openParen, none⟩),
  (")", ⟨.closeParen, none⟩),
  ("\x7b", ⟨.openBrace, none⟩),
  ("\x7d", ⟨.closeBrace, none⟩),
  ("[", ⟨.openSquare, none⟩),
  ("]", ⟨.closeSquare, none⟩)]

/-- No punctuator of the table is empty, so that a sign found is a sign of at least one character.
-/
theorem punctuators_filled : ∀ entry ∈ punctuators, entry.1.toList ≠ [] := by
  decide

/-- The longest punctuator at the front, or one character of no known kind. In the table longer ones
stand before those that they begin with, so the first hit is the longest. -/
def scanPunctuator (cs : List Char) : Scan :=
  match punctuators.find? fun (text, _) => text.toList.isPrefixOf cs with
  | some (text, lexeme) => .lexeme lexeme text.length
  | none => .plain .unknown 1

/-- The rest of a string behind its opening quote. A backslash takes the next
character with it, whatever that is. -/
def scanString (quote : Char) : List Char → Scan
  | [] => .unterminated
  | c :: cs =>
    if c = quote then .plain .string 1
    else if c = '\\' then
      match cs with
      | [] => .escapeAtEnd 0
      | _ :: cs => (scanString quote cs).later 2
    else (scanString quote cs).later 1

/-- A string is found up to its closing quote. -/
theorem scanString_lexeme {quote : Char} {cs : List Char} {lexeme : Lexeme TokenKind} {length : Nat}
    (found : scanString quote cs = .lexeme lexeme length) :
    lexeme = ⟨.string, none⟩ ∧ ∃ body, cs.take length = body ++ [quote] := by
  fun_induction scanString quote cs generalizing length with
  | case1 => cases found
  | case2 =>
    cases found
    exact ⟨rfl, [], rfl⟩
  | case3 => cases found
  | case4 escaped _ _ ih =>
    obtain ⟨shorter, inner, rfl⟩ := Scan.lexeme_of_later found
    obtain ⟨isString, body, taken⟩ := ih inner
    exact ⟨isString, '\\' :: escaped :: body, by simp [taken]⟩
  | case5 c _ _ _ ih =>
    obtain ⟨shorter, inner, rfl⟩ := Scan.lexeme_of_later found
    obtain ⟨isString, body, taken⟩ := ih inner
    exact ⟨isString, c :: body, by simp [taken]⟩

/-- Ordinary code: strings, the opening of an interpolation, words, numbers, and
then the punctuators. Nothing is skipped. -/
def scanCode : List Char → Scan
  | [] => .plain .unknown 0
  | c :: cs =>
    if c = '"' ∨ c = '\'' then (scanString c cs).later 1
    else if c = '$' ∧ cs.head? = some '\x7b' then .plain .openTemplate 2
    else if isWordStart c then
      let word := c :: cs.takeWhile isWordPart
      .lexeme ⟨wordKind (String.ofList word), some .word⟩ word.length
    else if c.isDigit then .plain .number (c :: cs.takeWhile Char.isDigit).length
    else scanPunctuator (c :: cs)

/-- How many characters of template text stand before the closing back quote, the
next interpolation, or the end. A backslash takes the next character with it. -/
def templateTextLength : List Char → Nat
  | [] => 0
  | c :: cs =>
    if c = '\x60' ∨ (c = '$' ∧ cs.head? = some '\x7b') then 0
    else if c = '\\' then
      match cs with
      | [] => 1
      | _ :: cs => templateTextLength cs + 2
    else templateTextLength cs + 1

/-- The inside of a template: its end, an interpolation, or a run of text. -/
def scanTemplate (cs : List Char) : Scan :=
  if cs.head? = some '\x60' then .plain .backQuote 1
  else if ['$', '\x7b'].isPrefixOf cs then .plain .openTemplate 2
  else .plain .templateText (templateTextLength cs)

/-- How many characters stand before the end of a comment. If it has none, the body goes on to the
end of the source, and that is no error. -/
def CommentStyle.bodyLength : CommentStyle → List Char → Nat
  | line, cs => (cs.takeWhile (· ≠ '\n')).length
  | block, [] => 0
  | block, c :: cs =>
    if c = '*' ∧ cs.head? = some '/' then 0 else bodyLength block cs + 1

namespace Modes

/-- What stands at the front of `cs` when the pending comment is left aside: in the text of a
template a token of templates, and one of code anywhere else. -/
def scanBehindComment (modes : Modes) (cs : List Char) : Scan :=
  match modes.stack with
  | .template :: _ => scanTemplate cs
  | _ => scanCode cs

/-- What stands at the front of `cs`. The body of a pending comment comes first; an
empty one leaves no token, and its end is read as code. -/
def scan (modes : Modes) (cs : List Char) : Scan :=
  match modes.comment with
  | none => modes.scanBehindComment cs
  | some style =>
    match style.bodyLength cs with
    | 0 => modes.scanBehindComment cs
    | length => .plain .commentText length

/-- The modes after a token of the given kind. Braces in an interpolation are
counted, so that the one which matches its opening leads back to the template. -/
def after (modes : Modes) (kind : TokenKind) : Modes :=
  match modes.stack, kind with
  | .template :: outer, .backQuote => { stack := outer }
  | .template :: outer, .openTemplate => { stack := .interpolation 0 :: .template :: outer }
  | .template :: outer, _ => { stack := .template :: outer }
  | .interpolation depth :: outer, .openBrace => { stack := .interpolation (depth + 1) :: outer }
  | .interpolation 0 :: outer, .closeBrace => { stack := outer }
  | .interpolation (depth + 1) :: outer, .closeBrace =>
    { stack := .interpolation depth :: outer }
  | stack, .backQuote => { stack := .template :: stack }
  | stack, .slashAsterisk => { stack, comment := some .block }
  | stack, .doubleSlash => { stack, comment := some .line }
  | stack, _ => { stack }

end Modes

/-- What holds of the body of a pending comment, and of what is found in a template or in code,
whichever the modes tell, holds of what is found. -/
theorem Modes.scan_induct {P : Scan → Prop} {modes : Modes} {cs : List Char}
    (comment : ∀ style, modes.comment = some style → style.bodyLength cs ≠ 0 →
      P (.plain .commentText (style.bodyLength cs)))
    (template : ∀ outer, modes.stack = .template :: outer → P (scanTemplate cs))
    (code : (∀ outer, modes.stack = .template :: outer → False) → P (scanCode cs)) :
    P (modes.scan cs) := by
  have behind : P (modes.scanBehindComment cs) := by
    unfold scanBehindComment
    split
    · rename_i outer atStack
      exact template outer atStack
    · rename_i free
      exact code free
  unfold scan
  split
  · exact behind
  · rename_i style pending
    split
    · exact behind
    · rename_i some
      exact comment style pending some

section Lengths

/-- A lexeme goes over some characters, and over no more than there are. The cursor can so be moved
over them without a failure. -/
def Scan.Fits (cs : List Char) : Scan → Prop
  | .lexeme _ length => 0 < length ∧ length ≤ cs.length
  | _ => True

/-- A scan that fits what is behind some characters fits the whole when these are counted in. The
units of strings and templates are read this way. -/
theorem Scan.Fits.later {scan : Scan} {cs : List Char} (fits : scan.Fits cs)
    (front : List Char) : (scan.later front.length).Fits (front ++ cs) := by
  cases scan with
  | lexeme lexeme length =>
    obtain ⟨some, within⟩ := fits
    exact ⟨by omega, by rw [List.length_append]; omega⟩
  | unterminated => trivial
  | escapeAtEnd before => trivial

/-- A token without a tag fits wherever its length lies within the text. -/
theorem Scan.fits_plain {kind : TokenKind} {cs : List Char} {length : Nat} (some : 0 < length)
    (within : length ≤ cs.length) : (Scan.plain kind length).Fits cs :=
  ⟨some, within⟩

/-- The length of a string token lies within the text it was found in, and the two failures say how
far into the text they are. -/
theorem scanString_fits (quote : Char) (cs : List Char) : (scanString quote cs).Fits cs := by
  fun_induction scanString quote cs with
  | case1 => trivial
  | case2 cs => exact Scan.fits_plain (by decide) (Nat.le_add_left 1 cs.length)
  | case3 => trivial
  | case4 escaped cs _ ih => exact ih.later ['\\', escaped]
  | case5 c cs _ _ ih => exact ih.later [c]

/-- A punctuator found at a character has at least that character and lies within the text. -/
theorem scanPunctuator_fits (c : Char) (cs : List Char) :
    (scanPunctuator (c :: cs)).Fits (c :: cs) := by
  unfold scanPunctuator
  split
  · rename_i text lexeme found
    have front : text.toList <+: c :: cs := by simpa using List.find?_some found
    have filled := punctuators_filled (text, lexeme) (List.mem_of_find?_eq_some found)
    rw [Scan.Fits, ← String.length_toList]
    exact ⟨List.length_pos_iff.mpr filled, front.length_le⟩
  · exact Scan.fits_plain (by decide) (Nat.le_add_left 1 cs.length)

/-- Whatever the scan of code finds at a character lies within the text and has at least one
character. -/
theorem scanCode_fits (c : Char) (cs : List Char) : (scanCode (c :: cs)).Fits (c :: cs) := by
  have front {test : Char → Bool} : (c :: cs.takeWhile test).length ≤ (c :: cs).length :=
    Nat.succ_le_succ (List.takeWhile_prefix test).length_le
  rw [scanCode]
  split
  · exact (scanString_fits c cs).later [c]
  split
  · rename_i opens
    cases cs with
    | nil => cases opens.2
    | cons d cs => exact Scan.fits_plain (by decide) (by simp)
  split
  · exact ⟨Nat.succ_pos _, front⟩
  split
  · exact Scan.fits_plain (Nat.succ_pos _) front
  · exact scanPunctuator_fits c cs

theorem templateTextLength_le (cs : List Char) : templateTextLength cs ≤ cs.length := by
  fun_induction templateTextLength cs with
  | case1 => exact Nat.le_refl 0
  | case2 => exact Nat.zero_le _
  | case3 => exact Nat.le_refl 1
  | case4 _ _ _ ih => simpa using ih
  | case5 _ _ _ _ ih => simpa using ih

/-- Template text has at least one character unless the template ends or is interrupted at once. The
scan asks for it only then. -/
theorem templateTextLength_pos {c : Char} {cs : List Char}
    (goesOn : ¬ (c = '\x60' ∨ c = '$' ∧ cs.head? = some '\x7b')) :
    0 < templateTextLength (c :: cs) := by
  unfold templateTextLength
  rw [if_neg goesOn]
  split
  · split
    · exact Nat.one_pos
    · exact Nat.succ_pos _
  · exact Nat.succ_pos _

theorem CommentStyle.bodyLength_le (style : CommentStyle) (cs : List Char) :
    style.bodyLength cs ≤ cs.length := by
  cases style with
  | line =>
    unfold bodyLength
    exact (List.takeWhile_prefix _).length_le
  | block =>
    induction cs with
    | nil => exact Nat.le_refl 0
    | cons c cs ih =>
      rw [bodyLength]
      split
      · exact Nat.zero_le _
      · simpa using ih

/-- Whatever the scan of a template finds at a character lies within the text and has at least one
character. -/
theorem scanTemplate_fits (c : Char) (cs : List Char) : (scanTemplate (c :: cs)).Fits (c :: cs) := by
  unfold scanTemplate
  split
  · exact Scan.fits_plain (by decide) (Nat.le_add_left 1 cs.length)
  rename_i noQuote
  split
  · rename_i opens
    have front : ['$', '\x7b'] <+: c :: cs := List.isPrefixOf_iff_prefix.mp opens
    exact Scan.fits_plain (by decide) front.length_le
  · rename_i noOpening
    refine Scan.fits_plain (templateTextLength_pos ?_) (templateTextLength_le _)
    rintro (rfl | ⟨rfl, brace⟩)
    · exact noQuote rfl
    · obtain ⟨cs, rfl⟩ := List.head?_eq_some_iff.mp brace
      exact noOpening (by simp [List.isPrefixOf])

/-- In all the modes a scan at a character takes one or more characters of the text, and not more
than there are. So the stall guard of the engine is never needed by this lexer. -/
theorem Modes.scan_fits (modes : Modes) (c : Char) (cs : List Char) :
    (modes.scan (c :: cs)).Fits (c :: cs) :=
  Modes.scan_induct
    (fun style _ some => Scan.fits_plain (Nat.pos_of_ne_zero some) (style.bodyLength_le (c :: cs)))
    (fun _ _ => scanTemplate_fits c cs) fun _ => scanCode_fits c cs

end Lengths

end ScriptFront.Script
