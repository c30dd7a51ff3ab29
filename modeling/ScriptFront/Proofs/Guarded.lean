import Mathlib.Logic.Basic
import Mathlib.Tactic.Conv
import ScriptFront.Proofs.Scan
import ScriptFront.Proofs.Tiling

/-!
No reader asks for a character where there is none. The readers go over a source with actions
that fail at its end; here each of them is found to do what its scan tells of the characters
ahead, and no scan knows of such a failure.
-/

namespace ScriptFront

namespace Cursor

variable {α : Type} {c : Cursor} {x : Char} {xs : List Char}

/-- A cursor in front of a character is not at the end, so the loops of the readers go on there. -/
theorem isAtEnd_of_cons (ahead : c.rest = x :: xs) : c.isAtEnd = false := by
  simp [isAtEnd, ahead]

theorem is_of_cons (ahead : c.rest = x :: xs) (y : Char) : c.is y = (x == y) := by
  simp [is, isAt, peek, ahead]

theorem isAt_one_of_cons (ahead : c.rest = x :: xs) (y : Char) :
    c.isAt 1 y = (xs.head? == some y) := by
  simp [isAt, peek, ahead, List.head?_eq_getElem?]

/-- What `is` answers at any cursor, the end included: nothing is no character. -/
theorem is_eq_head? (c : Cursor) (y : Char) : c.is y = (c.rest.head? == some y) := by
  simp [is, isAt, peek, List.head?_eq_getElem?]

theorem rest_next (ahead : c.rest = x :: xs) : (c.advanceBy 1).rest = xs := by
  rw [rest_advanceBy, ahead, List.drop_one, List.tail_cons]

/-- A character that was seen is taken for sure. -/
theorem attempt_advance (ahead : c.rest = x :: xs) :
    attempt advance c = .ok () (c.advanceBy 1) := by
  rw [attempt, advance_cons ahead]

/-- The check of `advanceIf` is its guard: where the wanted character stands ahead, the advance
behind the check succeeds. -/
theorem advanceIf_of_head (here : c.rest.head? = some x) :
    advanceIf x c = .ok true (c.advanceBy 1) := by
  obtain ⟨xs, ahead⟩ := List.head?_eq_some_iff.mp here
  rw [advanceIf, get_andThen, is_eq_head?, if_pos (by simp [here])]
  exact andThen_ok (attempt_advance ahead)

/-- Where another character or none stands ahead, `advanceIf` answers no and does not move. -/
theorem advanceIf_of_ne (other : c.rest.head? ≠ some x) : advanceIf x c = .ok false c := by
  rw [advanceIf, get_andThen, is_eq_head?, if_neg (by simpa using other)]
  rfl

/-- Turns that go over some characters each come to an end behind as many as a function of the
characters ahead tells, if that function agrees with every single turn. The budget plays no
part in it. -/
theorem turns_eq {goesOn : Cursor → Bool} {turn : Action Unit} (length : List Char → Nat)
    (ended : length [] = 0)
    (stops : ∀ c : Cursor, goesOn c = false → length c.rest = 0)
    (goes : ∀ c : Cursor, goesOn c = true → ∃ n, 0 < n ∧ n ≤ c.rest.length ∧
      turn c = .ok () (c.advanceBy n) ∧ length c.rest = n + length (c.rest.drop n))
    (c : Cursor) : turns goesOn turn c = .ok () (c.advanceBy (length c.rest)) := by
  have within (budget : Nat) (c : Cursor) (enough : c.rest.length ≤ budget) :
      turnsWithin goesOn turn budget c = .ok () (c.advanceBy (length c.rest)) := by
    induction budget generalizing c with
    | zero =>
      rw [List.length_eq_zero_iff.mp (Nat.le_zero.mp enough), ended]
      rfl
    | succ budget ih =>
      rw [turnsWithin, get_andThen]
      cases more : goesOn c with
      | false =>
        rw [stops c more]
        rfl
      | true =>
        obtain ⟨n, positive, fits, taken, rest⟩ := goes c more
        have behind := ih (c.advanceBy n) (by rw [rest_advanceBy, List.length_drop]; omega)
        rw [if_pos rfl, andThen_ok taken, behind, advanceBy_advanceBy, rest_advanceBy, ← rest]
  exact within _ c (Nat.le_refl _)

/-- A guarded loop never meets the end of the text: it goes over the longest front of characters
that pass the test, and succeeds. -/
theorem advanceWhile_eq (test : Char → Bool) (c : Cursor) :
    advanceWhile test c =
      .ok (c.rest.takeWhile test).length (c.advanceBy (c.rest.takeWhile test).length) := by
  have seen (c : Cursor) : c.satisfies test = c.rest.head?.any test := by
    simp [satisfies, current, peek, List.head?_eq_getElem?]
  have run : turns (·.satisfies test) (attempt advance) c =
      .ok () (c.advanceBy (c.rest.takeWhile test).length) := by
    refine turns_eq (fun cs => (cs.takeWhile test).length) rfl (fun c stop => ?_)
      (fun c more => ?_) c
    · rw [seen] at stop
      cases ahead : c.rest with
      | nil => rfl
      | cons x xs =>
        have fails : ¬ test x = true := by simpa [ahead] using stop
        rw [List.takeWhile_cons_of_neg fails, List.length_nil]
    · rw [seen] at more
      cases ahead : c.rest with
      | nil => simp [ahead] at more
      | cons x xs =>
        have holds : test x = true := by simpa [ahead] using more
        refine ⟨1, Nat.one_pos, by simp, attempt_advance ahead, ?_⟩
        rw [List.takeWhile_cons_of_pos holds, List.length_cons, List.drop_one, List.tail_cons,
          Nat.add_comm]
  have within : (c.rest.takeWhile test).length ≤ c.rest.length :=
    (List.takeWhile_prefix test).length_le
  unfold advanceWhile
  rw [get_andThen, andThen_ok run, get_andThen, offset_advanceBy within, Nat.add_sub_cancel_left]
  rfl

end Cursor

namespace Script

open Cursor (advance advanceIf advanceWhile skip turns)
open LexRule (on cursor state change cursor_andThen on_andThen_ok state_andThen)

section Findings

variable {c : Cursor} {modes : Modes}

/-- What a reader answers that starts at a cursor and finds the scan of the characters ahead.
The error of a string without an end tells the place where it began. -/
def Scan.outcome (start : Position) (c : Cursor) :
    Scan → EStateM.Result LexError Cursor (Lexeme TokenKind)
  | .lexeme found length => .ok found (c.advanceBy length)
  | .unterminated => .error (.unterminatedString start) (c.advanceBy c.rest.length)
  | .escapeAtEnd before =>
    .error (.escapeAtEnd (c.advanceBy before).position) (c.advanceBy c.rest.length)

/-- What the rule for scripts answers there. A token leaves the modes that its kind leads to,
and a string without an end those of the characters before it. -/
def Scan.answer (modes : Modes) (c : Cursor) (scan : Scan) :
    EStateM.Result LexError (Modes × Cursor) (Lexeme TokenKind) :=
  match scan.outcome c.position c with
  | .ok found next => .ok found (modes.after found.kind, next)
  | .error e next => .error e ({ stack := modes.stack }, next)

/-- What is found some characters further on is what is found there. -/
theorem Scan.outcome_later (scan : Scan) (start : Position) {n : Nat} (within : n ≤ c.rest.length) :
    (scan.later n).outcome start c = scan.outcome start (c.advanceBy n) := by
  have all : (c.advanceBy n).advanceBy (c.advanceBy n).rest.length = c.advanceBy c.rest.length := by
    rw [Cursor.advanceBy_advanceBy, Cursor.rest_advanceBy, List.length_drop, Nat.add_sub_cancel' within]
  cases scan with
  | lexeme found length =>
    simp only [later, outcome, Cursor.advanceBy_advanceBy, Nat.add_comm]
  | unterminated => simp only [later, outcome, all]
  | escapeAtEnd before =>
    simp only [later, outcome, all, Cursor.advanceBy_advanceBy, Nat.add_comm]

/-- The two characters that close a block comment, seen in front of a character. -/
theorem closesComment_of_cons {x : Char} {xs : List Char} (ahead : c.rest = x :: xs) :
    closesComment c = decide (x = '*' ∧ xs.head? = some '/') := by
  rw [Bool.eq_iff_iff]
  simp [closesComment, Cursor.is_of_cons ahead, Cursor.isAt_one_of_cons ahead]

/-- The two characters that open an interpolation, seen in front of a character. -/
theorem opensInterpolation_of_cons {x : Char} {xs : List Char} (ahead : c.rest = x :: xs) :
    opensInterpolation c = decide (x = '$' ∧ xs.head? = some '\x7b') := by
  rw [Bool.eq_iff_iff]
  simp [opensInterpolation, Cursor.is_of_cons ahead, Cursor.isAt_one_of_cons ahead]

/-- The loop over the body of a block comment stops in front of its end, or at the end of the
source, and skips one character in each turn. -/
theorem skipBody_eq (c : Cursor) :
    turns (fun c => !c.isAtEnd && !closesComment c) skip c =
      .ok () (c.advanceBy (CommentStyle.block.bodyLength c.rest)) := by
  refine Cursor.turns_eq CommentStyle.block.bodyLength rfl (fun c stop => ?_) (fun c more => ?_) c
  · cases ahead : c.rest with
    | nil => rfl
    | cons x xs =>
      simp only [Cursor.isAtEnd_of_cons ahead, closesComment_of_cons ahead, Bool.not_false,
        Bool.true_and, Bool.not_eq_false', decide_eq_true_eq] at stop
      rw [CommentStyle.bodyLength, if_pos stop]
  · cases ahead : c.rest with
    | nil => simp [Cursor.isAtEnd, ahead] at more
    | cons x xs =>
      simp only [Cursor.isAtEnd_of_cons ahead, closesComment_of_cons ahead, Bool.not_false,
        Bool.true_and, Bool.not_eq_true', decide_eq_false_iff_not] at more
      refine ⟨1, Nat.one_pos, by simp, Cursor.skip_cons ahead, ?_⟩
      rw [CommentStyle.bodyLength, if_neg more, List.drop_one, List.tail_cons, Nat.add_comm]

/-- The body of a comment, where characters are left, is none exactly if it is empty. -/
theorem readCommentBody_eq (style : CommentStyle) (more : c.rest ≠ []) :
    readCommentBody style c =
      if style.bodyLength c.rest = 0 then .ok none c
      else .ok (some ⟨.commentText, none⟩) (c.advanceBy (style.bodyLength c.rest)) := by
  obtain ⟨x, xs, ahead⟩ := List.exists_cons_of_ne_nil more
  cases style with
  | block =>
    rw [readCommentBody, Cursor.get_andThen, closesComment_of_cons ahead]
    by_cases closes : x = '*' ∧ xs.head? = some '/'
    · have empty : CommentStyle.block.bodyLength c.rest = 0 := by
        rw [ahead, CommentStyle.bodyLength, if_pos closes]
      rw [if_pos (decide_eq_true closes), if_pos empty]
      rfl
    · have filled : CommentStyle.block.bodyLength c.rest ≠ 0 := by
        rw [ahead, CommentStyle.bodyLength, if_neg closes]
        exact Nat.succ_ne_zero _
      rw [if_neg (by simpa using closes), if_neg filled, andThen_ok (skipBody_eq c)]
      rfl
  | line =>
    rw [readCommentBody, Cursor.get_andThen, Cursor.is_of_cons ahead]
    by_cases feed : x = '\n'
    · have empty : CommentStyle.line.bodyLength c.rest = 0 := by
        simp [CommentStyle.bodyLength, ahead, feed]
      rw [if_pos (by simp [feed]), if_pos empty]
      rfl
    · have filled : CommentStyle.line.bodyLength c.rest ≠ 0 := by
        simp [CommentStyle.bodyLength, ahead, feed]
      rw [if_neg (by simpa using feed), if_neg filled, andThen_ok (Cursor.advanceWhile_eq _ c),
        CommentStyle.bodyLength]
      rfl

/-- One unit of the text of a template is a character, or two if the first is a backslash that
does not end the source. -/
theorem readTextUnit_eq {x : Char} {xs : List Char} (ahead : c.rest = x :: xs) :
    readTextUnit c = .ok () (c.advanceBy (if x = '\\' ∧ xs ≠ [] then 2 else 1)) := by
  rw [readTextUnit, andThen_ok (Cursor.advance_cons ahead)]
  by_cases escape : x = '\\'
  · rw [if_pos escape, Cursor.get_andThen]
    cases xs with
    | nil =>
      have ended : (c.advanceBy 1).isAtEnd = true := by
        rw [Cursor.isAtEnd, Cursor.rest_next ahead]
        rfl
      rw [ended, if_neg (by simp), if_neg (by simp)]
      rfl
    | cons y ys =>
      have behind := Cursor.rest_next ahead
      rw [Cursor.isAtEnd_of_cons behind, if_pos (by simp), if_pos ⟨escape, by simp⟩,
        Cursor.skip_cons behind, Cursor.advanceBy_advanceBy]
  · rw [if_neg escape, if_neg (fun both => escape both.1)]
    rfl

/-- Text goes on where no back quote and no opening of an interpolation is ahead. -/
theorem textGoesOn_iff {x : Char} {xs : List Char} (ahead : c.rest = x :: xs) :
    (!c.isAtEnd && !c.is '\x60' && !opensInterpolation c) = true ↔
      ¬ (x = '\x60' ∨ (x = '$' ∧ xs.head? = some '\x7b')) := by
  simp [Cursor.isAtEnd_of_cons ahead, Cursor.is_of_cons ahead, opensInterpolation_of_cons ahead,
    not_or, imp_iff_not_or]

/-- The text of a template is read up to where `templateTextLength` ends it. -/
theorem readTextUnits_eq (c : Cursor) :
    turns (fun c => !c.isAtEnd && !c.is '\x60' && !opensInterpolation c) readTextUnit c =
      .ok () (c.advanceBy (templateTextLength c.rest)) := by
  refine Cursor.turns_eq templateTextLength rfl (fun c stop => ?_) (fun c more => ?_) c
  · cases ahead : c.rest with
    | nil => rfl
    | cons x xs =>
      have closed := not_not.mp (mt (textGoesOn_iff ahead).mpr (Bool.eq_false_iff.mp stop))
      unfold templateTextLength
      exact if_pos closed
  · cases ahead : c.rest with
    | nil => simp [Cursor.isAtEnd, ahead] at more
    | cons x xs =>
      have inside := (textGoesOn_iff ahead).mp more
      have taken := readTextUnit_eq ahead
      by_cases escape : x = '\\'
      · cases xs with
        | nil =>
          rw [if_neg (by simp)] at taken
          refine ⟨1, Nat.one_pos, by simp, taken, ?_⟩
          conv_lhs => unfold templateTextLength
          simp only [if_neg inside, if_pos escape]
          rfl
        | cons y ys =>
          rw [if_pos ⟨escape, by simp⟩] at taken
          refine ⟨2, Nat.two_pos, by simp, taken, ?_⟩
          conv_lhs => unfold templateTextLength
          simp only [if_neg inside, if_pos escape]
          exact Nat.add_comm _ 2
      · rw [if_neg (fun both => escape both.1)] at taken
        refine ⟨1, Nat.one_pos, by simp, taken, ?_⟩
        conv_lhs => unfold templateTextLength
        simp only [if_neg inside, if_neg escape]
        exact Nat.add_comm _ 1

/-- The rest of a string is what the scan finds, whatever stands at `start`. -/
theorem readStringWithin_eq (quote : Char) (start : Position) {budget : Nat}
    (enough : c.rest.length ≤ budget) :
    readStringWithin quote start budget c = (scanString quote c.rest).outcome start c := by
  induction budget generalizing c with
  | zero =>
    have ended := List.length_eq_zero_iff.mp (Nat.le_zero.mp enough)
    rw [readStringWithin, ended, scanString, Scan.outcome, ended]
    rfl
  | succ budget ih =>
    rw [readStringWithin, Cursor.get_andThen]
    cases ahead : c.rest with
    | nil =>
      rw [scanString, Scan.outcome, ahead, Cursor.current, Cursor.peek, ahead]
      rfl
    | cons x xs =>
      have here : c.current = some x := by rw [Cursor.current, Cursor.peek, ahead]; rfl
      have behind := Cursor.rest_next ahead
      have fits : 1 ≤ c.rest.length := by simp [ahead]
      have shorter : xs.length ≤ budget := by
        rw [ahead, List.length_cons] at enough
        exact Nat.le_of_succ_le_succ enough
      unfold scanString
      simp only [here]
      by_cases closes : x = quote
      · rw [if_pos closes, if_pos closes, andThen_ok (Cursor.skip_cons ahead)]
        rfl
      rw [if_neg closes, if_neg closes]
      by_cases escape : x = '\\'
      · rw [if_pos escape, if_pos escape, Cursor.get_andThen, andThen_ok (Cursor.skip_cons ahead),
          Cursor.get_andThen]
        cases xs with
        | nil =>
          rw [Cursor.isAtEnd, behind, if_pos (by simp), Scan.outcome, ahead]
          rfl
        | cons y ys =>
          have further := Cursor.rest_next behind
          have taken := Cursor.skip_cons behind
          rw [Cursor.advanceBy_advanceBy] at further taken
          rw [Cursor.isAtEnd_of_cons behind, if_neg (by simp), andThen_ok taken,
            ih (by rw [further]; exact Nat.le_of_succ_le shorter), further,
            Scan.outcome_later _ _ (by simp [ahead])]
      · rw [if_neg escape, if_neg escape, andThen_ok (Cursor.skip_cons ahead),
          ih (by rw [behind]; exact shorter), behind, Scan.outcome_later _ _ fits]

/-- A string tells the place of its opening quote, should it not end. -/
theorem readString_eq {x : Char} {xs : List Char} (ahead : c.rest = x :: xs) :
    readString c = ((scanString x xs).later 1).outcome c.position c := by
  rw [readString, Cursor.get_andThen, andThen_ok (Cursor.advance_cons ahead), Cursor.get_andThen,
    readStringWithin_eq _ _ (Nat.le_refl _), Cursor.rest_next ahead,
    Scan.outcome_later _ _ (by simp [ahead])]

/-- A character that may begin a word may also go on with one, so the word read behind it is not
empty. -/
theorem isWordPart_of_isWordStart {x : Char} (starts : isWordStart x = true) :
    isWordPart x = true := by
  simp only [isWordStart, isWordPart, Char.isAlphanum, Bool.or_eq_true] at starts ⊢
  exact starts.imp_left fun letter => letter.imp_left .inl

/-- A word is read whole and without a failure: the longest run of word characters, whose text alone
decides its kind. -/
theorem readWord_eq (c : Cursor) :
    readWord c = .ok ⟨wordKind (String.ofList (c.rest.takeWhile isWordPart)), some .word⟩
      (c.advanceBy (c.rest.takeWhile isWordPart).length) := by
  have initial : c.rest.takeWhile isWordPart <+: c.rest := List.takeWhile_prefix isWordPart
  have text := Cursor.slice?_advanceBy initial.length_le
  rw [← List.prefix_iff_eq_take.mp initial] at text
  rw [readWord, Cursor.get_andThen, andThen_ok (Cursor.advanceWhile_eq isWordPart c),
    Cursor.get_andThen, text]
  rfl

/-- The digits of a number are read without a failure. -/
theorem readDigits_eq (c : Cursor) :
    readDigits c = .ok ⟨.number, none⟩ (c.advanceBy (c.rest.takeWhile Char.isDigit).length) := by
  rw [readDigits, andThen_ok (Cursor.advanceWhile_eq Char.isDigit c)]
  rfl

end Findings

section Signs

variable {c : Cursor}

/-- The punctuators that begin with a character: what follows it in each, and what it is. -/
def signsFrom (x : Char) : List (List Char × Lexeme TokenKind) :=
  punctuators.filterMap fun entry =>
    if entry.1.toList.head? = some x then some (entry.1.toList.tail, entry.2) else none

/-- What a list of such signs makes of the characters behind the first one. -/
def scanSigns (signs : List (List Char × Lexeme TokenKind)) (cs : List Char) : Scan :=
  match signs.find? (·.1.isPrefixOf cs) with
  | some (tail, lexeme) => .lexeme lexeme (1 + tail.length)
  | none => .plain .unknown 1

/-- The signs are tried in the order of the table, and the first whose remaining characters stand
ahead is the one that is found. -/
theorem scanSigns_cons (tail : List Char) (lexeme : Lexeme TokenKind)
    (signs : List (List Char × Lexeme TokenKind)) (cs : List Char) :
    scanSigns ((tail, lexeme) :: signs) cs =
      if tail.isPrefixOf cs then .lexeme lexeme (1 + tail.length) else scanSigns signs cs := by
  rw [scanSigns, List.find?_cons]
  cases tail.isPrefixOf cs <;> rfl

/-- Which entry stands at the front of some characters is found behind the first of them among
those entries that begin with it. -/
theorem find_signs (x : Char) (cs : List Char) {entries : List (String × Lexeme TokenKind)}
    (filled : ∀ entry ∈ entries, entry.1.toList ≠ []) :
    (entries.filterMap fun entry =>
        if entry.1.toList.head? = some x then some (entry.1.toList.tail, entry.2) else none).find?
          (·.1.isPrefixOf cs) =
      (entries.find? (·.1.toList.isPrefixOf (x :: cs))).map fun entry =>
        (entry.1.toList.tail, entry.2) := by
  induction entries with
  | nil => rfl
  | cons entry entries ih =>
    obtain ⟨y, tail, spelled⟩ := List.exists_cons_of_ne_nil (filled _ List.mem_cons_self)
    have others := ih fun other member => filled other (List.mem_cons_of_mem _ member)
    rw [List.find?_cons, List.filterMap_cons, spelled, List.head?_cons, List.tail_cons,
      List.isPrefixOf]
    by_cases first : y = x
    · rw [if_pos (congrArg some first), beq_iff_eq.mpr first, Bool.true_and, List.find?_cons]
      cases tail.isPrefixOf cs with
      | true => rw [Option.map_some, spelled, List.tail_cons]
      | false => exact others
    · rw [if_neg (fun same => first (Option.some.inj same)), beq_eq_false_iff_ne.mpr first,
        Bool.false_and]
      exact others

/-- Only the punctuators that begin with the first character have to be tried. -/
theorem scanPunctuator_cons (x : Char) (cs : List Char) :
    scanPunctuator (x :: cs) = scanSigns (signsFrom x) cs := by
  rw [scanPunctuator, scanSigns, signsFrom, find_signs x cs punctuators_filled]
  cases found : punctuators.find? (·.1.toList.isPrefixOf (x :: cs)) with
  | none => rfl
  | some entry =>
    have filled := punctuators_filled entry (List.mem_of_find?_eq_some found)
    have length : entry.1.length = 1 + entry.1.toList.tail.length := by
      have positive := List.length_pos_iff.mpr filled
      rw [List.length_tail, ← String.length_toList]
      omega
    rw [Option.map_some]
    exact congrArg (Scan.lexeme entry.2) length

/-- A sign with a second character stands ahead when that character does and its remaining
characters follow. -/
theorem isPrefixOf_cons {y : Char} {tail cs : List Char} :
    (y :: tail).isPrefixOf cs = true ↔ cs.head? = some y ∧ tail.isPrefixOf cs.tail = true := by
  cases cs with
  | nil => simp
  | cons x xs => rw [List.isPrefixOf, Bool.and_eq_true, beq_iff_eq, List.head?_cons,
      Option.some.injEq, List.tail_cons, eq_comm]

/-- Taking one of some characters is finding the sign that it makes, where there is a sign for
each of them and one more for none of them. -/
theorem firstOf_signs (choices : List (Char × Lexeme TokenKind)) (other : Lexeme TokenKind) :
    firstOf choices other (c.advanceBy 1) =
      (scanSigns (choices.map (fun choice => ([choice.1], choice.2)) ++ [([], other)])
        (c.advanceBy 1).rest).outcome c.position c := by
  induction choices with
  | nil => rfl
  | cons choice choices ih =>
    obtain ⟨y, lexeme⟩ := choice
    rw [firstOf, List.map_cons, List.cons_append, scanSigns_cons]
    by_cases here : (c.advanceBy 1).rest.head? = some y
    · rw [andThen_ok (Cursor.advanceIf_of_head here), if_pos rfl,
        if_pos (isPrefixOf_cons.mpr ⟨here, rfl⟩), Scan.outcome, ← Cursor.advanceBy_advanceBy]
      rfl
    · rw [andThen_ok (Cursor.advanceIf_of_ne here), if_neg (by simp),
        if_neg fun initial => here (isPrefixOf_cons.mp initial).1]
      exact ih

/-- The signs of two characters: the reader that tries one second character after another answers as
the table of all signs does, when the table lists the same choices in the same order. -/
theorem firstOf_eq {x : Char} {choices : List (Char × Lexeme TokenKind)} {other : Lexeme TokenKind}
    (signs : signsFrom x = choices.map (fun choice => ([choice.1], choice.2)) ++ [([], other)])
    (c : Cursor) :
    firstOf choices other (c.advanceBy 1) =
      (scanPunctuator (x :: (c.advanceBy 1).rest)).outcome c.position c := by
  rw [scanPunctuator_cons, signs, firstOf_signs]

/-- The point and the three points. Two points are no sign of their own, so the reader looks at both
further characters before it skips either. -/
theorem readDots_eq (c : Cursor) :
    readDots (c.advanceBy 1) =
      (scanPunctuator ('.' :: (c.advanceBy 1).rest)).outcome c.position c := by
  have signs : signsFrom '.' = [(['.', '.'], ⟨.spread, none⟩), ([], ⟨.period, none⟩)] := by decide
  have dots : ((c.advanceBy 1).is '.' && (c.advanceBy 1).isAt 1 '.') =
      ['.', '.'].isPrefixOf (c.advanceBy 1).rest := by
    rw [Bool.eq_iff_iff, isPrefixOf_cons, isPrefixOf_cons]
    simp [Cursor.is_eq_head?, Cursor.isAt, Cursor.peek]
  rw [scanPunctuator_cons, signs, scanSigns_cons, readDots, Cursor.get_andThen, dots]
  by_cases spread : ['.', '.'].isPrefixOf (c.advanceBy 1).rest = true
  · obtain ⟨second, third⟩ := isPrefixOf_cons.mp spread
    obtain ⟨xs, ahead⟩ := List.head?_eq_some_iff.mp second
    rw [ahead, List.tail_cons] at third
    obtain ⟨ys, rfl⟩ := List.head?_eq_some_iff.mp (isPrefixOf_cons.mp third).1
    rw [if_pos spread, if_pos spread, andThen_ok (Cursor.skip_cons ahead),
      andThen_ok (Cursor.skip_cons (Cursor.rest_next ahead)), Cursor.advanceBy_advanceBy,
      Cursor.advanceBy_advanceBy]
    rfl
  · rw [if_neg spread, if_neg spread]
    rfl

/-- The signs of three characters. The reader skips the second character before it looks for the
third, and each skip stands behind the check that makes it succeed. -/
theorem readEquals_eq {x : Char} {three two one : Lexeme TokenKind}
    {choices : List (Char × Lexeme TokenKind)}
    (signs : signsFrom x = (['=', '='], three) :: (['='], two) ::
      (choices.map (fun choice => ([choice.1], choice.2)) ++ [([], one)])) (c : Cursor) :
    readEquals three two one choices (c.advanceBy 1) =
      (scanPunctuator (x :: (c.advanceBy 1).rest)).outcome c.position c := by
  rw [scanPunctuator_cons, signs, scanSigns_cons, scanSigns_cons, readEquals]
  by_cases second : (c.advanceBy 1).rest.head? = some '='
  · have behind : ((c.advanceBy 1).advanceBy 1).rest = (c.advanceBy 1).rest.tail := by
      rw [Cursor.rest_advanceBy, List.drop_one]
    rw [andThen_ok (Cursor.advanceIf_of_head second), if_pos rfl, firstOf]
    by_cases third : ((c.advanceBy 1).advanceBy 1).rest.head? = some '='
    · have both : ['=', '='].isPrefixOf (c.advanceBy 1).rest = true :=
        isPrefixOf_cons.mpr ⟨second, isPrefixOf_cons.mpr ⟨behind ▸ third, rfl⟩⟩
      rw [andThen_ok (Cursor.advanceIf_of_head third), if_pos rfl, if_pos both, Scan.outcome,
        Cursor.advanceBy_advanceBy, Cursor.advanceBy_advanceBy]
      rfl
    · have single : ¬ ['=', '='].isPrefixOf (c.advanceBy 1).rest = true := fun initial =>
        third (behind ▸ (isPrefixOf_cons.mp (isPrefixOf_cons.mp initial).2).1)
      rw [andThen_ok (Cursor.advanceIf_of_ne third), if_neg (by simp), if_neg single,
        if_pos (isPrefixOf_cons.mpr ⟨second, rfl⟩), Scan.outcome, Cursor.advanceBy_advanceBy]
      rfl
  · rw [andThen_ok (Cursor.advanceIf_of_ne second), if_neg (by simp),
      if_neg fun initial => second (isPrefixOf_cons.mp initial).1,
      if_neg fun initial => second (isPrefixOf_cons.mp initial).1, firstOf_signs]

end Signs

section Rule

variable {c : Cursor} {modes : Modes} {stack : List Mode}

/-- The kinds of tokens that change how what follows them is read. All others are calm: behind them
the lexer goes on as before. -/
def turningKinds : List TokenKind :=
  [.backQuote, .openBrace, .closeBrace, .slashAsterisk, .doubleSlash]

/-- What is outside all templates, or in an interpolation, is read as code. The inner constructor is
the reason that this is a property of the innermost mode alone. -/
def AtCode (stack : List Mode) : Prop := ∀ outer, stack ≠ .template :: outer

/-- In code, no other token changes how what follows it is read. -/
theorem after_calm (code : AtCode stack) {kind : TokenKind} (calm : kind ∉ turningKinds) :
    Modes.after { stack } kind = { stack } := by
  unfold Modes.after
  split
  · next inside => exact absurd inside (code _)
  · next inside => exact absurd inside (code _)
  · next inside _ _ => exact absurd inside (code _)
  · exact absurd (by decide) calm
  · exact absurd (by decide) calm
  · exact absurd (by decide) calm
  · exact absurd (by decide) calm
  · exact absurd (by decide) calm
  · exact absurd (by decide) calm
  · rfl

/-- The two shapes of a stack at code: nothing is open, or an interpolation is innermost. -/
@[elab_as_elim]
theorem AtCode.induct {P : List Mode → Prop} (code : AtCode stack) (outside : P [])
    (inside : ∀ depth outer, P (.interpolation depth :: outer)) : P stack :=
  match stack with
  | [] => outside
  | .template :: outer => absurd rfl (code outer)
  | .interpolation depth :: outer => inside depth outer

/-- At code a back quote always opens a template. -/
theorem after_backQuote (code : AtCode stack) :
    Modes.after { stack } .backQuote = Modes.enter .template { stack } :=
  code.induct rfl fun _ _ => rfl

/-- At code an opening brace counts up in an interpolation and does nothing outside. -/
theorem after_openBrace (code : AtCode stack) :
    Modes.after { stack } .openBrace = Modes.openBrace { stack } :=
  code.induct rfl fun _ _ => rfl

/-- At code a closing brace counts down in an interpolation or closes it, and does nothing outside.
-/
theorem after_closeBrace (code : AtCode stack) :
    Modes.after { stack } .closeBrace = Modes.closeBrace { stack } :=
  code.induct rfl fun
    | 0, _ => rfl
    | _ + 1, _ => rfl

/-- Behind the opener of a block comment the lexer expects its body, whatever is open. -/
theorem after_slashAsterisk (code : AtCode stack) :
    Modes.after { stack } .slashAsterisk = Modes.expect (some .block) { stack } :=
  code.induct rfl fun _ _ => rfl

theorem after_doubleSlash (code : AtCode stack) :
    Modes.after { stack } .doubleSlash = Modes.expect (some .line) { stack } :=
  code.induct rfl fun _ _ => rfl

theorem after_commentText (stack : List Mode) :
    Modes.after { stack } .commentText = { stack } :=
  match stack with
  | [] => rfl
  | .template :: _ => rfl
  | .interpolation _ :: _ => rfl

/-- The body of a pending comment is what is found, unless it is empty. -/
theorem scan_pending (stack : List Mode) (style : CommentStyle) (cs : List Char) :
    Modes.scan ⟨stack, some style⟩ cs =
      if style.bodyLength cs = 0 then Modes.scanBehindComment { stack } cs
      else .plain .commentText (style.bodyLength cs) := by
  have behind : Modes.scanBehindComment ⟨stack, some style⟩ cs =
      Modes.scanBehindComment { stack } cs := rfl
  simp only [Modes.scan, behind]
  cases style.bodyLength cs <;> rfl

/-- A scan that found a token is answered by this token, the modes behind its kind and the cursor
behind its characters. -/
theorem Scan.answer_lexeme (found : Lexeme TokenKind) (length : Nat) :
    (Scan.lexeme found length).answer modes c =
      .ok found (modes.after found.kind, c.advanceBy length) := rfl

/-- A reader of calm tokens that finds the scan of the characters ahead answers what the rule
does, which has come to `next` in the meantime. -/
theorem on_calm (code : AtCode stack) {p : Cursor.Action (Lexeme TokenKind)} {scan : Scan}
    {next : Cursor} (run : p next = scan.outcome c.position c)
    (calm : ∀ found length, scan = .lexeme found length → found.kind ∉ turningKinds) :
    on p (({ stack } : Modes), next) = scan.answer { stack } c := by
  rw [on, run]
  cases scan with
  | lexeme found length =>
    rw [Scan.answer_lexeme, after_calm code (calm found length rfl)]
    rfl
  | unterminated => rfl
  | escapeAtEnd before => rfl

/-- A table without a sign that changes the modes finds none. The hypothesis is decided on the table
of each first character. -/
theorem scanSigns_calm {signs : List (List Char × Lexeme TokenKind)} {cs : List Char}
    (calm : ∀ sign ∈ signs, sign.2.kind ∉ turningKinds) (found : Lexeme TokenKind) (length : Nat)
    (scan : scanSigns signs cs = .lexeme found length) : found.kind ∉ turningKinds := by
  rw [scanSigns] at scan
  split at scan
  · rename_i listed
    cases scan
    exact calm _ (List.mem_of_find?_eq_some listed)
  · cases scan
    decide

/-- A first character with only one sign gives this sign whatever follows it. -/
theorem scanPunctuator_alone {x : Char} {sign : Lexeme TokenKind} (signs : signsFrom x = [([], sign)])
    (xs : List Char) : scanPunctuator (x :: xs) = .lexeme sign 1 := by
  rw [scanPunctuator_cons, signs, scanSigns_cons, List.isPrefixOf, if_pos rfl]
  rfl

/-- The characters that some punctuator begins with. Anything else that is no word, number or string
is one stray character. -/
def signStarts : List Char :=
  ['.', '/', '?', '*', '+', '-', '%', '&', '|', '>', '<', '=', '!', '\n', '\r', '\t', ' ', '\x60',
    '\\', '#', ';', ':', ',', '(', ')', '\x7b', '\x7d', '[', ']']

/-- A character that begins no punctuator has an empty table, so that the scan takes it for a stray
one. -/
theorem signsFrom_eq_nil {x : Char} (other : x ∉ signStarts) : signsFrom x = [] := by
  have starts : ∀ entry ∈ punctuators, entry.1.toList.head? ∈ signStarts.map some := by decide
  rw [signsFrom, List.filterMap_eq_nil_iff]
  intro entry member
  refine if_neg fun same => other ?_
  have listed := starts entry member
  rw [same] at listed
  simpa using listed

/-- A slash that opens a comment leaves its body pending. -/
theorem readSlash_eq (code : AtCode stack) {xs : List Char} (ahead : c.rest = '/' :: xs) :
    readSlash (({ stack } : Modes), c.advanceBy 1) =
      (scanPunctuator ('/' :: xs)).answer { stack } c := by
  have signs : signsFrom '/' = [(['*'], ⟨.slashAsterisk, none⟩), (['/'], ⟨.doubleSlash, none⟩),
      (['='], ⟨.slashEquals, some .operator⟩), ([], ⟨.slash, some .operator⟩)] := by decide
  have behind := Cursor.rest_next ahead
  rw [readSlash, ← behind, scanPunctuator_cons, signs, scanSigns_cons, scanSigns_cons]
  by_cases block : (c.advanceBy 1).rest.head? = some '*'
  · rw [on_andThen_ok (Cursor.advanceIf_of_head block), if_pos rfl,
      if_pos (isPrefixOf_cons.mpr ⟨block, rfl⟩), Scan.answer_lexeme,
      after_slashAsterisk code, ← Cursor.advanceBy_advanceBy]
    rfl
  rw [on_andThen_ok (Cursor.advanceIf_of_ne block), if_neg (by simp),
    if_neg fun initial => block (isPrefixOf_cons.mp initial).1]
  by_cases line : (c.advanceBy 1).rest.head? = some '/'
  · rw [on_andThen_ok (Cursor.advanceIf_of_head line), if_pos rfl,
      if_pos (isPrefixOf_cons.mpr ⟨line, rfl⟩), Scan.answer_lexeme,
      after_doubleSlash code, ← Cursor.advanceBy_advanceBy]
    rfl
  rw [on_andThen_ok (Cursor.advanceIf_of_ne line), if_neg (by simp),
    if_neg fun initial => line (isPrefixOf_cons.mp initial).1]
  exact on_calm code (firstOf_signs _ _) (scanSigns_calm (by decide))

/-- What follows a character that begins no word, number or string is the longest punctuator
with it. -/
theorem readSign_eq (code : AtCode stack) {x : Char} {xs : List Char} (ahead : c.rest = x :: xs) :
    readSign x (({ stack } : Modes), c.advanceBy 1) =
      (scanPunctuator (x :: xs)).answer { stack } c := by
  -- A sign of several characters is looked for in the table of its first one.
  have listed {p : Cursor.Action (Lexeme TokenKind)}
      (run : p (c.advanceBy 1) = (scanPunctuator (x :: (c.advanceBy 1).rest)).outcome c.position c)
      (calm : ∀ sign ∈ signsFrom x, sign.2.kind ∉ turningKinds) :
      on p (({ stack } : Modes), c.advanceBy 1) = (scanPunctuator (x :: xs)).answer { stack } c := by
    rw [Cursor.rest_next ahead] at run
    refine on_calm code run ?_
    rw [scanPunctuator_cons]
    exact scanSigns_calm calm
  have turning {sign : Lexeme TokenKind} {f : Modes → Modes} (signs : signsFrom x = [([], sign)])
      (turn : Modes.after { stack } sign.kind = f { stack }) :
      (change f >>= fun _ => pure sign) (({ stack } : Modes), c.advanceBy 1) =
        (scanPunctuator (x :: xs)).answer { stack } c := by
    rw [scanPunctuator_alone signs, Scan.answer_lexeme, turn]
    rfl
  have alone {sign : Lexeme TokenKind} (signs : signsFrom x = [([], sign)])
      (calm : sign.kind ∉ turningKinds) :
      (pure sign : LexRule.Action Modes (Lexeme TokenKind)) (({ stack } : Modes), c.advanceBy 1) =
        (scanPunctuator (x :: xs)).answer { stack } c := by
    rw [scanPunctuator_alone signs, Scan.answer_lexeme, after_calm code calm]
    rfl
  unfold readSign
  split
  · exact listed (readDots_eq c) (by decide)
  · exact readSlash_eq code ahead
  · exact listed (firstOf_eq rfl c) (by decide)
  · exact listed (firstOf_eq rfl c) (by decide)
  · exact listed (firstOf_eq rfl c) (by decide)
  · exact listed (firstOf_eq rfl c) (by decide)
  · exact listed (firstOf_eq rfl c) (by decide)
  · exact listed (firstOf_eq rfl c) (by decide)
  · exact listed (firstOf_eq rfl c) (by decide)
  · exact listed (firstOf_eq rfl c) (by decide)
  · exact listed (firstOf_eq rfl c) (by decide)
  · exact listed (readEquals_eq rfl c) (by decide)
  · exact listed (readEquals_eq rfl c) (by decide)
  · exact alone rfl (by decide)
  · exact alone rfl (by decide)
  · exact alone rfl (by decide)
  · exact alone rfl (by decide)
  · exact turning rfl (after_backQuote code)
  · exact alone rfl (by decide)
  · exact alone rfl (by decide)
  · exact alone rfl (by decide)
  · exact alone rfl (by decide)
  · exact alone rfl (by decide)
  · exact alone rfl (by decide)
  · exact alone rfl (by decide)
  · exact turning rfl (after_openBrace code)
  · exact turning rfl (after_closeBrace code)
  · exact alone rfl (by decide)
  · exact alone rfl (by decide)
  · have other : x ∉ signStarts := by
      simp only [signStarts, List.mem_cons, List.not_mem_nil, or_false, not_or]
      and_intros <;> assumption
    have unlisted := signsFrom_eq_nil other
    have unknown : scanPunctuator (x :: xs) = .lexeme ⟨.unknown, none⟩ 1 := by
      rw [scanPunctuator_cons, unlisted]
      rfl
    rw [unknown, Scan.answer_lexeme, after_calm code (by decide)]
    rfl

/-- A reader of one fixed calm kind that takes some characters for sure. -/
theorem on_calm_ok (code : AtCode stack) {p : Cursor.Action (Lexeme TokenKind)}
    {found : Lexeme TokenKind} {length : Nat} (run : p c = .ok found (c.advanceBy length))
    (calm : found.kind ∉ turningKinds) :
    on p (({ stack } : Modes), c) = (Scan.lexeme found length).answer { stack } c :=
  on_calm code run fun _ _ same => by cases same; exact calm

/-- In code the reader of the cursor and the scan of the remaining characters answer alike, failures
included. The cases are those of the reader: a quote, the opening of an interpolation, a word, a
digit, and any other character. -/
theorem readCode_eq (code : AtCode stack) (more : c.rest ≠ []) :
    readCode (({ stack } : Modes), c) = (scanCode c.rest).answer { stack } c := by
  obtain ⟨x, xs, ahead⟩ := List.exists_cons_of_ne_nil more
  have here : c.current = some x := by rw [Cursor.current, Cursor.peek, ahead]; rfl
  have quotes : (c.is '"' || c.is '\'') = decide (x = '"' ∨ x = '\'') := by
    rw [Bool.eq_iff_iff]
    simp [Cursor.is_of_cons ahead]
  rw [readCode, cursor_andThen, quotes, opensInterpolation_of_cons ahead, Cursor.satisfies,
    Cursor.satisfies, here, Option.any_some, Option.any_some, ahead, scanCode]
  simp only [decide_eq_true_eq]
  by_cases quote : x = '"' ∨ x = '\''
  · rw [if_pos quote, if_pos quote]
    refine on_calm code (readString_eq ahead) fun found length scan => ?_
    obtain ⟨shorter, inner, -⟩ := Scan.lexeme_of_later scan
    rw [(scanString_lexeme inner).1]
    decide
  rw [if_neg quote, if_neg quote]
  by_cases opens : x = '$' ∧ xs.head? = some '\x7b'
  · obtain ⟨ys, rfl⟩ := List.head?_eq_some_iff.mp opens.2
    rw [if_pos opens, if_pos opens, on_andThen_ok (Cursor.skip_cons ahead),
      on_andThen_ok (Cursor.skip_cons (Cursor.rest_next ahead)), Cursor.advanceBy_advanceBy,
      Scan.plain, Scan.answer_lexeme, after_calm code (by decide)]
    rfl
  rw [if_neg opens, if_neg opens]
  by_cases word : isWordStart x = true
  · have whole : c.rest.takeWhile isWordPart = x :: xs.takeWhile isWordPart := by
      rw [ahead, List.takeWhile_cons_of_pos (isWordPart_of_isWordStart word)]
    have run := readWord_eq c
    rw [whole] at run
    rw [if_pos word, if_pos word]
    exact on_calm_ok code run (wordKind_induct (· ∉ turningKinds) (by decide) (by decide) _)
  rw [if_neg word, if_neg word]
  by_cases digit : x.isDigit = true
  · have whole : c.rest.takeWhile Char.isDigit = x :: xs.takeWhile Char.isDigit := by
      rw [ahead, List.takeWhile_cons_of_pos digit]
    have run := readDigits_eq c
    rw [whole] at run
    rw [if_pos digit, if_pos digit]
    exact on_calm_ok code run (by decide)
  rw [if_neg digit, if_neg digit, on_andThen_ok (Cursor.advance_cons ahead)]
  exact readSign_eq code ahead

/-- In a template the reader finds a closing back quote, the opening of an interpolation or text. A
backslash that ends the source is text as well, so that none of the three fails. -/
theorem readTemplate_eq (outer : List Mode) (more : c.rest ≠ []) :
    readTemplate (({ stack := .template :: outer } : Modes), c) =
      (scanTemplate c.rest).answer { stack := .template :: outer } c := by
  obtain ⟨x, xs, ahead⟩ := List.exists_cons_of_ne_nil more
  rw [readTemplate, scanTemplate]
  by_cases closes : c.rest.head? = some '\x60'
  · rw [on_andThen_ok (Cursor.advanceIf_of_head closes), if_pos rfl, if_pos closes]
    rfl
  rw [on_andThen_ok (Cursor.advanceIf_of_ne closes), if_neg (by simp), if_neg closes,
    cursor_andThen]
  have opening : ['$', '\x7b'].isPrefixOf c.rest = opensInterpolation c := by
    rw [Bool.eq_iff_iff, opensInterpolation_of_cons ahead, isPrefixOf_cons, isPrefixOf_cons, ahead]
    simp
  rw [opening]
  by_cases opens : opensInterpolation c = true
  · rw [if_pos opens, if_pos opens]
    rw [opensInterpolation_of_cons ahead, decide_eq_true_eq] at opens
    obtain ⟨ys, rfl⟩ := List.head?_eq_some_iff.mp opens.2
    rw [on_andThen_ok (Cursor.skip_cons ahead),
      on_andThen_ok (Cursor.skip_cons (Cursor.rest_next ahead)), Cursor.advanceBy_advanceBy]
    rfl
  · rw [if_neg opens, if_neg opens, on_andThen_ok (readTextUnits_eq c)]
    rfl

/-- Outside a comment the reader and the scan of the region agree, the region being chosen by the
stack in both. -/
theorem readRegion_eq (stack : List Mode) (more : c.rest ≠ []) :
    readRegion (({ stack } : Modes), c) =
      (Modes.scanBehindComment { stack } c.rest).answer { stack } c := by
  match stack with
  | [] => exact readCode_eq (fun _ => nofun) more
  | .template :: outer => exact readTemplate_eq outer more
  | .interpolation depth :: outer => exact readCode_eq (fun _ => nofun) more

/-- The rule for scripts answers what the scan finds, at every place where characters are left.
It fails with none but the errors of a string without an end. -/
theorem lexRule_read (modes : Modes) (more : c.rest ≠ []) :
    lexRule.read (modes, c) = (modes.scan c.rest).answer modes c := by
  obtain ⟨stack, comment⟩ := modes
  change readToken _ = _
  rw [readToken, state_andThen]
  cases comment with
  | none => exact readRegion_eq stack more
  | some style =>
    have body := readCommentBody_eq style more
    have pending : change (.expect none) ((⟨stack, some style⟩ : Modes), c) =
        .ok () (({ stack } : Modes), c) := rfl
    have forgets (scan : Scan) : scan.answer ⟨stack, some style⟩ c = scan.answer { stack } c := rfl
    dsimp only
    rw [andThen_ok pending, forgets, scan_pending]
    by_cases empty : style.bodyLength c.rest = 0
    · rw [if_pos empty] at body ⊢
      rw [on_andThen_ok body]
      exact readRegion_eq stack more
    · rw [if_neg empty] at body ⊢
      rw [on_andThen_ok body, Scan.plain, Scan.answer_lexeme, after_commentText]
      rfl

end Rule

section Steps

variable {modes modes' : Modes} {cursor cursor' : Cursor}

/-- Where the scan finds a lexeme, a step of the lexer makes a token of the characters that it
goes over. -/
theorem lexRule_step_of_scan (more : cursor.rest ≠ []) {lexeme : Lexeme TokenKind} {length : Nat}
    (found : modes.scan cursor.rest = .lexeme lexeme length) :
    lexRule.step (modes, cursor) = .ok { lexeme with
        text := String.ofList (cursor.rest.take length)
        span := ⟨cursor.position, (cursor.advanceBy length).position⟩ }
      (modes.after lexeme.kind, cursor.advanceBy length) := by
  obtain ⟨c, cs, ahead⟩ := List.exists_cons_of_ne_nil more
  have fits := modes.scan_fits c cs
  rw [← ahead, found] at fits
  have read := lexRule_read modes more
  rw [found, Scan.answer_lexeme] at read
  rw [LexRule.step_of_read more fits.2 read, Nat.max_eq_left fits.1]

/-- A step of the lexer takes what the scanner finds at the front of the characters. -/
theorem lexRule_step {token : Token TokenKind} (more : cursor.rest ≠ [])
    (step : lexRule.step (modes, cursor) = .ok token (modes', cursor')) :
    ∃ length, (Scan.lexeme token.toLexeme length).Fits cursor.rest ∧
      modes.scan cursor.rest = .lexeme token.toLexeme length ∧
      token.text = String.ofList (cursor.rest.take length) ∧ modes' = modes.after token.kind ∧
      cursor' = cursor.advanceBy length := by
  cases found : modes.scan cursor.rest with
  | lexeme lexeme length =>
    obtain ⟨c, cs, ahead⟩ := List.exists_cons_of_ne_nil more
    have fits := modes.scan_fits c cs
    rw [← ahead, found] at fits
    cases (lexRule_step_of_scan more found).symm.trans step
    exact ⟨length, fits, rfl, rfl, rfl, rfl⟩
  | unterminated =>
    have read := lexRule_read modes more
    rw [found] at read
    cases (LexRule.step_of_error read).symm.trans step
  | escapeAtEnd before =>
    have read := lexRule_read modes more
    rw [found] at read
    cases (LexRule.step_of_error read).symm.trans step

/-- Where the rule fails, the scan finds a string without an end. All that is left has been gone
over by then. -/
theorem lexRule_error {e : LexError} {left : Modes × Cursor} (more : cursor.rest ≠ [])
    (read : lexRule.read (modes, cursor) = .error e left) :
    left = ({ stack := modes.stack }, cursor.advanceBy cursor.rest.length) ∧
      (modes.scan cursor.rest = .unterminated ∧ e = .unterminatedString cursor.position ∨
        ∃ before, modes.scan cursor.rest = .escapeAtEnd before ∧
          e = .escapeAtEnd (cursor.advanceBy before).position) := by
  rw [lexRule_read modes more] at read
  cases found : modes.scan cursor.rest with
  | lexeme lexeme length =>
    rw [found] at read
    cases read
  | unterminated =>
    rw [found] at read
    cases read
    exact ⟨rfl, .inl ⟨rfl, rfl⟩⟩
  | escapeAtEnd before =>
    rw [found] at read
    cases read
    exact ⟨rfl, .inr ⟨before, rfl, rfl⟩⟩

end Steps

end Script

end ScriptFront
