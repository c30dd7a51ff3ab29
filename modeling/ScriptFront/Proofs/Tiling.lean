import Mathlib.Data.List.Chain
import Mathlib.Data.List.Induction
import ScriptFront.Token.Rule

namespace ScriptFront

/-- The place behind some characters, counted anew: one line more than there are
line feeds, one column more than there are characters behind the last of them. -/
def Position.behind (cs : List Char) : Position where
  line := .ofNat (1 + cs.count '\n')
  column := .ofNat (1 + (cs.reverse.takeWhile (· ≠ '\n')).length)
  offset := cs.length

/-- The position behind a text grows with the text by the step of its last character. -/
theorem Position.behind_concat (cs : List Char) (c : Char) :
    behind (cs ++ [c]) = (behind cs).advance c := by
  by_cases feed : c = '\n'
  · subst feed
    simp [behind, advance, ← Nat.add_assoc, UInt32.ofNat_add]
  · simp [behind, advance, feed, List.count_append, Nat.add_comm, UInt32.ofNat_add,
      UInt32.add_comm]

/-- Behind so few characters that 32 bits are enough, the numbers are the true ones. -/
theorem Position.behind_exact {cs : List Char} (few : cs.length + 1 < UInt32.size) :
    (behind cs).line.toNat = 1 + cs.count '\n' ∧
      (behind cs).column.toNat = 1 + (cs.reverse.takeWhile (· ≠ '\n')).length := by
  have lines : cs.count '\n' ≤ cs.length := List.count_le_length
  have columns : (cs.reverse.takeWhile (· ≠ '\n')).length ≤ cs.reverse.length :=
    (List.takeWhile_prefix _).length_le
  rw [List.length_reverse] at columns
  exact ⟨UInt32.toNat_ofNat_of_lt' (by omega), UInt32.toNat_ofNat_of_lt' (by omega)⟩

/-- A place of a source, with the numbers that counting the characters before it gives. They
are exact as long as 32 bits are enough for them. -/
structure Position.Counted (source : String) (place : Position) : Prop where
  within : place.offset ≤ source.length
  counted : place = .behind (source.toList.take place.offset)
  exact : source.length + 1 < UInt32.size →
    let read := source.toList.take place.offset
    place.line.toNat = 1 + read.count '\n' ∧
      place.column.toNat = 1 + (read.reverse.takeWhile (· ≠ '\n')).length

/-- The place behind a front of a source is counted from it. -/
theorem Position.counted_behind {source : String} {read : List Char}
    (initial : read <+: source.toList) : (behind read).Counted source := by
  have whole : read = source.toList.take (behind read).offset := List.prefix_iff_eq_take.mp initial
  have within : read.length ≤ source.length := by
    rw [← String.length_toList]
    exact initial.length_le
  refine ⟨within, congrArg behind whole, fun few => ?_⟩
  rw [← whole]
  exact behind_exact (by omega)

/-- The counters that a cursor carries along agree with counting anew. -/
theorem Position.start_advanceAll (cs : List Char) : start.advanceAll cs = behind cs := by
  induction cs using List.reverseRecOn with
  | nil => rfl
  | append_singleton cs c ih =>
    rw [advanceAll_append, ih, behind_concat]
    rfl

/-- Positions behind a text compose: behind two texts is behind the second, counted from behind the
first. -/
theorem Position.behind_append (first second : List Char) :
    behind (first ++ second) = (behind first).advanceAll second := by
  rw [← start_advanceAll, advanceAll_append, start_advanceAll]

variable {σ κ : Type}

/-- The characters of some tokens, one token after the other. -/
def Token.spelled (tokens : List (Token κ)) : List Char := tokens.flatMap (·.text.toList)

@[simp] theorem Token.spelled_nil : spelled ([] : List (Token κ)) = [] := rfl

@[simp] theorem Token.spelled_cons (token : Token κ) (tokens : List (Token κ)) :
    spelled (token :: tokens) = token.text.toList ++ spelled tokens := by
  simp [spelled]

/-- The text of a token list is the concatenation of the texts of its parts. -/
@[simp] theorem Token.spelled_append (first second : List (Token κ)) :
    spelled (first ++ second) = spelled first ++ spelled second := by
  simp [spelled]

/-- Every token has characters, and its extent is exactly where they stand when the tokens are
written one after the other. So no two tokens overlap, and nothing lies between them. -/
structure Measured (tokens : List (Token κ)) : Prop where
  filled : ∀ token ∈ tokens, token.text ≠ ""
  placed : ∀ before token after, tokens = before ++ token :: after →
    token.span = ⟨.behind (Token.spelled before), .behind (Token.spelled (before ++ [token]))⟩

/-- No tokens at all are measured, at the start of every run. -/
theorem Measured.nil : Measured ([] : List (Token κ)) where
  filled := by simp
  placed := by simp

/-- One more token is measured when its text is not empty and its span begins behind the tokens
before it and ends behind itself. This is the step of the invariant `measured`. -/
theorem Measured.concat {tokens : List (Token κ)} {token : Token κ} (measured : Measured tokens)
    (filled : token.text ≠ "")
    (placed : token.span = ⟨.behind (Token.spelled tokens),
      .behind (Token.spelled (tokens ++ [token]))⟩) :
    Measured (tokens ++ [token]) where
  filled := by
    intro other member
    rcases List.mem_append.mp member with old | new
    · exact measured.filled other old
    · rw [List.mem_singleton.mp new]
      exact filled
  placed := by
    intro before other after split
    rcases List.append_eq_append_iff.mp split with ⟨gap, atBefore, atEnd⟩ | ⟨gap, atTokens, atEnd⟩
    · -- `other` is the new token, since only one token stands behind the old ones.
      cases gap with
      | nil =>
        obtain ⟨rfl, -⟩ := List.cons.inj atEnd
        rw [atBefore, List.append_nil]
        exact placed
      | cons _ gap => simp at atEnd
    · cases gap with
      | nil =>
        obtain ⟨rfl, -⟩ := List.cons.inj atEnd
        rw [List.append_nil] at atTokens
        rw [← atTokens]
        exact placed
      | cons head gap =>
        obtain ⟨rfl, -⟩ := List.cons.inj atEnd
        exact measured.placed before other gap atTokens

/-- How a source is cut into tokens by a rule, with no bound on their number. The loop of the engine
has a budget, and is proved to be such a run. -/
inductive LexRule.Run (rule : LexRule σ κ) : σ → Cursor → Except LexError (List (Token κ)) → Prop
  | finish {state cursor} : cursor.rest = [] → Run rule state cursor (.ok [])
  | fail {state cursor e left} : cursor.rest ≠ [] → rule.step (state, cursor) = .error e left →
      Run rule state cursor (.error e)
  | token {state cursor token state' cursor' result} : cursor.rest ≠ [] →
      rule.step (state, cursor) = .ok token (state', cursor') → Run rule state' cursor' result →
      Run rule state cursor (result.map (token :: ·))

/-- The places at which a rule is asked for the next token of a source, with the tokens read before.
What holds of all of them is proved by induction on the steps, once for each invariant. -/
inductive LexRule.Reach (rule : LexRule σ κ) (source : String) :
    List (Token κ) → σ → Cursor → Prop
  | start : Reach rule source [] rule.initial (.ofString source)
  | next {tokens state cursor token state' cursor'} : Reach rule source tokens state cursor →
      cursor.rest ≠ [] → rule.step (state, cursor) = .ok token (state', cursor') →
      Reach rule source (tokens ++ [token]) state' cursor'

namespace LexRule

variable {rule : LexRule σ κ} {state state' : σ} {cursor cursor' : Cursor} {token : Token κ}

/-- Where a rule has come to, whether it succeeds or fails, lies some characters further on. -/
theorem read_moves (rule : LexRule σ κ) (state : σ) (cursor : Cursor) :
    ∃ n ≤ cursor.rest.length, (leaves (rule.read (state, cursor))).2 = cursor.advanceBy n :=
  (rule.onward (state, cursor)).eq_advanceBy

/-- The guard against a rule that takes no character finds one to take, since the rule is asked
only where characters are left. -/
theorem guard_advances {n : Nat} (more : cursor.rest ≠ []) (within : n ≤ cursor.rest.length)
    (stalls : (cursor.advanceBy n).position.offset = cursor.position.offset) :
    on Cursor.skip (state, cursor.advanceBy n) = .ok () (state, cursor.advanceBy 1) := by
  rw [Cursor.offset_advanceBy within] at stalls
  obtain rfl : n = 0 := by omega
  obtain ⟨x, xs, ahead⟩ := List.exists_cons_of_ne_nil more
  rw [Cursor.advanceBy_zero, on, Cursor.skip_cons ahead]

/-- What a token is made of when the rule finds a lexeme and comes `n` characters further on: the
guard takes a character if the rule has taken none, and the text is the slice gone over. -/
theorem step_of_read (more : cursor.rest ≠ []) {lexeme : Lexeme κ} {n : Nat}
    (within : n ≤ cursor.rest.length)
    (read : rule.read (state, cursor) = .ok lexeme (state', cursor.advanceBy n)) :
    rule.step (state, cursor) = .ok { lexeme with
        text := String.ofList (cursor.rest.take (max n 1))
        span := ⟨cursor.position, (cursor.advanceBy (max n 1)).position⟩ }
      (state', cursor.advanceBy (max n 1)) := by
  have some := List.length_pos_iff.mpr more
  have text := Cursor.slice?_advanceBy (show max n 1 ≤ cursor.rest.length by omega)
  unfold step
  rw [cursor_andThen]
  dsimp only
  rw [andThen_ok read, cursor_andThen]
  by_cases stalls : (cursor.advanceBy n).position.offset = cursor.position.offset
  · have none : n = 0 := by
      rw [Cursor.offset_advanceBy within] at stalls
      omega
    rw [if_pos stalls, andThen_ok (guard_advances more within stalls), cursor_andThen]
    subst none
    rw [Nat.zero_max] at text ⊢
    rw [text]
    rfl
  · have moved : max n 1 = n := by
      rw [Cursor.offset_advanceBy within] at stalls
      omega
    rw [moved] at text ⊢
    rw [if_neg stalls, cursor_andThen, text]
    rfl

/-- A read that fails makes the step fail with the same error: the guard behind the read is not
reached. -/
theorem step_of_error {e : LexError} {left : σ × Cursor}
    (read : rule.read (state, cursor) = .error e left) :
    rule.step (state, cursor) = .error e left := by
  unfold step
  rw [cursor_andThen]
  exact andThen_error read

/-- The engine adds no failure of its own: the errors are those of the rule. -/
theorem step_error {e : LexError} {left : σ × Cursor} (more : cursor.rest ≠ [])
    (step : rule.step (state, cursor) = .error e left) :
    rule.read (state, cursor) = .error e left := by
  cases read : rule.read (state, cursor) with
  | error e' left' =>
    cases (step_of_error read).symm.trans step
    rfl
  | ok lexeme next =>
    obtain ⟨n, within, moved⟩ := rule.read_moves state cursor
    obtain ⟨state', cursor'⟩ := next
    rw [read] at moved
    obtain rfl : cursor' = cursor.advanceBy n := moved
    cases (step_of_read more within read).symm.trans step

/-- A token goes over at least one character, and is made of the characters gone over. -/
theorem step_ok (more : cursor.rest ≠ [])
    (step : rule.step (state, cursor) = .ok token (state', cursor')) :
    ∃ stride, 0 < stride ∧ stride ≤ cursor.rest.length ∧ cursor' = cursor.advanceBy stride ∧
      token.text = String.ofList (cursor.rest.take stride) ∧ token.text ≠ "" ∧
      token.span = ⟨cursor.position, cursor'.position⟩ := by
  cases read : rule.read (state, cursor) with
  | error e left => cases (step_of_error read).symm.trans step
  | ok lexeme next =>
    obtain ⟨n, within, moved⟩ := rule.read_moves state cursor
    obtain ⟨behind, reached⟩ := next
    rw [read] at moved
    obtain rfl : reached = cursor.advanceBy n := moved
    have some := List.length_pos_iff.mpr more
    cases (step_of_read more within read).symm.trans step
    refine ⟨max n 1, by omega, by omega, rfl, rfl, ?_, rfl⟩
    simp only [ne_eq, ← String.toList_inj, String.toList_ofList, String.toList_empty,
      List.take_eq_nil_iff, not_or]
    exact ⟨by omega, more⟩

/-- Every token takes a character, so the loop ends, and a budget of the characters
left changes nothing. -/
theorem tokensWithin_run {budget : Nat} (enough : cursor.rest.length ≤ budget) :
    rule.Run state cursor (rule.tokensWithin budget state cursor) := by
  induction budget generalizing state cursor with
  | zero => exact .finish (List.length_eq_zero_iff.mp (by omega))
  | succ budget ih =>
    unfold tokensWithin
    by_cases ended : cursor.rest = []
    · rw [if_pos (by simp [Cursor.isAtEnd, ended])]
      exact .finish ended
    · rw [if_neg (by simpa [Cursor.isAtEnd] using ended)]
      cases step : rule.step (state, cursor) with
      | error e left => exact .fail ended step
      | ok token next =>
        obtain ⟨state', cursor'⟩ := next
        obtain ⟨stride, positive, -, moved, -⟩ := step_ok ended step
        have shorter : cursor'.rest.length ≤ budget := by
          rw [moved, Cursor.rest_advanceBy, List.length_drop]
          omega
        exact .token ended step (ih shorter)

/-- The engine's loop is a run: its budget, the number of characters, is never used up before the
text, since every step goes over a character. -/
theorem tokenize_run (rule : LexRule σ κ) (source : String) :
    rule.Run rule.initial (.ofString source) (rule.tokenize source) :=
  tokensWithin_run le_rfl

/-- The loop leaves no choice: it has at most one answer. -/
theorem Run.unique {first second : Except LexError (List (Token κ))}
    (run : rule.Run state cursor first) (other : rule.Run state cursor second) :
    first = second := by
  induction run generalizing second with
  | finish ended =>
    cases other with
    | finish => rfl
    | fail more => exact absurd ended more
    | token more => exact absurd ended more
  | fail more failed =>
    cases other with
    | finish ended => exact absurd ended more
    | fail _ failed' => cases failed.symm.trans failed'; rfl
    | token _ step => cases failed.symm.trans step
  | token more step rest ih =>
    cases other with
    | finish ended => exact absurd ended more
    | fail _ failed => cases failed.symm.trans step
    | token _ step' rest' =>
      cases step.symm.trans step'
      rw [ih rest']

/-- A run that ends well stops where no character is left, and its tokens are those
read on the way. -/
theorem Run.reaches {source : String} {result : Except LexError (List (Token κ))}
    (run : rule.Run state cursor result) {tokens taken : List (Token κ)}
    (reach : rule.Reach source taken state cursor) (ok : result = .ok tokens) :
    ∃ state' cursor', rule.Reach source (taken ++ tokens) state' cursor' ∧ cursor'.rest = [] := by
  induction run generalizing taken tokens with
  | @finish state cursor ended =>
    cases ok
    exact ⟨state, cursor, by simpa using reach, ended⟩
  | fail => cases ok
  | @token state cursor token state' cursor' result more step rest ih =>
    cases result with
    | error e => cases ok
    | ok others =>
      cases ok
      obtain ⟨final, stop, reached, ended⟩ := ih (.next reach more step) rfl
      exact ⟨final, stop, by simpa using reached, ended⟩

/-- A run that fails does so at a place that it reached, with the error that the rule
gave there. -/
theorem Run.fails {source : String} {result : Except LexError (List (Token κ))}
    (run : rule.Run state cursor result) {taken : List (Token κ)} {e : LexError}
    (reach : rule.Reach source taken state cursor) (error : result = .error e) :
    ∃ tokens state' cursor' left, rule.Reach source tokens state' cursor' ∧ cursor'.rest ≠ [] ∧
      rule.read (state', cursor') = .error e left := by
  induction run generalizing taken with
  | finish => cases error
  | @fail state cursor e' left more failed =>
    cases error
    exact ⟨taken, state, cursor, left, reach, more, step_error more failed⟩
  | @token state cursor token state' cursor' result more step rest ih =>
    cases result with
    | ok others => cases error
    | error e' =>
      cases error
      exact ih (.next reach more step) rfl

namespace Reach

variable {source : String} {tokens : List (Token κ)}

/-- What has been read and what is left make up the source, and the cursor stands
between them. -/
theorem split (reach : rule.Reach source tokens state cursor) :
    Token.spelled tokens ++ cursor.rest = source.toList ∧
      cursor.position = .behind (Token.spelled tokens) := by
  induction reach with
  | start => exact ⟨rfl, rfl⟩
  | @next tokens state cursor token state' cursor' previous more step ih =>
    obtain ⟨stride, -, -, moved, text, -⟩ := step_ok more step
    have spelled : Token.spelled (tokens ++ [token]) =
        Token.spelled tokens ++ cursor.rest.take stride := by
      simp [text]
    rw [spelled, moved]
    constructor
    · rw [Cursor.rest_advanceBy, List.append_assoc, List.take_append_drop, ih.1]
    · rw [Position.behind_append, ← ih.2]
      rfl

/-- After any number of steps the tokens are measured. It holds for every rule, whatever its read
does, because the engine itself takes the text from the span and moves on when a read does not. -/
theorem measured (reach : rule.Reach source tokens state cursor) : Measured tokens := by
  induction reach with
  | start => exact .nil
  | @next tokens state cursor token state' cursor' previous more step ih =>
    obtain ⟨stride, -, -, -, -, filled, span⟩ := step_ok more step
    refine ih.concat filled ?_
    rw [span, previous.split.2, (Reach.next previous more step).split.2]

end Reach

/-- From a place that it reached, a rule goes on to all that it makes of the source. -/
theorem Reach.run_rest {source : String} {tokens : List (Token κ)}
    (reach : rule.Reach source tokens state cursor) :
    ∃ result, rule.Run state cursor result ∧ rule.tokenize source = result.map (tokens ++ ·) := by
  induction reach with
  | start =>
    refine ⟨_, tokenize_run rule source, ?_⟩
    cases rule.tokenize source <;> rfl
  | @next tokens state cursor token state' cursor' previous more step ih =>
    obtain ⟨result, run, whole⟩ := ih
    cases run with
    | finish ended => exact absurd ended more
    | fail _ failed => cases failed.symm.trans step
    | @token _ _ _ _ _ result _ step' rest =>
      cases step.symm.trans step'
      refine ⟨result, rest, ?_⟩
      rw [whole]
      cases result <;> simp [Except.map]

/-- The tokens of a source spell it out, and each stands where its text does. -/
theorem tokenize_measured {source : String} {tokens : List (Token κ)}
    (run : rule.tokenize source = .ok tokens) :
    Token.spelled tokens = source.toList ∧ Measured tokens := by
  obtain ⟨state, cursor, reach, ended⟩ := (tokenize_run rule source).reaches .start run
  rw [List.nil_append] at reach
  have split := reach.split.1
  rw [ended, List.append_nil] at split
  exact ⟨split, reach.measured⟩

end LexRule

namespace Measured

variable {tokens : List (Token κ)} (measured : Measured tokens)
include measured

/-- Two neighbours share the place between them. -/
theorem meeting : tokens.IsChain fun token next => token.span.stop = next.span.start := by
  rw [List.isChain_iff_forall_rel_of_append_cons_cons]
  intro token next before after split
  have first := measured.placed before token (next :: after) split
  have second := measured.placed (before ++ [token]) next after (by simp [split])
  rw [first, second]

theorem start_of_head {token : Token κ} (first : token ∈ tokens.head?) :
    token.span.start = .start := by
  obtain ⟨after, atTokens⟩ := List.head?_eq_some_iff.mp (Option.mem_def.mp first)
  rw [measured.placed [] token after atTokens]
  rfl

theorem stop_of_last {token : Token κ} (last : token ∈ tokens.getLast?) :
    token.span.stop = .behind (Token.spelled tokens) := by
  obtain ⟨before, atTokens⟩ := List.getLast?_eq_some_iff.mp (Option.mem_def.mp last)
  rw [measured.placed before token [] atTokens, ← atTokens]

/-- Both ends of a token are counted from the characters before them. -/
theorem counted {source : String} (spelled : Token.spelled tokens = source.toList)
    {token : Token κ} (member : token ∈ tokens) :
    token.span.start.Counted source ∧ token.span.stop.Counted source := by
  obtain ⟨before, after, split⟩ := List.append_of_mem member
  rw [measured.placed before token after split]
  constructor
  · apply Position.counted_behind
    rw [← spelled, split, Token.spelled_append]
    exact List.prefix_append _ _
  · apply Position.counted_behind
    rw [← spelled, split, List.append_cons before token after,
      Token.spelled_append (before ++ [token])]
    exact List.prefix_append _ _

end Measured

/-- The text of every token is the slice of the source between its ends, and there is one. -/
theorem Measured.sliced {source : String} {tokens : List (Token κ)} (measured : Measured tokens)
    (spelled : Token.spelled tokens = source.toList) {token : Token κ} (member : token ∈ tokens) :
    (Cursor.ofString source).slice? token.span.start.offset token.span.stop.offset =
      some token.text := by
  obtain ⟨before, after, split⟩ := List.append_of_mem member
  have chars : (Cursor.ofString source).source =
      Token.spelled before ++ (token.text.toList ++ Token.spelled after) := by
    rw [Cursor.source_ofString, ← spelled, split, Token.spelled_append, Token.spelled_cons]
  rw [measured.placed before token after split, Cursor.slice?, chars]
  simp [Position.behind, List.take_length_add_append]

/-- Tokens that cover a source without gap or overlap, every place between two of
them being the one that counting its characters gives. -/
structure Tiling (source : String) (tokens : List (Token κ)) : Prop where
  joined : String.join (tokens.map (·.text)) = source
  filled : ∀ token ∈ tokens, token.text ≠ ""
  sliced : ∀ token ∈ tokens, (Cursor.ofString source).slice? token.span.start.offset
    token.span.stop.offset = some token.text
  first : ∀ token ∈ tokens.head?, token.span.start = ⟨1, 1, 0⟩
  meeting : tokens.IsChain fun token next => token.span.stop = next.span.start
  last : ∀ token ∈ tokens.getLast?, token.span.stop.offset = source.length
  counted : ∀ token ∈ tokens, token.span.start.Counted source ∧ token.span.stop.Counted source

/-- Measured tokens that spell the source cut it into pieces: nothing is left out, nothing is told
twice, and each slice of the source by a span is the text of its token. -/
theorem Measured.tiling {source : String} {tokens : List (Token κ)} (measured : Measured tokens)
    (spelled : Token.spelled tokens = source.toList) : Tiling source tokens where
  joined := by rw [← String.toList_inj, String.toList_join, ← spelled, Token.spelled, List.flatMap_map]
  filled := measured.filled
  sliced _ member := measured.sliced spelled member
  first _ := measured.start_of_head
  meeting := measured.meeting
  last token atLast := by
    rw [measured.stop_of_last atLast, spelled]
    exact String.length_toList
  counted _ member := measured.counted spelled member

/-- Cutting a source into tokens always ends, with the one answer that the unbounded
loop has. Nothing of the source is lost when it succeeds, and when it fails the error
is the one that the rule gave at a place which the loop reached. -/
theorem LexRule.tokenize_lossless (rule : LexRule σ κ) (source : String) :
    (∀ result, rule.Run rule.initial (.ofString source) result ↔ result = rule.tokenize source) ∧
      match rule.tokenize source with
      | .ok tokens => Tiling source tokens
      | .error e => ∃ tokens state cursor left, rule.Reach source tokens state cursor ∧
          cursor.rest ≠ [] ∧ rule.read (state, cursor) = .error e left := by
  have run := tokenize_run rule source
  refine ⟨fun result => ⟨fun other => other.unique run, ?_⟩, ?_⟩
  · rintro rfl
    exact run
  · cases answer : rule.tokenize source with
    | ok tokens =>
      obtain ⟨spelled, measured⟩ := tokenize_measured answer
      exact measured.tiling spelled
    | error e => exact run.fails .start answer

end ScriptFront
