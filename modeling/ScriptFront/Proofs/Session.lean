import ScriptFront.Proofs.Guarded
import ScriptFront.Token.Lexer

namespace ScriptFront

variable {σ κ : Type}

/-- What a rule still reads from some place on: the tokens before its first error, and that error if
there is one. It follows the rule's own steps, and so has no bound on their number. -/
inductive LexRule.Ahead (rule : LexRule σ κ) :
    σ → Cursor → List (Token κ) → Option LexError → Prop
  | finish {state cursor} : cursor.rest = [] → Ahead rule state cursor [] none
  | fail {state cursor e state' cursor'} : cursor.rest ≠ [] →
      rule.step (state, cursor) = .error e (state', cursor') → Ahead rule state cursor [] (some e)
  | token {state cursor token state' cursor' later e} : cursor.rest ≠ [] →
      rule.step (state, cursor) = .ok token (state', cursor') → Ahead rule state' cursor' later e →
      Ahead rule state cursor (token :: later) e

/-- A rule that gives up the whole source when it fails: behind an error no further token can be
read. A rule without this could tell several errors, one after the other. -/
def LexRule.GivesUp (rule : LexRule σ κ) : Prop :=
  ∀ state cursor e state' cursor', cursor.rest ≠ [] →
    rule.step (state, cursor) = .error e (state', cursor') → cursor'.rest = []

namespace LexRule

variable {rule : LexRule σ κ} {state : σ} {cursor : Cursor}

/-- Every token takes a character, so there is an end or an error ahead. -/
theorem exists_ahead (rule : LexRule σ κ) (budget : Nat) (state : σ) (cursor : Cursor)
    (enough : cursor.rest.length ≤ budget) : ∃ tokens e, rule.Ahead state cursor tokens e := by
  induction budget generalizing state cursor with
  | zero => exact ⟨[], none, .finish (List.length_eq_zero_iff.mp (by omega))⟩
  | succ budget ih =>
    by_cases ended : cursor.rest = []
    · exact ⟨[], none, .finish ended⟩
    match step : rule.step (state, cursor) with
    | .error e (state', cursor') => exact ⟨[], some e, .fail ended step⟩
    | .ok token (state', cursor') =>
      obtain ⟨stride, positive, -, moved, -⟩ := step_ok ended step
      have some := List.length_pos_iff.mpr ended
      have shorter : cursor'.rest.length ≤ budget := by
        rw [moved, Cursor.rest_advanceBy, List.length_drop]
        omega
      obtain ⟨later, e, ahead⟩ := ih state' cursor' shorter
      exact ⟨token :: later, e, .token ended step ahead⟩

/-- Cutting the whole source finds the same tokens, unless an error stands behind them. -/
theorem Ahead.run {tokens : List (Token κ)} {e : Option LexError}
    (ahead : rule.Ahead state cursor tokens e) :
    rule.Run state cursor (e.elim (.ok tokens) .error) := by
  induction ahead with
  | finish ended => exact .finish ended
  | fail more step => exact .fail more step
  | @token _ _ _ _ _ _ e more step _ ih =>
    have whole := Run.token more step ih
    cases e <;> exact whole

theorem Ahead.isAtEnd_eq {tokens : List (Token κ)} {e : Option LexError}
    (ahead : rule.Ahead state cursor tokens e) :
    cursor.isAtEnd = (tokens.isEmpty && e.isNone) := by
  cases ahead with
  | finish ended => simp [Cursor.isAtEnd, ended]
  | fail more => simpa [Cursor.isAtEnd] using more
  | token more => simpa [Cursor.isAtEnd] using more

end LexRule

namespace Lexer

/-- What a lexer can be asked for, one thing after the other. -/
inductive Request where
  | peek (n : Nat)
  | nextToken
  | next
  | isFinished

/-- What it says: a token, an error, that there is nothing left, or whether all has been handed out.
Replies of a lexer and of a list of tokens are compared in this form. -/
inductive Reply (κ : Type) where
  | token (t : Token κ)
  | error (e : LexError)
  | nothing
  | finished (b : Bool)

namespace Reply

/-- A token that may be missing, as a reply. -/
def ofOption : Option (Token κ) → Reply κ
  | some t => token t
  | none => nothing

/-- The token in a reply, if there is one. -/
def token? : Reply κ → Option (Token κ)
  | token t => some t
  | _ => none

/-- Whether a reply tells of an error. -/
def isError : Reply κ → Bool
  | error _ => true
  | _ => false

end Reply

/-- The outcome of an action as a reply. -/
def replying (action : Action σ κ (Option (Token κ))) : StateM (Lexer σ κ) (Reply κ) := fun lexer =>
  match action lexer with
  | .ok found lexer => (.ofOption found, lexer)
  | .error e lexer => (.error e, lexer)

/-- The lexer's answer to a request, with what becomes of the lexer. Only the iteration turns an
error into an item and ends behind it. -/
def answer : Request → StateM (Lexer σ κ) (Reply κ)
  | .peek n => replying (peek n)
  | .nextToken => replying nextToken
  | .next => fun lexer =>
    match next lexer with
    | (some (.ok token), lexer) => (.token token, lexer)
    | (some (.error e), lexer) => (.error e, lexer)
    | (none, lexer) => (.nothing, lexer)
  | .isFinished => fun lexer => (.finished lexer.isFinished, lexer)

/-- The replies to some requests, each asked of the lexer that the one before it left behind, also
if that failed. -/
def session (lexer : Lexer σ κ) : List Request → List (Reply κ)
  | [] => []
  | request :: requests =>
    let (reply, lexer) := answer request lexer
    reply :: lexer.session requests

end Lexer

/-- A list of tokens that are handed out one by one: all of them, how many are gone, and
the error behind the last one as long as nobody has been told. -/
structure Handout (κ : Type) where
  tokens : List (Token κ)
  gone : Nat := 0
  error : Option LexError

namespace Handout

open Lexer (Request Reply)

/-- What stands at a place of the list. Behind the last token stands the error, which is
told once. -/
def look (h : Handout κ) (i : Nat) : Reply κ × Handout κ :=
  match h.tokens[i]? with
  | some token => (.token token, h)
  | none =>
    match h.error with
    | some e => (.error e, { h with error := none })
    | none => (.nothing, h)

/-- What stands at the front of the list, which is handed out if it is a token. -/
def take (h : Handout κ) : Reply κ × Handout κ :=
  let (reply, h) := h.look h.gone
  (reply, { h with gone := min (h.gone + 1) h.tokens.length })

/-- The answer that the list gives to a request. Looking ahead and taking share one rule: what lies
behind the last token is the error, and it is told once. -/
def answer (h : Handout κ) : Request → Reply κ × Handout κ
  | .peek n => h.look (h.gone + n)
  | .nextToken => h.take
  | .next => h.take
  | .isFinished => (.finished (h.gone = h.tokens.length && h.error.isNone), h)

/-- The replies of the list to some requests, one after the other. What one request takes is gone
for the next. -/
def session (h : Handout κ) : List Request → List (Reply κ)
  | [] => []
  | request :: requests =>
    let (reply, h) := h.answer request
    reply :: h.session requests

/-- A session is its first answer and then the session of what the first request left. -/
theorem session_cons (h : Handout κ) (request : Request) (requests : List Request) :
    h.session (request :: requests) =
      (h.answer request).1 :: (h.answer request).2.session requests := rfl

end Handout

section Refinement

variable {rule : LexRule σ κ}

/-- The lexer holds the tokens that it has read ahead, and can read those behind them. Only
the iteration remembers an error, and then there is nothing left. -/
structure Lexer.Holds (rule : LexRule σ κ) (lexer : Lexer σ κ) (h : Handout κ)
    (later : List (Token κ)) : Prop where
  sameRule : lexer.rule = rule
  left : h.tokens.drop h.gone = lexer.ahead ++ later
  within : h.gone ≤ h.tokens.length
  ahead : rule.Ahead lexer.state lexer.cursor later h.error
  failed : lexer.failed = true → h.gone = h.tokens.length ∧ h.error = none

namespace Lexer.Holds

variable {lexer : Lexer σ κ} {h : Handout κ} {later : List (Token κ)}

/-- The tokens the specification has not handed out are those the lexer has buffered and then those
it has still to read. -/
theorem getElem? (holds : Holds rule lexer h later) (n : Nat) :
    h.tokens[h.gone + n]? = (lexer.ahead ++ later)[n]? := by
  rw [← holds.left, List.getElem?_drop]

/-- What is gone, what is buffered and what is to be read are together all the tokens. -/
theorem length (holds : Holds rule lexer h later) :
    h.gone + (lexer.ahead.length + later.length) = h.tokens.length := by
  have sizes := congrArg List.length holds.left
  have within := holds.within
  simp only [List.length_drop, List.length_append] at sizes
  omega

/-- An error behind the last token is the only thing that an exhausted list can give. -/
theorem not_failed (holds : Holds rule lexer h later) (some : later ≠ [] ∨ h.error ≠ none) :
    lexer.failed = false := by
  by_contra failed
  obtain ⟨all, told⟩ := holds.failed (by simpa using failed)
  have size := holds.length
  rcases some with tokens | error
  · have positive := List.length_pos_iff.mpr tokens
    omega
  · exact error told

end Lexer.Holds

namespace Lexer

variable {lexer : Lexer σ κ} {h : Handout κ} {later : List (Token κ)}

section Reading

variable (lexer) {e : Option LexError}

/-- A read with a token ahead gives this token and leaves those behind it ahead. -/
theorem read_token {token : Token κ}
    (ahead : lexer.rule.Ahead lexer.state lexer.cursor (token :: later) e) :
    ∃ state cursor, read lexer = .ok (some token) { lexer with state, cursor } ∧
      lexer.rule.Ahead state cursor later e := by
  cases ahead with
  | @token _ _ _ state cursor _ _ more step ahead =>
    refine ⟨state, cursor, ?_, ahead⟩
    unfold read
    rw [if_neg (by simpa [Cursor.isAtEnd] using more), step]

theorem read_none (ahead : lexer.rule.Ahead lexer.state lexer.cursor [] none) :
    read lexer = .ok none lexer := by
  cases ahead with
  | finish ended =>
    unfold read
    rw [if_pos (by simp [Cursor.isAtEnd, ended])]

/-- A rule that gives up leaves nothing to be read behind its error. -/
theorem read_error {e : LexError} (gives : lexer.rule.GivesUp)
    (ahead : lexer.rule.Ahead lexer.state lexer.cursor [] (some e)) :
    ∃ state cursor, read lexer = .error e { lexer with state, cursor } ∧
      lexer.rule.Ahead state cursor [] none := by
  cases ahead with
  | @fail _ _ _ state cursor more step =>
    refine ⟨state, cursor, ?_, .finish (gives _ _ _ _ _ more step)⟩
    unfold read
    rw [if_neg (by simpa [Cursor.isAtEnd] using more), step]

end Reading

section Buffer

/-- Reading ahead keeps the tokens in order; a source that ends too early gives those that
it has. -/
theorem buffer_holds (n : Nat) (holds : Holds rule lexer h later)
    (calm : n ≤ later.length ∨ h.error = none) :
    ∃ lexer', buffer n lexer = .ok () lexer' ∧ lexer'.ahead = lexer.ahead ++ later.take n ∧
      Holds rule lexer' h (later.drop n) := by
  induction n generalizing lexer later with
  | zero => exact ⟨lexer, rfl, by simp, by simpa using holds⟩
  | succ n ih =>
    obtain ⟨rfl, left, within, ahead, failed⟩ := holds
    unfold buffer
    cases later with
    | nil =>
      have told : h.error = none := by simpa using calm
      rw [told] at ahead
      refine ⟨lexer, ?_, by simp, rfl, by simpa using left, within, by rwa [told], failed⟩
      simp only [bind, EStateM.bind, read_none lexer ahead]
      rfl
    | cons token later =>
      obtain ⟨state, cursor, run, further⟩ := read_token lexer ahead
      have next : Holds _ { lexer with state, cursor, ahead := lexer.ahead ++ [token] } h later :=
        ⟨rfl, by simpa using left, within, further, failed⟩
      obtain ⟨lexer', rest, atAhead, holds'⟩ := ih next (by simpa using calm)
      refine ⟨lexer', ?_, by simpa using atAhead, holds'⟩
      simp only [bind, EStateM.bind, run]
      exact rest

/-- An error that is met on the way leaves behind the tokens in front of it. -/
theorem buffer_error {e : LexError} (gives : rule.GivesUp) (n : Nat)
    (holds : Holds rule lexer h later) (short : later.length < n) (atError : h.error = some e) :
    ∃ lexer', buffer n lexer = .error e lexer' ∧
      Holds rule lexer' { h with error := none } [] := by
  induction n generalizing lexer later with
  | zero => omega
  | succ n ih =>
    have calm := holds.not_failed (Or.inr (by simp [atError]))
    obtain ⟨rfl, left, within, ahead, failed⟩ := holds
    unfold buffer
    cases later with
    | nil =>
      rw [atError] at ahead
      obtain ⟨state, cursor, run, further⟩ := read_error lexer gives ahead
      refine ⟨{ lexer with state, cursor }, ?_, rfl, left, within, further, fun again => ?_⟩
      · simp only [bind, EStateM.bind, run]
      · rw [calm] at again
        cases again
    | cons token later =>
      obtain ⟨state, cursor, run, further⟩ := read_token lexer ahead
      have next : Holds _ { lexer with state, cursor, ahead := lexer.ahead ++ [token] } h later :=
        ⟨rfl, by simpa using left, within, further, failed⟩
      obtain ⟨lexer', rest, holds'⟩ := ih next (by simpa using short)
      refine ⟨lexer', ?_, holds'⟩
      simp only [bind, EStateM.bind, run]
      exact rest

end Buffer

theorem get_eq (lexer : Lexer σ κ) : (get : Action σ κ (Lexer σ κ)) lexer = .ok lexer lexer := rfl

/-- Looking ahead keeps lexer and list in step. The induction is on the number of places looked
ahead, since the buffer is filled one token at a time and an error met on the way is told and
forgotten. -/
theorem peek_holds (gives : rule.GivesUp) (n : Nat) (holds : Holds rule lexer h later) :
    ∃ later', (replying (peek n) lexer).1 = (h.look (h.gone + n)).1 ∧
      Holds rule (replying (peek n) lexer).2 (h.look (h.gone + n)).2 later' := by
  have place := holds.getElem? n
  have calm (enough : n + 1 - lexer.ahead.length ≤ later.length ∨ h.error = none) :
      ∃ lexer', peek n lexer = .ok h.tokens[h.gone + n]? lexer' ∧
        ∃ later', Holds rule lexer' h later' := by
    obtain ⟨lexer', run, atAhead, holds'⟩ := buffer_holds _ holds enough
    refine ⟨lexer', ?_, _, holds'⟩
    have there : lexer'.ahead[n]? = h.tokens[h.gone + n]? := by
      rw [atAhead, place, List.getElem?_append, List.getElem?_append]
      split
      · rfl
      · rw [List.getElem?_take_of_lt (by omega)]
    unfold peek
    simp only [bind, EStateM.bind, get_eq, run, pure, EStateM.pure, there]
  cases found : h.tokens[h.gone + n]? with
  | some token =>
    obtain ⟨inside, -⟩ := List.getElem?_eq_some_iff.mp (place.symm.trans found)
    rw [List.length_append] at inside
    obtain ⟨lexer', run, later', holds'⟩ := calm (Or.inl (by omega))
    refine ⟨later', ?_, ?_⟩ <;> simp only [replying, run, Handout.look, found]
    · rfl
    · exact holds'
  | none =>
    have outside := List.getElem?_eq_none_iff.mp (place.symm.trans found)
    rw [List.length_append] at outside
    cases atError : h.error with
    | none =>
      obtain ⟨lexer', run, later', holds'⟩ := calm (Or.inr atError)
      refine ⟨later', ?_, ?_⟩ <;> simp only [replying, run, Handout.look, found, atError]
      · rfl
      · exact holds'
    | some e =>
      obtain ⟨lexer', run, holds'⟩ := buffer_error gives (n + 1 - lexer.ahead.length) holds
        (by omega) atError
      have failing : peek n lexer = .error e lexer' := by
        unfold peek
        simp only [bind, EStateM.bind, get_eq, run]
      refine ⟨[], ?_, ?_⟩ <;> simp only [replying, failing, Handout.look, found, atError]
      exact holds'

/-- The three things that can happen to the next token. -/
theorem nextToken_cases (gives : rule.GivesUp) (holds : Holds rule lexer h later) :
    (∃ token lexer' later', nextToken lexer = .ok (some token) lexer' ∧
        h.tokens[h.gone]? = some token ∧ Holds rule lexer' { h with gone := h.gone + 1 } later') ∨
      (nextToken lexer = .ok none lexer ∧ h.gone = h.tokens.length ∧ h.error = none) ∨
      ∃ e lexer', nextToken lexer = .error e lexer' ∧ h.gone = h.tokens.length ∧
        h.error = some e ∧ Holds rule lexer' { h with error := none } [] := by
  have size := holds.length
  have place := holds.getElem? 0
  have calm := holds.not_failed
  obtain ⟨rfl, left, within, ahead, failed⟩ := holds
  have tail {token : Token κ} {others : List (Token κ)}
      (front : h.tokens.drop h.gone = token :: others) : h.tokens.drop (h.gone + 1) = others := by
    rw [← List.drop_drop, front, List.drop_succ_cons, List.drop_zero]
  cases buffered : lexer.ahead with
  | cons token others =>
    rw [buffered] at left place size
    refine Or.inl ⟨token, { lexer with ahead := others }, later, ?_, place, rfl, tail left, ?_,
      ahead, fun again => ?_⟩
    · simp only [nextToken, buffered]
    · change h.gone + 1 ≤ h.tokens.length
      rw [List.length_cons] at size
      omega
    · have all := (failed again).1
      rw [List.length_cons] at size
      omega
  | nil =>
    have reads : nextToken lexer = read lexer := by simp only [nextToken, buffered]
    rw [buffered] at left place size
    rw [reads]
    cases later with
    | cons token later =>
      obtain ⟨state, cursor, run, further⟩ := read_token lexer ahead
      refine Or.inl ⟨token, _, later, run, place, rfl, ?_, ?_, further, fun again => ?_⟩
      · rw [buffered]
        exact tail left
      · change h.gone + 1 ≤ h.tokens.length
        rw [List.length_cons] at size
        omega
      · rw [calm (Or.inl (List.cons_ne_nil _ _))] at again
        cases again
    | nil =>
      cases atError : h.error with
      | none =>
        rw [atError] at ahead
        exact Or.inr (Or.inl ⟨read_none lexer ahead, by simpa using size, rfl⟩)
      | some e =>
        rw [atError] at ahead
        obtain ⟨state, cursor, run, further⟩ := read_error lexer gives ahead
        refine Or.inr (Or.inr ⟨e, _, run, by simpa using size, rfl, rfl, ?_, within, further,
          fun again => ?_⟩)
        · rw [buffered]
          exact left
        · rw [calm (Or.inr (by simp [atError]))] at again
          cases again

end Lexer

namespace Handout

variable {h : Handout κ}

theorem take_token {token : Token κ} (there : h.tokens[h.gone]? = some token) :
    h.take = (.token token, { h with gone := h.gone + 1 }) := by
  obtain ⟨inside, -⟩ := List.getElem?_eq_some_iff.mp there
  simp only [take, look, there]
  rw [Nat.min_eq_left inside]

theorem take_nothing (all : h.gone = h.tokens.length) (told : h.error = none) :
    h.take = (.nothing, h) := by
  obtain ⟨tokens, gone, error⟩ := h
  obtain rfl : gone = tokens.length := all
  obtain rfl : error = none := told
  have none : tokens[tokens.length]? = none := List.getElem?_eq_none (Nat.le_refl _)
  simp only [take, look, none]
  rw [Nat.min_eq_right (Nat.le_succ _)]

/-- Taking at the end of the tokens gives the pending error, which is then no longer pending. -/
theorem take_error {e : LexError} (all : h.gone = h.tokens.length) (pending : h.error = some e) :
    h.take = (.error e, { h with error := none }) := by
  have none : h.tokens[h.gone]? = none := List.getElem?_eq_none (by omega)
  simp only [take, look, none, pending]
  rw [Nat.min_eq_right (by omega), ← all]

end Handout

namespace Lexer

variable {lexer : Lexer σ κ} {h : Handout κ} {later : List (Token κ)}

/-- Every reply is the one that the list gives, and the lexer goes on holding the list. -/
theorem answer_holds (gives : rule.GivesUp) (holds : Holds rule lexer h later)
    (request : Request) : ∃ later', (answer request lexer).1 = (h.answer request).1 ∧
      Holds rule (answer request lexer).2 (h.answer request).2 later' := by
  cases request with
  | peek n => exact peek_holds gives n holds
  | nextToken =>
    rcases nextToken_cases gives holds with ⟨token, lexer', later', run, there, holds'⟩ |
      ⟨run, all, told⟩ | ⟨e, lexer', run, all, pending, holds'⟩
    · simp only [answer, replying, run, Handout.answer, Handout.take_token there]
      exact ⟨later', rfl, holds'⟩
    · simp only [answer, replying, run, Handout.answer, Handout.take_nothing all told]
      exact ⟨later, rfl, holds⟩
    · simp only [answer, replying, run, Handout.answer, Handout.take_error all pending]
      exact ⟨[], trivial, holds'⟩
  | next =>
    cases failed : lexer.failed with
    | true =>
      obtain ⟨all, told⟩ := holds.failed failed
      simp only [answer, next, failed, if_true, Handout.answer, Handout.take_nothing all told]
      exact ⟨later, trivial, holds⟩
    | false =>
      rcases nextToken_cases gives holds with ⟨token, lexer', later', run, there, holds'⟩ |
        ⟨run, all, told⟩ | ⟨e, lexer', run, all, pending, holds'⟩
      · simp only [answer, next, failed, Bool.false_eq_true, if_false, run, Option.map_some,
          Handout.answer, Handout.take_token there]
        exact ⟨later', trivial, holds'⟩
      · simp only [answer, next, failed, Bool.false_eq_true, if_false, run, Option.map_none,
          Handout.answer, Handout.take_nothing all told]
        exact ⟨later, trivial, holds⟩
      · simp only [answer, next, failed, Bool.false_eq_true, if_false, run, Handout.answer,
          Handout.take_error all pending]
        obtain ⟨sameRule, left, within, ahead, -⟩ := holds'
        exact ⟨[], trivial, sameRule, left, within, ahead, fun _ => ⟨all, rfl⟩⟩
  | isFinished =>
    have size := holds.length
    refine ⟨later, ?_, holds⟩
    have ended := holds.ahead.isAtEnd_eq
    have none : (lexer.ahead.isEmpty && later.isEmpty) = decide (h.gone = h.tokens.length) := by
      rw [Bool.eq_iff_iff]
      simp only [Bool.and_eq_true, List.isEmpty_iff, decide_eq_true_eq, ← List.length_eq_zero_iff]
      omega
    change Reply.finished lexer.isFinished = .finished _
    rw [isFinished, ended, ← Bool.and_assoc, none]

/-- A whole session, request by request. -/
theorem session_holds (gives : rule.GivesUp) (holds : Holds rule lexer h later)
    (requests : List Request) : lexer.session requests = h.session requests := by
  induction requests generalizing lexer h later with
  | nil => rfl
  | cons request requests ih =>
    obtain ⟨later', same, holds'⟩ := answer_holds gives holds request
    have first : lexer.session (request :: requests) =
        (answer request lexer).1 :: (answer request lexer).2.session requests := rfl
    rw [first, same, ih holds']
    rfl

/-- A lexer that has read nothing holds all that its rule makes of the source. -/
theorem holds_ofString {source : String} {tokens : List (Token κ)} {e : Option LexError}
    (ahead : rule.Ahead rule.initial (.ofString source) tokens e) :
    Holds rule (.ofString rule source) ⟨tokens, 0, e⟩ tokens :=
  ⟨rfl, rfl, Nat.zero_le _, ahead, nofun⟩

end Lexer

end Refinement

namespace Lexer

/-- Whether the request asks for a token to be handed out. -/
def Request.takes : Request → Bool
  | nextToken => true
  | next => true
  | _ => false

/-- The tokens that were handed out in a session. -/
def handedOut : List Request → List (Reply κ) → List (Token κ)
  | request :: requests, reply :: replies =>
    (if request.takes then reply.token?.toList else []) ++ handedOut requests replies
  | _, _ => []

end Lexer

namespace Handout

open Lexer (Request Reply handedOut)

/-- A request hands out the token at the front or none, and moves over what it has handed
out. -/
theorem answer_handsOut (h : Handout κ) (request : Request) :
    (h.answer request).2.tokens = h.tokens ∧
      h.tokens.drop h.gone = (if request.takes then (h.answer request).1.token?.toList else []) ++
        h.tokens.drop (h.answer request).2.gone := by
  have looked (i : Nat) : (h.look i).2.tokens = h.tokens ∧ (h.look i).2.gone = h.gone := by
    unfold look
    split
    · exact ⟨rfl, rfl⟩
    · split <;> exact ⟨rfl, rfl⟩
  have taken : h.take.2.tokens = h.tokens ∧
      h.tokens.drop h.gone = h.take.1.token?.toList ++ h.tokens.drop h.take.2.gone := by
    obtain ⟨sameTokens, sameGone⟩ := looked h.gone
    refine ⟨sameTokens, ?_⟩
    cases there : h.tokens[h.gone]? with
    | some token =>
      obtain ⟨inside, atToken⟩ := List.getElem?_eq_some_iff.mp there
      rw [take_token there, List.drop_eq_getElem_cons inside, atToken]
      rfl
    | none =>
      have outside := List.getElem?_eq_none_iff.mp there
      have nothing : h.take.1.token? = none := by
        simp only [take, look, there]
        split <;> rfl
      have stays : h.tokens.drop h.take.2.gone = [] := by
        simp only [take, sameTokens, sameGone]
        exact List.drop_eq_nil_of_le (Nat.le_min.mpr ⟨Nat.le_succ_of_le outside, Nat.le_refl _⟩)
      rw [nothing, stays, List.drop_eq_nil_of_le outside]
      rfl
  cases request with
  | peek n =>
    obtain ⟨sameTokens, sameGone⟩ := looked (h.gone + n)
    exact ⟨sameTokens, by simp [answer, Request.takes, sameGone]⟩
  | nextToken => exact taken
  | next => exact taken
  | isFinished => exact ⟨rfl, rfl⟩

/-- The tokens come in order, none of them twice and none left out. -/
theorem handedOut_prefix (h : Handout κ) (requests : List Request) :
    handedOut requests (h.session requests) <+: h.tokens.drop h.gone := by
  induction requests generalizing h with
  | nil => exact List.nil_prefix
  | cons request requests ih =>
    obtain ⟨sameTokens, split⟩ := h.answer_handsOut request
    have behind := ih (h.answer request).2
    rw [sameTokens] at behind
    rw [split, session_cons, handedOut]
    exact (List.prefix_append_right_inj _).mpr behind

/-- Looking at a place either tells the pending error or keeps it: together the replies and the list
never have more of it than the list had. -/
theorem look_error (h : Handout κ) (i : Nat) :
    (if (h.look i).1.isError then 1 else 0) + (h.look i).2.error.toList.length =
      h.error.toList.length := by
  unfold look
  split
  · simp [Reply.isError]
  · split <;> simp_all [Reply.isError]

/-- The error is told at most once. -/
theorem countP_isError_session (h : Handout κ) (requests : List Request) :
    (h.session requests).countP Reply.isError ≤ h.error.toList.length := by
  induction requests generalizing h with
  | nil => exact Nat.zero_le _
  | cons request requests ih =>
    have behind := ih (h.answer request).2
    have here : (if (h.answer request).1.isError then 1 else 0) +
        (h.answer request).2.error.toList.length = h.error.toList.length := by
      cases request with
      | peek n => exact h.look_error _
      | nextToken => exact h.look_error _
      | next => exact h.look_error _
      | isFinished => simp [answer, Reply.isError]
    rw [session_cons, List.countP_cons]
    omega

end Handout

namespace Script

/-- A string without an end takes all that is left. -/
theorem lexRule_givesUp : lexRule.GivesUp := by
  intro modes cursor e modes' cursor' more step
  obtain ⟨left, -⟩ := lexRule_error more (LexRule.step_error more step)
  cases left
  rw [Cursor.rest_advanceBy, List.drop_length]

/-- Reading a script on demand shows the same tokens as reading it at once: whatever is
looked at or taken, in any order, the replies are those of the list of tokens in front of
the first error. The tokens are handed out in order and the error is told at most once. -/
theorem session_refines (source : String) : ∃ tokens e,
    lexRule.Ahead lexRule.initial (.ofString source) tokens e ∧
      tokenize source = e.elim (.ok tokens) .error ∧
      ∀ requests : List Lexer.Request,
        (Lexer.ofString lexRule source).session requests =
            Handout.session ⟨tokens, 0, e⟩ requests ∧
          Lexer.handedOut requests ((Lexer.ofString lexRule source).session requests) <+: tokens ∧
          ((Lexer.ofString lexRule source).session requests).countP Lexer.Reply.isError ≤ 1 := by
  obtain ⟨tokens, e, ahead⟩ :=
    lexRule.exists_ahead _ lexRule.initial (.ofString source) (Nat.le_refl _)
  have whole := (LexRule.tokenize_run lexRule source).unique ahead.run
  refine ⟨tokens, e, ahead, whole, fun requests => ?_⟩
  have same := Lexer.session_holds lexRule_givesUp (Lexer.holds_ofString ahead) requests
  have once := Handout.countP_isError_session ⟨tokens, 0, e⟩ requests
  rw [same]
  refine ⟨rfl, Handout.handedOut_prefix ⟨tokens, 0, e⟩ requests, Nat.le_trans once ?_⟩
  cases e <;> simp

end Script

end ScriptFront
