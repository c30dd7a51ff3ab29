import ScriptFront.Error

namespace ScriptFront

/-- A source being read: the whole of it, the place reached, and what is still unread, which
is the source from that place on. A cursor only moves forward. -/
structure Cursor where
  source : List Char
  rest : List Char
  position : Position
  unread : rest = source.drop position.offset
deriving DecidableEq, Repr

namespace Cursor

/-- The cursor before the first character of `text`. -/
def ofString (text : String) : Cursor where
  source := text.toList
  rest := text.toList
  position := .start
  unread := rfl

/-- The character `n` places ahead. -/
def peek (c : Cursor) (n : Nat) : Option Char := c.rest[n]?

/-- The next character, if there is one. -/
def current (c : Cursor) : Option Char := c.peek 0

/-- Whether the character `n` places ahead is `x`. -/
def isAt (c : Cursor) (n : Nat) (x : Char) : Bool := c.peek n == some x

/-- Whether the next character is `x`. -/
def is (c : Cursor) (x : Char) : Bool := c.isAt 0 x

/-- Whether the current character satisfies `test`; there is none at the end. -/
def satisfies (c : Cursor) (test : Char → Bool) : Bool := c.current.any test

/-- Whether every character has been read. -/
def isAtEnd (c : Cursor) : Bool := c.rest.isEmpty

/-- Reading characters, or all that are left if there are fewer, leaves those behind them. -/
theorem drop_rest (c : Cursor) (n : Nat) :
    c.rest.drop n = c.source.drop (c.position.advanceAll (c.rest.take n)).offset := by
  rw [Position.offset_advanceAll, List.length_take, c.unread, List.drop_drop, List.length_drop]
  by_cases within : n ≤ c.source.length - c.position.offset
  · rw [Nat.min_eq_left within]
  · rw [List.drop_eq_nil_of_le (by omega), List.drop_eq_nil_of_le (by omega)]

/-- The cursor `n` characters further on, or at the end if there are fewer. It is used to say where
a cursor has come to; what moves it is `advance`. -/
def advanceBy (c : Cursor) (n : Nat) : Cursor where
  source := c.source
  rest := c.rest.drop n
  position := c.position.advanceAll (c.rest.take n)
  unread := c.drop_rest n

/-- The text between two offsets, each of them moved to the end of the source if
it lies behind it. There is none from a later offset to an earlier one. -/
def slice? (c : Cursor) (start stop : Nat) : Option String :=
  let first := min start c.source.length
  let last := min stop c.source.length
  if first ≤ last then some (String.ofList ((c.source.take last).drop first)) else none

@[simp] theorem source_ofString (text : String) : (ofString text).source = text.toList := rfl

@[simp] theorem source_advanceBy (c : Cursor) (n : Nat) : (c.advanceBy n).source = c.source := rfl

@[simp] theorem rest_advanceBy (c : Cursor) (n : Nat) :
    (c.advanceBy n).rest = c.rest.drop n := rfl

@[simp] theorem advanceBy_zero (c : Cursor) : c.advanceBy 0 = c := rfl

/-- The offset counts characters: behind `n` characters of the rest it is larger by exactly `n`. The
line and the column have no such law, as a line end resets the one and both come back to `0` after
the largest number. -/
theorem offset_advanceBy {c : Cursor} {n : Nat} (within : n ≤ c.rest.length) :
    (c.advanceBy n).position.offset = c.position.offset + n := by
  rw [advanceBy, Position.offset_advanceAll, List.length_take, Nat.min_eq_left within]

/-- Two moves are one move over both distances. -/
theorem advanceBy_advanceBy (c : Cursor) (m n : Nat) :
    (c.advanceBy m).advanceBy n = c.advanceBy (m + n) := by
  simp only [advanceBy, List.drop_drop, List.take_add, Position.advanceAll_append]

/-- No move goes further than to the end. -/
theorem advanceBy_of_le {c : Cursor} {n : Nat} (beyond : c.rest.length ≤ n) :
    c.advanceBy n = c.advanceBy c.rest.length := by
  simp only [advanceBy, List.take_of_length_le beyond, List.drop_eq_nil_of_le beyond, List.take_length,
    List.drop_length]

/-- The text between two places that a cursor has come to is what it went over. -/
theorem slice?_advanceBy {c : Cursor} {n : Nat} (within : n ≤ c.rest.length) :
    (c.advanceBy n).slice? c.position.offset (c.advanceBy n).position.offset =
      some (String.ofList (c.rest.take n)) := by
  have size := congrArg List.length c.unread
  rw [List.length_drop] at size
  rw [offset_advanceBy within, slice?, source_advanceBy, if_pos (by omega)]
  by_cases none : n = 0
  · subst none
    simp
  · rw [Nat.min_eq_left (by omega), Nat.min_eq_left (by omega), c.unread, List.drop_take,
      Nat.add_sub_cancel_left]

/-- An action on a cursor. It may fail, and then leaves the cursor where it has come to. -/
abbrev Action := EStateM LexError Cursor

variable {α β : Type}

/-- Takes the current character, and fails at the end, where there is none. Every other movement of
a cursor is made of this one. -/
def advance : Action Char := fun c =>
  match c.rest with
  | [] => .error (.unexpectedEnd c.position) c
  | x :: _ => .ok x (c.advanceBy 1)

/-- Takes the current character and drops it. -/
def skip : Action Unit := do
  let _ ← advance

/-- Does an action whatever comes of it: its answer is dropped, and so is its failure. -/
def attempt (action : Action α) : Action Unit := fun c =>
  match action c with
  | .ok _ next => .ok () next
  | .error _ next => .ok () next

/-- Takes the current character only if it is `x`, and tells whether it did. -/
def advanceIf (x : Char) : Action Bool := do
  if (← get).is x then
    attempt advance
    return true
  else
    return false

/-- Takes turns as long as `goesOn` holds of the cursor, at most `budget` of them. -/
def turnsWithin (goesOn : Cursor → Bool) (turn : Action Unit) : Nat → Action Unit
  | 0 => pure ()
  | budget + 1 => do
    if goesOn (← get) then
      turn
      turnsWithin goesOn turn budget

/-- Takes turns as long as `goesOn` holds of the cursor. Every turn takes a character, so a
budget of the characters left is enough. -/
def turns (goesOn : Cursor → Bool) (turn : Action Unit) : Action Unit := do
  turnsWithin goesOn turn (← get).rest.length

/-- Takes characters as long as `test` holds of the current one, and counts them. At the end there
is none, so the test does not hold there. -/
def advanceWhile (test : Char → Bool) : Action Nat := do
  let start := (← get).position.offset
  turns (·.satisfies test) (attempt advance)
  return (← get).position.offset - start

/-- The places that a cursor can come to: it is moved over one character after the other. It is the
whole of what an action may do with a cursor that it is given. -/
inductive Onward : Cursor → Cursor → Prop
  | stay {c} : Onward c c
  | advance {c x next last} : Cursor.advance c = .ok x next → Onward next last → Onward c last

/-- At the end of the text `advance` fails with the position it stands at and leaves the cursor
where it is. -/
theorem advance_nil {c : Cursor} (ended : c.rest = []) :
    advance c = .error (.unexpectedEnd c.position) c := by
  rw [advance, ended]

/-- In front of a character `advance` answers with it and goes behind it. With the lemma before this
is all that is known of `advance`. -/
theorem advance_cons {c : Cursor} {x : Char} {xs : List Char} (ahead : c.rest = x :: xs) :
    advance c = .ok x (c.advanceBy 1) := by
  rw [advance, ahead]

/-- Going on from where one has come to is going on from where one began. The way that `bind`
composes is closed by this. -/
theorem Onward.trans {c next last : Cursor} (first : Onward c next) (second : Onward next last) :
    Onward c last := by
  induction first with
  | stay => exact second
  | advance step _ ih => exact .advance step (ih second)

/-- A move over any number of characters is made of moves over one. -/
theorem onward_advanceBy (c : Cursor) (n : Nat) : Onward c (c.advanceBy n) := by
  induction n generalizing c with
  | zero => exact .stay
  | succ n ih =>
    cases ahead : c.rest with
    | nil =>
      have same : c.advanceBy (n + 1) = c := by
        rw [advanceBy_of_le (by simp [ahead]), ahead]
        rfl
      rw [same]
      exact .stay
    | cons x xs =>
      rw [Nat.add_comm, ← advanceBy_advanceBy]
      exact .advance (advance_cons ahead) (ih (c.advanceBy 1))

/-- Wherever a cursor can come to, a single move leads there. -/
theorem Onward.eq_advanceBy {c last : Cursor} (onward : Onward c last) :
    ∃ n ≤ c.rest.length, last = c.advanceBy n := by
  induction onward with
  | stay => exact ⟨0, Nat.zero_le _, rfl⟩
  | @advance c x next last step _ ih =>
    cases ahead : c.rest with
    | nil =>
      rw [advance_nil ahead] at step
      cases step
    | cons y ys =>
      rw [advance_cons ahead] at step
      cases step
      obtain ⟨n, within, rfl⟩ := ih
      refine ⟨1 + n, ?_, advanceBy_advanceBy c 1 n⟩
      rw [rest_advanceBy, ahead, List.drop_one, List.tail_cons] at within
      rw [List.length_cons]
      omega

end Cursor

section Running

variable {ε σ α β : Type} {p : EStateM ε σ α} {f : α → EStateM ε σ β} {s t : σ}

/-- What an action leaves behind of what it works on, whether it succeeds or fails. -/
def leaves : EStateM.Result ε σ α → σ
  | .ok _ s => s
  | .error _ s => s

/-- Behind a step that succeeds the rest is done where the step leads to. -/
theorem andThen_ok {a : α} (run : p s = .ok a t) : (p >>= f) s = f a t := by
  simp only [bind, EStateM.bind, run]

/-- A step that fails is the last one. -/
theorem andThen_error {e : ε} (run : p s = .error e t) : (p >>= f) s = .error e t := by
  simp only [bind, EStateM.bind, run]

/-- What holds between the state in front of an action and the one it leaves holds of two actions
one after the other, if it may be composed. A first action that fails is the whole of it. -/
theorem leaves_andThen {r : σ → σ → Prop} (trans : ∀ {s t u}, r s t → r t u → r s u)
    (first : ∀ s, r s (leaves (p s))) (rest : ∀ a s, r s (leaves (f a s))) (s : σ) :
    r s (leaves ((p >>= f) s)) := by
  have done := first s
  cases run : p s with
  | ok a t =>
    rw [run] at done
    rw [andThen_ok run]
    exact trans done (rest a t)
  | error e t =>
    rw [run] at done
    rw [andThen_error run]
    exact done

end Running

namespace Cursor

variable {α β : Type} {p : Action α}

/-- An action that reads the cursor first goes on as the action chosen for that cursor. Rewriting
with it replaces the reading by the cursor itself. -/
theorem get_andThen (f : Cursor → Action α) (c : Cursor) : (get >>= f) c = f c c := rfl

/-- A skip in front of a character succeeds. The stall guard of an engine and the second characters
of punctuators are skipped under this lemma's hypothesis. -/
theorem skip_cons {c : Cursor} {x : Char} {xs : List Char} (ahead : c.rest = x :: xs) :
    skip c = .ok () (c.advanceBy 1) :=
  andThen_ok (advance_cons ahead)

/-- The action does nothing with the cursor but move it onward, also when it fails. -/
def Moves (p : Action α) : Prop := ∀ c, Onward c (leaves (p c))

theorem moves_pure (a : α) : Moves (pure a : Action α) := fun _ => .stay

theorem moves_throw (e : LexError) : Moves (throw e : Action α) := fun _ => .stay

theorem moves_get : Moves (get : Action Cursor) := fun _ => .stay

/-- Actions that only go on do so one after the other as well, also where the first one fails and
the second is left out. -/
theorem Moves.bind {f : α → Action β} (first : Moves p) (rest : ∀ a, Moves (f a)) :
    Moves (p >>= f) :=
  leaves_andThen .trans first rest

/-- The one step from which every other movement is put together: it covers one character or, at the
end, none. -/
theorem moves_advance : Moves advance := by
  intro c
  cases ahead : c.rest with
  | nil =>
    rw [advance_nil ahead]
    exact .stay
  | cons x xs =>
    rw [advance_cons ahead]
    exact onward_advanceBy c 1

theorem moves_skip : Moves skip := moves_advance.bind fun _ => moves_pure ()

/-- An attempt drops what becomes of an action, and leaves the cursor where the action does. -/
theorem leaves_attempt (p : Action α) (c : Cursor) : leaves (attempt p c) = leaves (p c) := by
  unfold attempt
  cases p c <;> rfl

theorem Moves.attempt (moves : Moves p) : Moves (attempt p) := by
  intro c
  rw [leaves_attempt]
  exact moves c

theorem moves_advanceIf (x : Char) : Moves (advanceIf x) := by
  refine moves_get.bind fun c => ?_
  split
  · exact moves_advance.attempt.bind fun _ => moves_pure true
  · exact moves_pure false

/-- A loop goes on as each of its turns does. The induction is on the characters that are left,
which bound the number of turns. -/
theorem Moves.turns {goesOn : Cursor → Bool} {turn : Action Unit} (moves : Moves turn) :
    Moves (turns goesOn turn) := by
  have within (budget : Nat) : Moves (turnsWithin goesOn turn budget) := by
    induction budget with
    | zero => exact moves_pure ()
    | succ budget ih =>
      refine moves_get.bind fun c => ?_
      split
      · exact moves.bind fun _ => ih
      · exact moves_pure ()
  exact moves_get.bind fun c => within c.rest.length

theorem moves_advanceWhile (test : Char → Bool) : Moves (advanceWhile test) :=
  moves_get.bind fun _ => moves_advance.attempt.turns.bind fun _ => moves_get.bind fun _ =>
    moves_pure _

end Cursor

end ScriptFront
