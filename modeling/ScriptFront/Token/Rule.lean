import ScriptFront.Source.Cursor
import ScriptFront.Token.Basic

namespace ScriptFront

namespace LexRule

/-- An action of a rule, on a state of its own and on the cursor. It may fail, and then leaves
both as they are at that moment. -/
abbrev Action (σ : Type) := EStateM LexError (σ × Cursor)

variable {σ α β : Type}

/-- Does something with the cursor, which leaves the state alone. -/
def on (p : Cursor.Action α) : Action σ α := fun s =>
  match p s.2 with
  | .ok a cursor => .ok a (s.1, cursor)
  | .error e cursor => .error e (s.1, cursor)

/-- The cursor, as it stands. -/
def cursor : Action σ Cursor := fun s => .ok s.2 s

/-- The state of the rule. -/
def state : Action σ σ := fun s => .ok s.1 s

/-- Changes the state of the rule. -/
def change (f : σ → σ) : Action σ Unit := fun s => .ok () (f s.1, s.2)

theorem cursor_andThen (f : Cursor → Action σ α) (s : σ) (c : Cursor) :
    (cursor >>= f) (s, c) = f c (s, c) := rfl

theorem state_andThen (f : σ → Action σ α) (s : σ) (c : Cursor) :
    (state >>= f) (s, c) = f s (s, c) := rfl

/-- A step of the cursor that succeeds inside a read hands on its answer and the moved cursor, and
leaves the state of the rule untouched. -/
theorem on_andThen_ok {p : Cursor.Action α} {f : α → Action σ β} {s : σ} {c next : Cursor} {a : α}
    (run : p c = .ok a next) : (on p >>= f) (s, c) = f a (s, next) := by
  apply andThen_ok
  rw [on, run]

/-- The action does nothing with the cursor but move it onward, also when it fails. -/
def Moves (p : Action σ α) : Prop := ∀ s : σ × Cursor, s.2.Onward (leaves (p s)).2

variable {p : Action σ α}

theorem moves_pure (a : α) : Moves (pure a : Action σ α) := fun _ => .stay

theorem moves_cursor : Moves (cursor : Action σ Cursor) := fun _ => .stay

theorem moves_state : Moves (state : Action σ σ) := fun _ => .stay

theorem moves_change (f : σ → σ) : Moves (change f) := fun _ => .stay

/-- Inside a read an action leaves the cursor where it does alone, and the state as it was. -/
theorem leaves_on (p : Cursor.Action α) (s : σ × Cursor) :
    leaves (on p s) = (s.1, leaves (p s.2)) := by
  unfold on
  cases p s.2 <;> rfl

theorem moves_on {p : Cursor.Action α} (moves : Cursor.Moves p) :
    Moves (on p : Action σ α) := by
  intro s
  rw [leaves_on]
  exact moves s.2

/-- Reads that only go on do so one after the other as well. With `moves_on` it gives the field
`onward` of a rule by the shape of its `read`. -/
theorem Moves.bind {f : α → Action σ β} (first : Moves p) (rest : ∀ a, Moves (f a)) :
    Moves (p >>= f) :=
  leaves_andThen (r := fun s t : σ × Cursor => s.2.Onward t.2) .trans first rest

end LexRule

/-- A rule that reads one token at a time. It is asked only while characters remain, and may
keep a state between two tokens of one source. The only thing that it can do with the cursor
is to move it onward, by any number of characters and perhaps by none. -/
structure LexRule (σ κ : Type) where
  initial : σ
  read : LexRule.Action σ (Lexeme κ)
  onward : LexRule.Moves read

namespace LexRule

variable {σ κ : Type}

/-- Reads the token at the cursor. Its text and its extent are those of the characters that
the rule went over. -/
def step (rule : LexRule σ κ) : Action σ (Token κ) := do
  let start := (← cursor).position
  let lexeme ← rule.read
  if (← cursor).position.offset = start.offset then
    -- A rule that took no character would be asked at this place for ever.
    on Cursor.skip
  let behind ← cursor
  let stop := behind.position
  return { lexeme with
    text := (behind.slice? start.offset stop.offset).getD ""
    span := ⟨start, stop⟩ }

/-- The tokens from the cursor to the end of the source, or the first error. Every
token takes a character, so a budget of the characters left is enough. -/
def tokensWithin (rule : LexRule σ κ) : Nat → σ → Cursor → Except LexError (List (Token κ))
  | 0, _, _ => .ok []
  | budget + 1, state, cursor =>
    if cursor.isAtEnd then .ok []
    else
      match rule.step (state, cursor) with
      | .error e _ => .error e
      | .ok token (state, cursor) => (rule.tokensWithin budget state cursor).map (token :: ·)

/-- Cuts a whole source into tokens, or reports the first error. -/
def tokenize (rule : LexRule σ κ) (source : String) : Except LexError (List (Token κ)) :=
  let cursor := Cursor.ofString source
  rule.tokensWithin cursor.rest.length rule.initial cursor

end LexRule

end ScriptFront
