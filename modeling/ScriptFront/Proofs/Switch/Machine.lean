import ScriptFront.Proofs.Forward
import ScriptFront.Script.Parse

namespace ScriptFront.Script

open ScriptFront.Parser

/-- A parser that keeps in itself whether `in` is an operator. The rules are told so by
their callers, and have nothing to put back; here the switch is set before a step and put
back behind it. -/
structure Machine where
  cursor : State
  allowIn : Bool := true

namespace Machine

/-- A step of a machine, which may fail anywhere and then leaves the machine as it is. -/
abbrev Step := EStateM ParseError Machine

variable {α β : Type}

/-- Does at the cursor what a rule does there. -/
def on (p : Rule α) : Step α := fun m =>
  match p m.cursor with
  | .ok a s => .ok a { m with cursor := s }
  | .error e s => .error e { m with cursor := s }

/-- Looks at the machine without changing it. -/
def look (view : Machine → α) : Step α := fun m => .ok (view m) m

/-- Takes a step with the switch set, and then puts the switch back to where it was, also if the
step failed. Putting it back on failure is what lets a parser be used again after an error. -/
def withIn (allowed : Bool) (p : Step α) : Step α := fun m =>
  match p { m with allowIn := allowed } with
  | .ok a m' => .ok a { m' with allowIn := m.allowIn }
  | .error e m' => .error e { m' with allowIn := m.allowIn }

/-- Items until the tokens end, `stop` holds, or `more` finds no reason to go on
after an item; at most `budget` items. -/
def itemsWithin (stop : State → Bool) (item : Step α) (more : Rule Bool) : Nat → Step (List α)
  | 0 => pure []
  | budget + 1 => do
    if ← on (observe fun s => !s.willContinue || stop s) then
      pure []
    else
      let first ← item
      if ← on more then
        return first :: (← itemsWithin stop item more budget)
      else
        pure [first]

/-- Items up to a state that stops them. Every item takes a token, so a budget of the tokens left is
enough. -/
def items (stop : State → Bool) (item : Step α) (more : Rule Bool) : Step (List α) := do
  itemsWithin stop item more (← on (observe (·.rest.length)))

/-- Items with commas between them, up to a token of one of the kinds. A comma may stand behind the
last one. -/
def commaSeparated (stop : List TokenKind) (item : Step α) : Step (List α) :=
  items (·.isAny stop) item commaFollows

/-- Items that stand behind each other, with layout and semicolons between them. -/
def separated (stop : List TokenKind) (item : Step α) : Step (List α) :=
  items (·.isAny stop) item do
    trimSeparators
    return true

/-- What a rule comes to, as an outcome of a machine whose switch stands at `b`. -/
def settled (b : Bool) : EStateM.Result ParseError State α → EStateM.Result ParseError Machine α
  | .ok a s => .ok a ⟨s, b⟩
  | .error e s => .error e ⟨s, b⟩

/-- With the switch at `b` the step does what the rule does, and the switch is at `b` again
behind it, whether the step succeeds or fails. -/
def Keeps (b : Bool) (p : Step α) (q : Rule α) : Prop := ∀ s, p ⟨s, b⟩ = settled b (q s)

section Combinators

variable {b : Bool} {p : Step α} {q : Rule α}

/-- Whatever is done at the cursor alone leaves the switch alone. Most steps of a rule are of this
sort. -/
theorem keeps_on (q : Rule α) : Keeps b (on q) q := by
  intro s
  unfold on
  cases q s <;> rfl

theorem keeps_pure (a : α) : Keeps b (pure a) (pure a) := fun _ => rfl

theorem keeps_look (view : Machine → α) : Keeps b (look view) (observe fun s => view ⟨s, b⟩) :=
  fun _ => rfl

/-- One step after the other keeps the switch if both do. When the first fails, the second is not
taken and the switch is as the first left it. -/
theorem Keeps.bind {f : α → Step β} {g : α → Rule β} (first : Keeps b p q)
    (rest : ∀ a, Keeps b (f a) (g a)) : Keeps b (p >>= f) (q >>= g) := by
  intro s
  cases run : q s with
  | ok a t =>
    rw [bind_ok run, ← rest a t]
    simp only [Bind.bind, EStateM.bind, first s, run, settled]
  | error e t =>
    rw [bind_error run]
    simp only [Bind.bind, EStateM.bind, first s, run, settled]

/-- What is done at the cursor leaves the switch alone. -/
theorem Keeps.after {f : α → Step β} {g : α → Rule β} (rest : ∀ a, Keeps b (f a) (g a)) :
    Keeps b (on q >>= f) (q >>= g) :=
  (keeps_on q).bind rest

theorem Keeps.map {f : α → β} (keeps : Keeps b p q) : Keeps b (f <$> p) (f <$> q) :=
  keeps.bind fun a => keeps_pure (f a)

theorem Keeps.ite {c : Prop} [Decidable c] {p' : Step α} {q' : Rule α} (yes : Keeps b p q)
    (no : Keeps b p' q') : Keeps b (if c then p else p') (if c then q else q') := by
  split
  · exact yes
  · exact no

/-- A step within which the switch is set keeps it where it was outside. -/
theorem Keeps.withIn {allowed : Bool} (keeps : Keeps allowed p q) :
    Keeps b (withIn allowed p) q := by
  intro s
  simp only [Machine.withIn, keeps s]
  cases q s <;> rfl

variable {stop : State → Bool} {more : Rule Bool}

/-- A loop keeps the switch if its items do. The induction is on the budget, the same on both sides.
-/
theorem Keeps.itemsWithin (item : Keeps b p q) (budget : Nat) :
    Keeps b (itemsWithin stop p more budget) (Parser.itemsWithin stop q more budget) := by
  induction budget with
  | zero => exact keeps_pure []
  | succ budget ih =>
    refine .after fun _ => .ite (keeps_pure []) ?_
    refine item.bind fun first => .after fun _ => .ite ?_ (keeps_pure [first])
    exact ih.bind fun _ => keeps_pure _

theorem Keeps.items (item : Keeps b p q) :
    Keeps b (items stop p more) (Parser.items stop q more) :=
  .after fun budget => item.itemsWithin budget

theorem Keeps.commaSeparated {stop : List TokenKind} (item : Keeps b p q) :
    Keeps b (commaSeparated stop p) (Script.commaSeparated stop q) :=
  item.items

theorem Keeps.separated {stop : List TokenKind} (item : Keeps b p q) :
    Keeps b (separated stop p) (Script.separated stop q) :=
  item.items

end Combinators

/-- The rules of a machine that its grammar comes back to. They take no argument: what
`in` is they see at the switch. -/
structure Rules where
  statement : Step Tree
  expression : Step Tree
  binding : Step Tree
  ifStatement : Step Tree

/-- The rules of a machine do what those of the grammar do for the place of the switch, and keep it
there. The grammar is told by an argument what the machine keeps in its state. -/
structure Rules.Follow (rules : Rules) (r : Script.Rules) : Prop where
  statement : ∀ b, Keeps b rules.statement (r.statement b)
  expression : ∀ b, Keeps b rules.expression (r.expression b)
  binding : ∀ b, Keeps b rules.binding (r.binding b)
  ifStatement : ∀ b, Keeps b rules.ifStatement (r.ifStatement b)

end Machine

end ScriptFront.Script
