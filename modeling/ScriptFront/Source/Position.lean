namespace ScriptFront

/-- A place between two characters of a source. Lines and columns count from one, in 32
bits: behind the last number they begin again with zero. The offset counts the characters
before the place, of which there is no largest number. -/
structure Position where
  line : UInt32
  column : UInt32
  offset : Nat
deriving DecidableEq, Repr

namespace Position

/-- The place before the first character. -/
def start : Position := ⟨1, 1, 0⟩

instance : Inhabited Position := ⟨start⟩

/-- The place after reading `c`: only a line feed starts a new line. The offset goes on in either
case, and lines and columns come back to zero after the largest number. -/
def advance (p : Position) (c : Char) : Position :=
  if c = '\n' then ⟨p.line + 1, 1, p.offset + 1⟩ else ⟨p.line, p.column + 1, p.offset + 1⟩

/-- The place after reading all of `cs`. -/
def advanceAll (p : Position) (cs : List Char) : Position :=
  cs.foldl advance p

/-- Positions are shown to people as line and column. -/
def text (p : Position) : String :=
  toString p.line ++ ":" ++ toString p.column

/-- Every character counts for one in the offset, a line end among them. -/
@[simp] theorem offset_advance (p : Position) (c : Char) : (p.advance c).offset = p.offset + 1 := by
  unfold advance
  split <;> rfl

@[simp] theorem advanceAll_nil (p : Position) : p.advanceAll [] = p := rfl

/-- Going over a text is going over its first character and then over the others. -/
@[simp] theorem advanceAll_cons (p : Position) (c : Char) (cs : List Char) :
    p.advanceAll (c :: cs) = (p.advance c).advanceAll cs := rfl

/-- Reading two runs of characters is reading their concatenation. -/
theorem advanceAll_append (p : Position) (first second : List Char) :
    p.advanceAll (first ++ second) = (p.advanceAll first).advanceAll second := by
  simp [advanceAll]

/-- The offset counts exactly the characters read. -/
@[simp] theorem offset_advanceAll (p : Position) (cs : List Char) :
    (p.advanceAll cs).offset = p.offset + cs.length := by
  induction cs generalizing p with
  | nil => rfl
  | cons c cs ih =>
    rw [advanceAll_cons, ih, offset_advance, List.length_cons]
    omega

end Position

/-- The half-open extent of a token or a node. The end is the place behind its last character, where
the next token may begin. -/
structure Span where
  start : Position
  stop : Position
deriving DecidableEq, Repr

namespace Span

/-- The extent of no characters at `p`. -/
def emptyAt (p : Position) : Span := ⟨p, p⟩

instance : Inhabited Span := ⟨emptyAt .start⟩

/-- The smallest extent that covers both; where two ends have the same offset
the first extent decides. -/
def cover (a b : Span) : Span where
  start := if b.start.offset < a.start.offset then b.start else a.start
  stop := if a.stop.offset < b.stop.offset then b.stop else a.stop

/-- How many characters the extent covers. -/
def length (s : Span) : Nat := s.stop.offset - s.start.offset

/-- Whether the extent covers no character. -/
def isEmpty (s : Span) : Bool := s.length == 0

@[simp] theorem cover_self (s : Span) : s.cover s = s := by
  simp [cover]

end Span

end ScriptFront
