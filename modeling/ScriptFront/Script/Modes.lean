namespace ScriptFront.Script

/-- The two ways of writing a comment: between slash-star and star-slash, or from two slashes to the
end of the line. -/
inductive CommentStyle where
  | block
  | line
deriving DecidableEq, Repr

/-- What the characters ahead belong to: the text of a template, or code inside
an interpolation, with the number of its braces still open. -/
inductive Mode where
  | template
  | interpolation (depth : Nat)
deriving DecidableEq, Repr

/-- How the next characters are to be read. The innermost mode stands first, and
outside all templates there is none; a comment is pending right after its opener. -/
structure Modes where
  stack : List Mode := []
  comment : Option CommentStyle := none
deriving DecidableEq, Repr

namespace Modes

/-- Enters a template, or an interpolation in one. -/
def enter (mode : Mode) (modes : Modes) : Modes := { modes with stack := mode :: modes.stack }

/-- Leaves the innermost mode. -/
def exit (modes : Modes) : Modes := { modes with stack := modes.stack.tail }

/-- Expects the body of a comment, or none. -/
def expect (comment : Option CommentStyle) (modes : Modes) : Modes := { modes with comment }

/-- One more brace is open in an interpolation. -/
def openBrace (modes : Modes) : Modes :=
  match modes.stack with
  | .interpolation depth :: outer => { modes with stack := .interpolation (depth + 1) :: outer }
  | _ => modes

/-- The innermost open brace of an interpolation is closed, and with the one that it began
with the interpolation ends. -/
def closeBrace (modes : Modes) : Modes :=
  match modes.stack with
  | .interpolation 0 :: outer => { modes with stack := outer }
  | .interpolation (depth + 1) :: outer => { modes with stack := .interpolation depth :: outer }
  | _ => modes

end Modes

end ScriptFront.Script
