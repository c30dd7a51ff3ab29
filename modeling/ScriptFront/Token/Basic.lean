import ScriptFront.Source.Position
import ScriptFront.Text.Quoted

namespace ScriptFront

/-- A coarse class of tokens, beside their kind. A parser asks for a tag where any of many kinds
will do, for a word of any sort or for layout of any sort. -/
inductive Tag where
  /-- A run of letters and digits, reserved words included. -/
  | word
  | whiteSpace
  | operator
  /-- A reserved word, for grammars that keep them apart from other words. -/
  | keyWord
deriving DecidableEq, Repr

namespace Tag

/-- The name of a tag. -/
def name : Tag → String
  | word => "Word"
  | whiteSpace => "WhiteSpace"
  | operator => "Operator"
  | keyWord => "KeyWord"

/-- All tags, by which a tag is found for its name. -/
def all : List Tag := [word, whiteSpace, operator, keyWord]

/-- The tag of a name, if it is one exactly. -/
def ofName? (name : String) : Option Tag := all.find? (·.name = name)

end Tag

/-- What a run of characters is, before its text and extent are known. A rule answers with one, and
the engine makes a token of it from what the rule went over. -/
structure Lexeme (κ : Type) where
  kind : κ
  tag : Option Tag := none
deriving DecidableEq, Repr

/-- One lexical unit with its exact text and extent. The text is stored although the extent gives it
as well, since a parser has no source to look into. -/
structure Token (κ : Type) extends Lexeme κ where
  text : String
  span : Span
deriving DecidableEq, Repr

namespace Token

variable {κ : Type}

/-- Whether a token carries the tag. A token without a tag carries none. -/
def hasTag (t : Token κ) (tag : Tag) : Bool := t.tag == some tag

/-- Whether the token is mere layout. -/
def isSpace (t : Token κ) : Bool := t.hasTag .whiteSpace

/-- The kind of a token with its text in quotes. -/
def describe (kindName : κ → String) (t : Token κ) : String :=
  kindName t.kind ++ "(" ++ Text.quoted t.text ++ ")"

end Token

end ScriptFront
