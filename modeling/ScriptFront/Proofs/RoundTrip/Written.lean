import ScriptFront.Proofs.Erase
import ScriptFront.Proofs.Scan
import ScriptFront.Script.Grammar.Expression

namespace ScriptFront.Script

/-- A word as the lexer takes it, reserved or not. Its first character may begin a word, and all
others may go on with one, so the lexer takes it whole. -/
structure Word where
  first : Char
  others : List Char
  starts : isWordStart first = true
  goesOn : ∀ c ∈ others, isWordPart c = true

/-- The characters of a word, of which there is at least one. -/
def Word.text (word : Word) : String := String.ofList (word.first :: word.others)

/-- A word that is not reserved. Only such a word is an identifier, and stands for a value. -/
structure Name extends Word where
  free : toWord.text ∉ keywords.map Prod.fst

/-- At least one decimal digit. A sign or an exponent is no part of a number in a source. -/
structure Digits where
  first : Char
  others : List Char
  isRun : ∀ c ∈ first :: others, c.isDigit = true

/-- The characters of a run of digits, of which there is at least one. -/
def Digits.text (digits : Digits) : String := String.ofList (digits.first :: digits.others)

/-- The spelling of a number: digits, or digits on both sides of a period. -/
inductive Numeral where
  | whole (digits : Digits)
  | decimal (digits fraction : Digits)

/-- A numeral as it is written: one run of digits, or two of them with a period between. -/
def Numeral.raw : Numeral → String
  | whole digits => digits.text
  | decimal digits fraction => digits.text ++ "." ++ fraction.text

/-- Whether a numeral has a fraction, be it zero. -/
def Numeral.isFloat : Numeral → Bool
  | whole _ => false
  | decimal _ _ => true

/-- The double that the spelling stands for. -/
def Numeral.value (numeral : Numeral) : Float := (Double.read? numeral.raw).getD 0

/-- One character between two quotes: it stands for itself, unless it is the quote or a
backslash, which need a backslash in front. -/
inductive StringUnit (quote : Char) where
  | plain (c : Char) (notQuote : c ≠ quote) (notSlash : c ≠ '\\')
  | escape (c : Char)

/-- A unit of a string as it is written: a character alone, or a backslash and the character behind
it. -/
def StringUnit.chars {quote : Char} : StringUnit quote → List Char
  | plain c _ _ => [c]
  | escape c => ['\\', c]

/-- The character that a unit of a string stands for. A backslash takes nothing away from the
character behind it but its meaning. -/
def StringUnit.value {quote : Char} : StringUnit quote → Char
  | plain c _ _ => c
  | escape c => c

@[simp] theorem StringUnit.chars_plain {quote c : Char} (notQuote : c ≠ quote)
    (notSlash : c ≠ '\\') : (plain c notQuote notSlash).chars = [c] := rfl

@[simp] theorem StringUnit.chars_escape (quote c : Char) :
    (escape c : StringUnit quote).chars = ['\\', c] := rfl

/-- A string between two quotes of the same kind. Its units are such that the closing quote is the
first one that is not escaped. -/
structure Quoted where
  quote : Char
  isQuote : quote = '"' ∨ quote = '\''
  units : List (StringUnit quote)

/-- A string as it is written: its units between two quotes of one sort. -/
def Quoted.raw (quoted : Quoted) : String :=
  String.ofList (quoted.quote :: quoted.units.flatMap (·.chars) ++ [quoted.quote])

/-- The text that a string stands for, one character for each unit. -/
def Quoted.value (quoted : Quoted) : String := String.ofList (quoted.units.map (·.value))

/-- The operators in front of one operand. -/
def unaryOperators : List TokenKind := [.plus, .dash, .exclamation, .kwTypeOf, .kwVoid]

/-- Expressions of names, literals, operators, accesses, calls and arrays. They are the trees that
can be written down with parentheses only around left operands, since the grammar groups to the
right. -/
inductive Expr where
  | name (word : Name)
  | number (numeral : Numeral)
  | string (quoted : Quoted)
  | unary (operator : {kind // kind ∈ unaryOperators}) (argument : Expr)
  | binary (layer : OperatorLayer) (operator : {kind // kind ∈ layer.operators})
    (left right : Expr)
  | assignment (operator : {kind // kind ∈ assignmentOperators}) (target value : Expr)
  | conditional (test consequent alternate : Expr)
  | member (object : Expr) (property : Word)
  | computed (object index : Expr)
  | call (callee : Expr) (arguments : List Expr)
  | array (elements : List Expr)

/-- What holds of an expression when it holds of the expressions inside it, those in
lists included. -/
@[induction_eliminator]
theorem Expr.induct {P : Expr → Prop} (name : ∀ word, P (.name word))
    (number : ∀ numeral, P (.number numeral)) (string : ∀ quoted, P (.string quoted))
    (unary : ∀ operator argument, P argument → P (.unary operator argument))
    (binary : ∀ layer operator left right, P left → P right →
      P (.binary layer operator left right))
    (assignment : ∀ operator target value, P target → P value →
      P (.assignment operator target value))
    (conditional : ∀ test consequent alternate, P test → P consequent → P alternate →
      P (.conditional test consequent alternate))
    (member : ∀ object property, P object → P (.member object property))
    (computed : ∀ object index, P object → P index → P (.computed object index))
    (call : ∀ callee arguments, P callee → (∀ e ∈ arguments, P e) → P (.call callee arguments))
    (array : ∀ elements, (∀ e ∈ elements, P e) → P (.array elements)) (e : Expr) : P e :=
  @Expr.rec P (fun es => ∀ e ∈ es, P e) name number string unary binary assignment conditional
    member computed call array (List.forall_mem_nil _)
    (fun _ _ first rest => List.forall_mem_cons.mpr ⟨first, rest⟩) e

/-- Whether an expression is written without parentheses on the left of something. -/
def Expr.isAtom : Expr → Bool
  | name _ => true
  | number _ => true
  | string _ => true
  | _ => false

/-- A node whose extent does not matter. -/
def bare (kind : Construct) : Tree := ⟨kind, noSpan⟩

mutual

/-- The syntax tree of an expression. -/
def Expr.tree : Expr → Tree
  | .name word => bare (.identifier word.text)
  | .number numeral => bare (.numericLiteral numeral.value numeral.raw numeral.isFloat)
  | .string quoted => bare (.stringLiteral quoted.value quoted.raw)
  | .unary operator argument => bare (.unaryExpression operator argument.tree)
  | .binary layer operator left right =>
    bare (.binaryExpression layer operator left.tree right.tree)
  | .assignment operator target value =>
    bare (.assignmentExpression operator target.tree value.tree)
  | .conditional test consequent alternate =>
    bare (.conditionalExpression test.tree consequent.tree alternate.tree)
  | .member object property =>
    bare (.memberExpression object.tree (bare (.identifier property.text)) false false)
  | .computed object index => bare (.memberExpression object.tree index.tree true false)
  | .call callee arguments => bare (.callExpression callee.tree (Expr.trees arguments) false)
  | .array elements => bare (.arrayExpression (Expr.trees elements))

/-- The trees of some expressions, in the order of the expressions. -/
def Expr.trees : List Expr → List Tree
  | [] => []
  | e :: others => e.tree :: Expr.trees others

end

/-- What an expression is written with, layout aside: a word, a number, a string or a symbol. One
item may be several tokens, as a number with a fraction is. -/
inductive Item where
  /-- A token that is always spelled the same. -/
  | symbol (kind : TokenKind)
  | word (word : Word)
  | number (numeral : Numeral)
  | string (quoted : Quoted)

/-- The spelling of an operator, a punctuator or a reserved word. -/
def spelling (kind : TokenKind) : String :=
  match punctuators.find? (·.2.kind = kind), keywords.find? (·.2 = kind) with
  | some (text, _), _ => text
  | none, some (text, _) => text
  | none, none => ""

/-- The characters of an item as they are written. -/
def Item.text : Item → String
  | symbol kind => spelling kind
  | word w => w.text
  | number numeral => numeral.raw
  | string quoted => quoted.raw

/-- Puts an operand in parentheses, unless it is an atom. -/
def operand (isAtom : Bool) (items : List Item) : List Item :=
  if isAtom then items else .symbol .openParen :: items ++ [.symbol .closeParen]

/-- Puts commas between lists of items. -/
def withCommas (lists : List (List Item)) : List Item := [Item.symbol .comma].intercalate lists

@[simp] theorem withCommas_nil : withCommas [] = [] := rfl

@[simp] theorem withCommas_singleton (items : List Item) : withCommas [items] = items := by
  simp [withCommas]

@[simp] theorem withCommas_cons (items next : List Item) (others : List (List Item)) :
    withCommas (items :: next :: others) =
      items ++ .symbol .comma :: withCommas (next :: others) := by
  simp [withCommas, List.intercalate_cons_cons]

mutual

/-- How an expression is written. Only what stands on the left of an operator, an access
or a call is put in parentheses: what stands on the right always takes all that follows. -/
def Expr.items : Expr → List Item
  | .name word => [.word word.toWord]
  | .number numeral => [.number numeral]
  | .string quoted => [.string quoted]
  | .unary operator argument => .symbol operator :: argument.items
  | .binary _ operator left right =>
    operand left.isAtom left.items ++ .symbol operator :: right.items
  | .assignment operator target value =>
    operand target.isAtom target.items ++ .symbol operator :: value.items
  | .conditional test consequent alternate =>
    operand test.isAtom test.items ++ .symbol .question :: consequent.items ++
      .symbol .colon :: alternate.items
  | .member object property =>
    operand object.isAtom object.items ++ [.symbol .period, .word property]
  | .computed object index =>
    operand object.isAtom object.items ++ .symbol .openSquare :: index.items ++
      [.symbol .closeSquare]
  | .call callee arguments =>
    operand callee.isAtom callee.items ++ .symbol .openParen ::
      withCommas (Expr.itemLists arguments) ++ [.symbol .closeParen]
  | .array elements =>
    .symbol .openSquare :: withCommas (Expr.itemLists elements) ++ [.symbol .closeSquare]

/-- The items of some expressions, one list for each of them. -/
def Expr.itemLists : List Expr → List (List Item)
  | [] => []
  | e :: others => e.items :: Expr.itemLists others

end

theorem Expr.itemLists_eq_map (es : List Expr) : Expr.itemLists es = es.map Expr.items := by
  induction es with
  | nil => rfl
  | cons e others ih => rw [Expr.itemLists, ih, List.map_cons]

/-- The text of an expression, with one space between any two items. -/
def Expr.text (e : Expr) : String := " ".intercalate (e.items.map (·.text))

end ScriptFront.Script
