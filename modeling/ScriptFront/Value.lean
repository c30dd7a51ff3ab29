import ScriptFront.Double.Text

namespace ScriptFront

/-- What an expression can be worth. The outcome "not a number" stands apart from
the numbers, because it spoils every operation but the joining of texts. -/
inductive Value where
  | undefined
  | nan
  | number (n : Float)
  | string (s : String)
  | boolean (b : Bool)
deriving BEq, Repr

/-- The values that take part in arithmetic and in the joining of texts. The other two, of a missing
value and of what is not a number, never get so far: they decide the outcome beforehand. -/
inductive RealValue where
  | number (n : Float)
  | string (s : String)
  | boolean (b : Bool)
deriving BEq, Repr

namespace RealValue

/-- The same value among all values. -/
def toValue : RealValue → Value
  | number n => .number n
  | string s => .string s
  | boolean b => .boolean b

/-- How a value is shown: numbers in their shortest form, texts as they are. -/
def text : RealValue → String
  | number n => Double.text n
  | string s => s
  | boolean true => "true"
  | boolean false => "false"

end RealValue

namespace Value

/-- The value, unless it is one of the two that stand for the absence of a value. -/
def real? : Value → Option RealValue
  | number n => some (.number n)
  | string s => some (.string s)
  | boolean b => some (.boolean b)
  | undefined => none
  | nan => none

/-- Whether it is a value in its own right. -/
def isReal (v : Value) : Bool := v.real?.isSome

/-- The text that a value has when it is joined to another. -/
def text : Value → String
  | undefined => "undefined"
  | nan => "NaN"
  | number n => Double.text n
  | string s => s
  | boolean true => "true"
  | boolean false => "false"

/-- A value and its real view read the same. -/
theorem text_eq_of_real? {v : Value} {r : RealValue} (real : v.real? = some r) :
    v.text = r.text := by
  cases v with
  | undefined => cases real
  | nan => cases real
  | number n => cases real; rfl
  | string s => cases real; rfl
  | boolean b => cases real; cases b <;> rfl

/-- The real view keeps all of a value that has one. -/
theorem real?_eq_some_iff {v : Value} {r : RealValue} : v.real? = some r ↔ v = r.toValue := by
  cases v <;> cases r <;> simp [real?, RealValue.toValue]

end Value

end ScriptFront
