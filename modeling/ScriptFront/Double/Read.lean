import ScriptFront.Double.Remainder

namespace ScriptFront.Double

open Float.Model (UnpackedFloat)

/-- The number that a run of decimal digits stands for. -/
def digitsValue (digits : List Char) : Nat :=
  digits.foldl (fun value c => 10 * value + (c.toNat - '0'.toNat)) 0

/-- Reads what follows the digits of a number: nothing, or `e` with an optional
sign and at least one digit. -/
def exponent? : List Char → Option Int
  | [] => some 0
  | mark :: rest =>
    if mark = 'e' ∨ mark = 'E' then
      match rest with
      | '-' :: digits => if isRun digits then some (-(digitsValue digits : Int)) else none
      | '+' :: digits => if isRun digits then some (digitsValue digits) else none
      | digits => if isRun digits then some (digitsValue digits) else none
    else none
where
  isRun (digits : List Char) : Bool :=
    !digits.isEmpty && digits.all Char.isDigit

/-- The double nearest to `digits * 10 ^ exponent`, infinite when it is too large. -/
def ofDecimal (digits : Nat) (exponent : Int) : Float :=
  if exponent < 0 then Float.ofScientific digits true (-exponent).toNat
  else Float.ofScientific digits false exponent.toNat

/-- Reads digits with an optional fraction and an optional exponent; one digit on
either side of the point is enough. -/
def unsigned? (cs : List Char) : Option Float :=
  let whole := cs.takeWhile Char.isDigit
  let rest := cs.dropWhile Char.isDigit
  let (fraction, rest) :=
    match rest with
    | '.' :: after => (after.takeWhile Char.isDigit, after.dropWhile Char.isDigit)
    | _ => ([], rest)
  if whole.isEmpty && fraction.isEmpty then none
  else
    (exponent? rest).map fun exponent =>
      ofDecimal (digitsValue (whole ++ fraction)) (exponent - fraction.length)

/-- The names of the numbers that have no digits, in any case of letters. -/
def named? (cs : List Char) : Option Float :=
  let name := cs.map Char.toLower
  if name = "inf".toList ∨ name = "infinity".toList then
    some (ofUnpacked (.infinity .positive))
  else if name = "nan".toList then some (ofUnpacked .notANumber)
  else none

/-- Reads a whole text as a number, with an optional sign in front; the value is
the nearest double. -/
def read? (text : String) : Option Float :=
  match text.toList with
  | '-' :: cs => (magnitude? cs).map Float.neg
  | '+' :: cs => magnitude? cs
  | cs => magnitude? cs
where
  magnitude? (cs : List Char) : Option Float :=
    (unsigned? cs).or (named? cs)

end ScriptFront.Double
