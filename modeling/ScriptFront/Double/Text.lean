import ScriptFront.Double.Shortest

namespace ScriptFront.Double

open Float.Model (UnpackedFloat)

/-- The digits around a decimal point, never with an exponent and never with a
point that has no digit on one of its sides. -/
def Decimal.positional (d : Decimal) : List Char :=
  let digits := Nat.toDigits 10 d.digits
  let whole := (digits.length : Int) + d.exponent
  if 0 ≤ d.exponent then
    digits ++ List.replicate d.exponent.toNat '0'
  else if 0 < whole then
    digits.take whole.toNat ++ '.' :: digits.drop whole.toNat
  else
    '0' :: '.' :: List.replicate (-whole).toNat '0' ++ digits

/-- How a number is written: the fewest digits that read back, positionally. Both
zeros are written without a sign. -/
def text (x : Float) : String :=
  match x.toModel.unpack with
  | .notANumber => "NaN"
  | .infinity .positive => "Infinity"
  | .infinity .negative => "-Infinity"
  | .zero _ => "0"
  | .finite .positive mantissa exponent _ =>
    String.ofList (shortest mantissa exponent).positional
  | .finite .negative mantissa exponent _ =>
    String.ofList ('-' :: (shortest mantissa exponent).positional)

end ScriptFront.Double
