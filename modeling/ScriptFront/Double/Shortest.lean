namespace ScriptFront.Double

/-- The decimal number `digits * 10 ^ exponent`. Of all that read back as a given double the
shortest one is looked for. -/
structure Decimal where
  digits : Nat
  exponent : Int
deriving DecidableEq, Repr

/-- The reals that round to one positive double, with the double itself among
them: all three are counted in units of `2 ^ exponent`. The ends belong to it
when `closed` holds. -/
structure Neighbourhood where
  low : Nat
  value : Nat
  high : Nat
  exponent : Int
  closed : Bool

namespace Neighbourhood

/-- The neighbourhood of `mantissa * 2 ^ exponent` in quarters of its last
place. It ends half a place away, and a quarter below a power of two, where the
doubles are twice as dense; a tie between two doubles goes to the even mantissa. -/
def of (mantissa : Nat) (exponent : Int) : Neighbourhood where
  low := if mantissa = Nat.pow 2 52 ∧ -1074 < exponent then 4 * mantissa - 1 else 4 * mantissa - 2
  value := 4 * mantissa
  high := 4 * mantissa + 2
  exponent := exponent - 2
  closed := mantissa % 2 == 0

/-- The multiple of `10 ^ p` inside the neighbourhood that is nearest to the
double, the upper of two at the same distance. If any multiple lies inside, so
does one of the two around the double. -/
def onGrid (n : Neighbourhood) (p : Int) : Option Nat :=
  let unit := Nat.pow 10 p.toNat * Nat.pow 2 (-n.exponent).toNat
  let scale := Nat.pow 10 (-p).toNat * Nat.pow 2 n.exponent.toNat
  let value := n.value * scale
  let below := value / unit
  let inside (k : Nat) : Bool :=
    if n.closed then n.low * scale ≤ k * unit && k * unit ≤ n.high * scale
    else n.low * scale < k * unit && k * unit < n.high * scale
  match inside below, inside (below + 1) with
  | true, true =>
    some (if value - below * unit < (below + 1) * unit - value then below else below + 1)
  | true, false => some below
  | false, true => some (below + 1)
  | false, false => none

end Neighbourhood

/-- A power of ten above every real that rounds to `mantissa * 2 ^ exponent`. -/
def coarsestExponent (mantissa : Nat) (exponent : Int) : Int :=
  ((mantissa.log2 : Int) + exponent + 2) * 30103 / 100000 + 2

/-- The decimal with the fewest digits that rounds to `mantissa * 2 ^ exponent`,
and the nearest one of those. Grids of powers of ten are tried from coarse to
fine; seventeen digits always suffice, so forty grids are never exhausted. -/
def shortest (mantissa : Nat) (exponent : Int) : Decimal :=
  let around := Neighbourhood.of mantissa exponent
  let top := coarsestExponent mantissa exponent
  let hit := (List.range 40).findSome? fun (k : Nat) =>
    (around.onGrid (top - k)).map fun digits => Decimal.mk digits (top - k)
  hit.getD ⟨0, 0⟩

end ScriptFront.Double
