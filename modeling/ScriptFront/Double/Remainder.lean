namespace ScriptFront.Double

open Float.Model (UnpackedFloat)

/-- The double that an unpacked number packs to. -/
def ofUnpacked (u : UnpackedFloat) : Float :=
  .ofModel (.pack u)

/-- What is left of `x` after taking away as many whole `y` as fit, toward zero.
Both are multiples of a common power of two, so the remainder of their integer
multiples is exact and needs no rounding. It has the sign of `x`; there is none
when `x` is infinite, when `y` is zero, and when either is not a number. -/
def remainder (x y : Float) : Float :=
  match x.toModel.unpack, y.toModel.unpack with
  | .finite sign m e _, .finite _ n f _ =>
    let common := min e f
    let left := m * Nat.pow 2 (e - common).toNat
    let right := n * Nat.pow 2 (f - common).toNat
    ofUnpacked (UnpackedFloat.round .binary64 sign (left % right) common)
  | .finite _ _ _ _, .infinity _ => x
  | .zero _, .finite _ _ _ _ => x
  | .zero _, .infinity _ => x
  | _, _ => ofUnpacked .notANumber

end ScriptFront.Double
