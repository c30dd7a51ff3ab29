namespace ScriptFront.Text

/-- A set of code points, as closed intervals in increasing order. -/
abbrev Ranges := List (Nat × Nat)

/-- Whether the code point of `c` lies in one of the intervals. -/
def Ranges.contains (ranges : Ranges) (c : Char) : Bool :=
  ranges.any fun (low, high) => low ≤ c.toNat && c.toNat ≤ high

end ScriptFront.Text
