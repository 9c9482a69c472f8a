/-!
# Binary floating point, taken apart

The bits of a double determine its sign, its integer significand `m` and the power of two `q` it is
multiplied with: the number is `± m · 2 ^ q`. Everything that is printed about a double is computed
from these three in exact arithmetic.
-/

namespace DocWeave

/-- The parts of a double. -/
inductive Binary where
  | nan
  | infinite (negative : Bool)
  | finite (negative : Bool) (significand : Nat) (power : Int)
deriving Repr, DecidableEq

namespace Binary

/-- Takes the bit pattern of a double apart. -/
def ofBits (bits : Nat) : Binary :=
  let negative := bits / Nat.pow 2 63 % 2 == 1
  let e := bits / Nat.pow 2 52 % 2048
  let f := bits % Nat.pow 2 52
  if e = 2047 then (if f = 0 then .infinite negative else .nan)
  else if e = 0 then .finite negative f (-1074)
  else .finite negative (f + Nat.pow 2 52) (Int.ofNat e - 1075)

/-- The parts of a floating-point number. -/
def ofFloat (x : Float) : Binary := ofBits x.toBits.toNat

/-- `m · 2 ^ q` is a whole number. -/
def isWhole (m : Nat) (q : Int) : Bool := 0 ≤ q || m % Nat.pow 2 (-q).toNat == 0

/-- The whole part of `m · 2 ^ q`. -/
def wholePart (m : Nat) (q : Int) : Nat :=
  if 0 ≤ q then m * Nat.pow 2 q.toNat else m / Nat.pow 2 (-q).toNat

end Binary

end DocWeave
