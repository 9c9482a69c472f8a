import DocWeave.Decimal.Basic
import DocWeave.Decimal.Binary

/-!
# The shortest decimal that reads back

Between a double and its two neighbours lie the midpoints; every real strictly between them is read
as that double, and the midpoints themselves are when the significand is even. `shortest` looks for
the decimal with the fewest digits in this interval. For each number of digits only the two
neighbours of the value on that decimal grid need a look; of two that fit, the nearer one is taken,
and `TieBreak` says which one when they are equally near.
-/

namespace DocWeave.Decimal

/-- Which of two equally near decimals is taken. -/
inductive TieBreak where
  | up
  | even
deriving DecidableEq

/-- The reals that are read as one double, as fractions over a common denominator. -/
structure Interval where
  low : Nat
  value : Nat
  high : Nat
  den : Nat
  closed : Bool

/-- The interval of `m · 2 ^ q`, in quarters of the last place. The step below a power of two is half
as wide, except at the smallest power. -/
def Interval.around (m : Nat) (q : Int) : Interval :=
  let below := if m = Nat.pow 2 52 ∧ -1074 < q then 1 else 2
  let scale := if 0 ≤ q - 2 then Nat.pow 2 (q - 2).toNat else 1
  let den := if 0 ≤ q - 2 then 1 else Nat.pow 2 (2 - q).toNat
  { low := (4 * m - below) * scale, value := 4 * m * scale, high := (4 * m + 2) * scale, den,
    closed := m % 2 == 0 }

/-- The number of digits before the point: the least `k` with value below `10 ^ k`. -/
def Interval.magnitude (i : Interval) : Int :=
  Int.ofNat (Nat.toDigits 10 (i.value * Nat.pow 10 350 / i.den)).length - 350

/-- `c · 10 ^ e` lies in the interval. -/
def Interval.holds (i : Interval) (c : Nat) (e : Int) : Bool :=
  let up := Nat.pow 10 e.toNat
  let down := Nat.pow 10 (-e).toNat
  let x := c * up * i.den
  if i.closed then i.low * down ≤ x && x ≤ i.high * down
  else i.low * down < x && x < i.high * down

/-- The decimal of the grid `10 ^ e` that lies in the interval and is nearest to the value. -/
def Interval.onGrid? (i : Interval) (tie : TieBreak) (e : Int) : Option Decimal :=
  let up := Nat.pow 10 e.toNat
  let down := Nat.pow 10 (-e).toNat
  let num := i.value * down
  let den := i.den * up
  let c := num / den
  let twice := 2 * (num % den)
  match i.holds c e, i.holds (c + 1) e with
  | true, true =>
    let goUp := den < twice || twice == den && (match tie with | .up => true | .even => c % 2 == 1)
    some ⟨if goUp then c + 1 else c, e⟩
  | true, false => some ⟨c, e⟩
  | false, true => some ⟨c + 1, e⟩
  | false, false => none

/-- The decimal with the fewest digits that reads back as `m · 2 ^ q`; seventeen always suffice. -/
def shortest (tie : TieBreak) (m : Nat) (q : Int) : Decimal :=
  let i := Interval.around m q
  let k := i.magnitude
  match (List.range 17).findSome? fun n => i.onGrid? tie (k - Int.ofNat (n + 1)) with
  | some d => d.normalize
  | none => ⟨0, 0⟩

end DocWeave.Decimal
