import Stencil.Number.Binary64

/-!
# The fewest digits that read back

The numbers that a reader rounds to a finite `± m * 2 ^ e` (in units of `1 / one`) form an interval around it, closed
if `m` is even. The shortest decimal is found on the coarsest decimal grid that has a point in the interval: one of the
two neighbours of the number on that grid, the nearer one, and of two equally near ones the one that `Tie` names.
-/

namespace Stencil

/-- Which of two equally near neighbours is taken. -/
inductive Tie where
  | up
  | even
  deriving DecidableEq, Repr

/-- The decimal number `digits * 10 ^ exponent`. -/
structure ShortDecimal where
  digits : Nat
  exponent : Int
  deriving DecidableEq, Repr

namespace Shortest

/-- Numerator and denominator of `(num / den) / 10 ^ q`. -/
def onGrid (num den : Nat) (q : Int) : Nat × Nat :=
  if q < 0 then (num * 10 ^ (-q).toNat, den) else (num, den * 10 ^ q.toNat)

/-- The distance from a number to the lower end of its interval, in quarters of its last binary place: half a place, but
only a quarter where the numbers below lie closer. -/
def gapBelow (significand scale : Nat) : Nat :=
  if significand = 2 ^ (52 : Nat) ∧ 0 < scale then 1 else 2

/-- Whether the point `d` of the grid `10 ^ q` reads back as `significand * 2 ^ scale`. -/
def readsBack (significand scale : Nat) (q : Int) (d : Nat) : Bool :=
  let unit := 4 * Binary64.one
  let (lowNum, den) := onGrid ((4 * significand - gapBelow significand scale) * 2 ^ scale) unit q
  let (highNum, _) := onGrid ((4 * significand + 2) * 2 ^ scale) unit q
  if significand % 2 = 0 then lowNum ≤ d * den && d * den ≤ highNum
  else lowNum < d * den && d * den < highNum

/-- The neighbour of the number on the grid `10 ^ q` that reads back, if there is one. -/
def candidate (tie : Tie) (significand scale : Nat) (q : Int) : Option ShortDecimal :=
  let (num, den) := onGrid (significand * 2 ^ scale) Binary64.one q
  let d := num / den
  match readsBack significand scale q d, readsBack significand scale q (d + 1) with
  | true, true =>
    let twice := 2 * (num % den)
    let stays := twice < den || (twice == den && (tie == .even && d % 2 == 0))
    some ⟨if stays then d else d + 1, q⟩
  | true, false => some ⟨d, q⟩
  | false, true => some ⟨d + 1, q⟩
  | false, false => none

/-- The number of digits before the decimal point, zero or negative for small numbers: `10 ^ (k - 1) ≤ v < 10 ^ k`. -/
def decimalExponent (significand scale : Nat) : Int :=
  let wide := significand * 2 ^ scale * 10 ^ (400 : Nat) / Binary64.one
  ((Nat.toDigits 10 wide).length : Int) - 400

/-- Takes zeros off the end of the digits. -/
def dropZeros : Nat → ShortDecimal → ShortDecimal
  | 0, d => d
  | fuel + 1, d =>
    if d.digits % 10 = 0 && d.digits ≠ 0 then dropZeros fuel ⟨d.digits / 10, d.exponent + 1⟩ else d

end Shortest

/-- The decimal with the fewest digits that reads back as `significand * 2 ^ scale`. Seventeen digits suffice; the exact
value stands behind them. -/
def shortest (tie : Tie) (significand scale : Nat) : ShortDecimal :=
  if significand = 0 then ⟨0, 0⟩ else
  let k := Shortest.decimalExponent significand scale
  let lengths := (List.range 17).map (· + 1)
  match lengths.findSome? fun n : Nat => Shortest.candidate tie significand scale (k - n) with
  | some d => Shortest.dropZeros 20 d
  | none => ⟨significand * 2 ^ scale * 5 ^ (1074 : Nat), -1074⟩

end Stencil
