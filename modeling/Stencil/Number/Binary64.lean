import Stencil.Number.Integer

/-!
# Binary floating-point numbers of 64 bits

A finite number is `± significand * 2 ^ scale` in units of `2 ^ -1074`, the least positive number, with a significand
of at most 53 bits. The significand is as long as it can be, so that each number is written in one way; only zero has
two forms. All arithmetic is exact arithmetic on natural numbers followed by one rounding.

* `roundHalfEven_spec`: a rounded quotient is at most half a unit away.
* `Binary64.eq_of_magnitude_eq`: finite numbers of one sign and one magnitude are the same number.
-/

namespace Stencil

/-- The quotient rounded to the nearest whole number, a half to the even neighbour. -/
def roundHalfEven (num den : Nat) : Nat :=
  let quotient := num / den
  let rest := num % den
  if 2 * rest < den ∨ (2 * rest = den ∧ quotient % 2 = 0) then quotient else quotient + 1

theorem roundHalfEven_spec (num : Nat) {den : Nat} (h : 0 < den) :
    2 * num ≤ 2 * (roundHalfEven num den * den) + den ∧ 2 * (roundHalfEven num den * den) ≤ 2 * num + den := by
  have division : num = den * (num / den) + num % den := (Nat.div_add_mod num den).symm
  have small := Nat.mod_lt num h
  rw [Nat.mul_comm den] at division
  simp only [roundHalfEven]
  split
  · omega
  · next far =>
    have : den ≤ 2 * (num % den) := by omega
    rw [Nat.add_mul, Nat.one_mul]
    omega

/-- An exact quotient is not changed by rounding. -/
theorem roundHalfEven_mul (n : Nat) {den : Nat} (h : 0 < den) : roundHalfEven (n * den) den = n := by
  simp [roundHalfEven, Nat.mul_div_cancel n h, h]

/-- The significand is as long as the least scale allows. -/
def Canonical (significand scale : Nat) : Prop :=
  significand < 2 ^ (53 : Nat) ∧ scale ≤ 2045 ∧ (scale = 0 ∨ 2 ^ (52 : Nat) ≤ significand)

instance (significand scale : Nat) : Decidable (Canonical significand scale) := by
  unfold Canonical; infer_instance

/-- A binary floating-point number of 64 bits. -/
inductive Binary64 where
  | nan
  | infinity (negative : Bool)
  | finite (negative : Bool) (significand scale : Nat) (canonical : Canonical significand scale)
  deriving DecidableEq

namespace Binary64

/-- Finite numbers are counted in parts of one: a number is a whole multiple of `1 / one`. -/
def one : Nat := 2 ^ (1074 : Nat)

def zero (negative : Bool) : Binary64 := .finite negative 0 0 (by decide)

/-- Multiples of `1 / one` in a finite number without its sign. -/
def magnitude (significand scale : Nat) : Nat := significand * 2 ^ scale

/-- A greater scale belongs to a greater magnitude, since it leaves the significand its full length. -/
theorem scale_le_of_magnitude_eq {m e m' e' : Nat} (h : Canonical m e) (h' : Canonical m' e')
    (same : magnitude m e = magnitude m' e') : e' ≤ e := by
  refine Nat.not_lt.1 fun greater => ?_
  obtain ⟨k, rfl⟩ : ∃ k, e' = e + (k + 1) := ⟨e' - e - 1, by omega⟩
  have short : m < 2 ^ (53 : Nat) := h.1
  have long : 2 ^ (52 : Nat) ≤ m' := by
    rcases h'.2.2 with least | long
    · omega
    · exact long
  have shifted : m = m' * 2 ^ (k + 1) := by
    apply Nat.eq_of_mul_eq_mul_right (Nat.two_pow_pos e)
    rw [Nat.mul_assoc, ← Nat.pow_add, Nat.add_comm (k + 1)]
    exact same
  have twice : m' * 2 ≤ m := by
    rw [shifted, Nat.pow_succ, Nat.mul_comm (2 ^ k) 2, ← Nat.mul_assoc]
    exact Nat.le_mul_of_pos_right _ (Nat.two_pow_pos k)
  omega

/-- A magnitude is written in one way. -/
theorem eq_of_magnitude_eq {m e m' e' : Nat} (h : Canonical m e) (h' : Canonical m' e')
    (same : magnitude m e = magnitude m' e') : m = m' ∧ e = e' := by
  obtain rfl : e = e' :=
    Nat.le_antisymm (scale_le_of_magnitude_eq h' h same.symm) (scale_le_of_magnitude_eq h h' same)
  exact ⟨Nat.eq_of_mul_eq_mul_right (Nat.two_pow_pos e) same, rfl⟩

/-! ## Rounding -/

/-- The multiple of `2 ^ scale` next to a quotient, with the least scale at which it has at most `precision` bits, but
no scale below `least`. -/
def nearest (precision least num den : Nat) : Nat × Nat :=
  let scale := max least (Nat.log2 (num / den) + 1 - precision)
  (roundHalfEven num (den * 2 ^ scale), scale)

/-- The number with a significand of at most 53 bits, or 54 bits after rounding up; too large a scale is an infinity. -/
def ofScaled (negative : Bool) (significand scale : Nat) : Binary64 :=
  let (significand, scale) := if significand = 2 ^ (53 : Nat) then (2 ^ (52 : Nat), scale + 1) else (significand, scale)
  if h : Canonical significand scale then .finite negative significand scale h else .infinity negative

/-- The number next to `± num / den`, a tie going to the even significand. -/
def ofRatio (negative : Bool) (num den : Nat) : Binary64 :=
  let (significand, scale) := nearest 53 0 (num * one) den
  ofScaled negative significand scale

/-- The number of 32 bits next to `± num / den`, as a number of 64 bits. -/
def ofRatioSingle (negative : Bool) (num den : Nat) : Binary64 :=
  let (significand, scale) := nearest 24 925 (num * one) den
  if 2 ^ (128 : Nat) * one ≤ significand * 2 ^ scale then .infinity negative
  else ofRatio negative (significand * 2 ^ scale) one

/-- The number next to an integer. -/
def ofInt (n : Int) : Binary64 := ofRatio (n < 0) n.natAbs 1

/-! ## Questions -/

def isZero : Binary64 → Bool
  | .finite _ 0 _ _ => true
  | _ => false

def isFinite : Binary64 → Bool
  | .finite .. => true
  | _ => false

/-- Equality of numbers: not-a-number differs from itself, and the two zeros are equal. -/
def equal : Binary64 → Binary64 → Bool
  | .nan, _ => false
  | x, y => decide (x = y) || (x.isZero && y.isZero)

/-- The integer a number is equal to. -/
def whole? : Binary64 → Option Int
  | .finite negative significand scale _ =>
    let n := magnitude significand scale
    if n % one = 0 then some (if negative then -((n / one : Nat) : Int) else (n / one : Nat)) else none
  | _ => none

end Binary64

end Stencil
