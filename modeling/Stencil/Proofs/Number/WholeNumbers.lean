import Stencil.Coercion
import Stencil.Proofs.Number.NearestInteger

/-!
# Whole numbers

A finite floating-point number stands for a rational number. It is taken as an integer if that is a whole number from
`-2 ^ 63` to `2 ^ 63`, and then the integer is the same number, but for the upper end: there is no such integer of 64
bits, and the greatest one, which is one less, takes its place.

* `Binary64.whole?_eq_some_iff`: the integer that a number is equal to.
* `Value.coerce_integer_float`: which numbers are taken as which integers, and the one that is taken as another number.
-/

namespace Stencil

namespace Binary64

/-- The rational number that a finite number stands for. -/
def rational? : Binary64 → Option ℚ
  | .finite negative significand scale _ =>
    let size := (magnitude significand scale : ℚ) / (one : ℚ)
    some (if negative then -size else size)
  | _ => none

/-- A quotient is a whole number if nothing is left over. -/
theorem cast_div_eq_iff {n d k : Nat} (pos : 0 < d) : (n : ℚ) / (d : ℚ) = (k : ℚ) ↔ n % d = 0 ∧ n / d = k := by
  have nonzero : (d : ℚ) ≠ 0 := Nat.cast_ne_zero.2 pos.ne'
  rw [div_eq_iff nonzero, ← Nat.cast_mul, Nat.cast_inj]
  constructor
  · rintro rfl
    exact ⟨Nat.mul_mod_left k d, Nat.mul_div_cancel k pos⟩
  · rintro ⟨divides, rfl⟩
    exact (Nat.div_mul_cancel (Nat.dvd_of_mod_eq_zero divides)).symm

/-- The same for an integer, which is then not negative. -/
theorem cast_div_eq_intCast_iff {n d : Nat} (pos : 0 < d) {z : Int} :
    (n : ℚ) / (d : ℚ) = (z : ℚ) ↔ n % d = 0 ∧ ((n / d : Nat) : Int) = z := by
  have nonneg : (0 : ℚ) ≤ (n : ℚ) / (d : ℚ) := by positivity
  cases z with
  | ofNat k =>
    rw [Int.ofNat_eq_natCast, Int.cast_natCast, cast_div_eq_iff pos, Int.natCast_inj]
  | negSucc k =>
    have negative : ((Int.negSucc k : Int) : ℚ) < 0 := Int.cast_lt_zero.2 (Int.negSucc_lt_zero k)
    constructor
    · intro same
      rw [same] at nonneg
      exact absurd negative (not_lt.2 nonneg)
    · rintro ⟨-, same⟩
      cases same

/-- The integer that a number is equal to is the rational number that it stands for. -/
theorem whole?_eq_some_iff {x : Binary64} {z : Int} : x.whole? = some z ↔ x.rational? = some (z : ℚ) := by
  cases x with
  | nan => simp [whole?, rational?]
  | infinity negative => simp [whole?, rational?]
  | finite negative significand scale canonical =>
    simp only [whole?, rational?, Option.some.injEq]
    have pos := one_pos
    generalize magnitude significand scale = n
    generalize one = d at pos ⊢
    cases negative with
    | false =>
      simp only [Bool.false_eq_true, if_false]
      rw [cast_div_eq_intCast_iff pos]
      split <;> simp [*]
    | true =>
      simp only [if_true]
      rw [neg_eq_iff_eq_neg, ← Int.cast_neg, cast_div_eq_intCast_iff pos, ← neg_eq_iff_eq_neg]
      split <;> simp [*]

theorem whole?_eq_limit_iff {x : Binary64} :
    x.whole? = some (2 ^ (63 : Nat)) ↔ x.rational? = some (2 ^ (63 : Nat)) := by
  rw [whole?_eq_some_iff, Int.cast_pow, Int.cast_ofNat]

end Binary64

namespace Value

open Binary64

/-- A number taken as an integer of 64 bits is this integer, or the number next to the greatest one. -/
theorem wholeInteger_eq_some_iff {x : Binary64} {k : Int64} : wholeInteger x = some k
    ↔ x.whole? = some k.toInt ∨ x.whole? = some (2 ^ (63 : Nat)) ∧ k.toInt = 2 ^ (63 : Nat) - 1 := by
  have least := k.le_toInt
  have greatest := k.toInt_lt
  unfold wholeInteger
  cases x.whole? with
  | none => simp
  | some z =>
    simp only [Option.bind_some, Option.some.injEq]
    constructor
    · intro taken
      split at taken
      · next range =>
        obtain rfl := Option.some.inj taken
        rw [Int64.toInt_ofInt_of_le (by omega) (by omega)]
        omega
      · cases taken
    · intro either
      rw [if_pos (by omega), Option.some.injEq, ← Int64.toInt_inj, Int64.toInt_ofInt_of_le (by omega) (by omega)]
      omega

theorem coerce_float {x : Binary64} : coerce .integer (.float x) = match wholeInteger x with
    | some k => .ok (.integer k)
    | none => .error (.noConversion "float" "integer") := by
  show ((Value.float x).asInteger.map .integer : Except ConversionFault Value) = _
  unfold asInteger
  cases h : wholeInteger x <;> simp only [h] <;> rfl

theorem coerce_float_ok_iff {x : Binary64} {k : Int64} : coerce .integer (.float x) = .ok (.integer k)
    ↔ x.rational? = some (k.toInt : ℚ) ∨ x.rational? = some (2 ^ (63 : Nat)) ∧ k.toInt = 2 ^ (63 : Nat) - 1 := by
  rw [coerce_float, ← whole?_eq_some_iff, ← whole?_eq_limit_iff, ← wholeInteger_eq_some_iff]
  cases wholeInteger x <;> simp

/-- The numbers that are refused are those that are no integers, and those too large or too small. -/
theorem coerce_float_error_iff {x : Binary64} : coerce .integer (.float x) = .error (.noConversion "float" "integer")
    ↔ ∀ z : Int, -2 ^ (63 : Nat) ≤ z → z ≤ 2 ^ (63 : Nat) → x.rational? ≠ some (z : ℚ) := by
  simp only [ne_eq, ← whole?_eq_some_iff, coerce_float]
  unfold wholeInteger
  cases x.whole? with
  | none => simp
  | some w =>
    simp only [Option.bind_some, Option.some.injEq]
    by_cases range : -2 ^ (63 : Nat) ≤ w ∧ w ≤ 2 ^ (63 : Nat)
    · rw [if_pos range]
      simp only [reduceCtorEq, false_iff, not_forall]
      exact ⟨w, range.1, range.2, not_not.2 rfl⟩
    · rw [if_neg range]
      simp only [true_iff]
      rintro z least greatest rfl
      exact range ⟨least, greatest⟩

/-- **A number is taken as the integer that it stands for, and `2 ^ 63` as the greatest integer.** All other numbers are
refused. -/
theorem coerce_integer_float (x : Binary64) :
    (∀ k : Int64, coerce .integer (.float x) = .ok (.integer k)
        ↔ x.rational? = some (k.toInt : ℚ) ∨ x.rational? = some (2 ^ (63 : Nat)) ∧ k.toInt = 2 ^ (63 : Nat) - 1)
      ∧ (coerce .integer (.float x) = .error (.noConversion "float" "integer")
        ↔ ∀ z : Int, -2 ^ (63 : Nat) ≤ z → z ≤ 2 ^ (63 : Nat) → x.rational? ≠ some (z : ℚ))
      ∧ ((∀ k : Int64, coerce .integer (.float x) = .ok (.integer k) ↔ x.rational? = some (k.toInt : ℚ))
        ↔ x.rational? ≠ some (2 ^ (63 : Nat))) := by
  refine ⟨fun k => coerce_float_ok_iff, coerce_float_error_iff, ?_⟩
  simp only [coerce_float_ok_iff]
  constructor
  · intro exact' limit
    -- The greatest integer is another number than the one that is taken as it.
    have greatest : (Int64.ofInt (2 ^ (63 : Nat) - 1)).toInt = 2 ^ (63 : Nat) - 1 := by decide
    have same := (exact' _).1 (.inr ⟨limit, greatest⟩)
    rw [limit, greatest] at same
    norm_num at same
  · intro below k
    simp [below]

/-- The number that is one too large. -/
theorem coerce_integer_float_limit :
    let x := Binary64.finite false (2 ^ (52 : Nat)) 1085 (by decide)
    coerce .integer (.float x) = .ok (.integer (.ofInt (2 ^ (63 : Nat) - 1))) ∧ x.rational? = some (2 ^ (63 : Nat)) := by
  intro x
  have limit : x.rational? = some (2 ^ (63 : Nat)) := whole?_eq_limit_iff.1 (by decide +kernel)
  exact ⟨((coerce_integer_float x).1 _).2 (.inr ⟨limit, by decide⟩), limit⟩

end Value

end Stencil
