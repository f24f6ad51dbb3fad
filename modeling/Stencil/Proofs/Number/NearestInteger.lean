import Mathlib
import Stencil.Number.Binary64

/-!
# Integers as floating-point numbers

An integer with at most 53 significant binary digits is a floating-point number. Any other integer becomes the nearest
of these (`Binary64.nearestInt`), which is a whole number again as long as the integer is not beyond all numbers.

* `Binary64.nearestInt_nearest`: no integer of at most 53 significant digits is nearer.
* `Binary64.ofInt_eq_finite`: the number next to an integer has the size of this one.
-/

namespace Stencil

/-! ## Rounding quotients -/

section Rounding

variable {num den : Nat}

theorem roundHalfEven_cases (num den : Nat) :
    roundHalfEven num den = num / den ∨ roundHalfEven num den = num / den + 1 := by
  unfold roundHalfEven
  simp only
  split
  · exact .inl rfl
  · exact .inr rfl

/-- A factor of both parts of a quotient does not matter. -/
theorem roundHalfEven_mul_mul (num den : Nat) {factor : Nat} (h : 0 < factor) :
    roundHalfEven (num * factor) (den * factor) = roundHalfEven num den := by
  have less : 2 * (num % den * factor) < den * factor ↔ 2 * (num % den) < den := by
    rw [← Nat.mul_assoc, Nat.mul_lt_mul_right h]
  have tie : 2 * (num % den * factor) = den * factor ↔ 2 * (num % den) = den := by
    rw [← Nat.mul_assoc, Nat.mul_left_inj h.ne']
  simp only [roundHalfEven, Nat.mul_div_mul_right num den h, Nat.mul_mod_mul_right, less, tie]

/-- No multiple of the denominator is nearer. -/
theorem roundHalfEven_nearest (num : Nat) (h : 0 < den) (other : Nat) :
    ((num : Int) - (roundHalfEven num den * den : Nat)).natAbs ≤ ((num : Int) - (other * den : Nat)).natAbs := by
  obtain ⟨above, below⟩ := roundHalfEven_spec num h
  generalize roundHalfEven num den = rounded at above below ⊢
  rcases Nat.lt_trichotomy other rounded with less | rfl | greater
  · have apart : (other + 1) * den ≤ rounded * den := Nat.mul_le_mul_right den less
    rw [Nat.add_mul, Nat.one_mul] at apart
    omega
  · exact le_rfl
  · have apart : (rounded + 1) * den ≤ other * den := Nat.mul_le_mul_right den greater
    rw [Nat.add_mul, Nat.one_mul] at apart
    omega

end Rounding

namespace Binary64

/-! ## The nearest number of 53 digits -/

/-- Whether an integer has at most 53 significant binary digits. -/
def Fits (n : Int) : Prop :=
  ∃ significand scale : Nat, significand < 2 ^ (53 : Nat) ∧ n.natAbs = significand * 2 ^ scale

/-- The place of the last of 53 binary digits; one, if there are not so many. -/
def lastPlace (n : Nat) : Nat := 2 ^ (n.log2 - 52)

/-- The nearest multiple of the last place, a half to the even neighbour. -/
def nearestNat (n : Nat) : Nat := roundHalfEven n (lastPlace n) * lastPlace n

/-- The nearest integer with at most 53 significant binary digits. -/
def nearestInt (n : Int) : Int := if n < 0 then -(nearestNat n.natAbs : Int) else nearestNat n.natAbs

section Nat

variable {n : Nat}

theorem lastPlace_pos (n : Nat) : 0 < lastPlace n := Nat.two_pow_pos _

theorem lt_lastPlace (n : Nat) : n < 2 ^ (53 : Nat) * lastPlace n := by
  have below : n < 2 ^ (n.log2 + 1) := Nat.lt_log2_self
  unfold lastPlace
  rw [← Nat.pow_add]
  exact lt_of_lt_of_le below (Nat.pow_le_pow_right (by decide) (by omega))

/-- All of 53 digits are significant, or the last place is one. -/
theorem lastPlace_cases (n : Nat) : lastPlace n = 1 ∨ 2 ^ (52 : Nat) * lastPlace n ≤ n := by
  unfold lastPlace
  by_cases short : n.log2 ≤ 52
  · left
    rw [Nat.sub_eq_zero_of_le short, Nat.pow_zero]
  · right
    have nonzero : n ≠ 0 := by
      rintro rfl
      simp at short
    rw [← Nat.pow_add, show 52 + (n.log2 - 52) = n.log2 by omega]
    exact Nat.log2_self_le nonzero

theorem nearestNat_of_lastPlace (h : lastPlace n = 1) : nearestNat n = n := by
  have := roundHalfEven_mul n Nat.one_pos
  rw [Nat.mul_one] at this
  rw [nearestNat, h, Nat.mul_one, this]

/-- The quotient by the last place has at most 53 digits, or one more after it is rounded up. -/
theorem roundHalfEven_lastPlace_le (n : Nat) : roundHalfEven n (lastPlace n) ≤ 2 ^ (53 : Nat) := by
  have : n / lastPlace n < 2 ^ (53 : Nat) := (Nat.div_lt_iff_lt_mul (lastPlace_pos n)).2 (lt_lastPlace n)
  rcases roundHalfEven_cases n (lastPlace n) with h | h <;> omega

theorem le_roundHalfEven_lastPlace (large : 2 ^ (52 : Nat) * lastPlace n ≤ n) :
    2 ^ (52 : Nat) ≤ roundHalfEven n (lastPlace n) := by
  have : 2 ^ (52 : Nat) ≤ n / lastPlace n := (Nat.le_div_iff_mul_le (lastPlace_pos n)).2 large
  rcases roundHalfEven_cases n (lastPlace n) with h | h <;> omega

theorem nearestNat_pos (h : 0 < n) : 0 < nearestNat n := by
  rcases lastPlace_cases n with single | large
  · rwa [nearestNat_of_lastPlace single]
  · have := le_roundHalfEven_lastPlace large
    exact Nat.mul_pos (by omega) (lastPlace_pos n)

/-- A number of 53 digits that is not below one with this last place is a multiple of the place. -/
theorem lastPlace_dvd {significand scale : Nat} (short : significand < 2 ^ (53 : Nat))
    (large : 2 ^ (52 : Nat) * lastPlace n ≤ significand * 2 ^ scale) : lastPlace n ∣ significand * 2 ^ scale := by
  unfold lastPlace at large ⊢
  generalize n.log2 - 52 = place at large ⊢
  have enough : place ≤ scale := by
    by_contra less
    have small : significand * 2 ^ scale < 2 ^ (53 : Nat) * 2 ^ scale :=
      Nat.mul_lt_mul_of_pos_right short (Nat.two_pow_pos scale)
    have place' : 2 ^ (53 : Nat) * 2 ^ scale ≤ 2 ^ (52 : Nat) * 2 ^ place := by
      rw [← Nat.pow_add, ← Nat.pow_add]
      exact Nat.pow_le_pow_right (by decide) (by omega)
    omega
  exact Dvd.dvd.mul_left (Nat.pow_dvd_pow 2 enough) significand

/-- No number of 53 digits is nearer. -/
theorem nearestNat_nearest (n scale : Nat) {significand : Nat} (short : significand < 2 ^ (53 : Nat)) :
    ((n : Int) - nearestNat n).natAbs ≤ ((n : Int) - (significand * 2 ^ scale : Nat)).natAbs := by
  rcases lastPlace_cases n with single | large
  · rw [nearestNat_of_lastPlace single]
    omega
  · unfold nearestNat
    by_cases small : significand * 2 ^ scale < 2 ^ (52 : Nat) * lastPlace n
    · -- The least number with this last place lies between.
      have least := roundHalfEven_nearest n (lastPlace_pos n) (2 ^ (52 : Nat))
      omega
    · obtain ⟨other, multiple⟩ := lastPlace_dvd short (Nat.le_of_not_lt small)
      rw [multiple, Nat.mul_comm (lastPlace n)]
      exact roundHalfEven_nearest n (lastPlace_pos n) other

end Nat

section Int

variable {n m : Int}

theorem natAbs_nearestInt (n : Int) : (nearestInt n).natAbs = nearestNat n.natAbs := by
  unfold nearestInt
  split <;> omega

theorem nearestInt_neg_iff : nearestInt n < 0 ↔ n < 0 := by
  unfold nearestInt
  split
  · next h =>
    have := nearestNat_pos (n := n.natAbs) (by omega)
    omega
  · next h => omega

theorem fits_nearestInt (n : Int) : Fits (nearestInt n) := by
  unfold Fits
  rw [natAbs_nearestInt, nearestNat]
  rcases (roundHalfEven_lastPlace_le n.natAbs).lt_or_eq with short | carry
  · exact ⟨_, n.natAbs.log2 - 52, short, rfl⟩
  · -- Rounding up has carried into one digit more, and all digits behind it are zero.
    refine ⟨1, 53 + (n.natAbs.log2 - 52), by decide, ?_⟩
    rw [carry, lastPlace, ← Nat.pow_add, Nat.one_mul]

/-- No integer of at most 53 significant digits is nearer. -/
theorem nearestInt_nearest (n : Int) (fits : Fits m) : (n - nearestInt n).natAbs ≤ (n - m).natAbs := by
  obtain ⟨significand, scale, short, size⟩ := fits
  have nearest := nearestNat_nearest n.natAbs scale short
  rw [← size] at nearest
  unfold nearestInt
  split <;> omega

/-- Integers with at most 53 significant digits are left as they are. -/
theorem nearestInt_eq_iff : nearestInt n = n ↔ Fits n := by
  constructor
  · intro same
    exact same ▸ fits_nearestInt n
  · intro fits
    have := nearestInt_nearest n fits
    omega

/-! ## The number next to an integer -/

theorem one_pos : 0 < one := by
  unfold one
  positivity

theorem log2_mul_two_pow {n : Nat} (nonzero : n ≠ 0) (k : Nat) : (n * 2 ^ k).log2 = n.log2 + k := by
  have pos : 0 < 2 ^ k := Nat.two_pow_pos k
  rw [Nat.log2_eq_iff (Nat.mul_ne_zero nonzero pos.ne'), show n.log2 + k + 1 = n.log2 + 1 + k by omega, Nat.pow_add,
    Nat.pow_add]
  exact ⟨Nat.mul_le_mul_right _ (Nat.log2_self_le nonzero), Nat.mul_lt_mul_of_pos_right Nat.lt_log2_self pos⟩

/-- The significand of an integer that is counted in fine parts of one, and its value. -/
theorem significand_spec {n parts scale : Nat} (nonzero : n ≠ 0) (place : scale + 52 = n.log2 + parts) :
    let significand := roundHalfEven (n * 2 ^ parts) (2 ^ scale)
    2 ^ (52 : Nat) ≤ significand ∧ significand ≤ 2 ^ (53 : Nat)
      ∧ significand * 2 ^ scale = nearestNat n * 2 ^ parts := by
  by_cases short : n.log2 ≤ 52
  · -- The integer is a multiple of the place.
    obtain ⟨k, rfl⟩ : ∃ k, parts = scale + k := ⟨parts - scale, by omega⟩
    have exact' : roundHalfEven (n * 2 ^ (scale + k)) (2 ^ scale) = n * 2 ^ k := by
      rw [show n * 2 ^ (scale + k) = n * 2 ^ k * 2 ^ scale by ring]
      exact roundHalfEven_mul _ (Nat.two_pow_pos scale)
    have digits : (n * 2 ^ k).log2 = 52 := by
      rw [log2_mul_two_pow nonzero]
      omega
    obtain ⟨least, below⟩ := (Nat.log2_eq_iff (Nat.mul_ne_zero nonzero (Nat.two_pow_pos k).ne')).1 digits
    have single : lastPlace n = 1 := by rw [lastPlace, Nat.sub_eq_zero_of_le short, Nat.pow_zero]
    rw [exact', nearestNat_of_lastPlace single]
    exact ⟨least, below.le, by ring⟩
  · -- The factor of both is cancelled.
    obtain ⟨k, rfl⟩ : ∃ k, scale = k + parts := ⟨scale - parts, by omega⟩
    have last : lastPlace n = 2 ^ k := by rw [lastPlace, show n.log2 - 52 = k by omega]
    have large : 2 ^ (52 : Nat) * lastPlace n ≤ n :=
      (lastPlace_cases n).resolve_left fun single => by
        rw [last] at single
        have := Nat.one_lt_two_pow (show k ≠ 0 by omega)
        omega
    have same : roundHalfEven (n * 2 ^ parts) (2 ^ (k + parts)) = roundHalfEven n (lastPlace n) := by
      rw [Nat.pow_add, roundHalfEven_mul_mul n _ (Nat.two_pow_pos parts), last]
    rw [same]
    refine ⟨le_roundHalfEven_lastPlace large, roundHalfEven_lastPlace_le n, ?_⟩
    rw [nearestNat, last, Nat.pow_add, Nat.mul_assoc]

/-- A significand of 53 digits, or one more after rounding up, makes a finite number of the same size. -/
theorem ofScaled_spec (negative : Bool) {significand scale : Nat} (least : 2 ^ (52 : Nat) ≤ significand)
    (greatest : significand ≤ 2 ^ (53 : Nat)) (range : scale < 2045) : ∃ m e canonical,
      ofScaled negative significand scale = .finite negative m e canonical
        ∧ magnitude m e = magnitude significand scale := by
  rcases greatest.lt_or_eq with short | rfl
  · have canonical : Canonical significand scale := ⟨short, by omega, .inr least⟩
    refine ⟨_, _, canonical, ?_, rfl⟩
    simp only [ofScaled, if_neg short.ne, dif_pos canonical]
  · have canonical : Canonical (2 ^ (52 : Nat)) (scale + 1) := ⟨by decide, by omega, .inr le_rfl⟩
    refine ⟨_, _, canonical, ?_, ?_⟩
    · simp only [ofScaled, if_true, dif_pos canonical]
    · rw [magnitude, magnitude, Nat.pow_succ 2 scale]
      ring

/-- **The number next to an integer is the nearest integer of 53 digits.** -/
theorem ofInt_eq_finite {n : Int} (range : n.natAbs < 2 ^ (64 : Nat)) : ∃ significand scale canonical,
    ofInt n = .finite (n < 0) significand scale canonical
      ∧ magnitude significand scale = nearestNat n.natAbs * one := by
  unfold ofInt ofRatio
  generalize n.natAbs = a at range ⊢
  unfold nearest one
  generalize fine : (1074 : Nat) = parts
  by_cases zero : a = 0
  · subst zero
    refine ⟨0, 0, by decide, ?_, ?_⟩
    · simp only [Nat.zero_mul, Nat.zero_div]
      rfl
    · rw [nearestNat_of_lastPlace (by simp [lastPlace]), magnitude, Nat.zero_mul, Nat.zero_mul]
  · have size : a.log2 < 64 := (Nat.log2_lt zero).2 range
    have place : max 0 ((a * 2 ^ parts / 1).log2 + 1 - 53) = a.log2 + 1022 := by
      rw [Nat.div_one, log2_mul_two_pow zero]
      omega
    obtain ⟨least, greatest, value⟩ := significand_spec zero (show a.log2 + 1022 + 52 = a.log2 + parts by omega)
    obtain ⟨m, e, canonical, same, size'⟩ := ofScaled_spec (n < 0) least greatest (show a.log2 + 1022 < 2045 by omega)
    refine ⟨m, e, canonical, ?_, ?_⟩
    · simp only [place, Nat.one_mul]
      exact same
    · rw [size', magnitude, value]

end Int

end Binary64

end Stencil
