import Mathlib.Data.List.TakeWhile
import Stencil.Number.Integer

/-!
# Integers that are read back

An integer is read from digits, with any number of zeros in front, and a sign before them. So an integer that is written
with as many zeros as one likes is read as the same integer.

* `Decimal.readNat64_eq_ok_iff`: the texts of the numbers without sign.
* `Decimal.readInt64_digits`: digits and a minus sign are read as the integer they write, up to the least one.
-/

namespace Stencil.Decimal

/-- Digits that write a number, with zeros in front or without. -/
structure IsDigits (cs : List Char) (n : Nat) : Prop where
  ne_nil : cs ≠ []
  digits : ∀ c ∈ cs, c.isDigit = true
  value : Nat.ofDigitChars 10 cs 0 = n

/-- A number without minus sign: digits, which may stand behind a plus sign. -/
inductive IsNumeral : List Char → Nat → Prop
  | plain {cs : List Char} {n : Nat} (digits : IsDigits cs n) : IsNumeral cs n
  | plus {cs : List Char} {n : Nat} (digits : IsDigits cs n) : IsNumeral ('+' :: cs) n

/-! ## Digits with zeros in front -/

theorem length_padded (width n : Nat) : (padded width n).length = max width (digits n).length := by
  rw [padded, List.length_append, List.length_replicate]
  omega

theorem isDigits_padded (width n : Nat) : IsDigits (padded width n) n where
  ne_nil := List.append_ne_nil_of_right_ne_nil _ (digits_ne_nil n)
  digits := by
    intro c hc
    rcases List.mem_append.1 hc with zero | digit
    · rw [List.eq_of_mem_replicate zero]
      rfl
    · exact isDigit_of_mem_digits digit
  value := by
    rw [padded, Nat.ofDigitChars_append, Nat.ofDigitChars_replicate_zero, Nat.mul_zero]
    exact Nat.ofDigitChars_ten_toDigits

theorem isDigits_digits (n : Nat) : IsDigits (digits n) n where
  ne_nil := digits_ne_nil n
  digits := fun _ => isDigit_of_mem_digits
  value := Nat.ofDigitChars_ten_toDigits

namespace IsDigits

variable {c : Char} {cs : List Char} {n : Nat}

/-- Digits start with no sign. -/
theorem ne_sign (h : IsDigits (c :: cs) n) : c ≠ '+' ∧ c ≠ '-' := by
  have digit : c.isDigit = true := h.digits c List.mem_cons_self
  constructor <;>
  · rintro rfl
    cases digit

theorem readDigits {limit : Nat} (h : IsDigits cs n) (beyond : IntegerFault) (range : n ≤ limit) :
    readDigits limit beyond 0 cs = .ok n :=
  (readDigits_eq_ok (Nat.zero_le limit)).2 ⟨h.digits, h.value, range⟩

end IsDigits

/-- A text that is read digit by digit is digits, unless it is empty. -/
theorem readDigits_eq_ok_iff {limit n : Nat} {beyond : IntegerFault} {cs : List Char} (filled : cs ≠ []) :
    readDigits limit beyond 0 cs = .ok n ↔ IsDigits cs n ∧ n ≤ limit := by
  rw [readDigits_eq_ok (Nat.zero_le limit)]
  constructor
  · rintro ⟨digits, value, range⟩
    exact ⟨⟨filled, digits, value⟩, range⟩
  · rintro ⟨h, range⟩
    exact ⟨h.digits, h.value, range⟩

/-! ## Signs -/

section Signs

variable {least greatest : Int} {c : Char} {cs : List Char} {n : Nat}

theorem readInteger_plus (filled : cs ≠ []) :
    readInteger least greatest ('+' :: cs) = (readDigits greatest.toNat .tooLarge 0 cs).map Int.ofNat := by
  simp [readInteger, filled]

theorem readInteger_minus (filled : cs ≠ []) (negative : least < 0) : readInteger least greatest ('-' :: cs)
    = (readDigits (-least).toNat .tooSmall 0 cs).map fun size : Nat => -(size : Int) := by
  simp only [readInteger, List.isEmpty_eq_false_iff.2 filled, negative, Bool.and_false, beq_self_eq_true, decide_true,
    Bool.and_self, if_true, if_false, Bool.false_eq_true, show ('-' == '+') = false from rfl]
  cases readDigits (-least).toNat .tooSmall 0 cs <;> rfl

/-- Without a sign, all is read as digits. -/
theorem readInteger_plain (plus : c ≠ '+') (minus : c ≠ '-') : readInteger least greatest (c :: cs)
    = (readDigits greatest.toNat .tooLarge 0 (c :: cs)).map Int.ofNat := by
  simp [readInteger, plus, minus]

/-- Where no negative numbers are, a minus sign is read as a digit, which it is not. -/
theorem readInteger_zero_plain (plus : c ≠ '+') : readInteger 0 greatest (c :: cs)
    = (readDigits greatest.toNat .tooLarge 0 (c :: cs)).map Int.ofNat := by
  by_cases minus : c = '-'
  · subst minus
    by_cases empty : cs = [] <;> simp [readInteger, empty, readDigits, Except.map]
  · exact readInteger_plain plus minus

theorem not_isNumeral_nil : ¬IsNumeral [] n := by
  rintro ⟨digits⟩
  exact digits.ne_nil rfl

theorem isNumeral_plus_iff : IsNumeral ('+' :: cs) n ↔ IsDigits cs n := by
  refine ⟨?_, .plus⟩
  rintro (digits | digits)
  · exact absurd rfl digits.ne_sign.1
  · exact digits

theorem isNumeral_plain_iff (plus : c ≠ '+') : IsNumeral (c :: cs) n ↔ IsDigits (c :: cs) n := by
  refine ⟨?_, .plain⟩
  rintro (digits | digits)
  · exact digits
  · exact absurd rfl plus

theorem toNat_readDigits (r : Except IntegerFault Nat) : (r.map Int.ofNat).map Int.toNat = r := by
  cases r <;> rfl

/-- The texts that are read as a number where no negative numbers are. -/
theorem readInteger_zero_eq_ok_iff {text : List Char} :
    (readInteger 0 greatest text).map Int.toNat = .ok n ↔ IsNumeral text n ∧ n ≤ greatest.toNat := by
  cases text with
  | nil => simp [readInteger, Except.map, not_isNumeral_nil]
  | cons c cs =>
    by_cases plus : c = '+'
    · subst plus
      rw [isNumeral_plus_iff]
      by_cases empty : cs = []
      · subst empty
        simp only [readInteger, beq_self_eq_true, Bool.true_or, List.isEmpty_nil, Bool.and_self, if_true, Except.map,
          reduceCtorEq, false_iff, not_and]
        exact fun digits => absurd rfl digits.ne_nil
      · rw [readInteger_plus empty, toNat_readDigits, readDigits_eq_ok_iff empty]
    · rw [isNumeral_plain_iff plus, readInteger_zero_plain plus, toNat_readDigits,
        readDigits_eq_ok_iff (List.cons_ne_nil c cs)]

end Signs

/-- **A number without sign is read from a numeral in its range**, and from nothing else. -/
theorem readNat64_eq_ok_iff {text : List Char} {n : Nat} :
    readNat64 text = .ok n ↔ IsNumeral text n ∧ n < 2 ^ (64 : Nat) := by
  have range : n ≤ (2 ^ (64 : Nat) - 1 : Int).toNat ↔ n < 2 ^ (64 : Nat) := by omega
  rw [readNat64, readInteger_zero_eq_ok_iff, range]

/-- **An integer is read back from its digits and its sign.** -/
theorem readInt64_digits {n : Int64} {cs : List Char} (h : IsDigits cs n.toInt.natAbs) :
    readInt64 (if n.toInt < 0 then '-' :: cs else cs) = .ok n := by
  have least := n.le_toInt
  have greatest := n.toInt_lt
  unfold readInt64
  split
  · next negative =>
    rw [readInteger_minus h.ne_nil (by decide), h.readDigits .tooSmall (by omega)]
    show Except.ok (Int64.ofInt (-(n.toInt.natAbs : Int))) = .ok n
    rw [show -(n.toInt.natAbs : Int) = n.toInt by omega, Int64.ofInt_toInt]
  · next positive =>
    obtain ⟨c, rest, rfl⟩ := List.exists_cons_of_ne_nil h.ne_nil
    rw [readInteger_plain h.ne_sign.1 h.ne_sign.2, h.readDigits .tooLarge (by omega)]
    show Except.ok (Int64.ofInt (n.toInt.natAbs : Int)) = .ok n
    rw [show (n.toInt.natAbs : Int) = n.toInt by omega, Int64.ofInt_toInt]

end Stencil.Decimal
