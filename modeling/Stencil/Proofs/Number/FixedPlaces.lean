import Stencil.Proofs.Number.Grouping
import Stencil.Proofs.Number.NearestInteger
import Stencil.Proofs.Number.Patterns

/-!
# Integers with decimal places

An integer that is written with decimal places (`F`), or with groups as well (`N`), goes through a floating-point
number. What is written is exact, with zeros behind the separator, but it is that number: the integer itself if it has
at most 53 significant binary digits, and the nearest integer of so many otherwise.

* `Binary64.fixed_ofInt`: the text with a decimal point and without groups.
* `Locale.format_places`: both patterns in any locale, and when they write the integer itself.
-/

namespace Stencil

/-! ## Digits -/

namespace Decimal

/-- A decimal point and zeros; nothing, if there are none. -/
def zeroFraction (point : Char) (places : Nat) : List Char :=
  if places = 0 then [] else point :: List.replicate places '0'

/-- A decimal point and digits; nothing, if there are none. -/
def behindPoint (point : Char) (fraction : List Char) : List Char :=
  if fraction = [] then [] else point :: fraction

theorem zeroFraction_eq (point : Char) (places : Nat) :
    zeroFraction point places = behindPoint point (List.replicate places '0') := by
  by_cases none : places = 0 <;> simp [zeroFraction, behindPoint, none]

theorem digits_mul_ten_pow {n : Nat} (pos : 0 < n) (places : Nat) :
    digits (n * 10 ^ places) = digits n ++ List.replicate places '0' := by
  induction places with
  | zero => simp
  | succ places ih =>
    have size : 0 < n * 10 ^ places := Nat.mul_pos pos (Nat.pow_pos (by decide))
    have last : Nat.toDigits 10 (n * 10 ^ places) ++ Nat.toDigits 10 0 = Nat.toDigits 10 (10 * (n * 10 ^ places) + 0) :=
      Nat.toDigits_append_toDigits (by decide) size (by decide)
    have next : n * 10 ^ (places + 1) = 10 * (n * 10 ^ places) + 0 := by ring
    rw [next, digits, ← last, ← digits, ih, List.append_assoc, List.replicate_succ']
    rfl

/-- A whole number is written with zeros behind its point. -/
theorem withPlaces_mul_ten_pow (places n : Nat) :
    withPlaces places (n * 10 ^ places) = digits n ++ zeroFraction '.' places := by
  unfold withPlaces zeroFraction
  by_cases none : places = 0
  · simp [none]
  · have all : padded (places + 1) (n * 10 ^ places) = digits n ++ List.replicate places '0' := by
      unfold padded
      rcases Nat.eq_zero_or_pos n with rfl | pos
      · rw [Nat.zero_mul, show digits 0 = ['0'] from rfl, List.length_singleton, Nat.add_sub_cancel,
          ← List.replicate_succ', List.replicate_succ]
        rfl
      · have some : 0 < (digits n).length := List.length_pos_iff.2 (digits_ne_nil n)
        rw [digits_mul_ten_pow pos, List.length_append, List.length_replicate,
          show places + 1 - ((digits n).length + places) = 0 by omega]
        rfl
    simp only [if_neg none, all, List.length_append, List.length_replicate, Nat.add_sub_cancel, List.take_left',
      List.drop_left']

theorem digits_injective {m n : Nat} (h : digits m = digits n) : m = n := by
  calc
    m = Nat.ofDigitChars 10 (digits m) 0 := Nat.ofDigitChars_ten_toDigits.symm
    _ = Nat.ofDigitChars 10 (digits n) 0 := by rw [h]
    _ = n := Nat.ofDigitChars_ten_toDigits

/-- The first digit is no sign. -/
theorem digits_eq_cons (n : Nat) : ∃ c cs, digits n = c :: cs ∧ c ≠ '-' ∧ c ≠ '+' := by
  obtain ⟨c, cs, first⟩ := List.exists_cons_of_ne_nil (digits_ne_nil n)
  have digits := isDigits_digits n
  rw [first] at digits
  exact ⟨c, cs, first, digits.ne_sign.2, digits.ne_sign.1⟩

end Decimal

namespace Binary64

/-- **An integer is written as the nearest one of 53 digits.** -/
theorem fixed_ofInt (places : Nat) {n : Int} (range : n.natAbs < 2 ^ (64 : Nat)) : fixed places (ofInt n)
    = String.ofList (signText (nearestInt n < 0) ++ (Decimal.digits (nearestInt n).natAbs
      ++ Decimal.zeroFraction '.' places)) := by
  obtain ⟨significand, scale, canonical, number, size⟩ := ofInt_eq_finite range
  have whole : roundHalfEven (magnitude significand scale * 10 ^ places) one = nearestNat n.natAbs * 10 ^ places := by
    rw [size, Nat.mul_right_comm]
    exact roundHalfEven_mul _ one_pos
  have sign : decide (nearestInt n < 0) = decide (n < 0) := decide_eq_decide.2 nearestInt_neg_iff
  rw [number, fixed, whole, Decimal.withPlaces_mul_ten_pow, natAbs_nearestInt, sign]

end Binary64

/-! ## Locales -/

namespace Locale

open Binary64 (signText nearestInt Fits)

theorem splitNumber_sign (negative : Bool) {c : Char} {rest : List Char} (h : c ≠ '-') :
    splitNumber (signText negative ++ c :: rest) = (signText negative, (c :: rest).takeWhile (· ≠ '.'),
      match (c :: rest).dropWhile (· ≠ '.') with
      | [] => none
      | _ :: fraction => some fraction) := by
  cases negative with
  | true => rfl
  | false =>
    show splitNumber (c :: rest) = _
    unfold splitNumber
    split
    next parts =>
      split at parts
      · next minus =>
        cases minus
        exact absurd rfl h
      · cases parts
        rfl

/-- A sign, a whole part and what is behind a decimal point are told apart. -/
theorem splitNumber_parts (negative : Bool) {whole fraction : List Char} (filled : whole ≠ [])
    (noSign : '-' ∉ whole) (noPoint : '.' ∉ whole) :
    splitNumber (signText negative ++ (whole ++ Decimal.behindPoint '.' fraction))
      = (signText negative, whole, if fraction = [] then none else some fraction) := by
  have plain : ∀ c ∈ whole, decide (c ≠ '.') = true := by
    intro c hc
    refine decide_eq_true ?_
    rintro rfl
    exact noPoint hc
  -- The whole part ends at the point or at the end of the text.
  have front : (whole ++ Decimal.behindPoint '.' fraction).takeWhile (· ≠ '.') = whole := by
    rw [List.takeWhile_append_of_pos plain, Decimal.behindPoint]
    split <;> simp
  have back : (whole ++ Decimal.behindPoint '.' fraction).dropWhile (· ≠ '.') = Decimal.behindPoint '.' fraction := by
    rw [List.dropWhile_append_of_pos plain, Decimal.behindPoint]
    split <;> simp
  obtain ⟨c, rest, rfl⟩ := List.exists_cons_of_ne_nil filled
  rw [List.cons_append] at front back ⊢
  rw [splitNumber_sign negative (fun minus => noSign (minus ▸ List.mem_cons_self)), front, back, Decimal.behindPoint]
  by_cases none : fraction = [] <;> simp [none]

/-- The same with places that are zero. -/
theorem splitNumber_places (negative : Bool) (n places : Nat) :
    splitNumber (signText negative ++ (Decimal.digits n ++ Decimal.zeroFraction '.' places))
      = (signText negative, Decimal.digits n, if places = 0 then none else some (List.replicate places '0')) := by
  have isDigit : ∀ c ∈ Decimal.digits n, c.isDigit = true := fun _ => Decimal.isDigit_of_mem_digits
  have noSign : '-' ∉ Decimal.digits n := fun minus => by cases isDigit _ minus
  have noPoint : '.' ∉ Decimal.digits n := fun point => by cases isDigit _ point
  rw [Decimal.zeroFraction_eq, splitNumber_parts negative (Decimal.digits_ne_nil n) noSign noPoint]
  simp only [List.replicate_eq_nil_iff]

/-- An integer in a locale, with decimal places that are zero. -/
def wholeText (l : Locale) (grouped : Bool) (places : Nat) (n : Int) : String :=
  let digits := Decimal.digits n.natAbs
  String.ofList (signText (n < 0) ++ (if grouped then [l.group].intercalate (groupsOfThree digits) else digits)
    ++ Decimal.zeroFraction l.decimal places)

variable {l : Locale} {grouped : Bool} {places : Nat}

/-- Without groups, the places follow the text of the integer. -/
theorem wholeText_false (l : Locale) (places : Nat) (n : Int) :
    l.wholeText false places n = Decimal.integerText n ++ String.ofList (Decimal.zeroFraction l.decimal places) := by
  unfold wholeText Decimal.integerText signText
  rw [← String.ofList_append]
  by_cases negative : n < 0 <;> simp [negative]

theorem regroup_places (l : Locale) (grouped : Bool) (places : Nat) (n : Int) :
    l.regroup grouped (String.ofList (signText (n < 0) ++ (Decimal.digits n.natAbs ++ Decimal.zeroFraction '.' places)))
      = l.wholeText grouped places n := by
  unfold regroup wholeText
  rw [String.toList_ofList, splitNumber_places]
  simp only [← groupDigits_eq_intercalate (isGrouping_groupsOfThree _)]
  unfold Decimal.zeroFraction
  by_cases none : places = 0 <;> simp [none]

theorem signText_append_inj {a b : Bool} {c d : Char} {cs ds : List Char} (hc : c ≠ '-') (hd : d ≠ '-')
    (h : signText a ++ c :: cs = signText b ++ d :: ds) : a = b ∧ c :: cs = d :: ds := by
  cases a <;> cases b
  · exact ⟨rfl, h⟩
  · exact absurd (List.cons.inj h).1 hc
  · exact absurd (List.cons.inj h).1.symm hd
  · exact ⟨rfl, (List.cons.inj h).2⟩

/-- The integer is known from its text. -/
theorem wholeText_injective {m n : Int} (h : l.wholeText grouped places m = l.wholeText grouped places n) : m = n := by
  unfold wholeText at h
  simp only [← groupDigits_eq_intercalate (isGrouping_groupsOfThree _)] at h
  replace h := List.append_cancel_right (String.ofList_injective h)
  obtain ⟨c, cs, hm, hc, -⟩ := Decimal.digits_eq_cons m.natAbs
  obtain ⟨d, ds, hn, hd, -⟩ := Decimal.digits_eq_cons n.natAbs
  have parts : decide (m < 0) = decide (n < 0) ∧ Decimal.digits m.natAbs = Decimal.digits n.natAbs := by
    rw [hm, hn] at h ⊢
    cases grouped with
    | false => exact signText_append_inj hc hd h
    | true =>
      obtain ⟨sign, groups⟩ := signText_append_inj hc hd h
      exact ⟨sign, groupDigits_injective groups⟩
  have sign := decide_eq_decide.1 parts.1
  have size := Decimal.digits_injective parts.2
  omega

theorem readPrecision_digits (h : places ≤ maxPrecision) :
    readPrecision (Decimal.digits places) = .ok (some places) :=
  readPrecision_eq_ok_iff.2 (.numeral (.plain (Decimal.isDigits_digits places)) h)

/-- **Integers with decimal places are written as the nearest integer of 53 digits**, and so as they are exactly if they
have no more digits than that. -/
theorem format_places (l : Locale) (n : Int64) (grouped : Bool) {places : Nat} (h : places ≤ maxPrecision) :
    let pattern := (if grouped then "N" else "F") ++ String.ofList (Decimal.digits places)
    let shown := nearestInt n.toInt
    l.format (.integer n) pattern = .ok (some (l.wholeText grouped places shown))
      ∧ Fits shown ∧ (∀ other, Fits other → (n.toInt - shown).natAbs ≤ (n.toInt - other).natAbs)
      ∧ (l.format (.integer n) pattern = .ok (some (l.wholeText grouped places n.toInt)) ↔ Fits n.toInt) := by
  intro pattern shown
  have range : n.toInt.natAbs < 2 ^ (64 : Nat) := by
    have := n.le_toInt
    have := n.toInt_lt
    omega
  have letter : pattern.toList = (if grouped then 'N' else 'F') :: Decimal.digits places := by
    cases grouped <;> simp [pattern]
  have written : l.formatNumber (.integer n) pattern = .ok (l.wholeText grouped places shown) := by
    have text : l.regroup grouped ((Number.integer n).toFloat.fixed places) = l.wholeText grouped places shown := by
      rw [Number.toFloat, Binary64.fixed_ofInt places range, regroup_places]
    unfold formatNumber
    rw [letter, List.drop_one, List.tail_cons, readPrecision_digits h]
    cases grouped with
    | false => exact congrArg Except.ok text
    | true => exact congrArg Except.ok text
  have formatted : l.format (.integer n) pattern = .ok (some (l.wholeText grouped places shown)) := by
    simp only [format, written]
  refine ⟨formatted, Binary64.fits_nearestInt _, fun _ => Binary64.nearestInt_nearest _, ?_⟩
  rw [formatted]
  constructor
  · intro same
    exact Binary64.nearestInt_eq_iff.1 (wholeText_injective (by simpa using same))
  · intro fits
    rw [show shown = n.toInt from Binary64.nearestInt_eq_iff.2 fits]

/-- The least positive integer of more than 53 digits is written as the one before it. -/
theorem format_places_two_pow_add_one :
    invariant.format (.integer (2 ^ (53 : Nat) + 1)) "N2" = .ok (some "9,007,199,254,740,992.00")
      ∧ ¬Fits (2 ^ (53 : Nat) + 1) := by
  have places : 2 ≤ maxPrecision := by decide
  obtain ⟨written, -, -, only⟩ := format_places invariant (2 ^ (53 : Nat) + 1) true places
  rw [if_pos rfl] at written only
  have pattern : "N" ++ String.ofList (Decimal.digits 2) = "N2" := by decide
  have text : invariant.wholeText true 2 (nearestInt (2 ^ (53 : Nat) + 1 : Int64).toInt)
      = "9,007,199,254,740,992.00" := by
    decide +kernel
  have itself : invariant.wholeText true 2 (2 ^ (53 : Nat) + 1 : Int64).toInt = "9,007,199,254,740,993.00" := by
    decide +kernel
  rw [pattern, text] at written
  refine ⟨written, fun fits => ?_⟩
  rw [pattern, written, itself] at only
  exact absurd (only.2 fits) (by decide)

end Locale

end Stencil
