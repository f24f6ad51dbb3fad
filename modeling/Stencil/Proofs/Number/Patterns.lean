import Mathlib
import Stencil.Locale
import Stencil.Proofs.Number.ReadingIntegers

/-!
# The patterns of numbers

A number is written by the empty pattern, or by one letter with an optional precision behind it. All other patterns are
refused. The letter `D` asks for an integer, and what it writes is read back as this integer.

* `Locale.formatNumber_ok_iff`: the patterns by which a number is written.
* `Locale.format_accepts`: the same for a value, with the error of all other patterns, and the digits that `D` writes.
-/

namespace Stencil

/-- Only a capital letter and the small letter of it have this capital letter. -/
theorem Text.toUpper_eq_iff {c u : Char} (capital : u.isUpper = true) : c.toUpper = u ↔ c = u ∨ c = u.toLower := by
  obtain ⟨least, greatest⟩ : 65 ≤ u.val.toNat ∧ u.val.toNat ≤ 90 := by
    simpa [Char.isUpper, UInt32.le_iff_toNat_le] using capital
  have small : u.toLower.val.toNat = u.val.toNat + 32 := by
    rw [Char.toLower, dif_pos (by simpa [Char.isUpper] using capital), UInt32.toNat_add]
    show (u.val.toNat + 32) % 2 ^ 32 = _
    omega
  simp only [Char.ext_iff, ← UInt32.toNat_inj, small]
  unfold Char.toUpper
  split
  · next lower =>
    have : 97 ≤ c.val.toNat ∧ c.val.toNat ≤ 122 := by simpa [UInt32.le_iff_toNat_le] using lower
    rw [UInt32.toNat_add]
    show (c.val.toNat + 4294967264) % 2 ^ 32 = _ ↔ _
    omega
  · next other =>
    have : ¬(97 ≤ c.val.toNat ∧ c.val.toNat ≤ 122) := by simpa [UInt32.le_iff_toNat_le] using other
    omega

namespace Locale

open Decimal (IsNumeral IsDigits)
open Binary64 (signText)

/-- A number as a value. -/
def Number.toValue : Number → Value
  | .integer n => .integer n
  | .float x => .float x

/-- What may stand behind the letter of a pattern: nothing, or a numeral of at most 99. -/
inductive WritesPrecision : List Char → Option Nat → Prop
  | absent : WritesPrecision [] none
  | numeral {text : List Char} {n : Nat} (written : IsNumeral text n) (range : n ≤ 99) : WritesPrecision text (some n)

/-- Whether a letter asks for something that a number has. -/
def Number.Knows (n : Number) (letter : Char) : Prop :=
  letter ∈ ['G', 'g', 'F', 'f', 'N', 'n'] ∨ letter ∈ ['D', 'd'] ∧ ∃ k, n = .integer k

/-- The patterns of a number. -/
inductive Number.HasPattern (n : Number) : List Char → Prop
  | empty : HasPattern n []
  | letter {letter : Char} {rest : List Char} {precision : Option Nat} (known : n.Knows letter)
    (written : WritesPrecision rest precision) : HasPattern n (letter :: rest)

/-! ## Precisions -/

theorem readPrecision_eq_ok_iff {text : List Char} {precision : Option Nat} :
    readPrecision text = .ok precision ↔ WritesPrecision text precision := by
  cases text with
  | nil =>
    constructor
    · rintro ⟨⟩
      exact .absent
    · rintro (_ | ⟨written, -⟩)
      · rfl
      · exact absurd written Decimal.not_isNumeral_nil
  | cons c cs =>
    unfold readPrecision
    constructor
    · intro read
      split at read
      · next empty => cases empty
      split at read
      · cases read
      · next n number =>
        split at read
        · next range =>
          cases read
          exact .numeral (Decimal.readNat64_eq_ok_iff.1 number).1 range
        · cases read
    · rintro (_ | ⟨written, range⟩)
      have small : _ < 2 ^ (64 : Nat) := Nat.lt_of_le_of_lt range (by decide)
      rw [Decimal.readNat64_eq_ok_iff.2 ⟨written, small⟩]
      exact if_pos range

/-! ## Letters -/

section Letters

variable {l : Locale} {n : Number} {pattern : String} {letter : Char} {rest : List Char} {precision : Option Nat}

/-- A letter that a number knows makes a text, with any precision. -/
theorem formatNumber_of_knows (spelled : pattern.toList = letter :: rest) (known : n.Knows letter)
    (read : readPrecision rest = .ok precision) : ∃ text, l.formatNumber n pattern = .ok text := by
  unfold formatNumber
  rw [spelled, List.drop_one, List.tail_cons, read, List.head?_cons, Option.map_some]
  simp only [Number.Knows, List.mem_cons, List.not_mem_nil, or_false] at known
  rcases known with (rfl | rfl | rfl | rfl | rfl | rfl) | ⟨rfl | rfl, k, rfl⟩ <;> exact ⟨_, rfl⟩

/-- The letter of a pattern that makes a text is one that the number knows. -/
theorem knows_of_formatNumber {text : String} (spelled : pattern.toList = letter :: rest)
    (read : readPrecision rest = .ok precision) (written : l.formatNumber n pattern = .ok text) : n.Knows letter := by
  have either {u : Char} (capital : u.isUpper = true) (same : some letter.toUpper = some u) :
      letter = u ∨ letter = u.toLower :=
    (Text.toUpper_eq_iff capital).1 (Option.some.inj same)
  unfold formatNumber at written
  rw [spelled, List.drop_one, List.tail_cons, read, List.head?_cons, Option.map_some] at written
  simp only [bind, Except.bind] at written
  split at written
  · next none => cases none
  · next general => exact .inl (by rcases either (by decide) general with rfl | rfl <;> decide)
  · next fixed => exact .inl (by rcases either (by decide) fixed with rfl | rfl <;> decide)
  · next grouped => exact .inl (by rcases either (by decide) grouped with rfl | rfl <;> decide)
  · next digits =>
    split at written
    · next k => exact .inr ⟨by rcases either (by decide) digits with rfl | rfl <;> decide, k, rfl⟩
    · cases written
  · cases written

/-- **A number is written by the patterns that it has.** -/
theorem formatNumber_ok_iff : (∃ text, l.formatNumber n pattern = .ok text) ↔ n.HasPattern pattern.toList := by
  cases spelled : pattern.toList with
  | nil =>
    refine ⟨fun _ => .empty, fun _ => ?_⟩
    unfold formatNumber
    rw [spelled]
    exact ⟨_, rfl⟩
  | cons letter rest =>
    constructor
    · rintro ⟨text, written⟩
      cases read : readPrecision rest with
      | error fault =>
        unfold formatNumber at written
        rw [spelled, List.drop_one, List.tail_cons, read] at written
        cases written
      | ok precision => exact .letter (knows_of_formatNumber spelled read written) (readPrecision_eq_ok_iff.1 read)
    · rintro (_ | ⟨known, written⟩)
      exact formatNumber_of_knows spelled known (readPrecision_eq_ok_iff.2 written)

theorem formatNumber_digits {k : Int64} (spelled : pattern.toList = letter :: rest) (known : letter ∈ ['D', 'd'])
    (written : WritesPrecision rest precision) :
    l.formatNumber (.integer k) pattern = .ok (paddedInteger (precision.getD 0) k) := by
  unfold formatNumber
  rw [spelled, List.drop_one, List.tail_cons, readPrecision_eq_ok_iff.2 written, List.head?_cons, Option.map_some]
  simp only [List.mem_cons, List.not_mem_nil, or_false] at known
  rcases known with rfl | rfl <;> rfl

/-- The letters of decimal places differ in the groups only. -/
theorem formatNumber_places (grouped : Bool) (spelled : pattern.toList = (if grouped then 'N' else 'F') :: rest) :
    l.formatNumber n pattern
      = (readPrecision rest).map fun precision => l.regroup grouped (n.toFloat.fixed (precision.getD 2)) := by
  unfold formatNumber
  rw [spelled, List.drop_one, List.tail_cons, List.head?_cons]
  cases readPrecision rest with
  | error fault => rfl
  | ok precision => cases grouped <;> rfl

/-- A value that is a number is written as the number, and a fault is marked with the pattern. -/
theorem format_toValue (l : Locale) (n : Number) (pattern : String) :
    l.format n.toValue pattern = match l.formatNumber n pattern with
      | .ok text => .ok (some text)
      | .error fault => .error (.format fault pattern) := by
  cases n <;> rfl

end Letters

/-- **A number is written by exactly the patterns of its kind**: the empty one, and one of the letters `G`, `F`, `N`,
for an integer also `D`, with an optional precision of at most 99 behind it. All others are errors. An integer written
by `D` has the digits that are asked for, and is read back from them. -/
theorem format_accepts (l : Locale) (n : Number) (pattern : String) :
    ((∃ text, l.format n.toValue pattern = .ok (some text)) ↔ n.HasPattern pattern.toList)
      ∧ (¬n.HasPattern pattern.toList → ∃ fault, l.format n.toValue pattern = .error (.format fault pattern))
      ∧ ∀ (k : Int64) (letter : Char) (rest : List Char) (precision : Option Nat), n = .integer k →
        letter ∈ ['D', 'd'] → pattern.toList = letter :: rest → WritesPrecision rest precision →
        ∃ digits, l.format n.toValue pattern = .ok (some (String.ofList (signText (k.toInt < 0) ++ digits)))
          ∧ digits.length = max (precision.getD 0) (Decimal.digits k.toInt.natAbs).length
          ∧ IsDigits digits k.toInt.natAbs
          ∧ Decimal.readInt64 (signText (k.toInt < 0) ++ digits) = .ok k := by
  have accepted : (∃ text, l.format n.toValue pattern = .ok (some text)) ↔ n.HasPattern pattern.toList := by
    rw [← formatNumber_ok_iff (l := l), format_toValue]
    cases l.formatNumber n pattern <;> simp
  refine ⟨accepted, fun other => ?_, ?_⟩
  · rw [← formatNumber_ok_iff (l := l)] at other
    rw [format_toValue]
    cases written : l.formatNumber n pattern with
    | ok text => exact absurd ⟨text, written⟩ other
    | error fault => exact ⟨fault, rfl⟩
  · rintro k letter rest precision rfl known spelled written
    have digits := Decimal.isDigits_padded (precision.getD 0) k.toInt.natAbs
    have sign (ds : List Char) : (if k.toInt < 0 then '-' :: ds else ds) = signText (k.toInt < 0) ++ ds := by
      by_cases negative : k.toInt < 0 <;> simp [signText, negative]
    refine ⟨_, ?_, Decimal.length_padded _ _, digits, ?_⟩
    · rw [format_toValue, formatNumber_digits spelled known written, paddedInteger, sign]
    · rw [← sign]
      exact Decimal.readInt64_digits digits

/-- The least integer with more digits than it has, and a letter that stands for nothing. -/
theorem format_accepts_least :
    (∃ digits, invariant.format (.integer (.ofInt (-2 ^ (63 : Nat)))) "d+021" = .ok (some (String.ofList ('-' :: digits)))
        ∧ digits.length = 21 ∧ Decimal.readInt64 ('-' :: digits) = .ok (.ofInt (-2 ^ (63 : Nat))))
      ∧ ∃ fault, invariant.format (.float .nan) "Q" = .error (.format fault "Q") := by
  have width : WritesPrecision "+021".toList (some 21) :=
    .numeral (.plus ⟨by decide, List.all_eq_true.1 (by decide), by decide⟩) (by decide)
  have known : ¬Number.HasPattern (.float .nan) "Q".toList := by
    rintro (_ | ⟨plain | ⟨digits, -⟩, -⟩)
    · exact absurd plain (by decide)
    · exact absurd digits (by decide)
  obtain ⟨digits, written, length, -, read⟩ :=
    (format_accepts invariant (.integer (.ofInt (-2 ^ (63 : Nat)))) "d+021").2.2 _ 'd' _ _ rfl (by decide) rfl width
  exact ⟨⟨digits, written, length.trans (by decide), read⟩, (format_accepts invariant (.float .nan) "Q").2.1 known⟩

end Locale

end Stencil
