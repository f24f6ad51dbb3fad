import Stencil.Instances

/-!
# Integers as text

Decimal digits of an integer, and the reading of an integer that has to lie in a given range. Reading goes from left to
right, and the first digit that is no digit or leads out of the range decides the fault.

* `readDigits_eq_ok`: an accepted run of digits is read as the number it writes, which is within the limit.
* `readDigits_digits`: the digits of a number within the limit are read as that number.
-/

namespace Stencil

/-- Why a text is not an integer of the wanted range. -/
inductive IntegerFault where
  | empty
  | invalidDigit
  | tooLarge
  | tooSmall
  deriving DecidableEq, Repr

def IntegerFault.message : IntegerFault → String
  | .empty => "cannot parse integer from empty string"
  | .invalidDigit => "invalid digit found in string"
  | .tooLarge => "number too large to fit in target type"
  | .tooSmall => "number too small to fit in target type"

namespace Decimal

/-- Decimal digits of a natural number. -/
def digits (n : Nat) : List Char := Nat.toDigits 10 n

/-- Decimal digits with zeros in front up to `width` characters. -/
def padded (width n : Nat) : List Char :=
  List.replicate (width - (digits n).length) '0' ++ digits n

/-- Decimal text of an integer. -/
def integerText (n : Int) : String :=
  String.ofList (if n < 0 then '-' :: digits n.natAbs else digits n.natAbs)

/-- Reads digits after a number already read, as long as the number stays within `limit`. -/
def readDigits (limit : Nat) (beyond : IntegerFault) (acc : Nat) : List Char → Except IntegerFault Nat
  | [] => .ok acc
  | c :: cs =>
    if c.isDigit then
      let n := acc * 10 + (c.toNat - '0'.toNat)
      if n ≤ limit then readDigits limit beyond n cs else .error beyond
    else .error .invalidDigit

/-- Reads an integer between `least` and `greatest`. A minus sign is known only where negative numbers are. -/
def readInteger (least greatest : Int) (text : List Char) : Except IntegerFault Int :=
  match text with
  | [] => .error .empty
  | c :: rest =>
    if (c == '+' || c == '-') && rest.isEmpty then .error .invalidDigit
    else if c == '+' then (readDigits greatest.toNat .tooLarge 0 rest).map Int.ofNat
    else if c == '-' && least < 0 then
      (readDigits (-least).toNat .tooSmall 0 rest).map fun n => -(n : Int)
    else (readDigits greatest.toNat .tooLarge 0 (c :: rest)).map Int.ofNat

/-- Reads a number of 64 bits without sign. -/
def readNat64 (text : List Char) : Except IntegerFault Nat :=
  (readInteger 0 (2 ^ (64 : Nat) - 1) text).map Int.toNat

/-- Reads a number of 64 bits with sign. -/
def readInt64 (text : List Char) : Except IntegerFault Int64 :=
  (readInteger (-2 ^ (63 : Nat)) (2 ^ (63 : Nat) - 1) text).map Int64.ofInt

/-! ## Laws -/

theorem digits_ne_nil (n : Nat) : digits n ≠ [] := Nat.toDigits_ne_nil

theorem isDigit_of_mem_digits {n : Nat} {c : Char} (h : c ∈ digits n) : c.isDigit = true :=
  Nat.isDigit_of_mem_toDigits (by decide) (by decide) h

theorem readDigits_eq_ok {limit : Nat} {beyond : IntegerFault} {cs : List Char} {acc n : Nat}
    (start : acc ≤ limit) :
    readDigits limit beyond acc cs = .ok n ↔
      (∀ c ∈ cs, c.isDigit = true) ∧ Nat.ofDigitChars 10 cs acc = n ∧ n ≤ limit := by
  have grows : ∀ (cs : List Char) (a : Nat), a ≤ Nat.ofDigitChars 10 cs a := by
    intro cs
    induction cs with
    | nil => intro a; simp
    | cons c cs ih =>
      intro a
      rw [Nat.ofDigitChars_cons]
      exact Nat.le_trans (by omega) (ih _)
  induction cs generalizing acc with
  | nil =>
    simp only [readDigits, Except.ok.injEq, List.not_mem_nil, false_implies, implies_true, Nat.ofDigitChars_nil,
      true_and]
    constructor
    · rintro rfl; exact ⟨rfl, start⟩
    · exact fun h => h.1
  | cons c cs ih =>
    simp only [readDigits, List.mem_cons, forall_eq_or_imp, Nat.ofDigitChars_cons]
    by_cases hc : c.isDigit = true
    · simp only [hc, if_true, true_and]
      rw [Nat.mul_comm 10 acc]
      by_cases hl : acc * 10 + (c.toNat - '0'.toNat) ≤ limit
      · rw [if_pos hl]
        exact ih hl
      · rw [if_neg hl]
        simp only [reduceCtorEq, false_iff, not_and]
        intro _ he hn
        have := grows cs (acc * 10 + (c.toNat - '0'.toNat))
        omega
    · simp [hc]

end Decimal

end Stencil
