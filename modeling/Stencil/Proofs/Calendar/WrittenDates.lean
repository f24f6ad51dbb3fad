import Mathlib.Data.List.TakeWhile
import Stencil.Calendar.Pattern
import Stencil.Calendar.Reading
import Stencil.Proofs.Number.ReadingIntegers

/-!
# Dates that are read back

The text of a date is read as the same date without its fraction of a second. Each reader takes from the front of a text
what is written for it, whatever follows: a number of two digits shows where it ends, and so does a year, which has four
digits or a sign.

* `DateReading.run_date`, `DateReading.run_time`: a day and a time of day in front of other text.
* `DateTime.read_text`: the text of a date is read back.
-/

namespace Stencil

open Decimal (IsDigits)

/-! ## What is written -/

/-- A time of day to the second. -/
def Time.wholeSeconds (t : Time) : Time :=
  ⟨t.hour, t.minute, t.second, 0, t.valid.1, t.valid.2.1, t.valid.2.2.1, by decide⟩

/-- A date without its fraction of a second. -/
def DateTime.wholeSeconds (t : DateTime) : DateTime := ⟨t.date, t.time.wholeSeconds⟩

/-- The day as it is written in the text of a date. -/
def Date.dashed (d : Date) : List Char :=
  Pattern.writeYear .zero d.year ++ '-' :: (Pattern.writeTwo .zero d.month ++ '-' :: Pattern.writeTwo .zero d.day)

/-- The time of day as it is written in the text of a date. -/
def Time.clock (t : Time) : List Char :=
  Pattern.writeTwo .zero t.hour ++ ':' :: (Pattern.writeTwo .zero t.minute ++ ':' :: Pattern.writeTwo .zero t.second)

theorem DateTime.toList_text (t : DateTime) : t.text.toList = t.date.dashed ++ ' ' :: t.time.clock := by
  simp [DateTime.text, Date.dashed, Time.clock]

theorem Date.month_lt_hundred (d : Date) : d.month < 100 := by
  have := d.valid.2.2.2.1
  omega

theorem Date.day_lt_hundred (d : Date) : d.day < 100 := by
  have longest : monthLength d.year d.month ≤ 31 := by
    unfold monthLength
    split <;> (try split) <;> omega
  have := d.valid.2.2.2.2.2
  omega

namespace Pattern

variable {n : Nat}

theorem isDigits_writeTwo (h : n < 100) : IsDigits (writeTwo .zero n) n := by
  have all : ∀ n < 100, (writeTwo .zero n).all Char.isDigit = true ∧ Nat.ofDigitChars 10 (writeTwo .zero n) 0 = n := by
    decide
  exact ⟨List.cons_ne_nil _ _, List.all_eq_true.1 (all n h).1, (all n h).2⟩

theorem length_writeTwo (n : Nat) : (writeTwo .zero n).length = 2 := rfl

/-- Only a year with a sign can have other than four digits. -/
theorem writeYear_eq (year : Int) : writeYear .zero year
    = (if year < 0 then ['-'] else if 10000 ≤ year then ['+'] else []) ++ Decimal.padded 4 year.natAbs := by
  unfold writeYear writeNumber Decimal.padded
  -- The sign comes on top of the width.
  have width (size : Nat) : 5 - (1 + size) = 4 - size := by omega
  by_cases negative : year < 0
  · simp [negative, width]
  · by_cases long : 10000 ≤ year <;> simp [negative, long, width]

end Pattern

theorem Text.isBlank_of_isDigit {c : Char} (h : c.isDigit = true) : Text.isBlank c = false := by
  have range : 48 ≤ c.toNat ∧ c.toNat ≤ 57 := Char.isDigit_iff_toNat.1 h
  simp only [Text.isBlank, Bool.or_eq_false_iff, Bool.and_eq_false_iff, decide_eq_false_iff_not, beq_eq_false_iff_ne]
  omega

/-! ## Readers -/

namespace DateReading

variable {α β : Type} {cs rest : List Char} {n width : Nat}

/-- Behind a reader that takes the front, the next one reads on. -/
theorem run_bind {reader : Reader α} {next : α → Reader β} {a : α} (first : reader.run cs = some (a, rest)) :
    (reader >>= next).run cs = (next a).run rest := by
  rw [StateT.run_bind, first]
  rfl

theorem run_get (cs : List Char) : (get : Reader (List Char)).run cs = some (cs, cs) := rfl

theorem run_set (cs rest : List Char) : (set rest : Reader PUnit).run cs = some ((), rest) := rfl

theorem run_character (c : Char) (rest : List Char) : (character c).run (c :: rest) = some ((), rest) := by
  simp [character]

/-- Nothing is skipped in front of what is no blank. -/
theorem run_skipBlanks {c : Char} (h : Text.isBlank c = false) (cs : List Char) :
    skipBlanks.run (c :: cs) = some ((), c :: cs) := by
  show some ((), (c :: cs).dropWhile Text.isBlank) = _
  rw [List.dropWhile_cons_of_neg (by simp [h])]

theorem run_skipBlanks_digits {ds : List Char} (h : IsDigits ds n) (rest : List Char) :
    skipBlanks.run (ds ++ rest) = some ((), ds ++ rest) := by
  obtain ⟨c, cs, rfl⟩ := List.exists_cons_of_ne_nil h.ne_nil
  exact run_skipBlanks (Text.isBlank_of_isDigit (h.digits c List.mem_cons_self)) _

/-- As many digits as there are, or as many as may be taken. -/
theorem run_digits {ds : List Char} (h : IsDigits ds n) (room : ds.length ≤ width)
    (ends : ds.length = width ∨ ∀ c ∈ rest.head?, c.isDigit = false) :
    (digits width).run (ds ++ rest) = some (n, rest) := by
  have taken : ((ds ++ rest).take width).takeWhile Char.isDigit = ds := by
    rw [List.take_append, List.take_of_length_le room, List.takeWhile_append_of_pos h.digits]
    rcases ends with full | ends
    · simp [full]
    · cases rest with
      | nil => simp
      | cons c rest => cases width - ds.length <;> simp [ends c rfl]
  unfold digits
  rw [run_bind (run_get _)]
  simp only [taken, List.isEmpty_eq_false_iff.2 h.ne_nil, Bool.false_eq_true, if_false, h.value, List.drop_left]
  rfl

theorem run_number {ds : List Char} (h : IsDigits ds n) (room : ds.length ≤ width)
    (ends : ds.length = width ∨ ∀ c ∈ rest.head?, c.isDigit = false) :
    (number width).run (ds ++ rest) = some (n, rest) := by
  rw [number, run_bind (run_skipBlanks_digits h rest), run_digits h room ends]

/-- A number of two digits, whatever follows. -/
theorem run_two (h : n < 100) (rest : List Char) :
    (number 2).run (Pattern.writeTwo .zero n ++ rest) = some (n, rest) :=
  run_number (Pattern.isDigits_writeTwo h) le_rfl (.inl (Pattern.length_writeTwo n))

section Year

variable {rest' : List Char}

/-- Behind a sign, a year has as many digits as there are. -/
theorem run_year_signed (negative : Bool) (h : (digits rest.length).run rest = some (n, rest')) :
    year.run ((if negative then '-' else '+') :: rest) = some (if negative then -(n : Int) else n, rest') := by
  have behind (value : Nat → Int) (cs : List Char) :
      (do set rest; return value (← digits rest.length) : Reader Int).run cs = some (value n, rest') := by
    rw [run_bind (run_set _ _), run_bind h]
    rfl
  rw [year, run_bind (run_skipBlanks (by cases negative <;> decide) _), run_bind (run_get _)]
  cases negative with
  | true => exact behind (fun n => -(n : Int)) _
  | false => exact behind (fun n => (n : Int)) _

/-- Without a sign, a year has up to four digits. -/
theorem run_year_plain {ds : List Char} (digits : IsDigits ds n)
    (h : (DateReading.digits 4).run (ds ++ rest) = some (n, rest)) :
    year.run (ds ++ rest) = some ((n : Int), rest) := by
  rw [year, run_bind (run_skipBlanks_digits digits rest), run_bind (run_get _)]
  obtain ⟨c, cs, rfl⟩ := List.exists_cons_of_ne_nil digits.ne_nil
  split
  · next minus => exact absurd (List.cons.inj minus).1 digits.ne_sign.2
  · next plus => exact absurd (List.cons.inj plus).1 digits.ne_sign.1
  · rw [run_bind h]
    rfl

/-- The digits of a year end at the dash behind them. -/
theorem run_digits_year (y : Int) {rest : List Char} (room : (Decimal.padded 4 y.natAbs).length ≤ width) :
    (digits width).run (Decimal.padded 4 y.natAbs ++ '-' :: rest) = some (y.natAbs, '-' :: rest) :=
  run_digits (Decimal.isDigits_padded 4 y.natAbs) room (.inr fun _ hc => Option.mem_some_iff.1 hc ▸ rfl)

/-- A year in front of a dash. -/
theorem run_year (y : Int) (rest : List Char) :
    year.run (Pattern.writeYear .zero y ++ '-' :: rest) = some (y, '-' :: rest) := by
  have signed : (Decimal.padded 4 y.natAbs).length ≤ (Decimal.padded 4 y.natAbs ++ '-' :: rest).length := by
    rw [List.length_append]
    exact Nat.le_add_right _ _
  rw [Pattern.writeYear_eq]
  split
  · next negative =>
    have read := run_year_signed true (run_digits_year y signed)
    rw [if_pos rfl, if_pos rfl, show -(y.natAbs : Int) = y by omega] at read
    rwa [List.append_assoc, List.singleton_append]
  split
  · next long =>
    have read := run_year_signed false (run_digits_year y signed)
    rw [if_neg Bool.false_ne_true, if_neg Bool.false_ne_true, show (y.natAbs : Int) = y by omega] at read
    rwa [List.append_assoc, List.singleton_append]
  · next short =>
    have room : (Decimal.padded 4 y.natAbs).length ≤ 4 := by
      have : (Decimal.digits y.natAbs).length ≤ 4 :=
        (Nat.length_toDigits_le_iff (by decide) (by decide)).2 (by omega)
      rw [Decimal.length_padded]
      omega
    rw [List.nil_append, run_year_plain (Decimal.isDigits_padded 4 y.natAbs) (run_digits_year y room),
      show (y.natAbs : Int) = y by omega]

end Year

/-- A day in front of other text. -/
theorem run_date (d : Date) (rest : List Char) : date.run (d.dashed ++ rest) = some (d, rest) := by
  have made : Date.of? d.year d.month d.day = some d := dif_pos d.valid
  unfold date Date.dashed
  simp only [List.append_assoc, List.cons_append]
  rw [run_bind (run_year d.year _), run_bind (run_character '-' _), run_bind (run_two d.month_lt_hundred _),
    run_bind (run_character '-' _), run_bind (run_two d.day_lt_hundred _), made]
  rfl

/-- A time of day in front of other text. -/
theorem run_time (t : Time) (rest : List Char) : time.run (t.clock ++ rest) = some (t.wholeSeconds, rest) := by
  obtain ⟨hour, minute, second, -⟩ := t.valid
  have made : Time.of? t.hour t.minute t.second 0 = some t.wholeSeconds := dif_pos t.wholeSeconds.valid
  unfold time Time.clock
  simp only [List.append_assoc, List.cons_append]
  rw [run_bind (run_two (by omega) _), run_bind (run_character ':' _), run_bind (run_two (by omega) _),
    run_bind (run_character ':' _), run_bind (run_two (by omega) _), made]
  rfl

/-- The blank between day and time of day. -/
theorem run_skipBlanks_clock (t : Time) : skipBlanks.run (' ' :: t.clock) = some ((), t.clock) := by
  have hour : t.hour < 100 := lt_trans t.valid.1 (by decide)
  exact run_skipBlanks_digits (Pattern.isDigits_writeTwo hour) _

theorem whole_spacedDateTime (t : DateTime) : whole spacedDateTime t.text.toList = some t.wholeSeconds := by
  have read : spacedDateTime.run t.text.toList = some (t.wholeSeconds, []) := by
    have clock := run_time t.time []
    rw [List.append_nil] at clock
    unfold spacedDateTime
    rw [t.toList_text, run_bind (run_date t.date _), run_bind (run_skipBlanks_clock t.time), run_bind clock]
    rfl
  rw [whole, read]

end DateReading

/-- **A date is read back from its text**, without its fraction of a second. -/
theorem DateTime.read_text (t : DateTime) : DateTime.read t.text.toList = some t.wholeSeconds := by
  rw [DateTime.read, DateReading.whole_spacedDateTime]
  rfl

end Stencil
