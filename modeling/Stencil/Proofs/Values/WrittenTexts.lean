import Mathlib.Data.List.Induction
import Stencil.Coercion
import Stencil.Proofs.Calendar.WrittenDates

/-!
# Values that are read back from their text

A truth value, an integer or a date that is taken as a text can be taken back from it, also with blanks around it. Only
the fraction of a second of a date is lost, which its text does not show.

* `Text.trim_padded`: blanks around a text are trimmed away.
* `Value.coerce_written`: a value is read back from its text.
-/

namespace Stencil

/-! ## Blanks around a text -/

namespace Text

variable {p : Char → Bool} {before after : List Char}

/-- Characters that are dropped at the ends may as well not be there. -/
theorem dropEnds_padded (dropped : ∀ c ∈ before ++ after, p c = true) (cs : List Char) :
    dropEnds p (before ++ cs ++ after) = dropEnds p cs := by
  rw [List.forall_mem_append] at dropped
  obtain ⟨front, back⟩ := dropped
  rw [List.append_assoc, dropEnds, List.dropWhile_append_of_pos front, ← dropEnds]
  induction after using List.reverseRecOn with
  | nil => rw [List.append_nil]
  | append_singleton after c ih =>
    rw [List.forall_mem_append] at back
    rw [← List.append_assoc, dropEnds_concat (back.2 c List.mem_cons_self)]
    exact ih back.1

/-- Nothing is dropped from a text with other characters at both ends. -/
theorem dropEnds_between {front back : List Char} (hf : front ≠ []) (hb : back ≠ [])
    (first : ∀ c ∈ front, p c = false) (last : ∀ c ∈ back, p c = false) (middle : List Char) :
    dropEnds p (front ++ (middle ++ back)) = front ++ (middle ++ back) := by
  apply dropEnds_eq_self
  · obtain ⟨c, cs, rfl⟩ := List.exists_cons_of_ne_nil hf
    exact fun d hd => Option.mem_some_iff.1 hd ▸ first c List.mem_cons_self
  · rw [← List.dropLast_concat_getLast hb, ← List.append_assoc, ← List.append_assoc, List.getLast?_concat]
    exact fun d hd => Option.mem_some_iff.1 hd ▸ last _ (List.getLast_mem hb)

theorem trim_padded {s : String} (blank : ∀ c ∈ before ++ after, isBlank c = true) (bare : trim s = s) :
    trim (String.ofList (before ++ s.toList ++ after)) = s := by
  rw [trim, String.toList_ofList, dropEnds_padded blank]
  exact bare

end Text

/-! ## Texts without blanks at their ends -/

theorem Decimal.trim_integerText (n : Int) : Text.trim (integerText n) = integerText n := by
  have noBlank : ∀ c ∈ digits n.natAbs, Text.isBlank c = false :=
    fun _ hc => Text.isBlank_of_isDigit (isDigit_of_mem_digits hc)
  refine Text.trim_eq_self ?_
  rw [integerText, String.toList_ofList]
  split
  · exact List.forall_mem_cons.2 ⟨by decide, noBlank⟩
  · exact noBlank

theorem Pattern.isBlank_of_mem_writeTwo {n : Nat} (h : n < 100) :
    ∀ c ∈ writeTwo .zero n, Text.isBlank c = false :=
  fun c hc => Text.isBlank_of_isDigit ((isDigits_writeTwo h).digits c hc)

theorem Pattern.isBlank_of_mem_writeYear (year : Int) : ∀ c ∈ writeYear .zero year, Text.isBlank c = false := by
  have digits : ∀ c ∈ Decimal.padded 4 year.natAbs, Text.isBlank c = false :=
    fun c hc => Text.isBlank_of_isDigit ((Decimal.isDigits_padded 4 year.natAbs).digits c hc)
  rw [writeYear_eq, List.forall_mem_append]
  refine ⟨?_, digits⟩
  split
  · exact List.forall_mem_singleton.2 (by decide)
  split
  · exact List.forall_mem_singleton.2 (by decide)
  · exact List.forall_mem_nil _

/-- Only the blank between day and time of day is one. -/
theorem DateTime.trim_text (t : DateTime) : Text.trim t.text = t.text := by
  have day : ∀ c ∈ t.date.dashed, Text.isBlank c = false := by
    unfold Date.dashed
    simp only [List.forall_mem_append, List.forall_mem_cons]
    exact ⟨Pattern.isBlank_of_mem_writeYear _, by decide, Pattern.isBlank_of_mem_writeTwo t.date.month_lt_hundred,
      by decide, Pattern.isBlank_of_mem_writeTwo t.date.day_lt_hundred⟩
  have clock : ∀ c ∈ t.time.clock, Text.isBlank c = false := by
    obtain ⟨hour, minute, second, -⟩ := t.time.valid
    unfold Time.clock
    simp only [List.forall_mem_append, List.forall_mem_cons]
    exact ⟨Pattern.isBlank_of_mem_writeTwo (by omega), by decide, Pattern.isBlank_of_mem_writeTwo (by omega), by decide,
      Pattern.isBlank_of_mem_writeTwo (by omega)⟩
  have filled : t.date.dashed ≠ [] := List.append_ne_nil_of_right_ne_nil _ (List.cons_ne_nil _ _)
  have filled' : t.time.clock ≠ [] := List.append_ne_nil_of_right_ne_nil _ (List.cons_ne_nil _ _)
  have bare := Text.dropEnds_between filled filled' day clock [' ']
  rw [Text.trim, t.toList_text, ← List.singleton_append, bare, List.singleton_append, ← t.toList_text,
    String.ofList_toList]

/-! ## Values -/

namespace Value

/-- A date without its fraction of a second, and any other value as it is. -/
def wholeSeconds : Value → Value
  | .date t => .date t.wholeSeconds
  | v => v

variable {s : String}

theorem coerce_bool_of_trim {b : Bool} (h : Text.trim s = (Value.bool b).text) :
    coerce .bool (.string s) = .ok (.bool b) := by
  have read : (Value.string s).asBool = .ok b := by
    simp only [asBool, h]
    cases b <;> rfl
  simp only [coerce, isNull, Bool.false_eq_true, if_false, read, Except.map]

theorem coerce_integer_of_trim {n : Int64} (h : Text.trim s = (Value.integer n).text) :
    coerce .integer (.string s) = .ok (.integer n) := by
  have digits : Decimal.readInt64 (Value.integer n).text.toList = .ok n := by
    rw [Value.text, Decimal.integerText, String.toList_ofList]
    exact Decimal.readInt64_digits (Decimal.isDigits_digits n.toInt.natAbs)
  have read : (Value.string s).asInteger = .ok n := by simp only [asInteger, h, digits]
  simp only [coerce, isNull, Bool.false_eq_true, if_false, read, Except.map]

theorem coerce_date_of_trim {t : DateTime} (h : Text.trim s = (Value.date t).text) :
    coerce .date (.string s) = .ok (.date t.wholeSeconds) := by
  have fields : DateTime.read (Value.date t).text.toList = some t.wholeSeconds := t.read_text
  have read : (Value.string s).asDate = .ok t.wholeSeconds := by simp only [asDate, h, fields]
  simp only [coerce, isNull, Bool.false_eq_true, if_false, read, Except.map]

/-- **A value is read back from its text**, whatever blanks are around it: a truth value, an integer or a date, of which
only the fraction of a second is lost. -/
theorem coerce_written {v : Value} {type : ArgType} (own : v.typeName = type.name)
    (scalar : type = .bool ∨ type = .integer ∨ type = .date) {before after : List Char}
    (blank : ∀ c ∈ before ++ after, Text.isBlank c = true) :
    coerce .string v = .ok (.string v.text)
      ∧ coerce type (.string (String.ofList (before ++ v.text.toList ++ after))) = .ok v.wholeSeconds := by
  rcases scalar with rfl | rfl | rfl
  · cases v with
    | bool b =>
      have bare : Text.trim (Value.bool b).text = (Value.bool b).text := by cases b <;> decide
      exact ⟨rfl, coerce_bool_of_trim (Text.trim_padded blank bare)⟩
    | _ => exact absurd own (by simp [typeName, ArgType.name])
  · cases v with
    | integer n => exact ⟨rfl, coerce_integer_of_trim (Text.trim_padded blank (Decimal.trim_integerText n.toInt))⟩
    | _ => exact absurd own (by simp [typeName, ArgType.name])
  · cases v with
    | date t => exact ⟨rfl, coerce_date_of_trim (Text.trim_padded blank t.trim_text)⟩
    | _ => exact absurd own (by simp [typeName, ArgType.name])

/-- The least integer with blanks around it, and a date of a year with a sign. -/
theorem coerce_written_extremes :
    let least : Int64 := .ofInt (-2 ^ (63 : Nat))
    let day : Date := ⟨-44, 3, 15, by decide⟩
    coerce .string (.integer least) = .ok (.string "-9223372036854775808")
      ∧ coerce .integer (.string "  -9223372036854775808 ") = .ok (.integer least)
      ∧ coerce .string (.date ⟨day, 9, 30, 59, 250, by decide⟩) = .ok (.string "-0044-03-15 09:30:59")
      ∧ coerce .date (.string " -0044-03-15 09:30:59") = .ok (.date ⟨day, 9, 30, 59, 0, by decide⟩) := by
  intro least day
  have integer := @coerce_written (.integer least) .integer rfl (.inr (.inl rfl)) [' ', ' '] [' ']
    (List.all_eq_true.1 (by decide))
  have date := @coerce_written (.date ⟨day, 9, 30, 59, 250, by decide⟩) .date rfl (.inr (.inr rfl)) [' '] []
    (List.all_eq_true.1 (by decide))
  have integerText : (Value.integer least).text = "-9223372036854775808" := by decide
  have dateText : (Value.date ⟨day, 9, 30, 59, 250, by decide⟩).text = "-0044-03-15 09:30:59" := by decide
  rw [integerText] at integer
  rw [dateText] at date
  exact ⟨integer.1, integer.2, date.1, date.2⟩

end Value

end Stencil
