import Stencil.Proofs.Number.FixedPlaces

/-!
# Grouped numbers

What `N` writes is what `F` writes with separators in the whole part: one before every character whose distance to the
end is a multiple of three, except before the first one. The sign, the decimal separator and the fraction are the same,
and each of both patterns is refused where the other one is.

* `Binary64.fixed_parts`: the sign, the whole part and the fraction of a number with decimal places.
* `Locale.format_grouped`: both patterns side by side, for every number.
-/

namespace Stencil

/-! ## The parts of a number -/

namespace Binary64

/-- The whole part and the fraction of a number with decimal places. What is not finite has a name and no fraction. -/
inductive HasParts (places : Nat) : List Char → List Char → Prop
  | digits {whole fraction : List Char} (filled : whole ≠ []) (isDigit : ∀ c ∈ whole ++ fraction, c.isDigit = true)
    (length : fraction.length = places) : HasParts places whole fraction
  | name {whole : List Char} (known : whole = ['N', 'a', 'N'] ∨ whole = ['i', 'n', 'f']) : HasParts places whole []

/-- The places of a number are its last digits. -/
theorem withPlaces_parts (places n : Nat) : ∃ whole fraction, HasParts places whole fraction
    ∧ Decimal.withPlaces places n = whole ++ Decimal.behindPoint '.' fraction := by
  unfold Decimal.withPlaces
  by_cases none : places = 0
  · refine ⟨Decimal.digits n, [], .digits (Decimal.digits_ne_nil n) ?_ none.symm, by simp [none, Decimal.behindPoint]⟩
    rw [List.append_nil]
    exact fun _ => Decimal.isDigit_of_mem_digits
  · have length : (Decimal.padded (places + 1) n).length = max (places + 1) (Decimal.digits n).length :=
      Decimal.length_padded _ _
    have digits := (Decimal.isDigits_padded (places + 1) n).digits
    generalize Decimal.padded (places + 1) n = ds at length digits
    have some : ds.drop (ds.length - places) ≠ [] := by
      rw [← List.length_pos_iff, List.length_drop]
      omega
    refine ⟨ds.take (ds.length - places), ds.drop (ds.length - places), .digits ?_ ?_ ?_, ?_⟩
    · rw [← List.length_pos_iff, List.length_take]
      omega
    · rwa [List.take_append_drop]
    · rw [List.length_drop]
      omega
    · simp [none, Decimal.behindPoint, some]

theorem fixed_parts (places : Nat) (x : Binary64) : ∃ negative whole fraction, HasParts places whole fraction
    ∧ (x.fixed places).toList = signText negative ++ (whole ++ Decimal.behindPoint '.' fraction) := by
  cases x with
  | nan => exact ⟨false, _, _, .name (.inl rfl), by simp [fixed, text, signText, Decimal.behindPoint]⟩
  | infinity negative => exact ⟨negative, _, _, .name (.inr rfl), by simp [fixed, text, Decimal.behindPoint]⟩
  | finite negative significand scale canonical =>
    obtain ⟨whole, fraction, parts, written⟩ :=
      withPlaces_parts places (roundHalfEven (magnitude significand scale * 10 ^ places) one)
    exact ⟨negative, whole, fraction, parts, by rw [fixed, String.toList_ofList, written]⟩

/-- The whole part shows no sign and no point. -/
theorem HasParts.plain {places : Nat} {whole fraction : List Char} (h : HasParts places whole fraction) :
    whole ≠ [] ∧ '-' ∉ whole ∧ '.' ∉ whole := by
  rcases h with ⟨filled, isDigit, -⟩ | rfl | rfl
  · refine ⟨filled, fun minus => ?_, fun point => ?_⟩
    · cases isDigit _ (List.mem_append_left _ minus)
    · cases isDigit _ (List.mem_append_left _ point)
  · decide
  · decide

end Binary64

namespace Locale

open Binary64 (signText HasParts)

/-! ## Separators by their places -/

/-- A separator before each character whose distance to the end is a multiple of three, but not before the first. -/
def separated (separator : Char) (cs : List Char) : List Char :=
  (cs.mapIdx fun i c => if 0 < i ∧ (cs.length - i) % 3 = 0 then [separator, c] else [c]).flatten

theorem groupRest_eq_flatten (separator : Char) (cs : List Char) : groupDigits.groupRest separator cs
    = (cs.mapIdx fun i c => if (cs.length - i) % 3 = 0 then [separator, c] else [c]).flatten := by
  induction cs with
  | nil => rfl
  | cons c cs ih =>
    rw [groupDigits.groupRest, ih, List.mapIdx_cons]
    simp only [List.length_cons, Nat.sub_zero, Nat.add_sub_add_right, List.flatten_cons]
    split <;> rfl

theorem groupDigits_eq_separated (separator : Char) (cs : List Char) :
    groupDigits separator cs = separated separator cs := by
  cases cs with
  | nil => rfl
  | cons c cs =>
    rw [groupDigits, groupRest_eq_flatten, separated, List.mapIdx_cons]
    simp only [List.length_cons, Nat.add_sub_add_right, List.flatten_cons, Nat.lt_irrefl, false_and, if_false,
      Nat.succ_pos, true_and]
    rfl

example : separated ' ' ['1', '2', '3', '4', '5', '6', '7'] = ['1', ' ', '2', '3', '4', ' ', '5', '6', '7'] := by
  decide

/-! ## Both patterns -/

theorem regroup_parts (l : Locale) (grouped negative : Bool) {places : Nat} {whole fraction : List Char}
    (parts : HasParts places whole fraction) :
    l.regroup grouped (String.ofList (signText negative ++ (whole ++ Decimal.behindPoint '.' fraction)))
      = String.ofList (signText negative ++ (if grouped then separated l.group whole else whole)
        ++ Decimal.behindPoint l.decimal fraction) := by
  obtain ⟨filled, noSign, noPoint⟩ := parts.plain
  unfold regroup
  rw [String.toList_ofList, splitNumber_parts negative filled noSign noPoint]
  simp only [groupDigits_eq_separated]
  cases fraction <;> rfl

/-- **What `N` writes is what `F` writes, with separators in the whole part**: before every character whose distance to
the end of this part is a multiple of three, except the first, and so between groups of three. Where one of both
patterns is refused, the other is refused for the same reason. -/
theorem format_grouped (l : Locale) (n : Number) (q : String) :
    (∃ fault, l.format n.toValue ("F" ++ q) = .error (.format fault ("F" ++ q))
      ∧ l.format n.toValue ("N" ++ q) = .error (.format fault ("N" ++ q)))
    ∨ ∃ precision sign whole fraction groups, WritesPrecision q.toList precision
      ∧ (sign = [] ∨ sign = ['-']) ∧ HasParts (precision.getD 2) whole fraction
      ∧ l.format n.toValue ("F" ++ q)
        = .ok (some (String.ofList (sign ++ whole ++ Decimal.behindPoint l.decimal fraction)))
      ∧ l.format n.toValue ("N" ++ q)
        = .ok (some (String.ofList (sign ++ separated l.group whole ++ Decimal.behindPoint l.decimal fraction)))
      ∧ separated l.group whole = [l.group].intercalate groups ∧ IsGrouping groups whole := by
  have spelledF : ("F" ++ q).toList = 'F' :: q.toList := String.toList_append
  have spelledN : ("N" ++ q).toList = 'N' :: q.toList := String.toList_append
  have fixed := formatNumber_places (l := l) (n := n) false spelledF
  have grouped := formatNumber_places (l := l) (n := n) true spelledN
  rw [format_toValue, format_toValue, fixed, grouped]
  cases read : readPrecision q.toList with
  | error fault => exact .inl ⟨fault, rfl, rfl⟩
  | ok precision =>
    obtain ⟨negative, whole, fraction, parts, text⟩ := n.toFloat.fixed_parts (precision.getD 2)
    have written (g : Bool) : l.regroup g (n.toFloat.fixed (precision.getD 2))
        = String.ofList (signText negative ++ (if g then separated l.group whole else whole)
          ++ Decimal.behindPoint l.decimal fraction) := by
      rw [← regroup_parts l g negative parts, ← text, String.ofList_toList]
    refine .inr ⟨precision, signText negative, whole, fraction, groupsOfThree whole, readPrecision_eq_ok_iff.1 read, ?_,
      parts, ?_, ?_, ?_, isGrouping_groupsOfThree whole⟩
    · cases negative
      · exact .inl rfl
      · exact .inr rfl
    · exact congrArg (fun text => Except.ok (some text)) (written false)
    · exact congrArg (fun text => Except.ok (some text)) (written true)
    · rw [← groupDigits_eq_separated, groupDigits_eq_intercalate (isGrouping_groupsOfThree whole)]

end Locale

end Stencil
