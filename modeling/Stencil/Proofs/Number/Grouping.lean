import Mathlib
import Stencil.Locale

/-!
# Groups of digits

The whole part of a number is written in groups of three digits, counted from its end, with a separator between them.

* `groupDigits_eq_intercalate`: the separators are those between the groups.
* `groupDigits_injective`: the digits are known from the grouped ones, whatever the separator is.
-/

namespace Stencil.Locale

/-- Digits in groups of three, of which the first one may be shorter. -/
structure IsGrouping (groups : List (List Char)) (digits : List Char) : Prop where
  flatten : groups.flatten = digits
  head : ∀ g ∈ groups.head?, g ≠ [] ∧ g.length ≤ 3
  tail : ∀ g ∈ groups.tail, g.length = 3

/-- A digit goes in front of the first group, or starts a new one if this is full. -/
def groupsOfThree : List Char → List (List Char)
  | [] => []
  | c :: cs =>
    match groupsOfThree cs with
    | [] => [[c]]
    | g :: gs => if g.length = 3 then [c] :: g :: gs else (c :: g) :: gs

theorem isGrouping_groupsOfThree (digits : List Char) : IsGrouping (groupsOfThree digits) digits := by
  induction digits with
  | nil => exact ⟨rfl, by simp [groupsOfThree], by simp [groupsOfThree]⟩
  | cons c cs ih =>
    obtain ⟨flatten, head, tail⟩ := ih
    unfold groupsOfThree
    cases h : groupsOfThree cs with
    | nil =>
      rw [h] at flatten
      exact ⟨by simp [← flatten], by simp, by simp⟩
    | cons g gs =>
      rw [h] at flatten head tail
      have first : g ≠ [] ∧ g.length ≤ 3 := head g rfl
      simp only
      split
      · next full =>
        refine ⟨by simp [← flatten], by simp, ?_⟩
        exact List.forall_mem_cons.2 ⟨full, tail⟩
      · next room =>
        refine ⟨by simp [← flatten], ?_, tail⟩
        rintro _ ⟨⟩
        exact ⟨by simp, by rw [List.length_cons]; omega⟩

section Separators

variable {separator : Char}

theorem length_flatten_mod {gs : List (List Char)} (full : ∀ g ∈ gs, g.length = 3) : gs.flatten.length % 3 = 0 := by
  rw [List.length_flatten, List.map_congr_left full]
  simp

/-- Behind another digit, a separator stands before every group. -/
theorem groupRest_flatten {gs : List (List Char)} (full : ∀ g ∈ gs, g.length = 3) :
    groupDigits.groupRest separator gs.flatten = gs.flatMap fun g => separator :: g := by
  induction gs with
  | nil => rfl
  | cons g gs ih =>
    obtain ⟨size, rest⟩ := List.forall_mem_cons.1 full
    have multiple : gs.flatten.length % 3 = 0 := length_flatten_mod rest
    obtain ⟨a, b, c, rfl⟩ := List.length_eq_three.1 size
    have first : (gs.flatten.length + 1 + 1 + 1) % 3 = 0 := by omega
    have second : ¬(gs.flatten.length + 1 + 1) % 3 = 0 := by omega
    have third : ¬(gs.flatten.length + 1) % 3 = 0 := by omega
    simp only [List.flatten_cons, List.cons_append, List.nil_append, groupDigits.groupRest, List.length_cons, first,
      second, third, if_true, if_false, ih rest, List.flatMap_cons]

theorem intercalate_cons (separator : Char) (g : List Char) (gs : List (List Char)) :
    [separator].intercalate (g :: gs) = g ++ gs.flatMap fun g => separator :: g := by
  induction gs generalizing g with
  | nil => simp
  | cons h gs ih => rw [List.intercalate_cons_cons, ih, List.flatMap_cons, List.append_assoc]; rfl

theorem groupDigits_eq_intercalate {gs : List (List Char)} {digits : List Char} (h : IsGrouping gs digits) :
    groupDigits separator digits = [separator].intercalate gs := by
  obtain ⟨rfl, head, tail⟩ := h
  cases gs with
  | nil => rfl
  | cons g gs =>
    rw [List.tail_cons] at tail
    have multiple := length_flatten_mod tail
    obtain ⟨some, atMost⟩ := head g rfl
    rw [intercalate_cons, ← groupRest_flatten tail, List.flatten_cons]
    generalize gs.flatten = ds at multiple
    have one : ¬(ds.length + 1) % 3 = 0 := by omega
    have two : ¬(ds.length + 1 + 1) % 3 = 0 := by omega
    match g with
    | [a] => rfl
    | [a, b] => simp [groupDigits, groupDigits.groupRest, one]
    | [a, b, c] => simp [groupDigits, groupDigits.groupRest, one, two]
    | [] => cases some rfl
    | a :: b :: c :: d :: g => simp at atMost; omega

/-- A separator stands before every third digit. -/
theorem length_groupRest (cs : List Char) :
    (groupDigits.groupRest separator cs).length = cs.length + cs.length / 3 := by
  induction cs with
  | nil => rfl
  | cons c cs ih =>
    unfold groupDigits.groupRest
    split <;> simp only [List.length_cons, ih] <;> omega

theorem groupRest_injective {cs ds : List Char}
    (h : groupDigits.groupRest separator cs = groupDigits.groupRest separator ds) : cs = ds := by
  have lengths := congrArg List.length h
  rw [length_groupRest, length_groupRest] at lengths
  replace lengths : cs.length = ds.length := by omega
  induction cs generalizing ds with
  | nil => exact (List.length_eq_zero_iff.1 lengths.symm).symm
  | cons c cs ih =>
    cases ds with
    | nil => cases lengths
    | cons d ds =>
      simp only [List.length_cons, Nat.add_right_cancel_iff] at lengths
      simp only [groupDigits.groupRest, lengths] at h
      split at h <;> simp only [List.cons.injEq, true_and] at h <;> rw [h.1, ih h.2 lengths]

/-- The digits are known from the grouped ones. -/
theorem groupDigits_injective {cs ds : List Char} (h : groupDigits separator cs = groupDigits separator ds) :
    cs = ds := by
  cases cs with
  | nil =>
    cases ds with
    | nil => rfl
    | cons d ds => cases h
  | cons c cs =>
    cases ds with
    | nil => cases h
    | cons d ds =>
      simp only [groupDigits, List.cons.injEq] at h
      rw [h.1, groupRest_injective h.2]

end Separators

end Stencil.Locale
