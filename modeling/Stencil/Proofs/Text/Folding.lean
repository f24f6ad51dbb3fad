import Stencil.NameMap
import Stencil.Text.Ascii

/-!
# Two ways to disregard case

Names are compared by their full lower case where templates are registered, and by the lower case of the letters A to Z
where references are collected. The first identifies more names than the second.

* `fold_eq_of_sameIgnoringCase`: names that differ in the case of letters A to Z only are one name in a registry.
-/

namespace Stencil

namespace Text

theorem toLower_of_not_isAscii {c : Char} (h : isAscii c = false) : c.toLower = c := by
  have big : 128 ≤ c.toNat := by simpa [isAscii] using h
  have notUpper : ¬ (c.val ≥ 65 ∧ c.val ≤ 90) := by
    rintro ⟨-, upper⟩
    have : c.toNat ≤ 90 := upper
    omega
  unfold Char.toLower
  split
  · next upper => exact absurd upper notUpper
  · rfl

/-- What holds of the first 128 characters and their lower case, and of all characters that are their lower case. -/
theorem toLower_induction {P : Char → Char → Prop} (ascii : ∀ n : Fin 128, P (Char.ofNat n) (Char.ofNat n).toLower)
    (same : ∀ c, P c c) (c : Char) : P c c.toLower := by
  cases h : isAscii c with
  | false =>
    rw [toLower_of_not_isAscii h]
    exact same c
  | true =>
    have small : c.toNat < 128 := by simpa [isAscii] using h
    have := ascii ⟨c.toNat, small⟩
    rwa [show Char.ofNat c.toNat = c from Char.ofNat_toNat c] at this

theorem lowerChar_toLower (c : Char) : lowerChar c.toLower = lowerChar c :=
  toLower_induction (P := fun c d => lowerChar d = lowerChar c) (by decide) (fun _ => rfl) c

theorem isCased_toLower (c : Char) : isCased c.toLower = isCased c :=
  toLower_induction (P := fun c d => isCased d = isCased c) (by decide) (fun _ => rfl) c

theorem isCaseIgnorable_toLower (c : Char) : isCaseIgnorable c.toLower = isCaseIgnorable c :=
  toLower_induction (P := fun c d => isCaseIgnorable d = isCaseIgnorable c) (by decide) (fun _ => rfl) c

theorem toLower_eq_sigma (c : Char) : c.toLower = 'Σ' ↔ c = 'Σ' :=
  toLower_induction (P := fun c d => d = 'Σ' ↔ c = 'Σ') (by decide) (fun _ => Iff.rfl) c

theorem meetsCased_map_toLower (cs : List Char) : meetsCased (cs.map Char.toLower) = meetsCased cs := by
  induction cs with
  | nil => rfl
  | cons c cs ih =>
    unfold meetsCased at ih ⊢
    cases h : isCaseIgnorable c with
    | true => simpa [isCaseIgnorable_toLower, h] using ih
    | false => simp [isCaseIgnorable_toLower, isCased_toLower, h]

theorem lowerAfter_map_toLower (before cs : List Char) :
    lowerAfter (before.map Char.toLower) (cs.map Char.toLower) = lowerAfter before cs := by
  induction cs generalizing before with
  | nil => rfl
  | cons c cs ih =>
    have rest := ih (c :: before)
    rw [List.map_cons] at rest
    simp only [List.map_cons, lowerAfter, toLower_eq_sigma, meetsCased_map_toLower, lowerChar_toLower, rest]

end Text

/-- Names that differ in the case of letters A to Z only are folded alike. -/
theorem fold_eq_of_sameIgnoringCase {a b : String} (h : Text.sameIgnoringCase a b = true) : fold a = fold b := by
  simp only [Text.sameIgnoringCase, beq_iff_eq] at h
  have folded (s : String) : fold s = String.ofList (Text.lowerAfter [] (s.toList.map Char.toLower)) :=
    congrArg String.ofList (Text.lowerAfter_map_toLower [] s.toList).symm
  rw [folded, folded, h]

end Stencil
