/-!
# Blanks and trimming

The characters with the property `White_Space`, and the functions that cut characters off the ends of a text.

* `exists_dropEnds`: trimming only drops characters at the two ends.
* `dropEnds_eq_self`: trimming drops nothing that need not be dropped.
-/

namespace Stencil.Text

/-- The characters with the property `White_Space`. -/
def isBlank (c : Char) : Bool :=
  let n := c.toNat
  (9 ≤ n && n ≤ 13) || n == 32 || n == 133 || n == 160 || n == 5760 || (8192 ≤ n && n ≤ 8202)
    || n == 8232 || n == 8233 || n == 8239 || n == 8287 || n == 12288

theorem dropWhile_eq_self {α : Type} {p : α → Bool} {as : List α} (first : ∀ a ∈ as.head?, p a = false) :
    as.dropWhile p = as := by
  cases as with
  | nil => rfl
  | cons a as => exact List.dropWhile_cons_of_neg (by simp [first a rfl])

section Trim

variable (p : Char → Bool)

/-- Drops the characters with property `p` at the end. -/
def dropEnd (cs : List Char) : List Char := (cs.reverse.dropWhile p).reverse

/-- Drops the characters with property `p` at both ends. -/
def dropEnds (cs : List Char) : List Char := dropEnd p (cs.dropWhile p)

theorem dropEnd_append_takeWhile (cs : List Char) :
    dropEnd p cs ++ (cs.reverse.takeWhile p).reverse = cs := by
  rw [dropEnd, ← List.reverse_append, List.takeWhile_append_dropWhile, List.reverse_reverse]

/-- What is left is a piece of the text. -/
theorem exists_dropEnds (cs : List Char) : ∃ before after, cs = before ++ dropEnds p cs ++ after :=
  ⟨cs.takeWhile p, ((cs.dropWhile p).reverse.takeWhile p).reverse, by
    rw [dropEnds, List.append_assoc, dropEnd_append_takeWhile, List.takeWhile_append_dropWhile]⟩

theorem length_dropEnds_le (cs : List Char) : (dropEnds p cs).length ≤ cs.length := by
  obtain ⟨before, after, h⟩ := exists_dropEnds p cs
  have := congrArg List.length h
  simp only [List.length_append] at this
  omega

variable {p} {cs : List Char}

/-- Nothing is dropped from a text that has no such character at its ends. -/
theorem dropEnds_eq_self (first : ∀ c ∈ cs.head?, p c = false) (last : ∀ c ∈ cs.getLast?, p c = false) :
    dropEnds p cs = cs := by
  have lastFirst : ∀ c ∈ cs.reverse.head?, p c = false := by rwa [List.head?_reverse]
  rw [dropEnds, dropWhile_eq_self first, dropEnd, dropWhile_eq_self lastFirst, List.reverse_reverse]

theorem dropEnds_of_forall (h : ∀ c ∈ cs, p c = false) : dropEnds p cs = cs :=
  dropEnds_eq_self (fun c hc => h c (List.mem_of_head? hc)) (fun c hc => h c (List.mem_of_getLast? hc))

/-- What is dropped at the end may as well not be there. -/
theorem dropEnds_concat {c : Char} (h : p c = true) (cs : List Char) : dropEnds p (cs ++ [c]) = dropEnds p cs := by
  have last : ∀ ds, dropEnd p (ds ++ [c]) = dropEnd p ds := by
    intro ds
    rw [dropEnd, List.reverse_append, List.reverse_singleton, List.singleton_append, List.dropWhile_cons_of_pos h,
      dropEnd]
  rw [dropEnds, dropEnds, List.dropWhile_append]
  split
  · next empty =>
    rw [List.isEmpty_iff.1 empty, List.dropWhile_cons_of_pos h]
    rfl
  · exact last _

end Trim

/-- A text without the blanks at its ends. -/
def trim (s : String) : String := String.ofList (dropEnds isBlank s.toList)

theorem length_trim_le (s : String) : (trim s).length ≤ s.length := by
  simpa [trim, ← String.length_toList] using length_dropEnds_le isBlank s.toList

theorem trim_eq_self {s : String} (h : ∀ c ∈ s.toList, isBlank c = false) : trim s = s := by
  rw [trim, dropEnds_of_forall h, String.ofList_toList]

/-- Takes a character off both ends if both are `quote`. -/
def unquote (quote : Char) (cs : List Char) : Option (List Char) :=
  match cs with
  | [] => none
  | c :: rest =>
    if c = quote then
      match rest.getLast? with
      | some d => if d = quote then some rest.dropLast else none
      | none => none
    else none

end Stencil.Text
