/-!
# Texts cut at a separator

* `join_pieces`: the pieces put together again are the text.
-/

namespace Stencil.Text

/-- The pieces of a text between the separators; there is at least one. -/
def pieces (separator : Char) : List Char → List (List Char)
  | [] => [[]]
  | c :: cs =>
    if c = separator then [] :: pieces separator cs
    else
      match pieces separator cs with
      | [] => [[c]]
      | piece :: rest => (c :: piece) :: rest

theorem pieces_ne_nil (separator : Char) (cs : List Char) : pieces separator cs ≠ [] := by
  cases cs with
  | nil => simp [pieces]
  | cons c cs =>
    simp only [pieces]
    split
    · simp
    · split <;> simp

/-- The pieces put together again are the text. -/
theorem join_pieces (separator : Char) (cs : List Char) : [separator].intercalate (pieces separator cs) = cs := by
  induction cs with
  | nil => rfl
  | cons c cs ih =>
    simp only [pieces]
    split
    · next h =>
      cases hp : pieces separator cs with
      | nil => exact absurd hp (pieces_ne_nil separator cs)
      | cons piece rest =>
        rw [hp] at ih
        simpa [List.intercalate, h] using ih
    · cases hp : pieces separator cs with
      | nil => exact absurd hp (pieces_ne_nil separator cs)
      | cons piece rest =>
        rw [hp] at ih
        cases rest with
        | nil => simpa [List.intercalate] using ih
        | cons second rest => simpa [List.intercalate] using ih

/-- The pieces between separators that are not empty. -/
def names (separator : Char) (s : String) : List String :=
  ((pieces separator s.toList).filter fun piece => !piece.isEmpty).map String.ofList

end Stencil.Text
