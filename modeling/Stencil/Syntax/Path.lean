import Stencil.Instances
import Stencil.Text.Blank

/-!
# Model paths

A path such as `.customer.orders[0]["total"]` is a list of segments, each a name with index expressions. Dots separate
segments outside brackets only, and within brackets a quoted part may hold dots and brackets. A bracket that is not
closed runs to the end of the path. The path without segments is the model itself.

* `weight_parse_lt`: the index expressions of a path that is not empty are shorter than the path, all together. So
  an index expression that is a path again leads to a shorter path.
-/

namespace Stencil

/-- A name and the index expressions after it, as written between the brackets. -/
structure Segment where
  name : String
  indexes : List String
  deriving DecidableEq, Repr

structure Path where
  text : String
  segments : List Segment
  deriving DecidableEq, Repr

/-- Where a place in a path stands: how many brackets are open around it, and the quote it is in. -/
structure Bracketing where
  depth : Nat
  quote : Option Char
  deriving DecidableEq, Repr

namespace Bracketing

def outside : Bracketing := ⟨0, none⟩

/-- The place behind a character. Quotes count within brackets only. -/
def next (b : Bracketing) (c : Char) : Bracketing :=
  match b.quote with
  | some q => if c = q then ⟨b.depth, none⟩ else b
  | none =>
    if (c = '"' ∨ c = '\x27') ∧ 0 < b.depth then ⟨b.depth, some c⟩
    else if c = '[' then ⟨b.depth + 1, none⟩
    else if c = ']' then ⟨b.depth - 1, none⟩
    else b

end Bracketing

namespace Path

/-- The pieces between the dots that are outside brackets. -/
def splitDots (b : Bracketing) : List Char → List (List Char)
  | [] => [[]]
  | c :: cs =>
    if c = '.' ∧ b = .outside then [] :: splitDots b cs
    else
      match splitDots (b.next c) cs with
      | [] => [[c]]
      | piece :: pieces => (c :: piece) :: pieces

/-- The outermost bracket groups. Within a group the first one is what is left of it. -/
def groups (b : Bracketing) : List Char → List (List Char)
  | [] => if 0 < b.depth then [[]] else []
  | c :: cs =>
    if b.depth = 0 then groups (b.next c) cs
    else if (b.next c).depth = 0 then [] :: groups (b.next c) cs
    else
      match groups (b.next c) cs with
      | [] => [[c]]
      | group :: rest => (c :: group) :: rest

end Path

/-- The segment written as a piece between dots. -/
def Segment.parse (piece : List Char) : Segment :=
  ⟨String.ofList (piece.takeWhile (· ≠ '[')), (Path.groups .outside piece).map String.ofList⟩

namespace Path

/-- The path of a text, which is trimmed first. Empty pieces between dots do not count. -/
def parse (text : String) : Path :=
  let cs := Text.dropEnds Text.isBlank text.toList
  ⟨String.ofList cs, ((splitDots .outside cs).filter (· ≠ [])).map Segment.parse⟩

/-- The path that is the model itself. -/
def isRoot (p : Path) : Bool := p.segments.isEmpty

/-- Number of characters in the index expressions of a list of segments. -/
def weight (segments : List Segment) : Nat :=
  (segments.map fun s => (s.indexes.map String.length).sum).sum

/-! ## Index expressions are shorter than their path -/

theorem sum_length_groups (b : Bracketing) (cs : List Char) :
    ((groups b cs).map List.length).sum + (groups b cs).length ≤ cs.length + (if b.depth = 0 then 0 else 1) := by
  induction cs generalizing b with
  | nil =>
    simp only [groups]
    split <;> split <;> simp_all
  | cons c cs ih =>
    have rest := ih (b.next c)
    simp only [groups]
    split
    · next h =>
      simp only [List.length_cons]
      split at rest <;> omega
    · next h =>
      split
      · next h' =>
        simp only [h', if_true, List.map_cons, List.sum_cons, List.length_cons, List.length_nil, h] at *
        omega
      · next h' =>
        split
        · simp
        · next group others hg =>
          simp only [hg, h', h, if_false, List.map_cons, List.sum_cons, List.length_cons] at *
          omega

theorem sum_length_splitDots (b : Bracketing) (cs : List Char) :
    ((splitDots b cs).map List.length).sum ≤ cs.length := by
  induction cs generalizing b with
  | nil => simp [splitDots]
  | cons c cs ih =>
    simp only [splitDots]
    split
    · have := ih b
      simp only [List.map_cons, List.sum_cons, List.length_nil, List.length_cons]
      omega
    · have := ih (b.next c)
      split
      · simp
      · next piece pieces h =>
        simp only [h, List.map_cons, List.sum_cons, List.length_cons] at *
        omega

theorem length_String_ofList (cs : List Char) : (String.ofList cs).length = cs.length := by
  simp [← String.length_toList]

/-- The index expressions of a segment are shorter than the segment. -/
theorem weight_segment_lt (piece : List Char) (h : piece ≠ []) :
    ((Segment.parse piece).indexes.map String.length).sum < piece.length := by
  have bound := sum_length_groups .outside piece
  have : 0 < piece.length := List.length_pos_iff.2 h
  simp only [Segment.parse, List.map_map]
  have same : (groups .outside piece).map (String.length ∘ String.ofList)
      = (groups .outside piece).map List.length :=
    List.map_congr_left fun g _ => length_String_ofList g
  rw [same]
  cases hg : groups .outside piece with
  | nil => simpa using this
  | cons g gs =>
    rw [hg] at bound
    simp only [Bracketing.outside, if_true, List.length_cons] at bound
    omega

theorem weight_map_parse_le (pieces : List (List Char)) (h : ∀ p ∈ pieces, p ≠ []) :
    weight (pieces.map Segment.parse) + pieces.length ≤ (pieces.map List.length).sum := by
  induction pieces with
  | nil => simp [weight]
  | cons p ps ih =>
    have head := weight_segment_lt p (h p (by simp))
    have tail := ih fun q hq => h q (by simp [hq])
    simp only [weight, List.map_cons, List.sum_cons, List.length_cons] at *
    omega

theorem sum_length_filter_le (pieces : List (List Char)) :
    ((pieces.filter (· ≠ [])).map List.length).sum ≤ (pieces.map List.length).sum := by
  induction pieces with
  | nil => simp
  | cons p ps ih =>
    by_cases h : p = []
    · simpa [h] using ih
    · rw [List.filter_cons_of_pos (by simpa using h)]
      simp only [List.map_cons, List.sum_cons]
      omega

/-- The index expressions of a path are shorter than the text that it keeps, which is the trimmed one. -/
theorem weight_parse_lt (text : String) (h : (parse text).text ≠ "") :
    weight (parse text).segments < (parse text).text.length := by
  have split := sum_length_splitDots .outside (Text.dropEnds Text.isBlank text.toList)
  have kept := sum_length_filter_le (splitDots .outside (Text.dropEnds Text.isBlank text.toList))
  have parsed := weight_map_parse_le
    ((splitDots .outside (Text.dropEnds Text.isBlank text.toList)).filter (· ≠ [])) (by simp)
  have positive : 0 < (Text.dropEnds Text.isBlank text.toList).length := by
    refine List.length_pos_iff.2 fun he => h ?_
    simp [parse, he]
  simp only [parse, length_String_ofList]
  cases hp : (splitDots .outside (Text.dropEnds Text.isBlank text.toList)).filter (· ≠ []) with
  | nil => simpa [weight] using positive
  | cons p ps =>
    rw [hp] at parsed kept
    simp only [List.length_cons] at parsed
    omega

theorem length_parse_le (text : String) : (parse text).text.length ≤ text.length := by
  rw [parse, length_String_ofList, ← String.length_toList]
  exact Text.length_dropEnds_le Text.isBlank text.toList

/-- The path of a blank text is the model itself. -/
theorem segments_of_text_eq {text : String} (h : (parse text).text = "") : (parse text).segments = [] := by
  have blank : Text.dropEnds Text.isBlank text.toList = [] := by
    have := congrArg String.toList h
    simpa [parse] using this
  simp [parse, blank, splitDots]

end Path

end Stencil
