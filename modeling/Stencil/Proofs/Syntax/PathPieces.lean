import Mathlib.Data.List.TakeWhile
import Stencil.Syntax.Path

/-!
# Paths that are written on

A path that is closed at its end can be written on in two ways. What follows behind a dot is cut into segments on its
own, and an index expression in brackets goes to the last piece, which may be empty.

* `Path.exists_last_piece`: what is written behind a text goes to its last piece first.
* `Path.groups_append`: the bracket groups of a text in two parts, if the first part is closed.
* `Path.segmentsOf_member`, `Path.segmentsOf_index`: the segments of a text with more behind a dot, or a quoted index.
-/

namespace Stencil

/-! ## Places behind a text -/

/-- The place behind a text. -/
def Bracketing.after (b : Bracketing) (cs : List Char) : Bracketing := cs.foldl next b

namespace Bracketing

variable {b : Bracketing} {cs ds : List Char}

theorem after_append : b.after (cs ++ ds) = (b.after cs).after ds := List.foldl_append

/-- Outside brackets, only an opening one leads elsewhere. -/
theorem next_outside {c : Char} (h : c ≠ '[') : outside.next c = outside := by
  unfold next
  simp [outside, h]

theorem after_of_no_bracket (h : '[' ∉ cs) : outside.after cs = outside := by
  induction cs with
  | nil => rfl
  | cons c cs ih =>
    rw [List.mem_cons, not_or] at h
    rw [after, List.foldl_cons, next_outside (Ne.symm h.1)]
    exact ih h.2

section Quote

variable {q : Char} {depth : Nat}

theorem next_opening_quote (isQuote : q = '"' ∨ q = '\x27') (depth : Nat) :
    next ⟨depth + 1, none⟩ q = ⟨depth + 1, some q⟩ :=
  if_pos ⟨isQuote, Nat.succ_pos depth⟩

theorem next_closing_quote : next ⟨depth, some q⟩ q = ⟨depth, none⟩ := if_pos rfl

/-- In a quote, all but its end stays in the quote. -/
theorem next_in_quote {c : Char} (h : c ≠ q) : next ⟨depth, some q⟩ c = ⟨depth, some q⟩ := if_neg h

theorem after_in_quote (h : q ∉ cs) : after ⟨depth, some q⟩ cs = ⟨depth, some q⟩ := by
  induction cs with
  | nil => rfl
  | cons c cs ih =>
    rw [List.mem_cons, not_or] at h
    rw [after, List.foldl_cons, next_in_quote (Ne.symm h.1)]
    exact ih h.2

end Quote

end Bracketing

namespace Path

open Bracketing (after outside)

variable {b : Bracketing} {cs ds : List Char}

/-! ## Pieces -/

theorem splitDots_dot (cs : List Char) : splitDots outside ('.' :: cs) = [] :: splitDots outside cs :=
  if_pos ⟨rfl, rfl⟩

/-- A character that does not end a piece belongs to the first one. -/
theorem splitDots_cons {c : Char} {piece : List Char} {pieces : List (List Char)} (h : ¬(c = '.' ∧ b = outside))
    (split : splitDots (b.next c) cs = piece :: pieces) : splitDots b (c :: cs) = (c :: piece) :: pieces := by
  rw [splitDots, if_neg h, split]

/-- What is written behind a text goes to its last piece first. This piece leads to the place behind the text, from
where it starts: outside all brackets, unless it is the whole text. -/
theorem exists_last_piece (b : Bracketing) (cs : List Char) : ∃ init last, splitDots b cs = init ++ [last]
    ∧ (if init = [] then b else outside).after last = b.after cs
    ∧ ∀ ds piece pieces, splitDots (b.after cs) ds = piece :: pieces →
      splitDots b (cs ++ ds) = init ++ (last ++ piece) :: pieces := by
  induction cs generalizing b with
  | nil => exact ⟨[], [], rfl, rfl, fun ds piece pieces split => split⟩
  | cons c cs ih =>
    obtain ⟨init, last, pieces, place, append⟩ := ih (b.next c)
    by_cases dot : c = '.' ∧ b = outside
    · obtain ⟨rfl, rfl⟩ := dot
      change splitDots outside cs = _ at pieces
      refine ⟨[] :: init, last, by rw [splitDots_dot, pieces]; rfl, ?_, fun ds piece pieces split => ?_⟩
      · rw [show Bracketing.next outside '.' = outside from rfl, ite_self] at place
        exact place
      · rw [List.cons_append, splitDots_dot]
        exact congrArg _ (append ds piece pieces split)
    · -- The character goes to the first piece, which may be the last one at once.
      cases init with
      | nil =>
        refine ⟨[], c :: last, splitDots_cons dot pieces, place, fun ds piece pieces split => ?_⟩
        exact splitDots_cons dot (append ds piece pieces split)
      | cons first init =>
        refine ⟨(c :: first) :: init, last, splitDots_cons dot pieces, place, fun ds piece pieces split => ?_⟩
        exact splitDots_cons dot (append ds piece pieces split)

/-- A text without dots is one piece. -/
theorem splitDots_of_no_dot (h : '.' ∉ cs) : splitDots b cs = [cs] := by
  induction cs generalizing b with
  | nil => rfl
  | cons c cs ih =>
    rw [List.mem_cons, not_or] at h
    exact splitDots_cons (fun dot => h.1 dot.1.symm) (ih h.2)

/-! ## Groups -/

/-- An open bracket has a group. -/
theorem groups_ne_nil (deep : 0 < b.depth) (cs : List Char) : groups b cs ≠ [] := by
  cases cs with
  | nil =>
    rw [groups, if_pos deep]
    exact List.cons_ne_nil _ _
  | cons c cs =>
    rw [groups, if_neg (by omega)]
    split
    · exact List.cons_ne_nil _ _
    · split <;> exact List.cons_ne_nil _ _

/-- Behind a text that is closed, groups are on their own. -/
theorem groups_append (closed : b.after cs = outside) (ds : List Char) :
    groups b (cs ++ ds) = groups b cs ++ groups outside ds := by
  induction cs generalizing b with
  | nil =>
    obtain rfl : b = outside := closed
    rfl
  | cons c cs ih =>
    have rest := ih closed
    rw [List.cons_append, groups, groups, rest]
    split
    · rfl
    split
    · rfl
    · next deep =>
      -- The character goes to the first group, which is there before the second part comes.
      obtain ⟨group, others, first⟩ := List.exists_cons_of_ne_nil (groups_ne_nil (Nat.pos_of_ne_zero deep) cs)
      rw [first]
      rfl

/-- A character within brackets that does not close them belongs to the group. -/
theorem groups_cons {c : Char} {group : List Char} {others : List (List Char)} (deep : b.depth ≠ 0)
    (deep' : (b.next c).depth ≠ 0) (first : groups (b.next c) cs = group :: others) :
    groups b (c :: cs) = (c :: group) :: others := by
  rw [groups, if_neg deep, if_neg deep', first]

/-- A quoted index in brackets. -/
def quotedIndex (q : Char) (key : List Char) : List Char := '[' :: q :: (key ++ [q, ']'])

section QuotedIndex

variable {q : Char} {key : List Char}

theorem after_quotedIndex (isQuote : q = '"' ∨ q = '\x27') (noQuote : q ∉ key) :
    outside.after (quotedIndex q key) = outside := by
  have opened : outside.after ['[', q] = ⟨1, some q⟩ := Bracketing.next_opening_quote isQuote 0
  have closed : after ⟨1, some q⟩ [q, ']'] = outside := by
    rw [after, List.foldl_cons, Bracketing.next_closing_quote]
    rfl
  show outside.after (['[', q] ++ (key ++ [q, ']'])) = outside
  rw [Bracketing.after_append, opened, Bracketing.after_append, Bracketing.after_in_quote noQuote, closed]

theorem groups_in_quote (noQuote : q ∉ key) : groups ⟨1, some q⟩ (key ++ [q, ']']) = [key ++ [q]] := by
  induction key with
  | nil =>
    have closing : Bracketing.next ⟨1, some q⟩ q = ⟨1, none⟩ := Bracketing.next_closing_quote
    exact groups_cons Nat.one_ne_zero (by rw [closing]; exact Nat.one_ne_zero) (by rw [closing]; rfl)
  | cons c key ih =>
    rw [List.mem_cons, not_or] at noQuote
    have inside : Bracketing.next ⟨1, some q⟩ c = ⟨1, some q⟩ := Bracketing.next_in_quote (Ne.symm noQuote.1)
    exact groups_cons Nat.one_ne_zero (by rw [inside]; exact Nat.one_ne_zero) (by rw [inside]; exact ih noQuote.2)

theorem groups_quotedIndex (isQuote : q = '"' ∨ q = '\x27') (noQuote : q ∉ key) :
    groups outside (quotedIndex q key) = [q :: (key ++ [q])] := by
  have opening := Bracketing.next_opening_quote isQuote 0
  exact groups_cons (b := ⟨1, none⟩) Nat.one_ne_zero (by rw [opening]; exact Nat.one_ne_zero)
    (by rw [opening]; exact groups_in_quote noQuote)

end QuotedIndex

theorem groups_of_no_bracket (h : '[' ∉ cs) : groups outside cs = [] := by
  induction cs with
  | nil => rfl
  | cons c cs ih =>
    rw [List.mem_cons, not_or] at h
    rw [groups, if_pos (show outside.depth = 0 from rfl), Bracketing.next_outside (Ne.symm h.1)]
    exact ih h.2

/-! ## Segments -/

/-- A quoted index behind a piece is one more index of its segment. -/
theorem parse_append_quotedIndex {q : Char} {piece key : List Char} (closed : outside.after piece = outside)
    (isQuote : q = '"' ∨ q = '\x27') (noQuote : q ∉ key) : Segment.parse (piece ++ quotedIndex q key)
      = ⟨(Segment.parse piece).name, (Segment.parse piece).indexes ++ [String.ofList (q :: (key ++ [q]))]⟩ := by
  have name : (piece ++ quotedIndex q key).takeWhile (· ≠ '[') = piece.takeWhile (· ≠ '[') := by
    rw [List.takeWhile_append]
    split
    · next all =>
      rw [quotedIndex, List.takeWhile_cons_of_neg (by simp), List.append_nil]
      exact ((List.takeWhile_prefix _).eq_of_length all).symm
    · rfl
  rw [Segment.parse, name, groups_append closed, groups_quotedIndex isQuote noQuote, List.map_append]
  rfl

/-- The segments of all pieces between dots, the empty ones as well. -/
def segmentsOf (cs : List Char) : List Segment := (splitDots outside cs).map Segment.parse

/-- A name is one segment. -/
theorem segmentsOf_name {name : List Char} (noDot : '.' ∉ name) (noBracket : '[' ∉ name) :
    segmentsOf name = [⟨String.ofList name, []⟩] := by
  have whole : name.takeWhile (· ≠ '[') = name := by
    refine List.takeWhile_eq_self_iff.2 fun c hc => ?_
    simpa using fun same : c = '[' => noBracket (same ▸ hc)
  rw [segmentsOf, splitDots_of_no_dot noDot, List.map_singleton, Segment.parse, whole, groups_of_no_bracket noBracket]
  rfl

/-- Behind a dot, segments are on their own. -/
theorem segmentsOf_member (closed : outside.after cs = outside) (ds : List Char) :
    segmentsOf (cs ++ '.' :: ds) = segmentsOf cs ++ segmentsOf ds := by
  obtain ⟨init, last, pieces, -, append⟩ := exists_last_piece outside cs
  have split : splitDots (outside.after cs) ('.' :: ds) = [] :: splitDots outside ds := by
    rw [closed]
    exact splitDots_dot ds
  rw [segmentsOf, segmentsOf, segmentsOf, append _ _ _ split, pieces, List.append_nil, ← List.map_append,
    List.append_assoc]
  rfl

/-- A quoted index goes to the last segment. -/
theorem segmentsOf_index {q : Char} {key : List Char} (closed : outside.after cs = outside)
    (isQuote : q = '"' ∨ q = '\x27') (noQuote : q ∉ key) (noDot : '.' ∉ key) :
    ∃ before name indexes, segmentsOf cs = before ++ [⟨name, indexes⟩]
      ∧ segmentsOf (cs ++ quotedIndex q key)
        = before ++ [⟨name, indexes ++ [String.ofList (q :: (key ++ [q]))]⟩] := by
  obtain ⟨init, last, pieces, place, append⟩ := exists_last_piece outside cs
  rw [ite_self, closed] at place
  have noDot' : '.' ∉ quotedIndex q key := by
    rcases isQuote with rfl | rfl <;> simp [quotedIndex, noDot]
  have split : splitDots (outside.after cs) (quotedIndex q key) = [quotedIndex q key] := splitDots_of_no_dot noDot'
  refine ⟨init.map Segment.parse, (Segment.parse last).name, (Segment.parse last).indexes, ?_, ?_⟩
  · rw [segmentsOf, pieces, List.map_append]
    rfl
  · rw [segmentsOf, append _ _ _ split, List.map_append, List.map_singleton,
      parse_append_quotedIndex place isQuote noQuote]

/-! ## Trimming -/

/-- Only what is behind a path can have blanks at its end. -/
theorem dropEnds_append_dot (chars : ∀ c ∈ cs, Text.isBlank c = false) (ds : List Char) :
    Text.dropEnds Text.isBlank (cs ++ '.' :: ds) = cs ++ '.' :: Text.dropEnd Text.isBlank ds := by
  have dot : Text.isBlank '.' = false := by decide
  have first : ∀ c ∈ (cs ++ '.' :: ds).head?, Text.isBlank c = false := by
    intro c hc
    cases cs with
    | nil => exact Option.mem_some_iff.1 hc ▸ dot
    | cons d cs => exact chars c (Option.mem_some_iff.1 hc ▸ List.mem_cons_self)
  have last : ∀ c ∈ ('.' :: cs.reverse).head?, Text.isBlank c = false := fun c hc => Option.mem_some_iff.1 hc ▸ dot
  rw [Text.dropEnds, Text.dropWhile_eq_self first, Text.dropEnd, List.reverse_append, List.reverse_cons,
    List.append_assoc, List.singleton_append, List.dropWhile_append, Text.dropWhile_eq_self last, Text.dropEnd]
  split
  · next blank => simp [List.isEmpty_iff.1 blank]
  · simp

end Path

end Stencil
