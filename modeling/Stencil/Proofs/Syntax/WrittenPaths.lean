import Mathlib.Data.List.TakeWhile
import Stencil.Proofs.Syntax.PathPieces

/-!
# Paths that are written from their segments

A list of segments is written with a dot in front of each, and its index expressions in brackets behind its name. If
every index expression closes the brackets and the quotes that it opens, the two ways in which a path is cut, at dots
and at brackets, agree on where they close, and the segments are read back.

* `Path.OnePiece`: a text that is not cut at dots, and the place that it leads to.
* `Path.parse_written`: the path of the written text has these segments.
-/

namespace Stencil

/-! ## Texts that close what they open -/

/-- Whether a text closes what it opens, with `depth` brackets and maybe a quote open before: outside quotes, brackets
match and none is closed that was not opened, and every quote ends. -/
def closes (depth : Nat) (quote : Option Char) : List Char → Bool
  | [] => depth == 0 && quote.isNone
  | c :: cs =>
    match quote with
    | some q => closes depth (if c = q then none else some q) cs
    | none =>
      if c = '"' ∨ c = '\x27' then closes depth (some c) cs
      else if c = '[' then closes (depth + 1) none cs
      else if c = ']' then 0 < depth && closes (depth - 1) none cs
      else closes depth none cs

/-- Within brackets, a character leads to a place within brackets if the text closes what it opens. -/
theorem next_of_closes {depth : Nat} {quote : Option Char} {c : Char} {cs : List Char}
    (h : closes depth quote (c :: cs) = true) : ∃ depth' quote',
      Bracketing.next ⟨depth + 1, quote⟩ c = ⟨depth' + 1, quote'⟩ ∧ closes depth' quote' cs = true := by
  unfold closes at h
  unfold Bracketing.next
  cases quote with
  | some q =>
    simp only at h ⊢
    split
    · next close => exact ⟨depth, none, rfl, by simpa [close] using h⟩
    · next inside => exact ⟨depth, some q, rfl, by simpa [inside] using h⟩
  | none =>
    simp only at h ⊢
    by_cases isQuote : c = '"' ∨ c = '\x27'
    · rw [if_pos isQuote] at h
      exact ⟨depth, some c, if_pos ⟨isQuote, Nat.succ_pos depth⟩, h⟩
    rw [if_neg isQuote] at h
    rw [if_neg fun quoted => isQuote quoted.1]
    split at h
    · next opening => exact ⟨depth + 1, none, if_pos opening, h⟩
    next other =>
      rw [if_neg other]
      split at h
      · next closing =>
        rw [Bool.and_eq_true, decide_eq_true_eq] at h
        refine ⟨depth - 1, none, ?_, h.2⟩
        rw [if_pos closing, Nat.add_sub_cancel, Nat.sub_add_cancel h.1]
      · next plain => exact ⟨depth, none, if_neg plain, h⟩

theorem closes_nil {depth : Nat} {quote : Option Char} (h : closes depth quote [] = true) :
    depth = 0 ∧ quote = none := by
  simpa [closes] using h

/-! ## Segments -/

/-- A name with its index expressions in brackets. -/
def Segment.written (s : Segment) : List Char :=
  s.name.toList ++ s.indexes.flatMap fun e => '[' :: (e.toList ++ [']'])

/-- A segment that is known from its text: it has a name or an index expression, no dot, bracket or blank is in its
name, and every index expression closes what it opens. -/
structure Segment.IsWritable (s : Segment) : Prop where
  name : ∀ c ∈ s.name.toList, c ≠ '.' ∧ c ≠ '[' ∧ Text.isBlank c = false
  filled : s.name ≠ "" ∨ s.indexes ≠ []
  indexes : ∀ e ∈ s.indexes, closes 0 none e.toList = true

instance (s : Segment) : Decidable s.IsWritable :=
  decidable_of_iff ((s.name.toList.all fun c => c ≠ '.' ∧ c ≠ '[' ∧ Text.isBlank c = false) = true
      ∧ (s.name ≠ "" ∨ s.indexes ≠ []) ∧ (s.indexes.all fun e => closes 0 none e.toList) = true)
    ⟨fun ⟨name, filled, indexes⟩ =>
      ⟨fun c hc => of_decide_eq_true (List.all_eq_true.1 name c hc), filled, List.all_eq_true.1 indexes⟩,
    fun h => ⟨List.all_eq_true.2 fun c hc => decide_eq_true (h.name c hc), h.filled, List.all_eq_true.2 h.indexes⟩⟩

namespace Path

open Bracketing (after outside)

/-- The text of a path, with a dot in front of every segment. -/
def written (segments : List Segment) : String :=
  String.ofList (segments.flatMap fun s => '.' :: s.written)

/-! ## Pieces -/

/-- A text that leads from one place to another and is not cut at dots. -/
structure OnePiece (b : Bracketing) (cs : List Char) (b' : Bracketing) : Prop where
  place : b.after cs = b'
  whole : splitDots b cs = [cs]

namespace OnePiece

variable {b b' b'' : Bracketing} {c : Char} {cs ds : List Char}

theorem nil (b : Bracketing) : OnePiece b [] b := ⟨rfl, rfl⟩

theorem cons (uncut : ¬(c = '.' ∧ b = outside)) (rest : OnePiece (b.next c) cs b') : OnePiece b (c :: cs) b' :=
  ⟨rest.place, splitDots_cons uncut rest.whole⟩

/-- What follows goes to the piece, up to its next end. -/
theorem splitDots_append (h : OnePiece b cs b') {piece : List Char} {pieces : List (List Char)}
    (split : splitDots b' ds = piece :: pieces) : splitDots b (cs ++ ds) = (cs ++ piece) :: pieces := by
  obtain ⟨init, last, cut, -, append⟩ := exists_last_piece b cs
  rw [h.whole] at cut
  obtain ⟨rfl, rfl⟩ : init = [] ∧ last = cs := by
    cases init with
    | nil => exact ⟨rfl, (List.cons.inj cut).1.symm⟩
    | cons piece init => simp at cut
  rw [append ds piece pieces (h.place.symm ▸ split), List.nil_append]

theorem append (first : OnePiece b cs b') (second : OnePiece b' ds b'') : OnePiece b (cs ++ ds) b'' :=
  ⟨by rw [Bracketing.after_append, first.place, second.place], first.splitDots_append second.whole⟩

/-- Within brackets, a text that closes what it opens is one piece, and leads back to where it starts. -/
theorem of_closes {depth : Nat} {quote : Option Char} (h : closes depth quote cs = true) :
    OnePiece ⟨depth + 1, quote⟩ cs ⟨1, none⟩ := by
  induction cs generalizing depth quote with
  | nil =>
    obtain ⟨rfl, rfl⟩ := closes_nil h
    exact .nil _
  | cons c cs ih =>
    obtain ⟨depth', quote', step, rest⟩ := next_of_closes h
    exact .cons (fun dot => by cases dot.2) (step ▸ ih rest)

theorem bracketed {e : List Char} (h : closes 0 none e = true) : OnePiece outside ('[' :: (e ++ [']'])) outside :=
  .cons (by decide) ((of_closes h).append (.cons (by decide) (.nil _)))

theorem name (h : ∀ c ∈ cs, c ≠ '.' ∧ c ≠ '[') : OnePiece outside cs outside where
  place := Bracketing.after_of_no_bracket fun bracket => (h _ bracket).2 rfl
  whole := splitDots_of_no_dot fun dot => (h _ dot).1 rfl

theorem indexes {es : List String} (h : ∀ e ∈ es, closes 0 none e.toList = true) :
    OnePiece outside (es.flatMap fun e => '[' :: (e.toList ++ [']'])) outside := by
  induction es with
  | nil => exact .nil _
  | cons e es ih =>
    obtain ⟨head, tail⟩ := List.forall_mem_cons.1 h
    rw [List.flatMap_cons]
    exact (bracketed head).append (ih tail)

end OnePiece

/-! ## Groups -/

/-- A text that closes what it opens is the group up to the bracket behind it. -/
theorem groups_of_closes {depth : Nat} {quote : Option Char} {cs : List Char} (h : closes depth quote cs = true) :
    groups ⟨depth + 1, quote⟩ (cs ++ [']']) = [cs] := by
  induction cs generalizing depth quote with
  | nil =>
    obtain ⟨rfl, rfl⟩ := closes_nil h
    rfl
  | cons c cs ih =>
    obtain ⟨depth', quote', step, rest⟩ := next_of_closes h
    refine groups_cons (Nat.succ_ne_zero depth) ?_ ?_
    · rw [step]
      exact Nat.succ_ne_zero depth'
    · rw [step]
      exact ih rest

theorem groups_indexes {es : List String} (h : ∀ e ∈ es, closes 0 none e.toList = true) :
    groups outside (es.flatMap fun e => '[' :: (e.toList ++ [']'])) = es.map String.toList := by
  induction es with
  | nil => rfl
  | cons e es ih =>
    obtain ⟨head, tail⟩ := List.forall_mem_cons.1 h
    rw [List.flatMap_cons, groups_append (OnePiece.bracketed head).place, ih tail, List.map_cons]
    exact congrArg (· ++ es.map String.toList) (groups_of_closes head)

end Path

/-! ## Reading back -/

namespace Segment.IsWritable

open Bracketing (outside)
open Stencil.Path (OnePiece)

variable {s : Segment}

theorem onePiece (h : s.IsWritable) : OnePiece outside s.written outside :=
  (OnePiece.name fun c hc => ⟨(h.name c hc).1, (h.name c hc).2.1⟩).append (.indexes h.indexes)

theorem ofList_comp_toList : String.ofList ∘ String.toList = id := funext fun _ => String.ofList_toList

theorem parse_eq (h : s.IsWritable) : Segment.parse s.written = s := by
  have plain : ∀ c ∈ s.name.toList, decide (c ≠ '[') = true := fun c hc => decide_eq_true (h.name c hc).2.1
  have name : s.written.takeWhile (· ≠ '[') = s.name.toList := by
    rw [Segment.written, List.takeWhile_append_of_pos plain]
    cases s.indexes <;> simp
  have groups : Path.groups outside s.written = s.indexes.map String.toList := by
    have closed := OnePiece.name fun c hc => ⟨(h.name c hc).1, (h.name c hc).2.1⟩
    rw [Segment.written, Path.groups_append closed.place, Path.groups_indexes h.indexes,
      Path.groups_of_no_bracket fun bracket => (h.name _ bracket).2.1 rfl, List.nil_append]
  rw [Segment.parse, name, groups, String.ofList_toList, List.map_map, ofList_comp_toList, List.map_id]

theorem written_ne_nil (h : s.IsWritable) : s.written ≠ [] := by
  intro empty
  obtain ⟨name, indexes⟩ := List.append_eq_nil_iff.1 empty
  rcases h.filled with some | some
  · exact some (String.toList_eq_nil_iff.1 name)
  · obtain ⟨e, es, first⟩ := List.exists_cons_of_ne_nil some
    rw [first] at indexes
    cases indexes

/-- The last character is a bracket, or one of the name. -/
theorem isBlank_of_mem_getLast? (h : s.IsWritable) : ∀ c ∈ s.written.getLast?, Text.isBlank c = false := by
  intro c last
  rcases List.eq_nil_or_concat s.indexes with none | ⟨es, e, some⟩
  · rw [Segment.written, none, List.flatMap_nil, List.append_nil] at last
    exact (h.name c (List.mem_of_mem_getLast? last)).2.2
  · rw [Segment.written, some, List.concat_eq_append, List.flatMap_append, List.flatMap_singleton, ← List.cons_append,
      ← List.append_assoc, ← List.append_assoc, List.getLast?_concat] at last
    exact Option.mem_some_iff.1 last ▸ by decide

end Segment.IsWritable

namespace Path

open Bracketing (outside)

variable {segments : List Segment}

theorem splitDots_written (writable : ∀ s ∈ segments, s.IsWritable) :
    splitDots outside (segments.flatMap fun s => '.' :: s.written) = [] :: segments.map Segment.written := by
  induction segments with
  | nil => rfl
  | cons s segments ih =>
    obtain ⟨head, tail⟩ := List.forall_mem_cons.1 writable
    rw [List.flatMap_cons, List.cons_append, splitDots_dot, head.onePiece.splitDots_append (ih tail), List.append_nil,
      List.map_cons]

/-- A text of segments starts with a dot and ends in no blank. -/
theorem dropEnds_written (writable : ∀ s ∈ segments, s.IsWritable) :
    Text.dropEnds Text.isBlank (segments.flatMap fun s => '.' :: s.written)
      = segments.flatMap fun s => '.' :: s.written := by
  apply Text.dropEnds_eq_self
  · cases segments with
    | nil => exact fun c hc => by cases hc
    | cons s segments => exact fun c hc => Option.mem_some_iff.1 hc ▸ by decide
  · rcases List.eq_nil_or_concat segments with rfl | ⟨init, s, rfl⟩
    · exact fun c hc => by cases hc
    · rw [List.concat_eq_append] at writable ⊢
      have last : s.IsWritable := writable s (by simp)
      obtain ⟨c, cs, some⟩ := List.exists_cons_of_ne_nil last.written_ne_nil
      have same : ((init ++ [s]).flatMap fun s => '.' :: s.written).getLast? = s.written.getLast? := by
        simp [some, List.getLast?_cons]
      rw [same]
      exact last.isBlank_of_mem_getLast?

/-- **The segments of a path are read back from its text**, and the text is kept. -/
theorem parse_written (writable : ∀ s ∈ segments, s.IsWritable) :
    parse (written segments) = ⟨written segments, segments⟩ := by
  have filled : (segments.map Segment.written).filter (· ≠ []) = segments.map Segment.written := by
    rw [List.filter_eq_self]
    intro piece made
    obtain ⟨s, member, rfl⟩ := List.mem_map.1 made
    exact decide_eq_true (writable s member).written_ne_nil
  have read : (segments.map Segment.written).map Segment.parse = segments := by
    rw [List.map_map]
    exact (List.map_congr_left fun s member => (writable s member).parse_eq).trans (List.map_id segments)
  rw [parse, written, String.toList_ofList, dropEnds_written writable, splitDots_written writable,
    List.filter_cons_of_neg (by simp), filled, read]

/-- Brackets and dots within quotes, brackets within brackets, and names that are empty or hold a closing bracket. -/
theorem parse_written_rows :
    let segments : List Segment := [⟨"rows", [".pick[0]", "\"a]b.\""]⟩, ⟨"", ["0"]⟩, ⟨"a]\x27", []⟩]
    (∀ s ∈ segments, s.IsWritable) ∧ parse ".rows[.pick[0]][\"a]b.\"].[0].a]\x27"
      = ⟨".rows[.pick[0]][\"a]b.\"].[0].a]\x27", segments⟩ := by
  intro segments
  have writable : ∀ s ∈ segments, s.IsWritable := by
    simp only [segments, List.forall_mem_cons]
    exact ⟨by decide, by decide, by decide, List.forall_mem_nil _⟩
  have text : written segments = ".rows[.pick[0]][\"a]b.\"].[0].a]\x27" := by decide
  have read := parse_written writable
  rw [text] at read
  exact ⟨writable, read⟩

end Path

end Stencil
