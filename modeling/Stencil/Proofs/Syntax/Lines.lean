import Mathlib
import Stencil.Proofs.Syntax.Slices

/-!
# Lines and columns

The scanner carries its location along, character by character. The location can also be found from its byte alone, with
a table of the bytes at which lines start: the line is searched by halving, and the column counts characters from the
start of the line on. Both agree wherever a character starts, and at the end of the source.

* `Location.ofByte`: the location of a byte, by a table of lines; `byteAt?`: the byte of a line and a column.
* `Location.ofByte_eq`, `seek_eq`: what they give where the scanner comes to.
* `Location.PointsInto`: a location that says where a character starts.
* `scan_pointsInto`: the locations of tokens do, errors included.
-/

namespace Stencil

/-! ## The starts of lines -/

/-- The bytes behind the line breaks of a text that has `offset` bytes in front of it. -/
def lineStartsFrom (offset : Nat) : List Char → List Nat
  | [] => []
  | c :: cs =>
    if c = '\n' then (offset + c.utf8Size) :: lineStartsFrom (offset + c.utf8Size) cs
    else lineStartsFrom (offset + c.utf8Size) cs

/-- The bytes at which the lines of a source start. -/
def lineStarts (source : String) : List Nat := 0 :: lineStartsFrom 0 source.toList

section Starts

variable (offset : Nat) (cs ds : List Char)

theorem lineStartsFrom_append : lineStartsFrom offset (cs ++ ds)
    = lineStartsFrom offset cs ++ lineStartsFrom (offset + String.utf8Len cs) ds := by
  induction cs generalizing offset with
  | nil => rfl
  | cons c cs ih =>
    have behind : offset + c.utf8Size + String.utf8Len cs = offset + String.utf8Len (c :: cs) := by
      rw [String.utf8Len_cons]
      omega
    simp only [List.cons_append, lineStartsFrom, ih, behind]
    split <;> rfl

theorem length_lineStartsFrom : (lineStartsFrom offset cs).length = cs.count '\n' := by
  induction cs generalizing offset with
  | nil => rfl
  | cons c cs ih =>
    rw [lineStartsFrom, List.count_cons]
    split
    · next newline => simp [ih, newline]
    · next other => simp [ih, other]

/-- Lines start behind the text in front, and not behind the text itself. -/
theorem mem_lineStartsFrom {offset : Nat} {cs : List Char} {start : Nat} (h : start ∈ lineStartsFrom offset cs) :
    offset < start ∧ start ≤ offset + String.utf8Len cs := by
  induction cs generalizing offset with
  | nil => cases h
  | cons c cs ih =>
    have positive := c.utf8Size_pos
    have later (h : start ∈ lineStartsFrom (offset + c.utf8Size) cs) :
        offset < start ∧ start ≤ offset + String.utf8Len (c :: cs) := by
      have := ih h
      rw [String.utf8Len_cons]
      omega
    rw [lineStartsFrom] at h
    split at h
    · rcases List.mem_cons.1 h with rfl | h
      · rw [String.utf8Len_cons]
        omega
      · exact later h
    · exact later h

/-- The last line of a text starts behind the other ones. -/
theorem getLast?_lineStarts :
    ∃ start, (0 :: lineStartsFrom 0 cs).getLast? = some start
      ∧ start + String.utf8Len (lastLine cs) = String.utf8Len cs := by
  induction cs using List.reverseRecOn with
  | nil => exact ⟨0, rfl, rfl⟩
  | append_singleton cs c ih =>
    obtain ⟨start, last, bytes⟩ := ih
    rw [lineStartsFrom_append, lastLine_concat, Nat.zero_add, ← List.cons_append, List.getLast?_append, last,
      String.utf8Len_append]
    by_cases newline : c = '\n'
    · exact ⟨String.utf8Len cs + c.utf8Size, by simp [lineStartsFrom, newline], by simp [newline]⟩
    · refine ⟨start, by simp [lineStartsFrom, newline], ?_⟩
      rw [if_neg newline, String.utf8Len_append]
      omega

end Starts

/-! ## Halving -/

/-- The first index from `lo` on at which `p` fails, or `hi`, if `p` does not hold again behind it. -/
def partitionPoint (p : Nat → Bool) (lo hi : Nat) : Nat :=
  if lo < hi then
    if p ((lo + hi) / 2) then partitionPoint p ((lo + hi) / 2 + 1) hi else partitionPoint p lo ((lo + hi) / 2)
  else lo
termination_by hi - lo

theorem partitionPoint_eq {p : Nat → Bool} {lo hi k : Nat} (low : lo ≤ k) (high : k ≤ hi)
    (split : ∀ i, lo ≤ i → i < hi → (p i = true ↔ i < k)) : partitionPoint p lo hi = k := by
  fun_induction partitionPoint p lo hi with
  | case1 lo hi more holds ih =>
    have := (split _ (by omega) (by omega)).1 holds
    exact ih (by omega) high fun i _ _ => split i (by omega) (by omega)
  | case2 lo hi more fails ih =>
    have := (split ((lo + hi) / 2) (by omega) (by omega)).not.1 fails
    exact ih low (by omega) fun i _ _ => split i (by omega) (by omega)
  | case3 lo hi done => omega

/-- Where numbers up to a limit are followed by greater ones, the greater ones begin at the partition point. -/
theorem partitionPoint_append {front rest : List Nat} {limit : Nat} (small : ∀ x ∈ front, x ≤ limit)
    (great : ∀ x ∈ rest, limit < x) :
    partitionPoint (fun i => (front ++ rest).getD i 0 ≤ limit) 0 (front ++ rest).length = front.length := by
  refine partitionPoint_eq (Nat.zero_le _) (by simp) fun i _ bound => ?_
  rw [List.length_append] at bound
  rw [decide_eq_true_eq, List.getD_eq_getElem?_getD]
  by_cases inside : i < front.length
  · rw [List.getElem?_append_left inside, List.getElem?_eq_getElem inside, Option.getD_some]
    exact iff_of_true (small _ (List.getElem_mem inside)) inside
  · have behind : i - front.length < rest.length := by omega
    rw [List.getElem?_append_right (by omega), List.getElem?_eq_getElem behind, Option.getD_some]
    have := great _ (List.getElem_mem behind)
    exact iff_of_false (by omega) inside

/-! ## The location of a byte -/

/-- The location of a byte. Its line is searched among the starts of lines; its column counts characters from there. -/
def Location.ofByte (source : String) (offset : Nat) : Location :=
  let starts := lineStarts source
  let line := partitionPoint (fun i => starts.getD i 0 ≤ offset) 0 starts.length
  ⟨line, (String.Pos.Raw.extract source ⟨starts.getD (line - 1) 0⟩ ⟨offset⟩).length + 1, offset⟩

/-- A text is what stands in front of its last line, and that. -/
theorem exists_lastLine (cs : List Char) : ∃ front, front ++ lastLine cs = cs :=
  ⟨cs.rdropWhile (· ≠ '\n'), by
    rw [lastLine, List.rdropWhile, ← List.reverse_append, List.takeWhile_append_dropWhile, List.reverse_reverse]⟩

theorem lineStarts_append (before after : List Char) : lineStarts (String.ofList (before ++ after))
    = (0 :: lineStartsFrom 0 before) ++ lineStartsFrom (String.utf8Len before) after := by
  rw [lineStarts, String.toList_ofList, lineStartsFrom_append, Nat.zero_add, List.cons_append]

/-- The location of the byte behind a text is where the scanner comes to behind it. -/
theorem Location.ofByte_eq (before after : List Char) :
    ofByte (String.ofList (before ++ after)) (String.utf8Len before) = origin.advance before := by
  obtain ⟨start, last, bytes⟩ := getLast?_lineStarts before
  have line : partitionPoint
      (fun i => (lineStarts (String.ofList (before ++ after))).getD i 0 ≤ String.utf8Len before) 0
      (lineStarts (String.ofList (before ++ after))).length = before.count '\n' + 1 := by
    rw [← length_lineStartsFrom 0 before, ← List.length_cons, lineStarts_append]
    refine partitionPoint_append (fun x hx => ?_) fun x hx => (mem_lineStartsFrom hx).1
    rcases List.mem_cons.1 hx with rfl | hx
    · exact Nat.zero_le _
    · simpa using (mem_lineStartsFrom hx).2
  have found : (lineStarts (String.ofList (before ++ after))).getD (before.count '\n') 0 = start := by
    have index : before.count '\n' = (0 :: lineStartsFrom 0 before).length - 1 := by
      rw [List.length_cons, length_lineStartsFrom, Nat.add_sub_cancel]
    rw [lineStarts_append, List.getD_eq_getElem?_getD, List.getElem?_append_left (by simp [length_lineStartsFrom]),
      index, ← List.getLast?_eq_getElem?, last, Option.getD_some]
  have column : (String.Pos.Raw.extract (String.ofList (before ++ after)) ⟨start⟩ ⟨String.utf8Len before⟩).length
      = (lastLine before).length := by
    obtain ⟨front, whole⟩ := exists_lastLine before
    have length : String.utf8Len front = start := by
      rw [← whole, String.utf8Len_append, whole] at bytes
      omega
    have slice := String.extract_of_valid front (lastLine before) after
    rw [whole, length, bytes] at slice
    rw [slice, String.length_ofList]
  rw [advance_origin]
  simp only [ofByte, line, Nat.add_sub_cancel, found, column, Nat.add_comm]

/-! ## The byte of a line and a column -/

/-- The bytes in front of a column of a line, both from 0. A line has a column for each character and one behind. -/
def seek : Nat → Nat → List Char → Option Nat
  | 0, 0, _ => some 0
  | _, _, [] => none
  | 0, column + 1, c :: cs => if c = '\n' then none else (seek 0 column cs).map (· + c.utf8Size)
  | line + 1, column, c :: cs => (seek (if c = '\n' then line else line + 1) column cs).map (· + c.utf8Size)

/-- The byte of a line and a column of a source, both from 1. -/
def byteAt? (source : String) : Nat → Nat → Option Nat
  | line + 1, column + 1 => seek line column source.toList
  | _, _ => none

/-- A text goes on in the last line of what stands in front of it, unless it has a line break. -/
theorem lastLine_append (cs ds : List Char) :
    lastLine (cs ++ ds) = if '\n' ∈ ds then lastLine ds else lastLine cs ++ ds := by
  induction ds using List.reverseRecOn with
  | nil => simp
  | append_singleton ds d ih =>
    rw [← List.append_assoc, lastLine_concat, lastLine_concat, ih]
    by_cases newline : d = '\n'
    · simp [newline]
    · by_cases inside : '\n' ∈ ds
      · simp [newline, inside]
      · simp [newline, inside, Ne.symm newline]

/-- A line and a column lead to the end of the text whose last line and column they are. -/
theorem seek_eq (before after : List Char) :
    seek (before.count '\n') (lastLine before).length (before ++ after) = some (String.utf8Len before) := by
  induction before with
  | nil => simp [seek, lastLine]
  | cons c cs ih =>
    have last := lastLine_append [c] cs
    rw [List.singleton_append] at last
    by_cases later : '\n' ∈ cs
    · -- The end is on a later line than the first character.
      obtain ⟨n, lines⟩ : ∃ n, cs.count '\n' = n + 1 :=
        Nat.exists_eq_succ_of_ne_zero (List.count_pos_iff.2 later).ne'
      rw [last, if_pos later, List.cons_append]
      by_cases newline : c = '\n'
      · rw [newline, List.count_cons_self, lines, seek, if_pos rfl, ← lines, ih]
        rfl
      · rw [List.count_cons_of_ne newline, lines, seek, if_neg newline, ← lines, ih]
        rfl
    · have none' : cs.count '\n' = 0 := List.count_eq_zero.2 later
      have own : lastLine cs = cs := by simpa [later, lastLine] using lastLine_append [] cs
      rw [own, none'] at ih
      rw [last, if_neg later, List.cons_append]
      by_cases newline : c = '\n'
      · rw [newline, List.count_cons_self, none', seek, if_pos rfl]
        show (seek 0 cs.length (cs ++ after)).map _ = _
        rw [ih]
        rfl
      · have first : lastLine [c] = [c] := by simp [lastLine, newline]
        rw [first, List.count_cons_of_ne newline, none', List.singleton_append, List.length_cons, seek,
          if_neg newline, ih]
        rfl

/-! ## The locations of tokens -/

/-- A location that says where in a source a character starts, or where the source ends. -/
structure Location.PointsInto (l : Location) (source : String) : Prop where
  /-- The byte is the first one of a character, or behind the last one. -/
  boundary : String.Pos.Raw.IsValid source ⟨l.offset⟩
  within : l.offset ≤ source.utf8ByteSize
  /-- Lines and columns count line breaks and characters in front of the byte. -/
  counts : ∃ before after, source = before ++ after ∧ before.utf8ByteSize = l.offset
    ∧ l.line = before.toList.count '\n' + 1 ∧ l.column = (lastLine before.toList).length + 1
  /-- The location is found from its byte. -/
  ofByte : .ofByte source l.offset = l
  /-- The byte is found from its line and column. -/
  byteAt : byteAt? source l.line l.column = some l.offset

theorem Location.pointsInto_advance {source : String} {before after : List Char}
    (split : source.toList = before ++ after) : (origin.advance before).PointsInto source := by
  obtain rfl : source = String.ofList (before ++ after) := by rw [← split, String.ofList_toList]
  have bytes : (origin.advance before).offset = String.utf8Len before := by rw [advance_origin]
  have boundary : String.Pos.Raw.IsValid (String.ofList (before ++ after)) ⟨(origin.advance before).offset⟩ :=
    String.Pos.Raw.isValid_iff_exists_append.2
      ⟨.ofList before, .ofList after, String.ofList_append, by rw [bytes, String.rawEndPos_ofList]⟩
  refine ⟨boundary, boundary.le_utf8ByteSize, ⟨.ofList before, .ofList after, String.ofList_append, ?_, ?_, ?_⟩, ?_, ?_⟩
  · rw [bytes, String.utf8ByteSize_ofList]
  · rw [String.toList_ofList, advance_origin]
    exact Nat.add_comm ..
  · rw [String.toList_ofList, advance_origin]
    exact Nat.add_comm ..
  · rw [bytes]
    exact ofByte_eq before after
  · rw [advance_origin, Nat.add_comm 1, Nat.add_comm 1, byteAt?, String.toList_ofList]
    exact seek_eq before after

/-- **The location of every token of a scan says where it starts**, and that of an error where it is met. -/
theorem scan_pointsInto {source : String} {t : Token} (h : t ∈ scan source) : t.location.PointsInto source := by
  have cut := cut_scan source
  generalize scan source = ts at cut h
  cases cut with
  | whole pieces =>
    obtain ⟨-, -, before, after, split, place⟩ := pieces.slice t h
    rw [place]
    exact Location.pointsInto_advance split
  | @fault front skipped behind ts f text pieces =>
    rcases List.mem_append.1 h with h | h
    · obtain ⟨-, -, before, after, split, place⟩ := pieces.slice t h
      have whole : source.toList = before ++ (t.text.toList ++ after ++ (skipped ++ behind)) := by
        rw [text, split]
        simp only [List.append_assoc]
      rw [place]
      exact Location.pointsInto_advance whole
    · have whole : source.toList = (front ++ skipped) ++ behind := by rw [text, List.append_assoc]
      rw [List.mem_singleton.1 h]
      show ((Location.origin.advance front).advance skipped).PointsInto source
      rw [← Location.advance_append]
      exact Location.pointsInto_advance whole

/-- An error behind letters of several bytes, on the second line. -/
theorem scan_pointsInto_error :
    ⟨.error, "Error after model key at position 13", ⟨2, 8, 13⟩⟩ ∈ scan "é\r\n€ \x7b\x7b .x"
      ∧ Location.PointsInto ⟨2, 8, 13⟩ "é\r\n€ \x7b\x7b .x" := by
  have scanned : scan "é\r\n€ \x7b\x7b .x" = [⟨.text, "é\r\n€ ", ⟨1, 1, 0⟩⟩, ⟨.parameter, ".x", ⟨2, 6, 11⟩⟩,
      ⟨.error, "Error after model key at position 13", ⟨2, 8, 13⟩⟩] := by cbv
  have member : ⟨.error, "Error after model key at position 13", ⟨2, 8, 13⟩⟩ ∈ scan "é\r\n€ \x7b\x7b .x" := by
    rw [scanned]
    simp
  exact ⟨member, scan_pointsInto member⟩

end Stencil
