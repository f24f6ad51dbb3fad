import Mathlib
import Stencil.Files.FileTree
import Stencil.Loader

/-!
# Loading stays below the root

A name of a template is a list of segments with separators between them, and possibly one in front and one behind
(`IsTemplateName`). The names that are accepted are exactly these (`nameFault?_eq_none_iff`); the path of such a name is
the root with its segments, which are plain names (`Loader.path_names`), so that nothing in a name leads upwards. Links
may lead elsewhere, and are found out by the check of the canonical path.

* `Loader.load_confined`: all of this, and that what is loaded depends on nothing that stands outside the root.
-/

namespace Stencil

/-! ## Pieces between separators -/

namespace Text

theorem pieces_eq_splitOn (separator : Char) (cs : List Char) : pieces separator cs = cs.splitOn separator := by
  induction cs with
  | nil => rfl
  | cons c cs ih =>
    rw [pieces, List.splitOn_cons_eq_if_modifyHead, ← ih]
    by_cases h : c = separator
    · simp [h]
    · simp only [h, if_false, beq_iff_eq]
      cases hp : pieces separator cs with
      | nil => exact absurd hp (pieces_ne_nil separator cs)
      | cons piece rest => rfl

theorem exists_pieces_cons {separator c : Char} (h : c ≠ separator) (cs : List Char) :
    ∃ piece rest, pieces separator cs = piece :: rest ∧ pieces separator (c :: cs) = (c :: piece) :: rest := by
  cases hp : pieces separator cs with
  | nil => exact absurd hp (pieces_ne_nil separator cs)
  | cons piece rest => exact ⟨piece, rest, rfl, by simp [pieces, h, hp]⟩

end Text

/-- A character is nowhere doubled exactly if no piece between two others is empty. -/
theorem isDoubled_eq_false_iff (c : Char) (cs : List Char) :
    isDoubled c cs = false ↔ ∀ p ∈ (Text.pieces c cs).tail.dropLast, p ≠ [] := by
  induction cs with
  | nil => simp [isDoubled, Text.pieces]
  | cons a cs ih =>
    cases cs with
    | nil =>
      by_cases ha : a = c
      · simp [isDoubled, Text.pieces, ha]
      · simp [isDoubled, Text.pieces, ha]
    | cons b rest =>
      by_cases ha : a = c
      · subst ha
        have first : Text.pieces a (a :: b :: rest) = [] :: Text.pieces a (b :: rest) := by simp [Text.pieces]
        rw [first, List.tail_cons]
        by_cases hb : b = a
        · -- The piece between the two is empty.
          subst hb
          have second : Text.pieces b (b :: rest) = [] :: Text.pieces b rest := by simp [Text.pieces]
          rw [second, List.dropLast_cons_of_ne_nil (Text.pieces_ne_nil b rest)]
          simp [isDoubled]
        · obtain ⟨piece, more, -, second⟩ := Text.exists_pieces_cons hb rest
          rw [second] at ih ⊢
          have same : isDoubled a (a :: b :: rest) = isDoubled a (b :: rest) := by simp [isDoubled, hb]
          rw [same, ih, List.tail_cons]
          cases more with
          | nil => simp
          | cons next more => simp
      · obtain ⟨piece, more, second, first⟩ := Text.exists_pieces_cons ha (b :: rest)
        have same : isDoubled c (a :: b :: rest) = isDoubled c (b :: rest) := by simp [isDoubled, ha]
        rw [first, same, ih, second, List.tail_cons, List.tail_cons]

theorem isDoubled_eq_false_of_notMem {c : Char} {cs : List Char} (h : c ∉ cs) : isDoubled c cs = false := by
  rw [isDoubled_eq_false_iff, Text.pieces_eq_splitOn, List.splitOn_eq_singleton h]
  simp

theorem Text.mem_pieces (separator : Char) {c : Char} {cs : List Char} (h : c ∈ cs) :
    c = separator ∨ ∃ p ∈ pieces separator cs, c ∈ p := by
  induction cs with
  | nil => cases h
  | cons a cs ih =>
    by_cases ha : a = separator
    · rcases List.mem_cons.1 h with rfl | h
      · exact .inl ha
      · rcases ih h with same | ⟨p, hp, hc⟩
        · exact .inl same
        · exact .inr ⟨p, by simp [pieces, ha, hp], hc⟩
    · obtain ⟨piece, rest, before, after⟩ := exists_pieces_cons ha cs
      rw [after]
      rw [before] at ih
      rcases List.mem_cons.1 h with rfl | h
      · exact .inr ⟨_, List.mem_cons_self, List.mem_cons_self⟩
      · rcases ih h with same | ⟨p, hp, hc⟩
        · exact .inl same
        · rcases List.mem_cons.1 hp with rfl | hp
          · exact .inr ⟨_, List.mem_cons_self, List.mem_cons_of_mem a hc⟩
          · exact .inr ⟨p, List.mem_cons_of_mem _ hp, hc⟩

/-! ## Names of templates -/

/-- A segment: a letter, a digit or `_`, and then letters, digits, `_` and `-`. -/
inductive IsSegment : List Char → Prop where
  | mk {c : Char} {cs : List Char} (first : Text.isAlphanumeric c = true ∨ c = '_')
      (rest : ∀ d ∈ cs, Text.isAlphanumeric d = true ∨ d = '_' ∨ d = '-') : IsSegment (c :: cs)

/-- How segments are written as a name: with a separator between them, and possibly one in front and one behind. -/
structure IsTemplateName (segments : List (List Char)) (name : String) : Prop where
  nonempty : segments ≠ []
  valid : ∀ s ∈ segments, IsSegment s
  written : ∃ front back, (front = [] ∨ front = ['/']) ∧ (back = [] ∨ back = ['/'])
    ∧ name.toList = front ++ ['/'].intercalate segments ++ back

theorem isNamePart_iff {part : List Char} : isNamePart part = true ↔ IsSegment part := by
  constructor
  · intro h
    cases part with
    | nil => cases h
    | cons c cs =>
      simp only [isNamePart, isNameStart, Bool.and_eq_true, Bool.or_eq_true, beq_iff_eq, List.all_eq_true] at h
      exact .mk h.1 fun d hd => or_assoc.1 (h.2 d hd)
  · rintro ⟨first, rest⟩
    simp only [isNamePart, isNameStart, Bool.and_eq_true, Bool.or_eq_true, beq_iff_eq, List.all_eq_true]
    exact ⟨first, fun d hd => or_assoc.2 (rest d hd)⟩

namespace IsSegment

variable {s : List Char}

theorem ne_nil (h : IsSegment s) : s ≠ [] := by
  cases h
  exact List.cons_ne_nil _ _

theorem mem (h : IsSegment s) {d : Char} (hd : d ∈ s) : Text.isAlphanumeric d = true ∨ d = '_' ∨ d = '-' := by
  obtain ⟨first, rest⟩ := h
  rcases List.mem_cons.1 hd with rfl | hd
  · exact first.imp_right .inl
  · exact rest d hd

/-- The characters that lead out of a directory are in no segment. -/
theorem notMem (h : IsSegment s) {d : Char} (hd : d = '/' ∨ d = '.' ∨ d = '\\' ∨ d = ':') : d ∉ s := by
  intro mem
  have allowed := h.mem mem
  rcases hd with rfl | rfl | rfl | rfl <;> revert allowed <;> decide

end IsSegment

namespace IsTemplateName

variable {segments : List (List Char)} {name : String}

/-- The pieces of a name are its segments, and an empty piece for a separator in front or behind. -/
theorem pieces_eq (h : IsTemplateName segments name) :
    ∃ front back, (front = [] ∨ front = [[]]) ∧ (back = [] ∨ back = [[]])
      ∧ Text.pieces '/' name.toList = front ++ segments ++ back := by
  have free : ∀ s ∈ segments, '/' ∉ s := fun s hs => (h.valid s hs).notMem (.inl rfl)
  have inner : (['/'].intercalate segments).splitOn '/' = segments := List.splitOn_intercalate '/' free h.nonempty
  have behind : (['/'].intercalate segments ++ ['/']).splitOn '/' = segments ++ [[]] := by
    rw [List.splitOn_append_cons_self, inner]
    rfl
  obtain ⟨front, back, hf, hb, written⟩ := h.written
  rw [written, Text.pieces_eq_splitOn]
  rcases hf with rfl | rfl <;> rcases hb with rfl | rfl
  · exact ⟨[], [], .inl rfl, .inl rfl, by simpa using inner⟩
  · exact ⟨[], [[]], .inl rfl, .inr rfl, by simpa using behind⟩
  · exact ⟨[[]], [], .inr rfl, .inl rfl, by simpa [List.splitOn_cons_eq_if_modifyHead] using inner⟩
  · exact ⟨[[]], [[]], .inr rfl, .inr rfl, by simpa [List.splitOn_cons_eq_if_modifyHead] using behind⟩

theorem exists_concat (h : IsTemplateName segments name) : ∃ init last, segments = init ++ [last] := by
  rcases List.eq_nil_or_concat segments with none' | ⟨init, last, rfl⟩
  · exact absurd none' h.nonempty
  · exact ⟨init, last, List.concat_eq_append⟩

theorem nameParts_eq (h : IsTemplateName segments name) : nameParts name = segments.map String.ofList := by
  obtain ⟨front, back, hf, hb, pieces⟩ := h.pieces_eq
  have kept : segments.filter (fun p => !p.isEmpty) = segments :=
    List.filter_eq_self.2 fun s hs => by simpa using (h.valid s hs).ne_nil
  have dropped {edge : List (List Char)} (he : edge = [] ∨ edge = [[]]) : edge.filter (fun p => !p.isEmpty) = [] := by
    rcases he with rfl | rfl <;> rfl
  rw [nameParts, Text.names, pieces, List.filter_append, List.filter_append, dropped hf, dropped hb, kept]
  simp

theorem mem (h : IsTemplateName segments name) {c : Char} (hc : c ∈ name.toList) : c = '/' ∨ ∃ s ∈ segments, c ∈ s := by
  obtain ⟨front, back, hf, hb, pieces⟩ := h.pieces_eq
  rcases Text.mem_pieces '/' hc with same | ⟨p, hp, hcp⟩
  · exact .inl same
  · have edge {e : List (List Char)} (he : e = [] ∨ e = [[]]) (hpe : p ∈ e) : False := by
      rcases he with rfl | rfl
      · cases hpe
      · rw [List.mem_singleton.1 hpe] at hcp
        cases hcp
    rw [pieces, List.mem_append, List.mem_append] at hp
    rcases hp with (hp | hp) | hp
    · exact (edge hf hp).elim
    · exact .inr ⟨p, hp, hcp⟩
    · exact (edge hb hp).elim

/-- No separator follows another one. -/
theorem isDoubled_slash (h : IsTemplateName segments name) : isDoubled '/' name.toList = false := by
  obtain ⟨front, back, hf, hb, pieces⟩ := h.pieces_eq
  have inner {p : List Char} (hp : p ∈ (segments ++ back).dropLast) : p ∈ segments := by
    rcases hb with rfl | rfl
    · exact (List.dropLast_sublist _).subset (by simpa using hp)
    · simpa using hp
  rw [isDoubled_eq_false_iff, pieces, List.append_assoc]
  intro p hp
  refine (h.valid p ?_).ne_nil
  rcases hf with rfl | rfl
  · rw [List.nil_append, ← List.tail_dropLast] at hp
    exact inner (List.mem_of_mem_tail hp)
  · exact inner hp

end IsTemplateName

/-- Pieces of which none between two others is empty are segments, with an empty piece in front and behind at most. -/
theorem exists_edges {parts : List (List Char)} (inner : ∀ p ∈ parts.tail.dropLast, p ≠ []) :
    ∃ front back, (front = [] ∨ front = [[]]) ∧ (back = [] ∨ back = [[]])
      ∧ parts = front ++ parts.filter (fun p => !p.isEmpty) ++ back := by
  have behind (ps : List (List Char)) (h : ∀ p ∈ ps.dropLast, p ≠ []) : ∃ back, (back = [] ∨ back = [[]])
      ∧ ps = ps.filter (fun p => !p.isEmpty) ++ back := by
    rcases List.eq_nil_or_concat ps with rfl | ⟨init, last, rfl⟩
    · exact ⟨[], .inl rfl, rfl⟩
    · have kept : init.filter (fun p => !p.isEmpty) = init :=
        List.filter_eq_self.2 fun p hp => by simpa using h p (by simpa using hp)
      rw [List.concat_eq_append, List.filter_append, kept]
      cases last with
      | nil => exact ⟨[[]], .inr rfl, by simp⟩
      | cons c cs => exact ⟨[], .inl rfl, by simp⟩
  cases parts with
  | nil => exact ⟨[], [], .inl rfl, .inl rfl, rfl⟩
  | cons p rest =>
    cases p with
    | nil =>
      obtain ⟨back, hb, same⟩ := behind rest inner
      refine ⟨[[]], back, .inr rfl, hb, ?_⟩
      rw [List.filter_cons_of_neg (by simp), List.append_assoc, ← same]
      rfl
    | cons c cs =>
      obtain ⟨back, hb, same⟩ := behind ((c :: cs) :: rest) (by
        intro p hp
        cases rest with
        | nil => cases hp
        | cons q rest =>
          rcases List.mem_cons.1 hp with rfl | hp
          · exact List.cons_ne_nil c cs
          · exact inner p hp)
      exact ⟨[], back, .inl rfl, hb, same⟩

/-- Empty pieces in front and behind are written as separators. -/
theorem intercalate_edges {front back segments : List (List Char)} (hf : front = [] ∨ front = [[]])
    (hb : back = [] ∨ back = [[]]) (nonempty : segments ≠ []) :
    ∃ before after, (before = [] ∨ before = ['/']) ∧ (after = [] ∨ after = ['/'])
      ∧ ['/'].intercalate (front ++ segments ++ back) = before ++ ['/'].intercalate segments ++ after := by
  have behind : ['/'].intercalate (segments ++ [[]]) = ['/'].intercalate segments ++ ['/'] := by
    induction segments with
    | nil => exact absurd rfl nonempty
    | cons s rest ih =>
      cases rest with
      | nil => simp
      | cons t rest =>
        have ih := ih (List.cons_ne_nil t rest)
        simp only [List.cons_append, List.intercalate_cons_cons, List.append_assoc] at ih ⊢
        rw [ih]
  have ahead (ps : List (List Char)) (h : ps ≠ []) : ['/'].intercalate ([] :: ps) = '/' :: ['/'].intercalate ps := by
    cases ps with
    | nil => exact absurd rfl h
    | cons p ps => simp [List.intercalate_cons_cons]
  rcases hf with rfl | rfl <;> rcases hb with rfl | rfl
  · exact ⟨[], [], .inl rfl, .inl rfl, by simp⟩
  · exact ⟨[], ['/'], .inl rfl, .inr rfl, by simpa using behind⟩
  · exact ⟨['/'], [], .inr rfl, .inl rfl, by simpa using ahead segments nonempty⟩
  · refine ⟨['/'], ['/'], .inr rfl, .inr rfl, ?_⟩
    have joined := ahead (segments ++ [[]]) (by simp)
    rw [behind] at joined
    simpa using joined

/-- **The names of templates** are segments with single separators between them. -/
theorem nameFault?_eq_none_iff {name : String} : nameFault? name = none ↔ ∃ segments, IsTemplateName segments name := by
  constructor
  · intro h
    simp only [nameFault?] at h
    split at h
    · cases h
    next sound =>
    split at h
    · cases h
    next some' =>
    simp only [Bool.or_eq_true, not_or, Bool.not_eq_true] at sound
    obtain ⟨front, back, hf, hb, parts⟩ := exists_edges ((isDoubled_eq_false_iff '/' name.toList).1 sound.1.1.2)
    have nonempty : (Text.pieces '/' name.toList).filter (fun p => !p.isEmpty) ≠ [] := by
      intro none'
      exact some' (by simp [nameParts, Text.names, none'])
    refine ⟨(Text.pieces '/' name.toList).filter (fun p => !p.isEmpty), nonempty, ?_, ?_⟩
    · intro s hs
      rw [Option.map_eq_none_iff, List.find?_eq_none] at h
      have part := h (String.ofList s) (List.mem_map_of_mem hs)
      rw [String.toList_ofList] at part
      exact isNamePart_iff.1 (by simpa using part)
    · obtain ⟨before, after, hbefore, hafter, joined⟩ := intercalate_edges hf hb nonempty
      exact ⟨before, after, hbefore, hafter, by rw [← joined, ← parts, Text.join_pieces]⟩
  · rintro ⟨segments, h⟩
    have absent {c : Char} (hc : c = '/' ∨ c = '.' ∨ c = '\\' ∨ c = ':') (other : c ≠ '/') : c ∉ name.toList := by
      intro mem
      rcases h.mem mem with same | ⟨s, hs, hcs⟩
      · exact other same
      · exact (h.valid s hs).notMem hc hcs
    have dots : isDoubled '.' name.toList = false := isDoubled_eq_false_of_notMem (absent (by simp) (by decide))
    have backslash : name.toList.contains '\\' = false := by simpa using absent (c := '\\') (by simp) (by decide)
    have colon : name.toList.contains ':' = false := by simpa using absent (c := ':') (by simp) (by decide)
    have parts : nameParts name ≠ [] := by simpa [h.nameParts_eq] using h.nonempty
    simp only [nameFault?, dots, h.isDoubled_slash, backslash, colon, Bool.or_self, Bool.false_eq_true, if_false, parts]
    rw [Option.map_eq_none_iff, List.find?_eq_none]
    intro part hp
    rw [h.nameParts_eq] at hp
    obtain ⟨s, hs, rfl⟩ := List.mem_map.1 hp
    simp [isNamePart_iff.2 (h.valid s hs)]

/-! ## Paths -/

/-- A name that leads to an entry of a directory, and neither upwards nor further down. -/
structure IsPlain (name : String) : Prop where
  nonempty : name ≠ ""
  notSelf : name ≠ "."
  notParent : name ≠ ".."
  separatorFree : '/' ∉ name.toList

namespace Loader

variable {l : Loader} {fs : FileSystem} {name : String} {segments : List (List Char)}

/-- The name of the file whose segment is the last one of a name. -/
def fileName (l : Loader) (segment : List Char) : String :=
  if l.extension = "" then String.ofList segment else String.ofList segment ++ "." ++ l.extension

theorem extend_concat (extension : String) (names : List String) (last : String) :
    extend extension (names ++ [last]) = names ++ [if extension = "" then last else last ++ "." ++ extension] := by
  induction names with
  | nil => rfl
  | cons n ns ih =>
    cases ns with
    | nil => rfl
    | cons m ms =>
      simp only [List.cons_append, extend] at ih ⊢
      rw [ih]

/-- The path of a name is the root with the segments of the name. -/
theorem path_names {init : List (List Char)} {last : List Char} (h : IsTemplateName (init ++ [last]) name) :
    (l.path name).names = l.root.names ++ (init.map String.ofList ++ [l.fileName last]) := by
  rw [path, h.nameParts_eq, List.map_append, List.map_singleton, extend_concat]
  rfl

theorem isPlain_segment {s : List Char} (h : IsSegment s) : IsPlain (String.ofList s) := by
  have dot : '.' ∉ s := h.notMem (.inr (.inl rfl))
  have ne {text : String} (ht : '.' ∈ text.toList) : String.ofList s ≠ text := by
    rintro rfl
    exact dot (by simpa using ht)
  refine ⟨?_, ne (by decide), ne (by decide), by simpa using h.notMem (.inl rfl)⟩
  intro same
  exact h.ne_nil (by simpa using congrArg String.toList same)

theorem isPlain_fileName {s : List Char} (plain : IsSegment s) (separatorFree : '/' ∉ l.extension.toList) :
    IsPlain (l.fileName s) := by
  unfold fileName
  split
  · exact isPlain_segment plain
  · obtain ⟨c, cs, rfl⟩ := List.exists_cons_of_ne_nil plain.ne_nil
    -- The first character is that of the segment, which is no point.
    have start : c ≠ '.' := by
      rintro rfl
      exact plain.notMem (.inr (.inl rfl)) List.mem_cons_self
    have text : (String.ofList (c :: cs) ++ "." ++ l.extension).toList = c :: cs ++ '.' :: l.extension.toList := by simp
    have ne {other : String} (ho : other.toList.head? ≠ some c) :
        String.ofList (c :: cs) ++ "." ++ l.extension ≠ other := by
      rintro rfl
      rw [text] at ho
      exact ho rfl
    refine ⟨ne (by simp), ne (by simp [start.symm]), ne (by simp [start.symm]), ?_⟩
    rw [text]
    intro mem
    rcases List.mem_append.1 mem with mem | mem
    · exact plain.notMem (.inl rfl) mem
    · rcases List.mem_cons.1 mem with same | mem
      · cases same
      · exact separatorFree mem

theorem fileName_injective {s t : List Char} (h : l.fileName s = l.fileName t) : s = t := by
  unfold fileName at h
  split at h
  · simpa using congrArg String.toList h
  · simpa using congrArg String.toList h

/-- Names with the same path have the same segments. -/
theorem path_eq_iff {other : String} {segments' : List (List Char)} (h : IsTemplateName segments name)
    (h' : IsTemplateName segments' other) : l.path name = l.path other ↔ segments = segments' := by
  obtain ⟨init, last, rfl⟩ := h.exists_concat
  obtain ⟨init', last', rfl⟩ := h'.exists_concat
  have same : l.path name = l.path other ↔ (l.path name).names = (l.path other).names := by
    cases l.path name
    cases l.path other
    simp
  rw [same, path_names h, path_names h', List.append_cancel_left_eq]
  constructor
  · intro equal
    obtain ⟨inits, lasts⟩ := List.append_inj' equal rfl
    have first : init = init' := (List.map_inj_right fun _ _ => String.ofList_injective).1 inits
    rw [first, fileName_injective (List.singleton_inj.1 lasts)]
  · intro equal
    obtain ⟨rfl, lasts⟩ := List.append_inj' equal rfl
    rw [List.singleton_inj.1 lasts]

end Loader

/-! ## Reading -/

namespace FileSystem

variable {fs fs' : FileSystem} {p place : AbsolutePath}

/-- A path that leads to something settles there. -/
theorem settle_of_canonicalize (h : fs.canonicalize p = .ok place) : fs.settle p = .ok place := by
  have whole : fs.has ⟨p.names.take p.names.length⟩ = true := by
    rw [List.take_length, has, h]
    rfl
  have longest : ((List.range (p.names.length + 1)).reverse.find? fun n => fs.has ⟨p.names.take n⟩)
      = some p.names.length := by
    rw [List.range_succ, List.reverse_append, List.reverse_singleton, List.singleton_append]
    exact List.find?_cons_of_pos whole
  have split : fs.splitExisting p = (p, []) := by
    simp only [splitExisting, longest, Option.getD_some, List.take_length, List.drop_length]
  rw [settle, split]
  simp [h, bind, Except.bind, pure, Except.pure]

/-- Where a path settles depends on the links alone. -/
theorem settle_congr (links : fs'.canonicalize = fs.canonicalize) (p : AbsolutePath) : fs'.settle p = fs.settle p := by
  simp only [settle, splitExisting, has, links]

theorem node_congr (links : fs'.canonicalize = fs.canonicalize)
    (same : ∀ place, fs.canonicalize p = .ok place → fs'.nodes.lookup place = fs.nodes.lookup place) :
    fs'.node p = fs.node p := by
  unfold node
  rw [links]
  cases h : fs.canonicalize p with
  | error fault => rfl
  | ok place =>
    simp only [bind, Except.bind]
    rw [same place h]

theorem node_of_canonicalize (found : fs.canonicalize p = .ok place) :
    fs.node p = match fs.nodes.lookup place with
      | some n => .ok n
      | none => .error .notFound := by
  simp only [node, found, bind, Except.bind]
  cases fs.nodes.lookup place <;> rfl

theorem exists_file_of_isFile (h : fs.isFile p = true) :
    ∃ place bytes, fs.canonicalize p = .ok place ∧ fs.nodes.lookup place = some (.file bytes) := by
  unfold isFile at h
  cases found : fs.canonicalize p with
  | error fault => simp [node, found, bind, Except.bind] at h
  | ok place =>
    rw [node_of_canonicalize found] at h
    cases stands : fs.nodes.lookup place with
    | none => simp [stands] at h
    | some n =>
      cases n with
      | directory => simp [stands] at h
      | file bytes => exact ⟨place, bytes, rfl, stands⟩

theorem read_of_file {bytes : ByteArray} (found : fs.canonicalize p = .ok place)
    (stands : fs.nodes.lookup place = some (.file bytes)) : fs.read p = decode bytes := by
  simp only [read, node_of_canonicalize found, stands, bind, Except.bind]

theorem isFile_congr (same : fs'.node p = fs.node p) : fs'.isFile p = fs.isFile p := by
  unfold isFile
  rw [same]

theorem read_congr (same : fs'.node p = fs.node p) : fs'.read p = fs.read p := by
  unfold read
  rw [same]

end FileSystem

namespace Loader

variable {l : Loader} {fs fs' : FileSystem} {name : String}

theorem check_congr (links : fs'.canonicalize = fs.canonicalize) (p : AbsolutePath) : l.check fs' p = l.check fs p := by
  simp only [check, FileSystem.settle_congr links]

theorem source_eq (l : Loader) (fs : FileSystem) (name : String) :
    l.source fs name = match l.check fs (l.path name) with
      | .error e => .error e
      | .ok () =>
        if fs.isFile (l.path name) then (fs.read (l.path name)).mapError .file
        else .error (.load (.noFile name (l.path name).text)) := by
  simp only [source, bind, Except.bind]
  cases l.check fs (l.path name) with
  | error e => rfl
  | ok =>
    cases fs.isFile (l.path name) with
    | false => rfl
    | true =>
      cases fs.read (l.path name) <;> rfl

/-- The source of a name depends on what stands below the root alone. -/
theorem source_congr (links : fs'.canonicalize = fs.canonicalize)
    (inside : ∀ place, place.isWithin l.root = true → fs'.nodes.lookup place = fs.nodes.lookup place) :
    l.source fs' name = l.source fs name := by
  rw [source_eq, source_eq, check_congr links]
  cases checked : l.check fs (l.path name) with
  | error e => rfl
  | ok =>
    have same : fs'.node (l.path name) = fs.node (l.path name) := by
      refine FileSystem.node_congr links fun place found => inside place ?_
      simp only [check, FileSystem.settle_of_canonicalize found] at checked
      split at checked
      · assumption
      · cases checked
    rw [FileSystem.isFile_congr same, FileSystem.read_congr same]

/-- A source is refused, or it is read from a file that stands below the root. -/
theorem source_cases (l : Loader) (fs : FileSystem) (name : String) :
    (∃ fault, l.source fs name = .error (.load fault))
    ∨ ∃ place bytes, fs.canonicalize (l.path name) = .ok place ∧ place.isWithin l.root = true
      ∧ fs.nodes.lookup place = some (.file bytes)
      ∧ l.source fs name = (FileSystem.decode bytes).mapError .file := by
  rw [source_eq]
  cases checked : l.check fs (l.path name) with
  | error e =>
    left
    unfold check at checked
    split at checked
    · cases checked
      exact ⟨_, rfl⟩
    · split at checked
      · cases checked
      · cases checked
        exact ⟨_, rfl⟩
  | ok =>
    cases isFile : fs.isFile (l.path name) with
    | false => exact .inl ⟨_, rfl⟩
    | true =>
      right
      obtain ⟨place, bytes, found, stands⟩ := FileSystem.exists_file_of_isFile isFile
      refine ⟨place, bytes, found, ?_, stands, ?_⟩
      · simp only [check, FileSystem.settle_of_canonicalize found] at checked
        split at checked
        · assumption
        · cases checked
      · simp only [if_true, FileSystem.read_of_file found stands]

/-- A path that a link leads elsewhere is refused. -/
theorem source_of_outside {place : AbsolutePath} (found : fs.canonicalize (l.path name) = .ok place)
    (outside : place.isWithin l.root = false) :
    l.source fs name = .error (.load (.outsideRoot (l.path name).text)) := by
  rw [source_eq]
  simp [check, FileSystem.settle_of_canonicalize found, outside]

theorem canonicalize_of_of? {root : AbsolutePath} (h : of? fs root = .ok l) : fs.canonicalize root = .ok l.root := by
  unfold of? at h
  split at h
  · next found =>
    cases h
    exact found
  · cases h

/-- An uncached load of an accepted name reads the source of the name. -/
theorem load_eq (accepted : nameFault? name = none) (uncached : l.cache.lookup name = none) :
    (l.load fs name).1 = (l.read fs name).1 := by
  unfold load
  simp only [accepted, uncached]
  rcases l.read fs name with ⟨_ | _, events⟩ <;> rfl

/-- **Loading stays below the root.** -/
theorem load_confined {l₀ : Loader} {root : AbsolutePath} (made : of? fs root = .ok l₀) (rooted : l.root = l₀.root)
    (separatorFree : '/' ∉ l.extension.toList) :
    fs.canonicalize root = .ok l.root
    ∧ (∀ name, nameFault? name = none ↔ ∃ segments, IsTemplateName segments name)
    ∧ (∀ name segments, IsTemplateName segments name → ∃ init last, segments = init ++ [last]
        ∧ (l.path name).names = l.root.names ++ (init.map String.ofList ++ [l.fileName last])
        ∧ ∀ component ∈ init.map String.ofList ++ [l.fileName last], IsPlain component)
    ∧ (∀ name segments other segments', IsTemplateName segments name → IsTemplateName segments' other →
        (l.path name = l.path other ↔ segments = segments'))
    ∧ (∀ name, l.cache.lookup name = none →
        (∃ fault, (l.load fs name).1 = .error (.load fault))
        ∨ ∃ place bytes, fs.canonicalize (l.path name) = .ok place ∧ place.isWithin l.root = true
          ∧ fs.nodes.lookup place = some (.file bytes)
          ∧ (l.load fs name).1 = match FileSystem.decode bytes with
            | .error fault => .error (.file fault)
            | .ok text =>
              (Template.parseTraced text { trace := l.trace, sourcePath := some (l.path name).text }).1.mapError .parse)
    ∧ (∀ name place, nameFault? name = none → l.cache.lookup name = none →
        fs.canonicalize (l.path name) = .ok place → place.isWithin l.root = false →
          (l.load fs name).1 = .error (.load (.outsideRoot (l.path name).text)))
    ∧ ∀ fs' : FileSystem, fs'.canonicalize = fs.canonicalize →
        (∀ place, place.isWithin l.root = true → fs'.nodes.lookup place = fs.nodes.lookup place) →
          ∀ name, l.load fs' name = l.load fs name := by
  refine ⟨?_, fun name => nameFault?_eq_none_iff, ?_, fun name segments other segments' => path_eq_iff, ?_, ?_, ?_⟩
  · rw [rooted]
    exact canonicalize_of_of? made
  · intro name segments h
    obtain ⟨init, last, rfl⟩ := h.exists_concat
    refine ⟨init, last, rfl, path_names h, ?_⟩
    intro component hc
    rcases List.mem_append.1 hc with hc | hc
    · obtain ⟨s, hs, rfl⟩ := List.mem_map.1 hc
      exact isPlain_segment (h.valid s (List.mem_append_left _ hs))
    · rw [List.mem_singleton.1 hc]
      exact isPlain_fileName (h.valid last (by simp)) separatorFree
  · intro name uncached
    cases accepted : nameFault? name with
    | some fault => exact .inl ⟨_, by rw [load]; simp only [accepted]; rfl⟩
    | none =>
      rw [load_eq accepted uncached, read]
      rcases l.source_cases fs name with ⟨fault, source⟩ | ⟨place, bytes, found, inside, stands, source⟩
      · exact .inl ⟨fault, by rw [source]⟩
      · refine .inr ⟨place, bytes, found, inside, stands, ?_⟩
        rw [source]
        cases FileSystem.decode bytes <;> rfl
  · intro name place accepted uncached found outside
    rw [load_eq accepted uncached, read, source_of_outside found outside]
  · intro fs' links inside name
    simp only [load, read, source_congr links inside]

/-- A link to a file beside the root is refused. -/
theorem load_confined_link :
    let tree : FileTree := ⟨[(["site"], .directory), (["site", "a.tmpl"], .link "/key"), (["key"], .file "k".toUTF8)]⟩
    let l : Loader := ⟨⟨["site"]⟩, "tmpl", false, []⟩
    of? tree.toFileSystem ⟨["site"]⟩ = .ok l ∧ '/' ∉ l.extension.toList
      ∧ (l.load tree.toFileSystem "/a").1 = .error (.load (.outsideRoot "/site/a.tmpl")) := by
  intro tree l
  have made : of? tree.toFileSystem ⟨["site"]⟩ = .ok l := by cbv
  have separatorFree : '/' ∉ l.extension.toList := by decide
  have path : l.path "/a" = ⟨["site", "a.tmpl"]⟩ := by decide
  have found : tree.toFileSystem.canonicalize (l.path "/a") = .ok ⟨["key"]⟩ := by
    rw [path]
    simp +decide [tree, FileTree.toFileSystem, AbsolutePath.hasNul, FileTree.follow, FileTree.entry?,
      FileTree.maxLinks, AbsolutePath.namesOf, Text.names, Text.pieces, List.lookup, Except.map]
  obtain ⟨_, _, _, _, _, refused, _⟩ := load_confined made rfl separatorFree
  exact ⟨made, separatorFree, refused "/a" ⟨["key"]⟩ (by cbv) rfl found rfl⟩

end Loader

end Stencil
