import Mathlib
import Stencil.Proofs.Syntax.Concatenation
import Stencil.Proofs.Syntax.Passes

/-!
# Tokens as slices of their source

The scanner reads a source once, from front to end. What it passes over goes into a token or is a delimiter, so that a
source is its tokens and the delimiters around them, up to a fault if there is one.

* `Pieces`: a text as tokens and the delimiters around them.
* `Scanner.step_cuts`: every step cuts what it passes over into pieces.
* `scan_isCutFrom`: the tokens of a source are slices of it in order, and only delimiters are left out.
-/

namespace Stencil

/-! ## Pieces of a text -/

/-- The characters that need not belong to a token. -/
def isDelimiter (c : Char) : Bool := c == '{' || c == '}' || c == '(' || c == ')' || c == ',' || c == ' '

/-- What the text of a token of some kind may be. -/
def TokenKind.Admits : TokenKind → List Char → Prop
  | .text, cs => ¬ ['{', '{'] <:+: cs
  | .function, cs => ∀ c ∈ cs, Scanner.isNameChar c = true
  | .parameter, _ => True
  | .error, _ => False

/-- A text that stands at a place is some tokens, and delimiters in front of, between and behind them. -/
inductive Pieces : Location → List Char → List Token → Prop
  | gap {l : Location} {cs : List Char} (delimiters : ∀ c ∈ cs, isDelimiter c = true) : Pieces l cs []
  | token {l : Location} {gap cs rest : List Char} {kind : TokenKind} {ts : List Token}
      (delimiters : ∀ c ∈ gap, isDelimiter c = true) (filled : cs ≠ []) (admits : kind.Admits cs)
      (more : Pieces ((l.advance gap).advance cs) rest ts) :
      Pieces l (gap ++ (cs ++ rest)) (⟨kind, String.ofList cs, l.advance gap⟩ :: ts)

namespace Pieces

variable {l : Location} {as bs cs : List Char} {ts us : List Token}

theorem nil (l : Location) : Pieces l [] [] := .gap (by simp)

/-- Delimiters can be put in front. -/
theorem gap_append (delimiters : ∀ c ∈ as, isDelimiter c = true) (h : Pieces (l.advance as) bs ts) :
    Pieces l (as ++ bs) ts := by
  cases h with
  | gap more =>
    refine .gap fun c hc => ?_
    rcases List.mem_append.1 hc with hc | hc
    · exact delimiters c hc
    · exact more c hc
  | @token _ gap cs rest kind ts more filled admits behind =>
    rw [← List.append_assoc, ← Location.advance_append]
    rw [← Location.advance_append l as gap] at behind
    refine .token (fun c hc => ?_) filled admits behind
    rcases List.mem_append.1 hc with hc | hc
    · exact delimiters c hc
    · exact more c hc

theorem append (h : Pieces l as ts) (h' : Pieces (l.advance as) bs us) : Pieces l (as ++ bs) (ts ++ us) := by
  induction h with
  | gap delimiters => exact h'.gap_append delimiters
  | token delimiters filled admits _ ih =>
    rw [List.append_assoc, List.append_assoc, List.cons_append]
    refine .token delimiters filled admits (ih ?_)
    simpa only [Location.advance_append] using h'

end Pieces

/-- A text that stands at a place is pieces up to its end, or up to a fault that is found there or further on. -/
inductive Cut (l : Location) (cs : List Char) : List Token → Prop
  | whole {ts : List Token} (h : Pieces l cs ts) : Cut l cs ts
  | fault {front skipped behind : List Char} {ts : List Token} (f : Scanner.Fault)
      (text : cs = front ++ (skipped ++ behind)) (h : Pieces l front ts) :
      Cut l cs (ts ++ [f.token ((l.advance front).advance skipped)])

namespace Scanner

/-! ## What a step passes over -/

/-- From one cursor the scanner comes to another, which stands behind some more text. -/
structure Cursor.Reaches (c : Cursor) (front : List Char) (c' : Cursor) : Prop where
  text : c.window ++ c.rest = front ++ (c'.window ++ c'.rest)
  start : c'.start = c.start.advance front

namespace Cursor.Reaches

variable {c c' : Cursor} {front : List Char}

theorem refl (c : Cursor) : c.Reaches [] c := ⟨rfl, rfl⟩

/-- What is moved into the window is not passed over yet. -/
theorem take {taken rest : List Char} (h : c.Reaches front c') (split : taken ++ rest = c'.rest) :
    c.Reaches front (c'.take taken rest) :=
  ⟨by rw [h.text, ← split, Cursor.take, List.append_assoc], h.start⟩

theorem takeRun (h : c.Reaches front c') (p : Char → Bool) : c.Reaches front (c'.takeRun p) :=
  h.take List.takeWhile_append_dropWhile

/-- A new window is behind the old one. -/
theorem drop (h : c.Reaches front c') : c.Reaches (front ++ c'.window) c'.drop :=
  ⟨by rw [h.text, List.append_assoc]; rfl, by rw [Cursor.drop, Cursor.here, h.start, Location.advance_append]⟩

theorem skipRun (h : c.Reaches front c') (fresh : c'.window = []) (p : Char → Bool) :
    c.Reaches (front ++ c'.rest.takeWhile p) (c'.skipRun p) := by
  have taken : (c'.takeRun p).window = c'.rest.takeWhile p := by
    rw [Cursor.takeRun, Cursor.take, fresh, List.nil_append]
  rw [← taken]
  exact (h.takeRun p).drop

theorem skip (h : c.Reaches front c') (fresh : c'.window = []) (n : Nat) :
    c.Reaches (front ++ c'.rest.take n) (c'.skip n) := by
  have taken : (c'.take (c'.rest.take n) (c'.rest.drop n)).window = c'.rest.take n := by
    rw [Cursor.take, fresh, List.nil_append]
  rw [← taken]
  exact (h.take (List.take_append_drop n c'.rest)).drop

/-- The place of a cursor is reached over what is passed and its window. -/
theorem here (h : c.Reaches front c') : c'.here = (c.start.advance front).advance c'.window := by
  rw [Cursor.here, h.start]

end Cursor.Reaches

/-- A window makes a token unless it is empty. -/
theorem pieces_emit {c : Cursor} (kind : TokenKind) (admits : kind.Admits c.window) :
    Pieces c.start c.window (c.emit kind) := by
  unfold Cursor.emit
  split
  · next empty =>
    rw [List.isEmpty_iff.1 empty]
    exact .nil _
  · next filled =>
    have token : Pieces c.start ([] ++ (c.window ++ [])) [⟨kind, String.ofList c.window, c.start.advance []⟩] :=
      .token (by simp) (by simpa using filled) admits (.nil _)
    simpa using token

/-- A step cuts what it passes over into pieces, and goes on with an empty window unless it is within a parameter with
quotes. -/
inductive Step.Cuts (c : Cursor) : Step → Prop
  | onwards {front : List Char} {ts : List Token} {m' : Mode} {c' : Cursor} (reaches : c.Reaches front c')
      (pieces : Pieces c.start front ts) (fresh : m' ≠ .quoted → c'.window = []) : Cuts c ⟨ts, some (m', c')⟩
  | fault {front : List Char} {ts : List Token} (f : Fault) {c' : Cursor} (reaches : c.Reaches front c')
      (pieces : Pieces c.start front ts) : Cuts c (stop ts f c')
  | last {ts : List Token} (pieces : Pieces c.start (c.window ++ c.rest) ts) : Cuts c ⟨ts, none⟩

section Steps

variable {c c' : Cursor} {front : List Char} {ts : List Token} {p : Char → Bool}

theorem pieces_gap (pieces : Pieces c.start front ts) {gap : List Char}
    (delimiters : ∀ d ∈ gap, isDelimiter d = true) : Pieces c.start (front ++ gap) ts := by
  have := pieces.append (.gap (l := c.start.advance front) delimiters)
  rwa [List.append_nil] at this

theorem forall_mem_takeWhile (delimiters : ∀ d, p d = true → isDelimiter d = true) (cs : List Char) :
    ∀ d ∈ cs.takeWhile p, isDelimiter d = true :=
  fun d hd => delimiters d (List.mem_takeWhile_imp hd)

theorem isDelimiter_of_isSpace (c : Char) (h : isSpace c = true) : isDelimiter c = true := by
  simp_all [isSpace, isDelimiter]

theorem isDelimiter_of_isOpening (c : Char) (h : isOpening c = true) : isDelimiter c = true := by
  simp only [isOpening, Bool.or_eq_true, beq_iff_eq] at h
  rcases h with rfl | rfl <;> rfl

theorem isDelimiter_of_isClosing (c : Char) (h : isClosing c = true) : isDelimiter c = true := by
  simp only [isClosing, Bool.or_eq_true, beq_iff_eq] at h
  rcases h with rfl | rfl <;> rfl

theorem isDelimiter_of_isSeparator (c : Char) (h : isSeparator c = true) : isDelimiter c = true := by
  simp only [isSeparator, Bool.or_eq_true, beq_iff_eq] at h
  rcases h with rfl | rfl <;> rfl

theorem take_two_of_startsClose {cs : List Char} (h : startsClose cs = true) : cs.take 2 = ['}', '}'] := by
  obtain ⟨ds, rfl⟩ := startsClose_iff.1 h
  rfl

theorem take_two_of_startsOpen {cs : List Char} (h : startsOpen cs = true) : cs.take 2 = ['{', '{'] := by
  obtain ⟨ds, rfl⟩ := startsOpen_iff.1 h
  rfl

/-- Up to the end of a directive, and behind it. -/
theorem close_cuts (f : Fault) (reaches : c.Reaches front c') (fresh : c'.window = [])
    (pieces : Pieces c.start front ts) (delimiters : ∀ d, p d = true → isDelimiter d = true) :
    Step.Cuts c (close ts p f c') := by
  simp only [close]
  have run : (c'.takeRun p).window = c'.rest.takeWhile p := by rw [Cursor.takeRun, Cursor.take, fresh, List.nil_append]
  split
  · next closes =>
    refine .onwards ((reaches.takeRun p).drop.skip rfl 2) ?_ fun _ => rfl
    rw [run, Cursor.rest_drop, take_two_of_startsClose closes]
    exact pieces_gap (pieces_gap pieces (forall_mem_takeWhile delimiters _)) (by simp [isDelimiter])
  · exact .fault f (reaches.takeRun p) pieces

theorem not_open_splitBefore (cs : List Char) : ¬ ['{', '{'] <:+: (splitBefore startsOpen cs).1 := by
  induction cs with
  | nil => simp [splitBefore]
  | cons c cs ih =>
    simp only [splitBefore]
    split
    · simp
    next closed =>
    rw [List.infix_cons_iff]
    rintro (⟨ds, pair⟩ | inside)
    · -- The pair would start the text itself.
      obtain ⟨rfl, tail⟩ := List.cons.inj pair
      have text : cs = '{' :: (ds ++ (splitBefore startsOpen cs).2) := calc
        cs = (splitBefore startsOpen cs).1 ++ (splitBefore startsOpen cs).2 := (splitBefore_append startsOpen cs).symm
        _ = '{' :: ds ++ (splitBefore startsOpen cs).2 := congrArg (· ++ _) tail.symm
      exact closed (startsOpen_iff.2 ⟨_, congrArg ('{' :: ·) text⟩)
    · exact ih inside

theorem stepText_cuts (fresh : c.window = []) : Step.Cuts c (stepText c) := by
  simp only [stepText]
  obtain ⟨whole, closed⟩ : (splitBefore startsOpen c.rest).1 ++ (splitBefore startsOpen c.rest).2 = c.rest
      ∧ ¬ ['{', '{'] <:+: (splitBefore startsOpen c.rest).1 :=
    ⟨splitBefore_append startsOpen c.rest, not_open_splitBefore c.rest⟩
  generalize splitBefore startsOpen c.rest = found at whole closed ⊢
  obtain ⟨taken, rest⟩ := found
  have window : (c.take taken rest).window = taken := by rw [Cursor.take, fresh, List.nil_append]
  have token : Pieces c.start (c.take taken rest).window ((c.take taken rest).emit .text) :=
    pieces_emit .text (by rw [window]; exact closed)
  cases rest with
  | nil =>
    refine .last ?_
    rw [window] at token
    rw [fresh, List.nil_append, ← whole, List.append_nil]
    exact token
  | cons d rest => exact .onwards ((Cursor.Reaches.refl c).take whole).drop token fun _ => rfl

theorem stepKeyword_cuts (fresh : c.window = []) : Step.Cuts c (stepKeyword c) := by
  simp only [stepKeyword]
  -- The braces, if there are any, and the blanks behind them are passed over.
  obtain ⟨front, o, window, reaches, pieces, opened⟩ : ∃ front o, Cursor.window o = [] ∧ c.Reaches front o
      ∧ Pieces c.start front [] ∧ (if startsOpen c.rest then c.skip 2 else c) = o := by
    by_cases opens : startsOpen c.rest = true
    · refine ⟨_, _, rfl, (Cursor.Reaches.refl c).skip fresh 2, .gap ?_, if_pos opens⟩
      rw [List.nil_append, take_two_of_startsOpen opens]
      simp [isDelimiter]
    · exact ⟨_, _, fresh, .refl c, .nil _, if_neg opens⟩
  rw [opened]
  have spaces := reaches.skipRun window isSpace
  have blank := pieces_gap pieces (forall_mem_takeWhile isDelimiter_of_isSpace o.rest)
  split
  · exact .onwards spaces blank fun _ => rfl
  have named := spaces.takeRun isNameChar
  have name : ((o.skipRun isSpace).takeRun isNameChar).window = (o.skipRun isSpace).rest.takeWhile isNameChar := rfl
  have token := pieces_emit (c := (o.skipRun isSpace).takeRun isNameChar) .function
    fun d hd => List.mem_takeWhile_imp (name ▸ hd)
  have place : ((o.skipRun isSpace).takeRun isNameChar).start = c.start.advance (front ++ o.rest.takeWhile isSpace) :=
    named.start
  rw [place] at token
  have both := blank.append token
  rw [List.nil_append] at both
  have behind := named.drop.skipRun rfl isOpening
  have opening := pieces_gap both (forall_mem_takeWhile isDelimiter_of_isOpening
    ((o.skipRun isSpace).takeRun isNameChar).drop.rest)
  split
  · exact .fault _ behind opening
  · exact .onwards behind opening fun _ => rfl

/-- A window that becomes a token, behind what is passed over. -/
theorem pieces_token (kind : TokenKind) (reaches : c.Reaches front c') (pieces : Pieces c.start front ts)
    (admits : kind.Admits c'.window) : Pieces c.start (front ++ c'.window) (ts ++ c'.emit kind) := by
  refine pieces.append ?_
  rw [← reaches.start]
  exact pieces_emit kind admits

theorem stepModelKey_cuts (c : Cursor) : Step.Cuts c (stepModelKey c) := by
  have key := (Cursor.Reaches.refl c).takeRun isKeyChar
  have token : Pieces c.start (c.takeRun isKeyChar).window ((c.takeRun isKeyChar).emit .parameter) :=
    pieces_emit (c := c.takeRun isKeyChar) .parameter trivial
  exact close_cuts _ key.drop rfl token isDelimiter_of_isSpace

theorem stepParameter_cuts (fresh : c.window = []) : Step.Cuts c (stepParameter c) := by
  simp only [stepParameter]
  have spaces := (Cursor.Reaches.refl c).skipRun fresh isSpace
  have blank : Pieces c.start ([] ++ c.rest.takeWhile isSpace) [] :=
    pieces_gap (.nil _) (forall_mem_takeWhile isDelimiter_of_isSpace c.rest)
  have whole := splitBefore_append startsClose (c.skipRun isSpace).rest
  generalize splitBefore startsClose (c.skipRun isSpace).rest = found at whole ⊢
  obtain ⟨taken, rest⟩ := found
  have behind := spaces.take whole
  split
  · exact .fault _ behind blank
  · exact close_cuts _ behind.drop rfl (pieces_token .parameter behind blank trivial) (by simp)

/-- The characters up to which a parameter runs are kept apart from it. -/
theorem stepParameters_cuts (c : Cursor) : Step.Cuts c (stepParameters c) := by
  simp only [stepParameters]
  have whole := splitBefore_append endsParameter c.rest
  generalize splitBefore endsParameter c.rest = found at whole ⊢
  obtain ⟨taken, rest⟩ := found
  have behind := (Cursor.Reaches.refl c).take whole
  have token : Pieces c.start ([] ++ (c.take taken rest).window) ([] ++ (c.take taken rest).emit .parameter) :=
    pieces_token .parameter behind (.nil _) trivial
  cases rest with
  | nil => exact .fault _ behind (.nil _)
  | cons d more =>
    simp only
    split
    · next quote => exact .onwards (behind.take (by simp [quote])) (.nil _) (fun other => absurd rfl other)
    split
    · next separator =>
      refine .onwards (behind.drop.skip rfl 1) (pieces_gap token ?_) fun _ => rfl
      simpa using isDelimiter_of_isSeparator d separator
    split
    · exact close_cuts _ behind.drop rfl token isDelimiter_of_isClosing
    · exact close_cuts _ behind.drop rfl token (by simp)

theorem stepQuoted_cuts (c : Cursor) : Step.Cuts c (stepQuoted c) := by
  simp only [stepQuoted]
  split
  · next taken rest found =>
    have behind := (Cursor.Reaches.refl c).take (splitQuoted_append found)
    exact .onwards behind.drop (pieces_token .parameter behind (.nil _) trivial) fun _ => rfl
  · exact .fault _ ((Cursor.Reaches.refl c).take (List.append_nil c.rest)) (.nil _)

/-- **Every step cuts what it passes over into pieces.** -/
theorem step_cuts (m : Mode) (fresh : m ≠ .quoted → c.window = []) : Step.Cuts c (step m c) := by
  cases m with
  | text => exact stepText_cuts (fresh (by decide))
  | keyword => exact stepKeyword_cuts (fresh (by decide))
  | modelKey => exact stepModelKey_cuts c
  | parameter => exact stepParameter_cuts (fresh (by decide))
  | parameters => exact stepParameters_cuts c
  | quoted => exact stepQuoted_cuts c
  | instruction => exact close_cuts _ (.refl c) (fresh (by decide)) (.nil _) isDelimiter_of_isSpace

/-- A run cuts the text of its cursor, up to a fault if it comes to one. -/
theorem run_cut {m : Mode} (fresh : m ≠ .quoted → c.window = []) : Cut c.start (c.window ++ c.rest) (run m c) := by
  induction hn : measure m c using Nat.strongRecOn generalizing m c with
  | _ n ih =>
    have cuts := step_cuts m fresh
    generalize taken : step m c = s at cuts
    cases cuts with
    | last pieces =>
      rw [run_of_stop (by rw [taken]), taken]
      exact .whole pieces
    | @fault front ts f c' reaches pieces =>
      rw [run_of_stop (by rw [taken]; rfl), taken]
      show Cut _ _ (ts ++ [f.token c'.here])
      rw [reaches.here]
      exact .fault f reaches.text pieces
    | @onwards front ts m' c' reaches pieces fresh' =>
      have next : (step m c).next = some (m', c') := by rw [taken]
      rw [run_of_next next, taken, reaches.text]
      have rest := ih _ (hn ▸ step_decreases next) fresh' rfl
      rw [reaches.start] at rest
      generalize run m' c' = us at rest ⊢
      cases rest with
      | whole h => exact .whole (pieces.append h)
      | @fault front' skipped behind us f text h =>
        have place : (c.start.advance front).advance front' = c.start.advance (front ++ front') :=
          (Location.advance_append ..).symm
        rw [text, place, ← List.append_assoc front, ← List.append_assoc ts]
        exact .fault f rfl (pieces.append h)

end Steps

end Scanner

/-! ## What pieces say about tokens -/

/-- The byte behind a token. -/
def Token.stop (t : Token) : Nat := t.location.offset + t.text.utf8ByteSize

/-- Whether a token has the character at a byte. -/
def Token.Covers (t : Token) (offset : Nat) : Prop := t.location.offset ≤ offset ∧ offset < t.stop

theorem Location.offset_advance (l : Location) (cs : List Char) :
    (l.advance cs).offset = l.offset + String.utf8Len cs := by
  induction cs generalizing l with
  | nil => rfl
  | cons c cs ih =>
    rw [advance_cons, ih, step]
    split <;> simp [Nat.add_assoc, Nat.add_comm]

theorem utf8Len_pos {cs : List Char} (filled : cs ≠ []) : 0 < String.utf8Len cs := by
  obtain ⟨c, cs, rfl⟩ := List.exists_cons_of_ne_nil filled
  rw [String.utf8Len_cons]
  exact Nat.add_pos_right _ c.utf8Size_pos

theorem Token.stop_eq (t : Token) : t.stop = t.location.offset + String.utf8Len t.text.toList := by
  rw [stop, ← String.utf8ByteSize_ofList, String.ofList_toList]

namespace Pieces

variable {l : Location} {cs : List Char} {ts : List Token}

/-- No token is an error, and all are pieces of the text. -/
theorem slice (h : Pieces l cs ts) : ∀ t ∈ ts, t.kind.Admits t.text.toList ∧ t.text.toList ≠ []
    ∧ ∃ before after, cs = before ++ (t.text.toList ++ after) ∧ t.location = l.advance before := by
  induction h with
  | gap => simp
  | @token l gap cs rest kind ts _ filled admits _ ih =>
    rintro t (_ | ⟨_, member⟩)
    · rw [String.toList_ofList]
      exact ⟨admits, filled, gap, rest, rfl, rfl⟩
    · obtain ⟨admits, filled, before, after, rfl, place⟩ := ih t member
      refine ⟨admits, filled, gap ++ (cs ++ before), after, by simp only [List.append_assoc], ?_⟩
      rw [place, Location.advance_append, Location.advance_append]

theorem kind_ne (h : Pieces l cs ts) : ∀ t ∈ ts, t.kind ≠ .error := by
  intro t member error
  have := (h.slice t member).1
  rw [error] at this
  exact this

/-- Tokens do not reach out of the text. -/
theorem offset_le (h : Pieces l cs ts) : ∀ t ∈ ts, l.offset ≤ t.location.offset ∧ t.location.offset < t.stop
    ∧ t.stop ≤ (l.advance cs).offset := by
  intro t member
  obtain ⟨-, filled, before, after, rfl, place⟩ := h.slice t member
  have positive := utf8Len_pos filled
  rw [Token.stop_eq, place, Location.offset_advance, Location.offset_advance, String.utf8Len_append,
    String.utf8Len_append]
  omega

/-- Tokens follow one another. -/
theorem pairwise (h : Pieces l cs ts) :
    ts.Pairwise fun t u => t.location.offset < u.location.offset ∧ t.stop ≤ u.location.offset := by
  induction h with
  | gap => exact .nil
  | @token l gap cs rest kind ts _ filled _ more ih =>
    refine List.pairwise_cons.2 ⟨fun u member => ?_, ih⟩
    have later := (more.offset_le u member).1
    have positive := utf8Len_pos filled
    rw [Token.stop_eq, String.toList_ofList]
    rw [Location.offset_advance] at later
    refine ⟨?_, later⟩
    show (l.advance gap).offset < u.location.offset
    omega

/-- A character that is in no token is a delimiter. -/
theorem isDelimiter_of_not_covered (h : Pieces l cs ts) {before after : List Char} {c : Char}
    (text : cs = before ++ c :: after) (free : ∀ t ∈ ts, ¬ t.Covers (l.advance before).offset) :
    isDelimiter c = true := by
  induction h generalizing before with
  | gap delimiters => exact delimiters c (by simp [text])
  | @token l gap cs rest kind ts delimiters filled admits more ih =>
    have first := free _ List.mem_cons_self
    rw [Token.Covers, Token.stop_eq, String.toList_ofList, Location.offset_advance, Location.offset_advance] at first
    rcases List.append_eq_append_iff.1 text with ⟨more', rfl, split⟩ | ⟨more', rfl, split⟩
    · -- The character stands behind the first delimiters.
      rcases List.append_eq_append_iff.1 split with ⟨tail, rfl, split'⟩ | ⟨tail, same, split'⟩
      · refine ih split' fun t member => ?_
        have := free t (List.mem_cons_of_mem _ member)
        rwa [Location.advance_append, Location.advance_append] at this
      · cases tail with
        | nil =>
          have start : rest = [] ++ c :: after := split'.symm
          refine ih start fun t member => ?_
          have := free t (List.mem_cons_of_mem _ member)
          rw [List.append_nil] at same
          rwa [Location.advance_append, ← same] at this
        | cons d tail =>
          have positive := d.utf8Size_pos
          rw [same] at first
          simp only [String.utf8Len_append, String.utf8Len_cons] at first
          omega
    · cases more' with
      | nil =>
        rw [List.append_nil] at first
        have positive := utf8Len_pos filled
        omega
      | cons d more' =>
        rw [List.cons_append, List.cons.injEq] at split
        exact delimiters c (by simp [split.1])

end Pieces

/-! ## Errors -/

theorem cut_scan (source : String) : Cut .origin source.toList (scan source) :=
  Scanner.run_cut (m := .text) (c := .origin source.toList) fun _ => rfl

/-- A scan is tokens that are no errors, and an error behind them if there is one. -/
theorem exists_scan_eq (source : String) : ∃ (tokens : List Token) (fault : Option Token),
    scan source = tokens ++ fault.toList ∧ (∀ t ∈ tokens, t.kind ≠ .error) ∧ ∀ e ∈ fault, e.kind = .error := by
  have cut := cut_scan source
  generalize scan source = ts at cut
  cases cut with
  | whole h => exact ⟨ts, none, (List.append_nil ts).symm, h.kind_ne, nofun⟩
  | @fault front skipped behind ts f _ h =>
    refine ⟨ts, some _, rfl, h.kind_ne, ?_⟩
    rintro e ⟨⟩
    rfl

/-! ## Tokens of a source -/

/-- Tokens that are the pieces of a source in order, with nothing but delimiters between them. The last one may be an
error, behind which nothing is said of the source. -/
structure IsCutFrom (ts : List Token) (source : String) : Prop where
  /-- A token is the text at its offset. -/
  slice : ∀ t ∈ ts, t.kind ≠ .error → t.text ≠ ""
    ∧ ∃ before after, source = before ++ t.text ++ after ∧ before.utf8ByteSize = t.location.offset
  /-- Tokens are apart; an error is not before the end of the token in front of it. -/
  apart : ts.Pairwise fun t u => t.location.offset < u.location.offset ∧ t.stop ≤ u.location.offset
  /-- A character that is in no token, in front of a token or where no error is met, is a delimiter. -/
  dropped : ∀ before c after, source.toList = before ++ c :: after →
    (∀ t ∈ ts, t.kind ≠ .error → ¬ t.Covers (String.utf8Len before)) →
    (∃ t ∈ ts, t.kind ≠ .error ∧ String.utf8Len before < t.location.offset) ∨ (∀ t ∈ ts, t.kind ≠ .error) →
    isDelimiter c = true
  text : ∀ t ∈ ts, t.kind = .text → ¬ ['{', '{'] <:+: t.text.toList
  function : ∀ t ∈ ts, t.kind = .function → ∀ c ∈ t.text.toList, Scanner.isNameChar c = true

/-- Pieces up to the end, or up to an error that is met there or further on. -/
theorem Pieces.isCutFrom {source : String} {front rest : List Char} {ts : List Token} (h : Pieces .origin front ts)
    (text : source.toList = front ++ rest) (fault : Option Token) (whole : fault = none → rest = [])
    (later : ∀ e ∈ fault, e.kind = .error ∧ String.utf8Len front ≤ e.location.offset) :
    IsCutFrom (ts ++ fault.toList) source := by
  have bytes (cs : List Char) : (Location.origin.advance cs).offset = String.utf8Len cs := by
    rw [Location.offset_advance]
    exact Nat.zero_add _
  have own (t : Token) (member : t ∈ ts ++ fault.toList) (plain : t.kind ≠ .error) : t ∈ ts := by
    rcases List.mem_append.1 member with member | member
    · exact member
    · exact absurd (later t (Option.mem_toList.1 member)).1 plain
  refine ⟨fun t member plain => ?_, ?_, fun before c after split free reached => ?_, fun t member kind => ?_,
    fun t member kind => ?_⟩
  · obtain ⟨-, filled, before, after, here, place⟩ := h.slice t (own t member plain)
    refine ⟨fun empty => filled (by rw [empty]; rfl), .ofList before, .ofList (after ++ rest), ?_, ?_⟩
    · rw [← String.toList_inj, text, here]
      simp
    · rw [String.utf8ByteSize_ofList, place, bytes]
  · refine List.pairwise_append.2 ⟨h.pairwise, by cases fault <;> simp, fun t ht e he => ?_⟩
    have first := h.offset_le t ht
    have second := (later e (Option.mem_toList.1 he)).2
    rw [bytes] at first
    omega
  · obtain ⟨more, front'⟩ : ∃ more, front = before ++ c :: more := by
      rcases reached with ⟨t, member, plain, ahead⟩ | sound
      · -- The character stands in front of a token, and so in what is cut.
        have inside := (h.offset_le t (own t member plain)).2
        rw [bytes] at inside
        rcases List.append_eq_append_iff.1 (text.symm.trans split) with ⟨skipped, rfl, -⟩ | ⟨skipped, rfl, tail⟩
        · rw [String.utf8Len_append] at ahead
          omega
        · cases skipped with
          | nil =>
            rw [List.append_nil] at inside
            omega
          | cons d more =>
            rw [List.cons_append, List.cons.injEq] at tail
            exact ⟨more, by rw [tail.1]⟩
      · have none' : fault = none := by
          rcases fault with _ | e
          · rfl
          · exact absurd (later e rfl).1 (sound e (by simp))
        exact ⟨after, by rw [← split, text, whole none', List.append_nil]⟩
    refine h.isDelimiter_of_not_covered front' fun t member => ?_
    rw [bytes]
    exact free t (List.mem_append_left _ member) (h.kind_ne t member)
  · have := (h.slice t (own t member (by simp [kind]))).1
    rwa [kind] at this
  · have := (h.slice t (own t member (by simp [kind]))).1
    rwa [kind] at this

/-- **The tokens of a source are its pieces.** -/
theorem scan_isCutFrom (source : String) : IsCutFrom (scan source) source := by
  have cut : Cut .origin source.toList (scan source) :=
    Scanner.run_cut (m := .text) (c := .origin source.toList) fun _ => rfl
  generalize scan source = ts at cut
  cases cut with
  | whole h =>
    have := h.isCutFrom (List.append_nil _).symm none (fun _ => rfl) nofun
    rwa [Option.toList_none, List.append_nil] at this
  | @fault front skipped behind ts f text h =>
    refine h.isCutFrom text (some _) nofun ?_
    rintro e ⟨⟩
    refine ⟨rfl, ?_⟩
    show _ ≤ ((Location.origin.advance front).advance skipped).offset
    rw [Location.offset_advance, Location.offset_advance]
    omega

end Stencil
