import Mathlib
import Stencil.Proofs.Syntax.ScannerShift

/-!
# Scans of concatenated sources

A scan that neither stops with a fault nor runs out in the middle of text has come back behind the `}}` of a directive.
No mode of the scanner looks past such a `}}`, so that whatever follows there is scanned as if it stood alone, with all
places moved.

* `step_kind`: what a single step can be.
* `steps_of_run`: the tokens of a run tell that it ends behind a `}}`.
* `scan_append_moved`: the scan of two sources, one behind the other.
-/

namespace Stencil

/-! ## Moved places -/

/-- The characters of a text behind its last line break. -/
def lastLine (cs : List Char) : List Char := (cs.reverse.takeWhile (· ≠ '\n')).reverse

/-- The place behind a text that has the given place when the text is not there. -/
def Location.behind (text : String) (l : Location) : Location where
  line := l.line + text.toList.count '\n'
  column := if l.line = 1 then l.column + (lastLine text.toList).length else l.column
  offset := l.offset + text.utf8ByteSize

/-- The same token behind a text. The message of an error token ends in a position, which moves with the token. -/
inductive Token.Behind (text : String) : Token → Token → Prop
  | plain {t : Token} (h : t.kind ≠ .error) : Behind text t { t with location := t.location.behind text }
  | fault (f : Scanner.Fault) (l : Location) : Behind text (f.token l) (f.token (l.behind text))

/-! ## Places -/

theorem lastLine_concat (cs : List Char) (c : Char) :
    lastLine (cs ++ [c]) = if c = '\n' then [] else lastLine cs ++ [c] := by
  by_cases newline : c = '\n' <;> simp [lastLine, newline]

namespace Location

/-- Where a text ends. -/
theorem advance_origin (cs : List Char) :
    origin.advance cs = ⟨1 + cs.count '\n', 1 + (lastLine cs).length, String.utf8Len cs⟩ := by
  induction cs using List.reverseRecOn with
  | nil => rfl
  | append_singleton cs c ih =>
    rw [advance_append, ih, advance_cons, advance_nil, step, lastLine_concat]
    by_cases newline : c = '\n'
    · simp [newline, String.utf8Len_append]
      omega
    · simp [newline, String.utf8Len_append]
      omega

theorem one_le_line (cs : List Char) : 1 ≤ (origin.advance cs).line := by
  rw [advance_origin]
  exact Nat.le_add_right 1 _

/-- A step on the first line stays there or comes to a line whose columns do not move. -/
theorem behind_step (text : String) {l : Location} (positive : 1 ≤ l.line) (c : Char) :
    (l.step c).behind text = (l.behind text).step c := by
  by_cases newline : c = '\n'
  · have later : l.line + 1 ≠ 1 := by omega
    simp only [step, newline, if_true, behind, later, if_false, Location.mk.injEq, true_and]
    omega
  · by_cases first : l.line = 1
    · simp only [step, newline, if_false, behind, first, if_true, Location.mk.injEq, true_and]
      omega
    · simp only [step, newline, if_false, behind, first, Location.mk.injEq, true_and]
      omega

/-- Behind a text every place is moved. -/
theorem advance_behind (text : String) (cs : List Char) :
    (origin.advance text.toList).advance cs = (origin.advance cs).behind text := by
  induction cs using List.reverseRecOn with
  | nil =>
    have bytes : String.utf8Len text.toList = text.utf8ByteSize := by
      rw [← String.utf8ByteSize_ofList, String.ofList_toList]
    rw [advance_nil, advance_nil, advance_origin, bytes]
    simp [behind, origin]
  | append_singleton cs c ih =>
    rw [advance_append, advance_append, ih, advance_cons, advance_nil, advance_cons, advance_nil]
    exact (behind_step text (one_le_line cs) c).symm

end Location

theorem Token.Shifted.behind {text : String} {t t' : Token}
    (h : Shifted .origin (Location.origin.advance text.toList) t t') : t.Behind text t' := by
  cases h with
  | plain content cs noError =>
    rw [Location.advance_behind]
    exact .plain (t := ⟨_, content, Location.origin.advance cs⟩) noError
  | fault f cs =>
    rw [Location.advance_behind]
    exact .fault f _

namespace Scanner

/-! ## What a step can be -/

/-- The place behind all text that a cursor has. -/
def Cursor.finish (c : Cursor) : Location := c.here.advance c.rest

section Finish

variable {c : Cursor}

theorem Cursor.finish_take {taken rest : List Char} (h : taken ++ rest = c.rest) :
    (c.take taken rest).finish = c.finish := by
  rw [finish, finish, here, here, take, ← h, Location.advance_append, Location.advance_append]

@[simp] theorem Cursor.finish_drop (c : Cursor) : c.drop.finish = c.finish := rfl

@[simp] theorem Cursor.finish_takeRun (c : Cursor) (p : Char → Bool) : (c.takeRun p).finish = c.finish :=
  finish_take List.takeWhile_append_dropWhile

@[simp] theorem Cursor.finish_skipRun (c : Cursor) (p : Char → Bool) : (c.skipRun p).finish = c.finish :=
  finish_takeRun c p

@[simp] theorem Cursor.finish_skip (c : Cursor) (n : Nat) : (c.skip n).finish = c.finish :=
  finish_take (List.take_append_drop n c.rest)

end Finish

/-- What a step from a mode and cursor can be: it comes to text behind a `}}`, it goes on in another mode, it stops with
a fault, or it is in text and nothing follows. No step changes where all text ends. -/
inductive Step.Kind (m : Mode) (c : Cursor) : Step → Prop
  | closing (tokens : List Token) {l : Location} {rest : List Char} (h : l.advance rest = c.finish) :
      Kind m c ⟨tokens, some (.text, ⟨l, [], rest⟩)⟩
  | within (tokens : List Token) {m' : Mode} {c' : Cursor} (h : m' ≠ .text) (same : c'.finish = c.finish) :
      Kind m c ⟨tokens, some (m', c')⟩
  | fault (tokens : List Token) (f : Fault) (c' : Cursor) : Kind m c (stop tokens f c')
  | last (h : m = .text) : Kind m c ⟨(c.take c.rest []).emit .text, none⟩

theorem close_kind {m : Mode} {c c' : Cursor} (tokens : List Token) (p : Char → Bool) (f : Fault)
    (same : c'.finish = c.finish) : Step.Kind m c (close tokens p f c') := by
  simp only [close]
  split
  · apply Step.Kind.closing
    show ((c'.takeRun p).drop.skip 2).finish = c.finish
    simpa using same
  · exact .fault ..

theorem modeAfter_ne_text (name : List Char) : modeAfter name ≠ .text := by
  unfold modeAfter
  repeat' split
  all_goals decide

theorem stepKeyword_kind (m : Mode) (c : Cursor) : Step.Kind m c (stepKeyword c) := by
  simp only [stepKeyword]
  have opened : (if startsOpen c.rest then c.skip 2 else c).finish = c.finish := by
    split
    · exact Cursor.finish_skip c 2
    · rfl
  generalize (if startsOpen c.rest then c.skip 2 else c) = o at opened ⊢
  split
  · exact .within _ (by decide) (by simpa using opened)
  split
  · exact .fault ..
  · exact .within _ (modeAfter_ne_text _) (by simpa using opened)

theorem stepParameters_kind (m : Mode) (c : Cursor) : Step.Kind m c (stepParameters c) := by
  simp only [stepParameters]
  have taken : (c.take (splitBefore endsParameter c.rest).1 (splitBefore endsParameter c.rest).2).finish = c.finish :=
    Cursor.finish_take (splitBefore_append endsParameter c.rest)
  split
  · exact .fault ..
  next d more split =>
  rw [split] at taken ⊢
  split
  · next quote =>
    refine .within _ (by decide) ?_
    rw [Cursor.finish_take (by simp [quote]), taken]
  split
  · exact .within _ (by decide) (by simpa using taken)
  split
  · exact close_kind _ _ _ taken
  · exact close_kind _ _ _ taken

theorem step_kind (m : Mode) (c : Cursor) : Step.Kind m c (step m c) := by
  cases m with
  | text =>
    simp only [step, stepText]
    have whole := splitBefore_append startsOpen c.rest
    split
    · next found =>
      have nothing : (splitBefore startsOpen c.rest).2 = [] := by simpa using found
      rw [nothing, List.append_nil] at whole
      rw [nothing, whole]
      exact .last rfl
    · exact .within _ (by decide) (Cursor.finish_take whole)
  | keyword => exact stepKeyword_kind _ c
  | modelKey => exact close_kind _ _ _ (by simp)
  | parameter =>
    simp only [step, stepParameter]
    split
    · exact .fault ..
    · refine close_kind _ _ _ ?_
      rw [Cursor.finish_drop, Cursor.finish_take (splitBefore_append startsClose _), Cursor.finish_skipRun]
  | parameters => exact stepParameters_kind _ c
  | quoted =>
    simp only [step, stepQuoted]
    split
    · next found => exact .within _ (by decide) (Cursor.finish_take (splitQuoted_append found))
    · exact .fault ..
  | instruction => exact close_kind _ _ _ rfl

/-! ## Runs that end behind a directive -/

/-- A run that starts with an empty window if it starts in text, and ends with neither a fault nor text. -/
theorem steps_of_run {m : Mode} {c : Cursor} (window : m = .text → c.window = [])
    (sound : ∀ t ∈ run m c, t.kind ≠ .error) (ends : ∀ t, (run m c).getLast? = some t → t.kind ≠ .text) :
    ∃ ts, Steps m c ts .text ⟨c.finish, [], []⟩ := by
  induction hn : measure m c using Nat.strongRecOn generalizing m c with
  | _ n ih =>
    have onwards {ts : List Token} {m' : Mode} {c' : Cursor} (taken : step m c = ⟨ts, some (m', c')⟩)
        (window' : m' = .text → c'.window = []) (same : c'.finish = c.finish) :
        ∃ ts, Steps m c ts .text ⟨c.finish, [], []⟩ := by
      have next : (step m c).next = some (m', c') := by rw [taken]
      rw [run_of_next next] at sound ends
      have sound' : ∀ t ∈ run m' c', t.kind ≠ .error := fun t ht => sound t (List.mem_append_right _ ht)
      have ends' : ∀ t, (run m' c').getLast? = some t → t.kind ≠ .text := by
        intro t ht
        refine ends t ?_
        rw [List.getLast?_append, ht]
        rfl
      obtain ⟨us, steps⟩ := ih _ (hn ▸ step_decreases next) window' sound' ends' rfl
      exact ⟨_, .head next (same ▸ steps)⟩
    have kind := step_kind m c
    generalize taken : step m c = s at kind
    cases kind with
    | closing ts same => exact onwards taken (fun _ => rfl) same
    | within ts other same => exact onwards taken (fun text => absurd text other) same
    | fault ts f c' =>
      have stops : (step m c).next = none := by rw [taken]; rfl
      rw [run_of_stop stops, taken] at sound
      exact absurd rfl (sound (f.token c'.here) (List.mem_append_right _ List.mem_cons_self))
    | last text =>
      have stops : (step m c).next = none := by rw [taken]
      rw [run_of_stop stops, taken] at ends
      obtain ⟨start, taken', rest⟩ := c
      obtain rfl : taken' = [] := window text
      cases rest with
      | nil => exact ⟨[], text ▸ .refl _ _⟩
      | cons d rest =>
        have := ends ⟨.text, String.ofList (d :: rest), start⟩ rfl
        exact absurd rfl this

end Scanner

/-- **Scanning is compositional behind directives**: a source behind another one that ends there has its own tokens, in
places behind the other. -/
theorem scan_append_moved {a : String} (sound : ∀ t ∈ scan a, t.kind ≠ .error)
    (ends : ∀ t, (scan a).getLast? = some t → t.kind ≠ .text) (b : String) :
    ∃ ts, scan (a ++ b) = scan a ++ ts ∧ List.Forall₂ (Token.Behind a) (scan b) ts := by
  obtain ⟨ts, steps⟩ := Scanner.steps_of_run (fun _ => rfl) sound ends
  have place : (Scanner.Cursor.origin a.toList).finish = Location.origin.advance a.toList := rfl
  rw [place] at steps
  refine ⟨_, scan_append_of_steps steps b, ?_⟩
  have shifted : Scanner.Cursor.Shifted .origin (Location.origin.advance a.toList) (.origin b.toList)
      ⟨Location.origin.advance a.toList, [], b.toList⟩ :=
    ⟨⟨[], rfl, rfl⟩, rfl, rfl⟩
  exact (Scanner.run_shifted .text shifted).imp fun _ _ same => same.behind

/-- A fault behind a directive on the second line. -/
theorem scan_append_moved_fault :
    ∃ ts, scan ("\n{{ .x }}" ++ "\x7b\x7b f(") = scan "\n{{ .x }}" ++ ts
      ∧ List.Forall₂ (Token.Behind "\n{{ .x }}") (scan "\x7b\x7b f(") ts := by
  have first : scan "\n{{ .x }}" = [⟨.text, "\n", ⟨1, 1, 0⟩⟩, ⟨.parameter, ".x", ⟨2, 4, 4⟩⟩] := by cbv
  exact scan_append_moved (by simp [first]) (by simp [first]) "\x7b\x7b f("

end Stencil
