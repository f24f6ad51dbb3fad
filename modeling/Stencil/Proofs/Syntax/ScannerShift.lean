import Mathlib.Data.List.Forall2
import Stencil.Proofs.Syntax.ScannerSteps
import Stencil.Proofs.Syntax.Unlocated

/-!
# Scanning from another place

What stands in front of a text does not matter to the scanner but for places.

* `run_shifted`: from another location the scanner emits the same tokens, moved there.
* `scan_append`: behind the `}}` of a directive a scan begins anew.
-/

namespace Stencil

/-- The same token found behind `l` and behind `l'`. -/
inductive Token.Shifted (l l' : Location) : Token → Token → Prop
  | plain {kind : TokenKind} (text : String) (cs : List Char) (h : kind ≠ .error) :
      Shifted l l' ⟨kind, text, l.advance cs⟩ ⟨kind, text, l'.advance cs⟩
  | fault (f : Scanner.Fault) (cs : List Char) : Shifted l l' (f.token (l.advance cs)) (f.token (l'.advance cs))

theorem Token.Shifted.unlocated_eq {l l' : Location} {t t' : Token} (h : Shifted l l' t t') :
    t.unlocated = t'.unlocated := by
  cases h with
  | plain text cs h => rfl
  | fault f cs => rfl

theorem Token.map_unlocated_eq {l l' : Location} {ts ts' : List Token} (h : List.Forall₂ (Shifted l l') ts ts') :
    ts.map unlocated = ts'.map unlocated := by
  induction h with
  | nil => rfl
  | cons h _ ih => rw [List.map_cons, List.map_cons, h.unlocated_eq, ih]

namespace Scanner

/-- The same window and text, behind `l` and behind `l'`. -/
structure Cursor.Shifted (l l' : Location) (c c' : Cursor) : Prop where
  start : ∃ cs, c.start = l.advance cs ∧ c'.start = l'.advance cs
  window : c.window = c'.window
  rest : c.rest = c'.rest

/-- The same step, taken behind `l` and behind `l'`. -/
structure Step.Shifted (l l' : Location) (s s' : Step) : Prop where
  tokens : List.Forall₂ (Token.Shifted l l') s.tokens s'.tokens
  next : Option.Rel (fun n n' => n.1 = n'.1 ∧ Cursor.Shifted l l' n.2 n'.2) s.next s'.next

section Shift

variable {l l' : Location} {c c' : Cursor}

namespace Cursor.Shifted

theorem take (h : Shifted l l' c c') (taken rest : List Char) : Shifted l l' (c.take taken rest) (c'.take taken rest) :=
  ⟨h.start, by rw [Cursor.take, Cursor.take, h.window], rfl⟩

theorem takeRun (h : Shifted l l' c c') (p : Char → Bool) : Shifted l l' (c.takeRun p) (c'.takeRun p) := by
  rw [Cursor.takeRun, Cursor.takeRun, h.rest]
  exact h.take _ _

theorem here (h : Shifted l l' c c') : ∃ cs, c.here = l.advance cs ∧ c'.here = l'.advance cs := by
  obtain ⟨cs, hs, hs'⟩ := h.start
  refine ⟨cs ++ c.window, ?_, ?_⟩
  · rw [Cursor.here, hs, Location.advance_append]
  · rw [Cursor.here, hs', ← h.window, Location.advance_append]

theorem drop (h : Shifted l l' c c') : Shifted l l' c.drop c'.drop := ⟨h.here, rfl, h.rest⟩

theorem skipRun (h : Shifted l l' c c') (p : Char → Bool) : Shifted l l' (c.skipRun p) (c'.skipRun p) :=
  (h.takeRun p).drop

theorem skip (h : Shifted l l' c c') (n : Nat) : Shifted l l' (c.skip n) (c'.skip n) := by
  rw [Cursor.skip, Cursor.skip, h.rest]
  exact (h.take _ _).drop

theorem emit (h : Shifted l l' c c') {kind : TokenKind} (hk : kind ≠ .error) :
    List.Forall₂ (Token.Shifted l l') (c.emit kind) (c'.emit kind) := by
  obtain ⟨cs, hs, hs'⟩ := h.start
  rw [Cursor.emit, Cursor.emit, h.window, hs, hs']
  split
  · exact .nil
  · exact .cons (.plain _ cs hk) .nil

end Cursor.Shifted

theorem Step.Shifted.intro {m : Mode} {ts ts' : List Token} (ht : List.Forall₂ (Token.Shifted l l') ts ts')
    (h : Cursor.Shifted l l' c c') : Step.Shifted l l' ⟨ts, some (m, c)⟩ ⟨ts', some (m, c')⟩ :=
  ⟨ht, .some ⟨rfl, h⟩⟩

theorem stop_shifted {ts ts' : List Token} (ht : List.Forall₂ (Token.Shifted l l') ts ts') (f : Fault)
    (h : Cursor.Shifted l l' c c') : Step.Shifted l l' (stop ts f c) (stop ts' f c') := by
  obtain ⟨cs, hs, hs'⟩ := h.here
  refine ⟨List.rel_append ht ?_, .none⟩
  rw [hs, hs']
  exact .cons (.fault f cs) .nil

theorem close_shifted {ts ts' : List Token} (ht : List.Forall₂ (Token.Shifted l l') ts ts') (p : Char → Bool)
    (f : Fault) (h : Cursor.Shifted l l' c c') : Step.Shifted l l' (close ts p f c) (close ts' p f c') := by
  have after := h.takeRun p
  simp only [close, after.rest]
  split
  · exact .intro ht (after.drop.skip 2)
  · exact stop_shifted ht f after

theorem stepKeyword_shifted (h : Cursor.Shifted l l' c c') : Step.Shifted l l' (stepKeyword c) (stepKeyword c') := by
  have opened : Cursor.Shifted l l' (if startsOpen c.rest then c.skip 2 else c)
      (if startsOpen c'.rest then c'.skip 2 else c') := by
    rw [h.rest]
    split
    · exact h.skip 2
    · exact h
  simp only [stepKeyword]
  generalize (if startsOpen c.rest then c.skip 2 else c) = o at opened ⊢
  generalize (if startsOpen c'.rest then c'.skip 2 else c') = o' at opened ⊢
  have spaces := opened.skipRun isSpace
  have name := spaces.takeRun isNameChar
  have after := name.drop.skipRun isOpening
  have tokens : List.Forall₂ (Token.Shifted l l') (((o.skipRun isSpace).takeRun isNameChar).emit .function) _ :=
    name.emit (by decide)
  rw [spaces.rest, name.window, after.rest]
  split
  · exact .intro .nil spaces
  split
  · exact stop_shifted tokens _ after
  · exact .intro tokens after

theorem stepParameters_shifted (h : Cursor.Shifted l l' c c') :
    Step.Shifted l l' (stepParameters c) (stepParameters c') := by
  simp only [stepParameters, h.rest]
  have taken := h.take (splitBefore endsParameter c'.rest).1 (splitBefore endsParameter c'.rest).2
  have tokens : List.Forall₂ (Token.Shifted l l') (Cursor.emit _ .parameter) _ := taken.emit (by decide)
  split
  · exact stop_shifted .nil _ taken
  next d rest _ =>
  split
  · exact .intro .nil (taken.take _ _)
  split
  · exact .intro tokens (taken.drop.skip 1)
  split
  all_goals exact close_shifted tokens _ _ taken.drop

theorem step_shifted (m : Mode) (h : Cursor.Shifted l l' c c') : Step.Shifted l l' (step m c) (step m c') := by
  cases m with
  | text =>
    simp only [step, stepText, h.rest]
    have taken := h.take (splitBefore startsOpen c'.rest).1 (splitBefore startsOpen c'.rest).2
    have tokens : List.Forall₂ (Token.Shifted l l') (Cursor.emit _ .text) _ := taken.emit (by decide)
    split
    · exact ⟨tokens, .none⟩
    · exact .intro tokens taken.drop
  | keyword => exact stepKeyword_shifted h
  | modelKey =>
    have key := h.takeRun isKeyChar
    exact close_shifted (key.emit (by decide)) _ _ key.drop
  | parameter =>
    have spaces := h.skipRun isSpace
    simp only [step, stepParameter, spaces.rest]
    have taken := spaces.take (splitBefore startsClose (c'.skipRun isSpace).rest).1
      (splitBefore startsClose (c'.skipRun isSpace).rest).2
    split
    · exact stop_shifted .nil _ taken
    · exact close_shifted (taken.emit (by decide)) _ _ taken.drop
  | parameters => exact stepParameters_shifted h
  | quoted =>
    simp only [step, stepQuoted, h.rest]
    split
    · next taken rest _ =>
      have taken := h.take taken rest
      exact .intro (taken.emit (by decide)) taken.drop
    · exact stop_shifted .nil _ (h.take _ _)
  | instruction => exact close_shifted .nil _ _ h

/-- From another location the scanner emits the same tokens, moved there. -/
theorem run_shifted (m : Mode) (h : Cursor.Shifted l l' c c') :
    List.Forall₂ (Token.Shifted l l') (run m c) (run m c') := by
  induction hn : measure m c using Nat.strongRecOn generalizing m c c' with
  | _ n ih =>
    have steps := step_shifted m h
    cases hs : (step m c).next with
    | none =>
      have hs' : (step m c').next = none := by
        have := steps.next
        rw [hs] at this
        cases hs' : (step m c').next with
        | none => rfl
        | some _ => rw [hs'] at this; cases this
      rw [run_of_stop hs, run_of_stop hs']
      exact steps.tokens
    | some next =>
      have rel := steps.next
      rw [hs] at rel
      cases hs' : (step m c').next with
      | none => rw [hs'] at rel; cases rel
      | some next' =>
        rw [hs'] at rel
        cases rel with
        | some same =>
          obtain ⟨m₁, c₁⟩ := next
          obtain ⟨m₂, c₂⟩ := next'
          obtain ⟨rfl, after⟩ := same
          rw [run_of_next hs, run_of_next hs']
          exact List.rel_append steps.tokens (ih _ (hn ▸ step_decreases hs) _ after rfl)

end Shift

end Scanner

/-! ## A scan cut behind a directive -/

/-- Whether a source ends exactly behind the `}}` of a directive: the scanner is back to text when nothing is left. The
empty source counts as well. -/
def EndsClosed (source : String) : Prop :=
  ∃ ts l, Scanner.Steps .text (.origin source.toList) ts .text ⟨l, [], []⟩

theorem scan_of_steps {source : String} {ts : List Token} {l : Location}
    (h : Scanner.Steps .text (.origin source.toList) ts .text ⟨l, [], []⟩) : scan source = ts := by
  have stop : Scanner.run .text ⟨l, [], []⟩ = [] := Scanner.run_of_stop rfl
  rw [scan, h.run_eq, stop, List.append_nil]

/-- Behind the `}}` of a directive the scanner goes on with what follows. -/
theorem scan_append_of_steps {a : String} {ts : List Token} {l : Location}
    (steps : Scanner.Steps .text (.origin a.toList) ts .text ⟨l, [], []⟩) (b : String) :
    scan (a ++ b) = scan a ++ Scanner.run .text ⟨l, [], b.toList⟩ := by
  have extended := (steps.extend rfl rfl b.toList).2
  have whole : (Scanner.Cursor.origin a.toList).extend b.toList = .origin (a ++ b).toList := by
    rw [String.toList_append]
    rfl
  rw [whole] at extended
  rw [scan, extended.run_eq, scan_of_steps steps]
  rfl

/-- Behind the `}}` of a directive a scan begins anew, places apart. -/
theorem scan_append {a : String} (closed : EndsClosed a) (b : String) :
    (scan (a ++ b)).map Token.unlocated = (scan a ++ scan b).map Token.unlocated := by
  obtain ⟨ts, l, steps⟩ := closed
  have shifted : Scanner.Cursor.Shifted l .origin ⟨l, [], b.toList⟩ (.origin b.toList) :=
    ⟨⟨[], rfl, rfl⟩, rfl, rfl⟩
  rw [scan_append_of_steps steps, List.map_append, List.map_append]
  exact congrArg _ (Token.map_unlocated_eq (Scanner.run_shifted .text shifted))

end Stencil
