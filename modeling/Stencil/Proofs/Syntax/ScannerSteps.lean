import Mathlib.Data.List.Basic
import Stencil.Syntax.Scanner

/-!
# Runs of the scanner

`Steps` says that the scanner comes from one mode and cursor to another and emits tokens on the way.

* `Steps.run_eq`: a run is any of its initial pieces and the run from there.
* `Steps.extend`: what follows does not matter; steps that end exactly behind the `}}` of a directive are the same
  steps when more text follows.
-/

namespace Stencil

namespace Scanner

/-! ## Steps -/

/-- Steps from a mode and cursor to another, with the tokens that they emit. -/
inductive Steps : Mode → Cursor → List Token → Mode → Cursor → Prop
  | refl (m : Mode) (c : Cursor) : Steps m c [] m c
  | head {m m₁ m₂ : Mode} {c c₁ c₂ : Cursor} {ts : List Token} :
      (step m c).next = some (m₁, c₁) → Steps m₁ c₁ ts m₂ c₂ → Steps m c ((step m c).tokens ++ ts) m₂ c₂

theorem run_of_next {m m' : Mode} {c c' : Cursor} (h : (step m c).next = some (m', c')) :
    run m c = (step m c).tokens ++ run m' c' := by
  rw [run]
  split
  · next hn => rw [hn] at h; cases h
  · next hn =>
    rw [hn, Option.some.injEq, Prod.mk.injEq] at h
    obtain ⟨rfl, rfl⟩ := h
    rfl

theorem run_of_stop {m : Mode} {c : Cursor} (h : (step m c).next = none) : run m c = (step m c).tokens := by
  rw [run]
  split
  · rfl
  · next hn => rw [hn] at h; cases h

/-- A run is any of its initial pieces and the run from there. -/
theorem Steps.run_eq {m m' : Mode} {c c' : Cursor} {ts : List Token} (h : Steps m c ts m' c') :
    run m c = ts ++ run m' c' := by
  induction h with
  | refl => rfl
  | head hn _ ih => rw [run_of_next hn, ih, List.append_assoc]

theorem Steps.trans {m₁ m₂ m₃ : Mode} {c₁ c₂ c₃ : Cursor} {ts us : List Token} (h : Steps m₁ c₁ ts m₂ c₂)
    (h' : Steps m₂ c₂ us m₃ c₃) : Steps m₁ c₁ (ts ++ us) m₃ c₃ := by
  induction h with
  | refl => exact h'
  | head hn _ ih => rw [List.append_assoc]; exact .head hn (ih h')

/-! ## More text behind -/

/-- The cursor with more text behind what it has. -/
def Cursor.extend (c : Cursor) (more : List Char) : Cursor := ⟨c.start, c.window, c.rest ++ more⟩

section Pieces

theorem takeWhile_append_of_dropWhile {α : Type} {p : α → Bool} {as more : List α} (h : as.dropWhile p ≠ []) :
    (as ++ more).takeWhile p = as.takeWhile p := by
  induction as with
  | nil => simp at h
  | cons a as ih =>
    cases ha : p a with
    | true => simp only [List.dropWhile_cons, ha, if_true] at h; simp [ha, ih h]
    | false => simp [ha]

theorem dropWhile_append_of_dropWhile {α : Type} {p : α → Bool} {as more : List α} (h : as.dropWhile p ≠ []) :
    (as ++ more).dropWhile p = as.dropWhile p ++ more := by
  rw [List.dropWhile_append, if_neg (by simpa using h)]

variable {cs more : List Char}

theorem startsOpen_append (h : 2 ≤ cs.length) : startsOpen (cs ++ more) = startsOpen cs := by
  match cs with
  | [] | [_] => simp at h
  | a :: b :: cs =>
    simp only [startsOpen, List.cons_append]
    split <;> simp_all

theorem startsClose_append (h : 2 ≤ cs.length) : startsClose (cs ++ more) = startsClose cs := by
  match cs with
  | [] | [_] => simp at h
  | a :: b :: cs =>
    simp only [startsClose, List.cons_append]
    split <;> simp_all

theorem endsParameter_append (h : 2 ≤ cs.length) : endsParameter (cs ++ more) = endsParameter cs := by
  match cs with
  | [] | [_] => simp at h
  | a :: b :: cs =>
    rw [endsParameter, startsClose_append (by simp), endsParameter]
    rfl

/-- A split that leaves two characters is not changed by what follows. -/
theorem splitBefore_append_of_le {found : List Char → Bool}
    (hf : ∀ ds : List Char, 2 ≤ ds.length → found (ds ++ more) = found ds)
    (h : 2 ≤ (splitBefore found cs).2.length) :
    splitBefore found (cs ++ more) = ((splitBefore found cs).1, (splitBefore found cs).2 ++ more) := by
  induction cs with
  | nil => simp [splitBefore] at h
  | cons c cs ih =>
    have long := length_splitBefore_le found (c :: cs)
    have same := hf (c :: cs) (by omega)
    rw [List.cons_append] at same
    simp only [List.cons_append, splitBefore, same] at h ⊢
    split
    · rfl
    · next hc =>
      simp only [hc, if_false, Bool.false_eq_true] at h
      rw [ih h]

theorem splitBefore_found (found : List Char → Bool) (cs : List Char) (h : (splitBefore found cs).2 ≠ []) :
    found (splitBefore found cs).2 = true := by
  induction cs with
  | nil => simp [splitBefore] at h
  | cons c cs ih =>
    simp only [splitBefore] at h ⊢
    split
    · next hc => exact hc
    · next hc =>
      rw [if_neg hc] at h
      exact ih h

theorem splitQuoted_append_right {taken rest : List Char} (h : splitQuoted cs = some (taken, rest)) :
    splitQuoted (cs ++ more) = some (taken, rest ++ more) := by
  fun_induction splitQuoted cs generalizing taken rest with
  | case1 => simp at h
  | case2 cs ih =>
    obtain ⟨⟨t, r⟩, hr, he⟩ := Option.map_eq_some_iff.1 h
    simp only [Prod.mk.injEq] at he
    obtain ⟨rfl, rfl⟩ := he
    simp [splitQuoted, ih hr]
  | case3 cs =>
    simp only [Option.some.injEq, Prod.mk.injEq] at h
    obtain ⟨rfl, rfl⟩ := h
    simp [splitQuoted]
  | case4 c cs escaped quote ih =>
    obtain ⟨⟨t, r⟩, hr, he⟩ := Option.map_eq_some_iff.1 h
    simp only [Prod.mk.injEq] at he
    obtain ⟨rfl, rfl⟩ := he
    have notEscape : ∀ ds, c = '\\' → cs ++ more = '"' :: ds → False := by
      intro ds hc hds
      cases cs with
      | nil => simp [splitQuoted] at hr
      | cons d cs => simp only [List.cons_append, List.cons.injEq] at hds; exact escaped cs hc (by rw [hds.1])
    rw [List.cons_append, splitQuoted, ih hr]
    · rfl
    · exact notEscape
    · exact quote

end Pieces

/-! ### Cursors and steps with more text -/

section Extend

variable {more : List Char}

@[simp] theorem Cursor.rest_extend (c : Cursor) : (c.extend more).rest = c.rest ++ more := rfl

@[simp] theorem Cursor.window_extend (c : Cursor) : (c.extend more).window = c.window := rfl

@[simp] theorem Cursor.emit_extend (c : Cursor) (kind : TokenKind) : (c.extend more).emit kind = c.emit kind := rfl

@[simp] theorem Cursor.drop_extend (c : Cursor) : (c.extend more).drop = c.drop.extend more := rfl

@[simp] theorem Cursor.take_extend (c : Cursor) (taken rest : List Char) :
    (c.extend more).take taken (rest ++ more) = (c.take taken rest).extend more := rfl

theorem Cursor.takeRun_extend {p : Char → Bool} {c : Cursor} (h : (c.takeRun p).rest ≠ []) :
    (c.extend more).takeRun p = (c.takeRun p).extend more := by
  rw [takeRun, rest_extend, takeWhile_append_of_dropWhile h, dropWhile_append_of_dropWhile h, take_extend, takeRun]

theorem Cursor.skipRun_extend {p : Char → Bool} {c : Cursor} (h : (c.skipRun p).rest ≠ []) :
    (c.extend more).skipRun p = (c.skipRun p).extend more := by
  rw [skipRun, takeRun_extend h, drop_extend, skipRun]

theorem Cursor.skip_extend {n : Nat} {c : Cursor} (h : n ≤ c.rest.length) :
    (c.extend more).skip n = (c.skip n).extend more := by
  simp only [skip, rest_extend, List.take_append_of_le_length h, List.drop_append_of_le_length h, take_extend,
    drop_extend]

/-- The step whose cursor has more text behind it. -/
def Step.extend (s : Step) (more : List Char) : Step :=
  ⟨s.tokens, s.next.map fun next => (next.1, next.2.extend more)⟩

theorem ne_nil_of_startsClose {cs : List Char} (h : startsClose cs = true) : cs ≠ [] := by
  rintro rfl
  cases h

theorem length_le_of_startsOpen {cs : List Char} (h : startsOpen cs = true) : 2 ≤ cs.length := by
  unfold startsOpen at h
  split at h <;> simp_all

theorem close_extend {tokens : List Token} {p : Char → Bool} {f : Fault} {c c' : Cursor} {m : Mode}
    (h : (close tokens p f c).next = some (m, c')) :
    close tokens p f (c.extend more) = (close tokens p f c).extend more := by
  simp only [close] at h ⊢
  split at h
  · next closes =>
    have long := length_le_of_startsClose closes
    rw [Cursor.takeRun_extend (ne_nil_of_startsClose closes), if_pos closes, Cursor.rest_extend,
      startsClose_append long, if_pos closes, Cursor.drop_extend, Cursor.skip_extend (c := (c.takeRun p).drop) long]
    rfl
  · cases h

theorem close_next {tokens : List Token} {p : Char → Bool} {f : Fault} {c c' : Cursor} {m : Mode}
    (h : (close tokens p f c).next = some (m, c')) : m = .text ∧ 2 ≤ c.rest.length := by
  simp only [close] at h
  split at h
  · next closes =>
    have long := length_le_of_startsClose closes
    have := length_dropWhile_le p c.rest
    rw [Option.some.injEq, Prod.mk.injEq] at h
    exact ⟨h.1.symm, by simp only [Cursor.rest_takeRun] at long; omega⟩
  · cases h

theorem stepText_extend {c c' : Cursor} {m : Mode} (h : (stepText c).next = some (m, c')) :
    stepText (c.extend more) = (stepText c).extend more := by
  simp only [stepText] at h ⊢
  split at h
  · cases h
  · next found =>
    have long : 2 ≤ (splitBefore startsOpen c.rest).2.length :=
      length_le_of_startsOpen (splitBefore_found startsOpen c.rest (by simpa using found))
    rw [Cursor.rest_extend, splitBefore_append_of_le (fun _ => startsOpen_append) long]
    have notEnd : ¬((splitBefore startsOpen c.rest).2 ++ more).isEmpty = true := by
      simp only [List.isEmpty_iff, List.append_eq_nil_iff] at found ⊢
      exact fun he => found he.1
    rw [Cursor.take_extend, Cursor.emit_extend, Cursor.drop_extend, if_neg found, if_neg notEnd]
    rfl

theorem stepKeyword_extend {c c' : Cursor} {m : Mode} (h : (stepKeyword c).next = some (m, c'))
    (long : 2 ≤ c'.rest.length) : stepKeyword (c.extend more) = (stepKeyword c).extend more := by
  have shorter : c'.rest.length ≤ c.rest.length := by
    have := stepKeyword_decreases h
    simp only [measure] at this
    cases m <;> simp only [Mode.rank] at this <;> omega
  simp only [stepKeyword] at h ⊢
  rw [Cursor.rest_extend, startsOpen_append (by omega)]
  have opened : (if startsOpen c.rest then (c.extend more).skip 2 else c.extend more)
      = (if startsOpen c.rest then c.skip 2 else c).extend more := by
    split
    · exact Cursor.skip_extend (by omega)
    · rfl
  rw [opened]
  generalize (if startsOpen c.rest then c.skip 2 else c) = opened at h ⊢
  have notEnd (he : (opened.skipRun isSpace).rest ≠ []) :
      ((opened.skipRun isSpace).extend more).rest.head? = (opened.skipRun isSpace).rest.head? :=
    List.head?_append_of_ne_nil _ he
  split at h
  · next dot =>
    have spaces : (opened.skipRun isSpace).rest ≠ [] := by
      intro he
      rw [he] at dot
      cases dot
    rw [Cursor.skipRun_extend spaces, notEnd spaces, if_pos dot, if_pos dot]
    rfl
  · next noDot =>
    split at h
    · cases h
    · next notFault =>
      rw [Option.some.injEq, Prod.mk.injEq] at h
      obtain ⟨-, rfl⟩ := h
      have opening : (((opened.skipRun isSpace).takeRun isNameChar).drop.skipRun isOpening).rest ≠ [] := by
        intro he
        rw [he] at long
        simp at long
      have name : ((opened.skipRun isSpace).takeRun isNameChar).rest ≠ [] := by
        intro he
        rw [Cursor.rest_skipRun, Cursor.rest_drop, he] at opening
        exact opening rfl
      have spaces : (opened.skipRun isSpace).rest ≠ [] := by
        intro he
        rw [Cursor.rest_takeRun, he] at name
        exact name rfl
      rw [Cursor.skipRun_extend spaces, notEnd spaces, if_neg noDot, if_neg noDot, Cursor.takeRun_extend name,
        Cursor.drop_extend, Cursor.skipRun_extend opening, Cursor.rest_extend, startsClose_append long,
        Cursor.window_extend, if_neg notFault, if_neg notFault]
      rfl

theorem stepKeyword_next_ne_text (c c' : Cursor) : (stepKeyword c).next ≠ some (.text, c') := by
  intro h
  simp only [stepKeyword] at h
  generalize (if startsOpen c.rest then c.skip 2 else c) = opened at h
  split at h
  · cases h
  split at h
  · cases h
  rw [Option.some.injEq, Prod.mk.injEq, modeAfter] at h
  have h := h.1
  repeat' split at h
  all_goals cases h

theorem stepModelKey_extend {c c' : Cursor} {m : Mode} (h : (stepModelKey c).next = some (m, c')) :
    stepModelKey (c.extend more) = (stepModelKey c).extend more := by
  have key : (c.takeRun isKeyChar).rest ≠ [] := by
    intro he
    have := (close_next h).2
    rw [Cursor.rest_drop, he] at this
    simp at this
  simp only [stepModelKey] at h ⊢
  rw [Cursor.takeRun_extend key, Cursor.emit_extend, Cursor.drop_extend, close_extend h]

theorem stepParameter_extend {c c' : Cursor} {m : Mode} (h : (stepParameter c).next = some (m, c')) :
    stepParameter (c.extend more) = (stepParameter c).extend more := by
  simp only [stepParameter] at h ⊢
  split at h
  · cases h
  · next found =>
    have closes : startsClose (splitBefore startsClose (c.skipRun isSpace).rest).2 = true :=
      splitBefore_found startsClose _ (by simpa using found)
    have spaces : (c.skipRun isSpace).rest ≠ [] := by
      intro he
      rw [he] at closes
      cases closes
    have notEnd : ¬((splitBefore startsClose (c.skipRun isSpace).rest).2 ++ more).isEmpty = true := by
      simp only [List.isEmpty_iff, List.append_eq_nil_iff] at found ⊢
      exact fun he => found he.1
    rw [Cursor.skipRun_extend spaces, Cursor.rest_extend,
      splitBefore_append_of_le (fun _ => startsClose_append) (length_le_of_startsClose closes), if_neg found,
      if_neg notEnd, Cursor.take_extend, Cursor.emit_extend, Cursor.drop_extend, close_extend h]

theorem two_le_of_stepParameters {c c' : Cursor} {m : Mode} (h : (stepParameters c).next = some (m, c'))
    (long : m = .text ∨ 2 ≤ c'.rest.length) : 2 ≤ (splitBefore endsParameter c.rest).2.length := by
  simp only [stepParameters] at h
  split at h
  · cases h
  next d rest hr =>
  rw [hr]
  split at h
  · rw [Option.some.injEq, Prod.mk.injEq] at h
    obtain ⟨rfl, rfl⟩ := h
    simp only [Cursor.rest_take, List.length_cons, reduceCtorEq, false_or] at long ⊢
    omega
  split at h
  · rw [Option.some.injEq, Prod.mk.injEq] at h
    obtain ⟨rfl, rfl⟩ := h
    simp only [Cursor.rest_skip, Cursor.rest_drop, Cursor.rest_take, hr, List.drop_one, List.tail_cons, reduceCtorEq,
      false_or, List.length_cons] at long ⊢
    omega
  split at h
  all_goals
    have := (close_next h).2
    rwa [Cursor.rest_drop, Cursor.rest_take, hr] at this

theorem stepParameters_extend {c c' : Cursor} {m : Mode} (h : (stepParameters c).next = some (m, c'))
    (long : m = .text ∨ 2 ≤ c'.rest.length) : stepParameters (c.extend more) = (stepParameters c).extend more := by
  have ends := two_le_of_stepParameters h long
  have split : ∀ more, splitBefore endsParameter (c.rest ++ more) = _ :=
    fun _ => splitBefore_append_of_le (fun _ => endsParameter_append) ends
  simp only [stepParameters, Cursor.rest_extend, split] at h ⊢
  generalize hr : (splitBefore endsParameter c.rest).2 = rest at h ends ⊢
  cases rest with
  | nil => cases h
  | cons d rest =>
    simp only [List.cons_append] at h ⊢
    rw [← List.cons_append, Cursor.take_extend, Cursor.take_extend, Cursor.drop_extend, Cursor.emit_extend]
    by_cases quote : d = '"'
    · rw [if_pos quote, if_pos quote]
      rfl
    · rw [if_neg quote] at h ⊢
      rw [if_neg quote]
      by_cases separator : isSeparator d = true
      · rw [if_pos separator, if_pos separator, Cursor.skip_extend (by simp)]
        rfl
      · rw [if_neg separator] at h ⊢
        rw [if_neg separator]
        split
        · next paren => rw [if_pos paren] at h; rw [close_extend h]
        · next other => rw [if_neg other] at h; rw [close_extend h]

theorem stepQuoted_extend {c c' : Cursor} {m : Mode} (h : (stepQuoted c).next = some (m, c')) :
    stepQuoted (c.extend more) = (stepQuoted c).extend more := by
  simp only [stepQuoted] at h ⊢
  split at h
  · next taken rest hq =>
    rw [Cursor.rest_extend, splitQuoted_append_right hq]
    rfl
  · cases h

/-- A step that leaves text behind, or has just closed a directive, is the same step when more text follows. -/
theorem step_extend {m m' : Mode} {c c' : Cursor} (h : (step m c).next = some (m', c'))
    (long : m' = .text ∨ 2 ≤ c'.rest.length) : step m (c.extend more) = (step m c).extend more := by
  cases m with
  | text => exact stepText_extend h
  | keyword =>
    rcases long with rfl | long
    · exact absurd h (stepKeyword_next_ne_text c c')
    · exact stepKeyword_extend h long
  | modelKey => exact stepModelKey_extend h
  | parameter => exact stepParameter_extend h
  | parameters => exact stepParameters_extend h long
  | quoted => exact stepQuoted_extend h
  | instruction => exact close_extend h

end Extend

theorem step_next_length_le {m m' : Mode} {c c' : Cursor} (h : (step m c).next = some (m', c')) :
    c'.rest.length ≤ c.rest.length := by
  have := step_decreases h
  simp only [measure] at this
  cases m <;> cases m' <;> simp only [Mode.rank] at this <;> omega

/-- Only the `}}` of a directive leads back to text, and text leads to a `{{`. -/
theorem two_le_of_next {m m' : Mode} {c c' : Cursor} (h : (step m c).next = some (m', c')) (back : m' = .text) :
    2 ≤ c.rest.length := by
  subst back
  cases m with
  | text =>
    simp only [step, stepText] at h
    split at h <;> cases h
  | keyword => exact absurd h (stepKeyword_next_ne_text c c')
  | modelKey =>
    have := (close_next h).2
    have := length_dropWhile_le isKeyChar c.rest
    simp only [Cursor.rest_drop, Cursor.rest_takeRun] at *
    omega
  | parameter =>
    simp only [step, stepParameter] at h
    split at h
    · cases h
    · have := (close_next h).2
      have := length_splitBefore_le startsClose (c.skipRun isSpace).rest
      have := length_dropWhile_le isSpace c.rest
      simp only [Cursor.rest_drop, Cursor.rest_take, Cursor.rest_skipRun] at *
      omega
  | parameters =>
    exact Nat.le_trans (two_le_of_stepParameters h (.inl rfl)) (length_splitBefore_le endsParameter c.rest)
  | quoted =>
    simp only [step, stepQuoted] at h
    split at h <;> cases h
  | instruction => exact (close_next h).2

/-- Steps that end behind the `}}` of a directive, with all text used up, are the same steps when more text follows. -/
theorem Steps.extend {m last : Mode} {c c' : Cursor} {ts : List Token} (h : Steps m c ts last c') (back : last = .text)
    (ends : c'.rest = []) (more : List Char) :
    (m = .text ∨ 2 ≤ c.rest.length) ∧ Steps m (c.extend more) ts last (c'.extend more) := by
  induction h with
  | refl m c => exact ⟨.inl back, .refl _ _⟩
  | @head m m₁ m₂ c c₁ c₂ ts hn _ ih =>
    obtain ⟨long, steps⟩ := ih back ends
    have same : step m (c.extend more) = (step m c).extend more := step_extend hn long
    have next : (step m (c.extend more)).next = some (m₁, c₁.extend more) := by
      rw [same, Step.extend, hn]
      rfl
    refine ⟨?_, ?_⟩
    · rcases long with text | long
      · exact .inr (two_le_of_next hn text)
      · exact .inr (Nat.le_trans long (step_next_length_le hn))
    · have := Steps.head next steps
      rwa [same] at this

end Scanner

end Stencil
