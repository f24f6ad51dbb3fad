import Stencil.Proofs.Syntax.Slices

/-!
# How long a scan takes

A step of the scanner need not pass over anything: text hands over to a name in front of `{{`, and the name `if` to a
condition that is not there. But no two steps in a row leave the text as it is, and so the number of steps is bounded by
the length of the source.

* `Scanner.step_shortens`: two steps in a row pass over a character.
* `Scanner.stay`: steps from one parameter to the next, taken as one.
* `Scanner.runFor_eq_run`: a machine of which two steps in a row pass over a byte is done after twice as many steps as
  there are bytes, and two more.
* `scan_halts`: what a scan comes to, and how soon.
-/

namespace Stencil

namespace Scanner

section Steps

variable {m m' m₁ m₂ : Mode} {c c' c₁ c₂ : Cursor}

/-! ## What is left of the text -/

theorem splitBefore_suffix (found : List Char → Bool) (cs : List Char) : (splitBefore found cs).2 <:+ cs :=
  ⟨_, splitBefore_append found cs⟩

theorem close_suffix {tokens : List Token} {p : Char → Bool} {f : Fault}
    (h : (close tokens p f c).next = some (m', c')) : c'.rest <:+ c.rest := by
  simp only [close] at h
  split at h
  · cases h
    exact (List.drop_suffix 2 _).trans (List.dropWhile_suffix p)
  · cases h

/-- A name begins behind the `{{`, if there is one. -/
theorem stepKeyword_suffix (h : (stepKeyword c).next = some (m', c')) :
    c'.rest <:+ if startsOpen c.rest then c.rest.drop 2 else c.rest := by
  have opened : (if startsOpen c.rest then c.skip 2 else c).rest
      = if startsOpen c.rest then c.rest.drop 2 else c.rest := by
    split <;> rfl
  simp only [stepKeyword] at h
  rw [← opened]
  generalize (if startsOpen c.rest then c.skip 2 else c) = o at h ⊢
  have spaces : (o.skipRun isSpace).rest <:+ o.rest := List.dropWhile_suffix isSpace
  split at h
  · cases h
    exact spaces
  split at h
  · cases h
  · cases h
    exact (List.dropWhile_suffix isOpening).trans ((List.dropWhile_suffix isNameChar).trans spaces)

theorem stepParameters_suffix (h : (stepParameters c).next = some (m', c')) : c'.rest <:+ c.rest := by
  simp only [stepParameters] at h
  have taken := splitBefore_suffix endsParameter c.rest
  split at h
  · cases h
  next d more split =>
  have behind : more <:+ c.rest := (List.suffix_cons d more).trans (split ▸ taken)
  split at h
  · cases h
    exact behind
  split at h
  · cases h
    rw [Cursor.rest_skip, Cursor.rest_drop, Cursor.rest_take, split]
    exact behind
  split at h
  all_goals exact (close_suffix h).trans taken

/-- What a step leaves is the end of what there was. -/
theorem step_suffix (h : (step m c).next = some (m', c')) : c'.rest <:+ c.rest := by
  cases m with
  | text =>
    simp only [step, stepText] at h
    split at h
    · cases h
    · cases h
      exact splitBefore_suffix startsOpen c.rest
  | keyword =>
    refine (stepKeyword_suffix h).trans ?_
    split
    · exact List.drop_suffix 2 c.rest
    · exact List.suffix_rfl
  | modelKey => exact (close_suffix h).trans (List.dropWhile_suffix isKeyChar)
  | parameter =>
    simp only [step, stepParameter] at h
    split at h
    · cases h
    · exact (close_suffix h).trans ((splitBefore_suffix startsClose _).trans (List.dropWhile_suffix isSpace))
  | parameters => exact stepParameters_suffix h
  | quoted =>
    simp only [step, stepQuoted] at h
    split at h
    · next taken rest found =>
      cases h
      exact ⟨taken, splitQuoted_append found⟩
    · cases h
  | instruction => exact close_suffix h

/-! ## Two steps in a row -/

/-- Text is left in front of a `{{`. -/
theorem stepText_next (h : (stepText c).next = some (m', c')) : m' = .keyword ∧ startsOpen c'.rest = true := by
  simp only [stepText] at h
  split at h
  · cases h
  · next found =>
    cases h
    exact ⟨rfl, splitBefore_found startsOpen c.rest (by simpa using found)⟩

/-- Two steps in a row pass over a character: only text and names can be left for nothing, and text is left for a name
with a `{{` before it. -/
theorem step_shortens (h : (step m c).next = some (m₁, c₁)) (h₁ : (step m₁ c₁).next = some (m₂, c₂)) :
    c₂.rest.length < c.rest.length := by
  have first := step_decreases h
  have second := step_decreases h₁
  have shorter := step_next_length_le h
  have shorter₁ := step_next_length_le h₁
  cases m with
  | text =>
    obtain ⟨rfl, opens⟩ := stepText_next h
    have passed := (stepKeyword_suffix h₁).length_le
    have braces := length_le_of_startsOpen opens
    rw [if_pos opens, List.length_drop] at passed
    omega
  | _ =>
    simp only [measure, Mode.rank] at first second
    omega

/-! ## Steps within a directive's parameters -/

/-- A step, with all steps behind it that go on from one parameter to the next. -/
def stay (m : Mode) (c : Cursor) : Step :=
  match h : (step m c).next with
  | none => step m c
  | some (m', c') =>
    if m = .parameters ∧ m' = .parameters then
      have := step_decreases h
      ⟨(step m c).tokens ++ (stay m' c').tokens, (stay m' c').next⟩
    else step m c
termination_by measure m c

theorem stay_of_stop (h : (step m c).next = none) : stay m c = step m c := by
  rw [stay]
  split
  · rfl
  · next other => rw [h] at other; cases other

theorem stay_of_next (h : (step m c).next = some (m', c')) :
    stay m c = if m = .parameters ∧ m' = .parameters then
      ⟨(step m c).tokens ++ (stay m' c').tokens, (stay m' c').next⟩ else step m c := by
  rw [stay]
  split
  · next other => rw [h] at other; cases other
  · next other =>
    rw [h, Option.some.injEq, Prod.mk.injEq] at other
    obtain ⟨rfl, rfl⟩ := other
    rfl

/-- A run is what is emitted at first and the run from there, whether single steps are counted or stays. -/
theorem run_eq_stay (m : Mode) (c : Cursor) :
    run m c = (stay m c).tokens ++ (((stay m c).next.map fun n => run n.1 n.2).getD []) := by
  induction hn : measure m c using Nat.strongRecOn generalizing m c with
  | _ n ih =>
    cases hs : (step m c).next with
    | none => simp [stay_of_stop hs, run_of_stop hs, hs]
    | some next =>
      obtain ⟨m', c'⟩ := next
      rw [stay_of_next hs, run_of_next hs]
      split
      · rw [ih _ (hn ▸ step_decreases hs) m' c' rfl, List.append_assoc]
      · rw [hs]
        rfl

/-- A stay begins with a step, and ends there or some steps later. -/
theorem exists_step_of_stay (h : (stay m c).next = some (m', c')) :
    ∃ m₁ c₁, (step m c).next = some (m₁, c₁)
      ∧ (m' = m₁ ∧ c' = c₁ ∨ ∃ m₂ c₂, (step m₁ c₁).next = some (m₂, c₂) ∧ c'.rest <:+ c₂.rest) := by
  induction hn : measure m c using Nat.strongRecOn generalizing m c with
  | _ n ih =>
    cases hs : (step m c).next with
    | none =>
      rw [stay_of_stop hs, hs] at h
      cases h
    | some next =>
      obtain ⟨m₁, c₁⟩ := next
      rw [stay_of_next hs] at h
      refine ⟨m₁, c₁, rfl, ?_⟩
      split at h
      · obtain ⟨m₂, c₂, second, rest⟩ := ih _ (hn ▸ step_decreases hs) h rfl
        refine .inr ⟨m₂, c₂, second, ?_⟩
        rcases rest with ⟨-, rfl⟩ | ⟨m₃, c₃, third, rest⟩
        · exact List.suffix_rfl
        · exact rest.trans (step_suffix third)
      · rw [hs] at h
        cases h
        exact .inl ⟨rfl, rfl⟩

end Steps

/-! ## Machines -/

/-- Two steps in a row of a machine pass over a byte. -/
def Consumes (f : Mode → Cursor → Step) : Prop :=
  ∀ m c m₁ c₁ m₂ c₂, (f m c).next = some (m₁, c₁) → (f m₁ c₁).next = some (m₂, c₂) →
    String.utf8Len c₂.rest < String.utf8Len c.rest

/-- A machine emits the tokens of the scanner. -/
def Emits (f : Mode → Cursor → Step) : Prop :=
  ∀ m c, run m c = (f m c).tokens ++ (((f m c).next.map fun n => run n.1 n.2).getD [])

theorem utf8Len_lt_of_suffix {as bs : List Char} (h : as <:+ bs) (shorter : as.length < bs.length) :
    String.utf8Len as < String.utf8Len bs := by
  obtain ⟨front, rfl⟩ := h
  have filled : front ≠ [] := by
    rintro rfl
    exact absurd shorter (Nat.lt_irrefl _)
  have := utf8Len_pos filled
  rw [String.utf8Len_append]
  omega

theorem consumes_step : Consumes step := fun _ _ _ _ _ _ h h₁ =>
  utf8Len_lt_of_suffix ((step_suffix h₁).trans (step_suffix h)) (step_shortens h h₁)

theorem consumes_stay : Consumes stay := by
  intro m c m' c' m'' c'' h h'
  obtain ⟨m₁, c₁, first, rest⟩ := exists_step_of_stay h
  obtain ⟨m₂, c₂, second, rest'⟩ := exists_step_of_stay h'
  have later : c''.rest <:+ c₂.rest := by
    rcases rest' with ⟨-, rfl⟩ | ⟨m₃, c₃, third, rest'⟩
    · exact List.suffix_rfl
    · exact rest'.trans (step_suffix third)
  refine Nat.lt_of_le_of_lt (String.utf8Len_le_of_suffix later) ?_
  rcases rest with ⟨rfl, rfl⟩ | ⟨m₃, c₃, third, rest⟩
  · exact consumes_step _ _ _ _ _ _ first second
  · exact Nat.lt_of_le_of_lt (String.utf8Len_le_of_suffix ((step_suffix second).trans rest))
      (consumes_step _ _ _ _ _ _ first third)

theorem emits_step : Emits step := by
  intro m c
  cases hs : (step m c).next with
  | none => simp [run_of_stop hs]
  | some next => exact run_of_next hs

theorem emits_stay : Emits stay := run_eq_stay

/-- The tokens that a machine emits in at most so many steps, and the mode and cursor that it has come to then, unless
it has stopped. -/
def runFor (f : Mode → Cursor → Step) : Nat → Mode → Cursor → List Token × Option (Mode × Cursor)
  | 0, m, c => ([], some (m, c))
  | k + 1, m, c =>
    match (f m c).next with
    | none => ((f m c).tokens, none)
    | some (m', c') => ((f m c).tokens ++ (runFor f k m' c').1, (runFor f k m' c').2)

section Machine

variable {f : Mode → Cursor → Step} {k : Nat} {m m' : Mode} {c c' : Cursor}

theorem runFor_of_stop (h : (f m c).next = none) : runFor f (k + 1) m c = ((f m c).tokens, none) := by
  rw [runFor, h]

theorem runFor_of_next (h : (f m c).next = some (m', c')) :
    runFor f (k + 1) m c = ((f m c).tokens ++ (runFor f k m' c').1, (runFor f k m' c').2) := by
  rw [runFor, h]

theorem Emits.run_of_stop (emits : Emits f) (h : (f m c).next = none) : run m c = (f m c).tokens := by
  rw [emits m c, h]
  exact List.append_nil _

theorem Emits.run_of_next (emits : Emits f) (h : (f m c).next = some (m', c')) :
    run m c = (f m c).tokens ++ run m' c' := by
  rw [emits m c, h]
  rfl

/-- A machine that passes over a byte in two steps stops within twice as many steps as there are bytes, and two more. -/
theorem runFor_eq_run (consumes : Consumes f) (emits : Emits f) (enough : 2 * String.utf8Len c.rest + 2 ≤ k) :
    runFor f k m c = (run m c, none) := by
  -- Two steps at a time: the second one leaves less of the text, and two steps less are enough for it.
  induction hn : String.utf8Len c.rest using Nat.strongRecOn generalizing k m c with
  | _ n ih =>
    obtain ⟨k, rfl⟩ : ∃ j, k = j + 2 := ⟨k - 2, by omega⟩
    cases h : (f m c).next with
    | none => rw [runFor_of_stop h, emits.run_of_stop h]
    | some next =>
      obtain ⟨m₁, c₁⟩ := next
      rw [runFor_of_next h, emits.run_of_next h]
      cases h₁ : (f m₁ c₁).next with
      | none => rw [runFor_of_stop h₁, emits.run_of_stop h₁]
      | some next =>
        obtain ⟨m₂, c₂⟩ := next
        have shorter := consumes _ _ _ _ _ _ h h₁
        rw [runFor_of_next h₁, emits.run_of_next h₁, ih _ (hn ▸ shorter) (by omega) rfl]

end Machine

end Scanner

/-! ## Scans -/

/-- Only the last token of a scan is an error. -/
theorem kind_ne_of_mem_dropLast (source : String) : ∀ t ∈ (scan source).dropLast, t.kind ≠ .error := by
  obtain ⟨tokens, fault, scanned, plain, -⟩ := exists_scan_eq source
  intro t member
  rw [scanned] at member
  cases fault with
  | none =>
    rw [Option.toList_none, List.append_nil] at member
    exact plain t (List.mem_of_mem_dropLast member)
  | some e =>
    rw [Option.toList_some, List.dropLast_concat] at member
    exact plain t member

section Errors

variable {ts : List Token} (last : ∀ t ∈ ts.dropLast, t.kind ≠ .error)
include last

theorem countP_error_le_one : ts.countP (fun t => t.kind == .error) ≤ 1 := by
  induction ts using List.reverseRecOn with
  | nil => exact Nat.zero_le 1
  | append_singleton ts e =>
    rw [List.dropLast_concat] at last
    have none' : ts.countP (fun t => t.kind == .error) = 0 :=
      List.countP_eq_zero.2 fun t ht => by simpa using last t ht
    rw [List.countP_append, none', Nat.zero_add]
    exact List.countP_le_length

/-- The error that is found first is the last token. -/
theorem find?_error_eq : ts.find? (fun t => t.kind == .error) = ts.getLast?.filter fun t => t.kind == .error := by
  induction ts using List.reverseRecOn with
  | nil => rfl
  | append_singleton ts e =>
    rw [List.dropLast_concat] at last
    have none' : ts.find? (fun t => t.kind == .error) = none :=
      List.find?_eq_none.2 fun t ht => by simpa using last t ht
    rw [List.find?_append, none', Option.none_or, List.getLast?_concat, Option.filter_some, List.find?_singleton]

end Errors

theorem tokenize_eq (source : String) :
    tokenize source = match (scan source).getLast?.filter fun t => t.kind == .error with
      | some e => .error e
      | none => .ok (scan source) := by
  rw [← find?_error_eq (kind_ne_of_mem_dropLast source)]
  rfl

theorem tokenize_eq_error_iff {source : String} {e : Token} :
    tokenize source = .error e ↔ (scan source).getLast? = some e ∧ e.kind = .error := by
  have found : ((scan source).getLast?.filter fun t => t.kind == .error) = some e
      ↔ (scan source).getLast? = some e ∧ e.kind = .error := by
    rw [Option.filter_eq_some_iff, beq_iff_eq]
  rw [tokenize_eq, ← found]
  cases (scan source).getLast?.filter fun t => t.kind == .error with
  | none => exact ⟨nofun, nofun⟩
  | some e' => rw [Except.error.injEq, Option.some.injEq]

theorem tokenize_eq_ok_iff {source : String} {ts : List Token} :
    tokenize source = .ok ts ↔ ts = scan source ∧ ∀ t, (scan source).getLast? = some t → t.kind ≠ .error := by
  have free : ((scan source).getLast?.filter fun t => t.kind == .error) = none
      ↔ ∀ t, (scan source).getLast? = some t → t.kind ≠ .error := by
    simp only [Option.filter_eq_none_iff, beq_iff_eq, ne_eq]
  rw [tokenize_eq, ← free]
  cases (scan source).getLast?.filter fun t => t.kind == .error with
  | none => rw [Except.ok.injEq, eq_comm, and_iff_left rfl]
  | some e => exact ⟨nofun, fun h => nomatch h.2⟩

/-- How a scan ends: after how many steps, and with which tokens. -/
structure Halts (source : String) : Prop where
  /-- Two steps in a row pass over a byte. -/
  consumes : Scanner.Consumes Scanner.step
  /-- So do two steps that go over any number of parameters each. -/
  consumesStay : Scanner.Consumes Scanner.stay
  /-- The scanner stops after at most twice as many steps as there are bytes, and two more. -/
  steps : Scanner.runFor Scanner.step (2 * source.utf8ByteSize + 2) .text (.origin source.toList)
    = (scan source, none)
  stays : Scanner.runFor Scanner.stay (2 * source.utf8ByteSize + 2) .text (.origin source.toList)
    = (scan source, none)
  /-- There is one error at most. -/
  single : (scan source).countP (fun t => t.kind == .error) ≤ 1
  /-- Only the last token is an error. -/
  last : ∀ t ∈ (scan source).dropLast, t.kind ≠ .error
  refuses : ∀ e, tokenize source = .error e ↔ (scan source).getLast? = some e ∧ e.kind = .error
  accepts : ∀ ts, tokenize source = .ok ts
    ↔ ts = scan source ∧ ∀ t, (scan source).getLast? = some t → t.kind ≠ .error

/-- **A scan is over soon**, and tells by its last token whether it met an error. -/
theorem scan_halts (source : String) : Halts source := by
  have enough : 2 * String.utf8Len (Scanner.Cursor.origin source.toList).rest + 2 ≤ 2 * source.utf8ByteSize + 2 := by
    rw [← String.utf8Len_toList]
    exact Nat.le_refl _
  have last := kind_ne_of_mem_dropLast source
  exact {
    consumes := Scanner.consumes_step
    consumesStay := Scanner.consumes_stay
    steps := Scanner.runFor_eq_run Scanner.consumes_step Scanner.emits_step enough
    stays := Scanner.runFor_eq_run Scanner.consumes_stay Scanner.emits_stay enough
    single := countP_error_le_one last
    last := last
    refuses := fun _ => tokenize_eq_error_iff
    accepts := fun _ => tokenize_eq_ok_iff }

end Stencil
