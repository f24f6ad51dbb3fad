import Stencil.Proofs.Syntax.ScannerSteps
import Stencil.Proofs.Syntax.Unlocated

/-!
# What the scanner makes of single pieces

`Passes` says that the scanner comes from a mode in front of a text to another one, from any place, and which tokens it
emits on the way, places apart. Each piece of a directive (its opening, its name, a path, a word, an argument in
quotes, its end) passes by itself; a directive is made of such pieces.
-/

namespace Stencil

namespace Scanner

/-- From mode `m` in front of `cs` to mode `m'` in front of `cs'`, with the tokens `ts`, wherever `cs` stands. -/
def Passes (m : Mode) (cs : List Char) (ts : List Token) (m' : Mode) (cs' : List Char) : Prop :=
  ∀ l, ∃ us l', us.map Token.unlocated = ts ∧ Steps m ⟨l, [], cs⟩ us m' ⟨l', [], cs'⟩

/-- A token without a place. -/
def bare (kind : TokenKind) (cs : List Char) : Token := ⟨kind, String.ofList cs, .origin⟩

section Passes

variable {m m₁ m₂ m' : Mode} {cs cs₁ cs₂ rest : List Char} {ts us : List Token}

theorem Passes.trans (h : Passes m cs ts m₁ cs₁) (h' : Passes m₁ cs₁ us m₂ cs₂) : Passes m cs (ts ++ us) m₂ cs₂ := by
  intro l
  obtain ⟨vs, l₁, hv, first⟩ := h l
  obtain ⟨ws, l₂, hw, second⟩ := h' l₁
  exact ⟨vs ++ ws, l₂, by rw [List.map_append, hv, hw], first.trans second⟩

/-- One step that leaves an empty window. -/
theorem Passes.of_step (h : ∀ l, ∃ l', (step m ⟨l, [], cs⟩).next = some (m', ⟨l', [], cs'⟩)
    ∧ (step m ⟨l, [], cs⟩).tokens.map Token.unlocated = ts) : Passes m cs ts m' cs' := by
  intro l
  obtain ⟨l', next, tokens⟩ := h l
  exact ⟨_, l', by rw [List.append_nil]; exact tokens, .head next (.refl _ _)⟩

/-- Two steps, the first of which emits nothing. -/
theorem Passes.of_steps {w : List Char} (h : ∀ l, step m ⟨l, [], cs⟩ = ⟨[], some (m₁, ⟨l, w, cs₁⟩)⟩)
    (h' : ∀ l, ∃ l', (step m₁ ⟨l, w, cs₁⟩).next = some (m', ⟨l', [], cs₂⟩)
      ∧ (step m₁ ⟨l, w, cs₁⟩).tokens.map Token.unlocated = ts) : Passes m cs ts m' cs₂ := by
  intro l
  obtain ⟨l', next, tokens⟩ := h' l
  refine ⟨_, l', ?_, .head (by rw [h]) (.head next (.refl _ _))⟩
  rw [h, List.nil_append, List.append_nil]
  exact tokens

end Passes

/-! ## Cutting texts -/

/-- A split finds the first place where what follows is found. -/
theorem splitBefore_append_found {found : List Char → Bool} {cs rest : List Char}
    (h : ∀ c ds, c :: ds <:+ cs → found (c :: (ds ++ rest)) = false) (hr : rest = [] ∨ found rest = true) :
    splitBefore found (cs ++ rest) = (cs, rest) := by
  induction cs with
  | nil =>
    cases rest with
    | nil => rfl
    | cons c rest => simp [splitBefore, hr.resolve_left (List.cons_ne_nil _ _)]
  | cons c cs ih =>
    have tail := ih fun d ds hd => h d ds (hd.trans (List.suffix_cons c cs))
    rw [List.cons_append, splitBefore, if_neg (by simp [h c cs List.suffix_rfl]), tail]

theorem takeWhile_append_stop {p : Char → Bool} {cs rest : List Char} (h : ∀ c ∈ cs, p c = true)
    (hr : ∀ c ∈ rest.head?, p c = false) : (cs ++ rest).takeWhile p = cs := by
  rw [List.takeWhile_append_of_pos h]
  cases rest with
  | nil => simp
  | cons c rest => simp [hr c rfl]

theorem dropWhile_append_stop {p : Char → Bool} {cs rest : List Char} (h : ∀ c ∈ cs, p c = true)
    (hr : ∀ c ∈ rest.head?, p c = false) : (cs ++ rest).dropWhile p = rest := by
  rw [List.dropWhile_append_of_pos h, Text.dropWhile_eq_self hr]

/-- Characters that end no parameter. -/
def isWordChar (c : Char) : Bool := c != ')' && c != '"' && c != ' ' && c != ',' && c != '}'

theorem endsParameter_word {c : Char} (h : isWordChar c = true) (cs : List Char) :
    endsParameter (c :: cs) = false := by
  simp only [isWordChar, Bool.and_eq_true, bne_iff_ne] at h
  obtain ⟨⟨⟨⟨paren, quote⟩, space⟩, comma⟩, brace⟩ := h
  have closes : startsClose (c :: cs) = false := by
    unfold startsClose
    split
    · next heq => exact absurd (List.cons.inj heq).1 brace
    · rfl
  simp [endsParameter, closes, isSeparator, paren, quote, space, comma]

/-! ## Cursors that stop -/

theorem takeRun_append {p : Char → Bool} {cs rest : List Char} (h : ∀ c ∈ cs, p c = true)
    (hr : ∀ c ∈ rest.head?, p c = false) (l : Location) (w : List Char) :
    Cursor.takeRun ⟨l, w, cs ++ rest⟩ p = ⟨l, w ++ cs, rest⟩ := by
  simp only [Cursor.takeRun, Cursor.take, takeWhile_append_stop h hr, dropWhile_append_stop h hr]

theorem skipRun_append {p : Char → Bool} (cs : List Char) {rest : List Char} (h : ∀ c ∈ cs, p c = true)
    (hr : ∀ c ∈ rest.head?, p c = false) (l : Location) (w : List Char) :
    Cursor.skipRun ⟨l, w, cs ++ rest⟩ p = ⟨l.advance (w ++ cs), [], rest⟩ := by
  simp only [Cursor.skipRun, takeRun_append h hr, Cursor.drop, Cursor.here]

/-- The token of a window without its place. -/
def bareWindow (kind : TokenKind) (w : List Char) : List Token := if w.isEmpty then [] else [bare kind w]

theorem bareWindow_of_ne_nil {kind : TokenKind} {w : List Char} (h : w ≠ []) : bareWindow kind w = [bare kind w] := by
  simp [bareWindow, h]

theorem emit_unlocated {kind : TokenKind} (hk : kind ≠ .error) (l : Location) (w rest : List Char) :
    (Cursor.emit ⟨l, w, rest⟩ kind).map Token.unlocated = bareWindow kind w := by
  rw [Cursor.emit, bareWindow]
  split <;> simp [Token.unlocated, hk, bare]

/-- Behind the last piece of a directive `}}` follows, and the scanner goes on with text. -/
theorem close_append {p : Char → Bool} (cs : List Char) (h : ∀ c ∈ cs, p c = true) (brace : p '}' = false)
    (ts : List Token) (f : Fault) (l : Location) (w rest : List Char) :
    ∃ l', close ts p f ⟨l, w, cs ++ '}' :: '}' :: rest⟩ = ⟨ts, some (.text, ⟨l', [], rest⟩)⟩ := by
  rw [close, takeRun_append h (by simpa using brace)]
  exact ⟨_, rfl⟩

/-! ## Opening a directive -/

/-- A character of one kind is none of another kind. -/
theorem ne_of_kind {p : Char → Bool} {c d : Char} (h : p c = true) (hd : p d = false) : c ≠ d := by
  rintro rfl
  rw [h] at hd
  cases hd

/-- The text of a directive between its braces, with a blank at both ends. -/
def braced (cs : List Char) : List Char := '{' :: '{' :: ' ' :: (cs ++ [' ', '}', '}'])

section Opening

variable {name rest cs : List Char}

theorem passes_open : Passes .text ('{' :: '{' :: cs) [] .keyword ('{' :: '{' :: cs) := .of_step fun _ => ⟨_, rfl, rfl⟩

theorem passes_path : Passes .keyword ('.' :: cs) [] .modelKey ('.' :: cs) := .of_step fun _ => ⟨_, rfl, rfl⟩

theorem passes_open_path : Passes .keyword ('{' :: '{' :: ' ' :: '.' :: cs) [] .modelKey ('.' :: cs) :=
  .of_step fun _ => ⟨_, rfl, rfl⟩

/-- A name in front of a character of another kind. Only `if` may not stand alone. -/
theorem stepKeyword_name (named : name ≠ []) (chars : ∀ c ∈ name, isNameChar c = true)
    (stops : ∀ c ∈ rest.head?, isNameChar c = false)
    (notAlone : name = ['i', 'f'] → startsClose (rest.dropWhile isOpening) = false) {pre : List Char}
    (hpre : pre = [] ∨ pre = ['{', '{', ' ']) (l : Location) :
    ∃ l₁ l₂, stepKeyword ⟨l, [], pre ++ (name ++ rest)⟩
      = ⟨[⟨.function, String.ofList name, l₁⟩], some (modeAfter name, ⟨l₂, [], rest.dropWhile isOpening⟩)⟩ := by
  obtain ⟨c, cs, rfl⟩ := List.exists_cons_of_ne_nil named
  have first := chars c List.mem_cons_self
  have space : isSpace c = false := by simpa [isSpace] using ne_of_kind first (d := ' ') (by decide)
  have brace : c ≠ '{' := ne_of_kind first (by decide)
  have dot : c ≠ '.' := ne_of_kind first (by decide)
  have opens : startsOpen (c :: cs ++ rest) = false := by
    rw [List.cons_append]
    unfold startsOpen
    split
    · next heq => exact absurd (List.cons.inj heq).1 brace
    · rfl
  have spaces : ∀ d ∈ (c :: cs ++ rest).head?, isSpace d = false := by simpa using space
  -- braces and blanks in front of the name are skipped
  obtain ⟨l', opened⟩ : ∃ l', ((if startsOpen (pre ++ (c :: cs ++ rest)) then
      Cursor.skip ⟨l, [], pre ++ (c :: cs ++ rest)⟩ 2 else ⟨l, [], pre ++ (c :: cs ++ rest)⟩).skipRun isSpace)
      = ⟨l', [], c :: cs ++ rest⟩ := by
    rcases hpre with rfl | rfl
    · rw [List.nil_append, opens]
      exact ⟨_, skipRun_append [] (List.forall_mem_nil _) spaces l []⟩
    · exact ⟨_, skipRun_append [' '] (by simp [isSpace]) spaces _ []⟩
  have alone : (decide (c :: cs = ['i', 'f']) && startsClose (rest.dropWhile isOpening)) = false := by
    by_cases isIf : c :: cs = ['i', 'f']
    · rw [notAlone isIf, Bool.and_false]
    · rw [decide_eq_false isIf, Bool.false_and]
  have notDot : (c :: cs ++ rest).head? ≠ some '.' := by simpa using dot
  simp only [stepKeyword, opened, takeRun_append chars stops, List.nil_append, if_neg notDot, Cursor.rest_skipRun,
    Cursor.rest_drop, alone, Bool.false_eq_true, if_false]
  exact ⟨l', _, rfl⟩

/-- The name of a directive in front of a blank or a parenthesis. -/
theorem passes_name (rest : List Char) (named : name ≠ []) (chars : ∀ c ∈ name, isNameChar c = true)
    (stops : ∀ c ∈ rest.head?, isNameChar c = false)
    (notAlone : name = ['i', 'f'] → startsClose (rest.dropWhile isOpening) = false) :
    Passes .keyword (name ++ rest) [bare .function name] (modeAfter name) (rest.dropWhile isOpening) := by
  refine .of_step fun l => ?_
  obtain ⟨l₁, l₂, same⟩ := stepKeyword_name named chars stops notAlone (.inl rfl) l
  exact ⟨l₂, by rw [step, ← List.nil_append (name ++ rest), same], by
    rw [step, ← List.nil_append (name ++ rest), same]; rfl⟩

/-- The beginning of a directive with a name. -/
theorem passes_open_name (rest : List Char) (named : name ≠ []) (chars : ∀ c ∈ name, isNameChar c = true)
    (stops : ∀ c ∈ rest.head?, isNameChar c = false)
    (notAlone : name = ['i', 'f'] → startsClose (rest.dropWhile isOpening) = false) :
    Passes .text ('{' :: '{' :: ' ' :: (name ++ rest)) [bare .function name] (modeAfter name)
      (rest.dropWhile isOpening) := by
  refine passes_open.trans (.of_step fun l => ?_)
  obtain ⟨l₁, l₂, same⟩ := stepKeyword_name named chars stops notAlone (.inr rfl) l
  rw [List.cons_append, List.cons_append, List.cons_append, List.nil_append] at same
  exact ⟨l₂, by rw [step, same], by rw [step, same]; rfl⟩

end Opening

/-! ## Parameters -/

section Parameters

variable {w rest : List Char}

/-- A path that stands alone, and the end of its directive. -/
theorem passes_key (rest : List Char) (named : w ≠ []) (chars : ∀ c ∈ w, isKeyChar c = true) :
    Passes .modelKey (w ++ ' ' :: '}' :: '}' :: rest) [bare .parameter w] .text rest := by
  refine .of_step fun l => ?_
  obtain ⟨l', closed⟩ := close_append (p := isSpace) [' '] (by simp [isSpace]) (by decide)
    (Cursor.emit ⟨l, w, ' ' :: '}' :: '}' :: rest⟩ .parameter) .afterModelKey (l.advance w) [] rest
  have stop : ∀ c ∈ (' ' :: '}' :: '}' :: rest).head?, isKeyChar c = false := by simp; decide
  have taken := takeRun_append chars stop l []
  rw [List.nil_append] at taken
  simp only [step, stepModelKey, taken]
  rw [← bareWindow_of_ne_nil named]
  exact ⟨l', congrArg Step.next closed, (congrArg (fun s => s.tokens.map Token.unlocated) closed).trans
    (emit_unlocated (by decide) l w _)⟩

/-- What a step makes of a parameter without quotes and of what ends it. -/
theorem splitBefore_word (chars : ∀ c ∈ w, isWordChar c = true) (ends : endsParameter rest = true) :
    splitBefore endsParameter (w ++ rest) = (w, rest) :=
  splitBefore_append_found (fun c _ hs => endsParameter_word (chars c (hs.subset List.mem_cons_self)) _) (.inr ends)

/-- A parameter without quotes, if there is one, in front of a separator. -/
theorem passes_word {d : Char} (rest : List Char) (chars : ∀ c ∈ w, isWordChar c = true) (h : isSeparator d = true) :
    Passes .parameters (w ++ d :: rest) (bareWindow .parameter w) .parameters rest := by
  refine .of_step fun l => ?_
  have ends : endsParameter (d :: rest) = true := by simp [endsParameter, h]
  have quote : d ≠ '"' := by
    rintro rfl
    cases h
  simp only [step, stepParameters, splitBefore_word chars ends, Cursor.take, List.nil_append, if_neg quote, h, if_true]
  exact ⟨_, rfl, emit_unlocated (by decide) l w _⟩

/-- The last parameter of a directive, if there is one left, in front of a parenthesis. -/
theorem passes_paren (rest : List Char) (chars : ∀ c ∈ w, isWordChar c = true) :
    Passes .parameters (w ++ ')' :: ' ' :: '}' :: '}' :: rest) (bareWindow .parameter w) .text rest := by
  refine .of_step fun l => ?_
  have ends : endsParameter (')' :: ' ' :: '}' :: '}' :: rest) = true := by simp [endsParameter]
  obtain ⟨l', closed⟩ := close_append (p := isClosing) [')', ' '] (by simp [isClosing]) (by decide)
    (Cursor.emit ⟨l, w, ')' :: ' ' :: '}' :: '}' :: rest⟩ .parameter) .afterParenthesis (l.advance w) [] rest
  simp only [step, stepParameters, splitBefore_word chars ends, Cursor.take, List.nil_append]
  exact ⟨l', congrArg Step.next closed, (congrArg (fun s => s.tokens.map Token.unlocated) closed).trans
    (emit_unlocated (by decide) l w _)⟩

theorem passes_end : Passes .parameters ('}' :: '}' :: rest) [] .text rest :=
  .of_step fun l => by
    have split : splitBefore endsParameter ('}' :: '}' :: rest) = ([], '}' :: '}' :: rest) := rfl
    simp only [step, stepParameters, split]
    exact ⟨_, rfl, rfl⟩

/-- Nothing but the end of the directive follows the name. -/
theorem passes_instruction : Passes .instruction ('}' :: '}' :: rest) [] .text rest := .of_step fun _ => ⟨_, rfl, rfl⟩

end Parameters

/-! ## Parameters of other forms -/

/-- Whether each double quote has a backslash right before it, and no backslash stands at the end. The text stands
behind the character `before`. -/
def escapesQuotes (before : Char) : List Char → Bool
  | [] => before != '\\'
  | c :: cs => (c != '"' || before == '\\') && escapesQuotes c cs

/-- A text in double quotes. -/
def quoted (cs : List Char) : List Char := '"' :: (cs ++ ['"'])

section Forms

variable {cs rest : List Char}

/-- The quote behind a text whose quotes are escaped is the one that closes. -/
theorem splitQuoted_append_quote {before : Char} (h : escapesQuotes before cs = true) (hb : before ≠ '\\') :
    splitQuoted (cs ++ '"' :: rest) = some (cs ++ ['"'], rest) := by
  induction cs using splitQuoted.induct generalizing before with
  | case1 => rfl
  | case2 cs ih =>
    simp only [escapesQuotes, Bool.and_eq_true] at h
    simp only [List.cons_append, splitQuoted, ih h.2.2 (by decide), Option.map_some]
  | case3 cs => simp [escapesQuotes, hb] at h
  | case4 c cs notEscaped notQuote ih =>
    simp only [escapesQuotes, Bool.and_eq_true] at h
    have after : splitQuoted (cs ++ '"' :: rest) = some (cs ++ ['"'], rest) := by
      by_cases hc : c = '\\'
      · -- a backslash counts for the next character only, and this is no quote
        subst hc
        cases cs with
        | nil => simp [escapesQuotes] at h
        | cons d ds =>
          have other : d ≠ '"' := fun hd => notEscaped ds rfl (by rw [hd])
          simp only [escapesQuotes, Bool.and_eq_true] at h
          have free : escapesQuotes '"' (d :: ds) = true := by simp [escapesQuotes, other, h.2.2]
          exact ih free (by decide)
      · exact ih h.2 hc
    have single : splitQuoted (c :: (cs ++ '"' :: rest)) = some (c :: (cs ++ ['"']), rest) := by
      rw [splitQuoted, after]
      · rfl
      · intro ds hc hd
        cases cs with
        | nil => simp [escapesQuotes, hc] at h
        | cons d ds => exact notEscaped ds hc (by rw [(List.cons.inj hd).1])
      · exact notQuote
    exact single

/-- An argument in quotes. -/
theorem passes_quoted (h : escapesQuotes '"' cs = true) :
    Passes .parameters (quoted cs ++ rest) [bare .parameter (quoted cs)] .parameters rest := by
  have whole : quoted cs ++ rest = '"' :: (cs ++ '"' :: rest) := by simp [quoted]
  rw [whole]
  have first : ∀ l, step .parameters ⟨l, [], '"' :: (cs ++ '"' :: rest)⟩
      = ⟨[], some (.quoted, ⟨l, ['"'], cs ++ '"' :: rest⟩)⟩ := fun l => rfl
  refine .of_steps first fun l => ?_
  simp only [step, stepQuoted, splitQuoted_append_quote h (by decide), Cursor.take, List.singleton_append]
  exact ⟨_, rfl, emit_unlocated (by decide) l (quoted cs) rest⟩

theorem startsOpen_iff : startsOpen cs = true ↔ ∃ ds, cs = '{' :: '{' :: ds := by
  constructor
  · intro h
    unfold startsOpen at h
    split at h
    · exact ⟨_, rfl⟩
    · cases h
  · rintro ⟨ds, rfl⟩
    rfl

theorem startsClose_iff : startsClose cs = true ↔ ∃ ds, cs = '}' :: '}' :: ds := by
  constructor
  · intro h
    unfold startsClose at h
    split at h
    · exact ⟨_, rfl⟩
    · cases h
  · rintro ⟨ds, rfl⟩
    rfl

/-- A text without a pair of braces, and without a brace at the end, forms no pair with what follows it. -/
theorem no_pair_of_infix {b : Char} (h : ¬ [b, b] <:+: cs) (last : cs.getLast? ≠ some b) {c : Char} {ds : List Char}
    (suffix : c :: ds <:+ cs) (es : List Char) : c :: (ds ++ rest) ≠ b :: b :: es := by
  intro pair
  obtain ⟨rfl, tail⟩ := List.cons.inj pair
  cases ds with
  | nil =>
    refine last ?_
    obtain ⟨front, rfl⟩ := suffix
    simp
  | cons d ds =>
    obtain ⟨rfl, -⟩ := List.cons.inj tail
    exact h ((List.prefix_append [d, d] ds).isInfix.trans suffix.isInfix)

/-- The parameter of an inclusion, which is anything up to the end of the directive. -/
theorem passes_parameter (named : cs ≠ []) (h : ¬ ['}', '}'] <:+: cs) (start : ∀ c ∈ cs.head?, isSpace c = false) :
    Passes .parameter (cs ++ ' ' :: '}' :: '}' :: rest) [bare .parameter (cs ++ [' '])] .text rest := by
  have free : ¬ ['}', '}'] <:+: cs ++ [' '] := by
    rintro ⟨front, back, pair⟩
    rcases List.eq_nil_or_concat back with rfl | ⟨back, c, rfl⟩
    · have := congrArg List.getLast? pair
      simp at this
    · rw [List.concat_eq_append, ← List.append_assoc] at pair
      exact h ⟨front, back, (List.append_inj' pair rfl).1⟩
  have split : splitBefore startsClose (cs ++ [' '] ++ '}' :: '}' :: rest) = (cs ++ [' '], '}' :: '}' :: rest) := by
    refine splitBefore_append_found (fun c ds hs => ?_) (.inr rfl)
    rw [← Bool.not_eq_true, startsClose_iff]
    rintro ⟨es, pair⟩
    exact no_pair_of_infix free (by simp) hs es pair
  have whole : cs ++ ' ' :: '}' :: '}' :: rest = cs ++ [' '] ++ '}' :: '}' :: rest := by simp
  have stop : ∀ c ∈ (cs ++ [' '] ++ '}' :: '}' :: rest).head?, isSpace c = false := by
    obtain ⟨c, cs, rfl⟩ := List.exists_cons_of_ne_nil named
    simpa using start
  refine .of_step fun l => ?_
  obtain ⟨l', closed⟩ := close_append (p := fun _ => false) [] (List.forall_mem_nil _) rfl
    (Cursor.emit ⟨l, cs ++ [' '], '}' :: '}' :: rest⟩ .parameter) .unfinishedParameter (l.advance (cs ++ [' '])) [] rest
  have skipped : Cursor.skipRun ⟨l, [], cs ++ [' '] ++ '}' :: '}' :: rest⟩ isSpace
      = ⟨l, [], cs ++ [' '] ++ '}' :: '}' :: rest⟩ := skipRun_append [] (List.forall_mem_nil _) stop l []
  rw [whole]
  simp only [step, stepParameter, skipped, split, List.isEmpty_cons, Bool.false_eq_true, if_false, Cursor.take,
    List.nil_append]
  rw [← bareWindow_of_ne_nil (List.append_ne_nil_of_right_ne_nil cs (List.cons_ne_nil ' ' []))]
  exact ⟨l', congrArg Step.next closed, (congrArg (fun s => s.tokens.map Token.unlocated) closed).trans
    (emit_unlocated (by decide) l _ _)⟩

/-- Text in front of a directive or at the end. -/
theorem run_text (named : cs ≠ []) (h : ¬ ['{', '{'] <:+: cs) (last : cs.getLast? ≠ some '{')
    (after : rest = [] ∨ startsOpen rest = true) (l : Location) :
    ∃ us l', us.map Token.unlocated = [bare .text cs] ∧
      run .text ⟨l, [], cs ++ rest⟩ = us ++ run .text ⟨l', [], rest⟩ := by
  have split : splitBefore startsOpen (cs ++ rest) = (cs, rest) := by
    refine splitBefore_append_found (fun c ds hs => ?_) after
    rw [← Bool.not_eq_true, startsOpen_iff]
    rintro ⟨es, pair⟩
    exact no_pair_of_infix h last hs es pair
  rw [← bareWindow_of_ne_nil named]
  refine ⟨Cursor.emit ⟨l, cs, rest⟩ .text, l.advance cs, emit_unlocated (by decide) l cs rest, ?_⟩
  have taken : (step .text ⟨l, [], cs ++ rest⟩)
      = ⟨Cursor.emit ⟨l, cs, rest⟩ .text,
        if rest.isEmpty then none else some (.keyword, ⟨l.advance cs, [], rest⟩)⟩ := by
    simp only [step, stepText, split, Cursor.take, List.nil_append]
    rfl
  rcases after with rfl | opens
  · rw [run_of_stop (by rw [taken]; rfl), run_of_stop rfl, taken]
    exact (List.append_nil _).symm
  · obtain ⟨ds, rfl⟩ := startsOpen_iff.1 opens
    have next : (step .text ⟨l, [], cs ++ '{' :: '{' :: ds⟩).next
        = some (.keyword, ⟨l.advance cs, [], '{' :: '{' :: ds⟩) := by
      rw [taken]
      rfl
    have opened : (step .text ⟨l.advance cs, [], '{' :: '{' :: ds⟩).next
        = some (.keyword, ⟨l.advance cs, [], '{' :: '{' :: ds⟩) := rfl
    rw [run_of_next next, run_of_next opened, taken]
    rfl

end Forms

end Scanner

end Stencil
