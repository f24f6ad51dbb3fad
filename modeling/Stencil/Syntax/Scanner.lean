import Stencil.Syntax.Token
import Stencil.Text.Numeric

/-!
# Scanning

The scanner is a machine of seven modes that works on a cursor: the text still to come and a window of characters that
may become the next token. A step emits tokens and names the next mode, or stops. Two steps in a row always consume a
character (`step_decreases`), so every scan ends.

A fault does not break off with an exception: it is the last token of the list, of kind `error`.
-/

namespace Stencil

namespace Scanner

inductive Mode where
  /-- Text outside directives, up to the next `{{`. -/
  | text
  /-- After `{{`, or after the name `if`: a name or a model path. -/
  | keyword
  /-- A model path and nothing else up to `}}`. -/
  | modelKey
  /-- One parameter of any form up to `}}`. -/
  | parameter
  /-- Parameters between blanks and commas up to `)` or `}}`. -/
  | parameters
  /-- The rest of a parameter with a quoted part. -/
  | quoted
  /-- Nothing but `}}` may follow. -/
  | instruction
  deriving DecidableEq, Repr

/-- Characters taken since `start`, and the text that follows them. -/
structure Cursor where
  start : Location
  window : List Char
  rest : List Char
  deriving DecidableEq, Repr

namespace Cursor

def origin (text : List Char) : Cursor := ⟨.origin, [], text⟩

/-- The location behind the window. -/
def here (c : Cursor) : Location := c.start.advance c.window

/-- Moves `taken` from the text that follows, of which `rest` is left, into the window. -/
def take (c : Cursor) (taken rest : List Char) : Cursor := ⟨c.start, c.window ++ taken, rest⟩

/-- Moves the characters with property `p` into the window. -/
def takeRun (c : Cursor) (p : Char → Bool) : Cursor := c.take (c.rest.takeWhile p) (c.rest.dropWhile p)

/-- Starts a new window behind the present one. -/
def drop (c : Cursor) : Cursor := ⟨c.here, [], c.rest⟩

/-- Skips characters that belong to no token. -/
def skipRun (c : Cursor) (p : Char → Bool) : Cursor := (c.takeRun p).drop

/-- Skips the first `n` characters. -/
def skip (c : Cursor) (n : Nat) : Cursor := (c.take (c.rest.take n) (c.rest.drop n)).drop

/-- The token of the window. An empty window makes none. -/
def emit (c : Cursor) (kind : TokenKind) : List Token :=
  if c.window.isEmpty then [] else [⟨kind, String.ofList c.window, c.start⟩]

end Cursor

/-- What a step yields: tokens, and the mode and cursor to go on with. -/
structure Step where
  tokens : List Token
  next : Option (Mode × Cursor)

/-- The messages of the scanner. -/
inductive Fault where
  | conditionMissing
  | afterModelKey
  | unfinishedParameter
  | unfinishedQuote
  | afterParenthesis
  | afterInstruction
  deriving DecidableEq, Repr

def Fault.message : Fault → String
  | .conditionMissing => "Condition not found"
  | .afterModelKey => "Error after model key"
  | .unfinishedParameter => "Unfinished parameter"
  | .unfinishedQuote => "Unfinished quoted parameter"
  | .afterParenthesis => "Expected '\x7d\x7d' after ')'"
  | .afterInstruction => "Expected '\x7d\x7d'"

/-- The token of a fault at a location. -/
def Fault.token (f : Fault) (l : Location) : Token :=
  ⟨.error, s!"{f.message} at position {l.offset}", l⟩

/-- Stops with a fault behind the window, after `tokens`. -/
def stop (tokens : List Token) (f : Fault) (c : Cursor) : Step := ⟨tokens ++ [f.token c.here], none⟩

/-! ## Pieces of text -/

def startsOpen : List Char → Bool
  | '{' :: '{' :: _ => true
  | _ => false

def startsClose : List Char → Bool
  | '}' :: '}' :: _ => true
  | _ => false

/-- Splits before the first place where `found` holds of what follows, or at the end. -/
def splitBefore (found : List Char → Bool) : List Char → List Char × List Char
  | [] => ([], [])
  | c :: cs =>
    if found (c :: cs) then ([], c :: cs)
    else ((c :: (splitBefore found cs).1), (splitBefore found cs).2)

/-- Splits behind the quote that closes, over quotes with a backslash before them. -/
def splitQuoted : List Char → Option (List Char × List Char)
  | [] => none
  | '\\' :: '"' :: cs => (splitQuoted cs).map fun (taken, rest) => ('\\' :: '"' :: taken, rest)
  | '"' :: cs => some (['"'], cs)
  | c :: cs => (splitQuoted cs).map fun (taken, rest) => (c :: taken, rest)

/-- Letters, numerals and the underscore. -/
def isNameChar (c : Char) : Bool := Text.isAlphanumeric c || c == '_'

/-- Characters of a model path that stands alone. -/
def isKeyChar (c : Char) : Bool :=
  isNameChar c || c == '.' || c == '[' || c == ']' || c == '"' || c == '\x27'

def isSpace (c : Char) : Bool := c == ' '

/-- What separates parameters. -/
def isSeparator (c : Char) : Bool := c == ' ' || c == ','

/-- What may stand between a name and its first parameter. -/
def isOpening (c : Char) : Bool := c == ' ' || c == '('

/-- What may follow the last parameter. -/
def isClosing (c : Char) : Bool := c == ')' || c == ' '

/-! ## The modes -/

def stepText (c : Cursor) : Step :=
  let (taken, rest) := splitBefore startsOpen c.rest
  let after := c.take taken rest
  ⟨after.emit .text, if rest.isEmpty then none else some (.keyword, after.drop)⟩

/-- The mode after a name. -/
def modeAfter (name : List Char) : Mode :=
  if name = ['i', 'f'] then .keyword
  else if name = ['e', 'n', 'd'] || name = ['e', 'l', 's', 'e'] then .instruction
  else if name = ['i', 'n', 'c', 'l', 'u', 'd', 'e'] then .parameter
  else .parameters

def stepKeyword (c : Cursor) : Step :=
  let c := (if startsOpen c.rest then c.skip 2 else c).skipRun isSpace
  if c.rest.head? = some '.' then ⟨[], some (.modelKey, c)⟩
  else
    let named := c.takeRun isNameChar
    let after := named.drop.skipRun isOpening
    if named.window = ['i', 'f'] && startsClose after.rest then stop (named.emit .function) .conditionMissing after
    else ⟨named.emit .function, some (modeAfter named.window, after)⟩

/-- Goes on with text behind `}}`, which may follow characters with property `p`; anything else is a fault. -/
def close (tokens : List Token) (p : Char → Bool) (f : Fault) (c : Cursor) : Step :=
  let c := c.takeRun p
  if startsClose c.rest then ⟨tokens, some (.text, c.drop.skip 2)⟩ else stop tokens f c

def stepModelKey (c : Cursor) : Step :=
  let key := c.takeRun isKeyChar
  close (key.emit .parameter) isSpace .afterModelKey key.drop

def stepParameter (c : Cursor) : Step :=
  let c := c.skipRun isSpace
  let (taken, rest) := splitBefore startsClose c.rest
  let after := c.take taken rest
  if rest.isEmpty then stop [] .unfinishedParameter after
  else close (after.emit .parameter) (fun _ => false) .unfinishedParameter after.drop

/-- What a parameter goes on to: the end of the directive, a separator, or a part in quotes. -/
def endsParameter (cs : List Char) : Bool :=
  startsClose cs || cs.head?.any fun c => c == ')' || c == '"' || isSeparator c

/-- The parameter in the window, up to what ends it. -/
def stepParameters (c : Cursor) : Step :=
  let (taken, rest) := splitBefore endsParameter c.rest
  let c := c.take taken rest
  match rest with
  | [] => stop [] .unfinishedParameter c
  | d :: more =>
    if d = '"' then ⟨[], some (.quoted, c.take ['"'] more)⟩
    else if isSeparator d then ⟨c.emit .parameter, some (.parameters, c.drop.skip 1)⟩
    else if d = ')' then close (c.emit .parameter) isClosing .afterParenthesis c.drop
    else close (c.emit .parameter) (fun _ => false) .afterParenthesis c.drop

def stepQuoted (c : Cursor) : Step :=
  match splitQuoted c.rest with
  | some (taken, rest) =>
    let after := c.take taken rest
    ⟨after.emit .parameter, some (.parameters, after.drop)⟩
  | none => stop [] .unfinishedQuote (c.take c.rest [])

def step : Mode → Cursor → Step
  | .text, c => stepText c
  | .keyword, c => stepKeyword c
  | .modelKey, c => stepModelKey c
  | .parameter, c => stepParameter c
  | .parameters, c => stepParameters c
  | .quoted, c => stepQuoted c
  | .instruction, c => close [] isSpace .afterInstruction c

/-! ## Progress -/

/-- How many steps in a row a mode may pass on without consuming anything. -/
def Mode.rank : Mode → Nat
  | .text => 2
  | .keyword => 1
  | _ => 0

/-- What every step makes smaller. -/
def measure (m : Mode) (c : Cursor) : Nat := 3 * c.rest.length + m.rank

@[simp] theorem Cursor.rest_drop (c : Cursor) : c.drop.rest = c.rest := rfl

@[simp] theorem Cursor.rest_take (c : Cursor) (taken rest : List Char) : (c.take taken rest).rest = rest := rfl

@[simp] theorem Cursor.rest_takeRun (c : Cursor) (p : Char → Bool) :
    (c.takeRun p).rest = c.rest.dropWhile p := rfl

@[simp] theorem Cursor.rest_skipRun (c : Cursor) (p : Char → Bool) :
    (c.skipRun p).rest = c.rest.dropWhile p := rfl

@[simp] theorem Cursor.rest_skip (c : Cursor) (n : Nat) : (c.skip n).rest = c.rest.drop n := rfl

theorem length_dropWhile_le (p : Char → Bool) (cs : List Char) : (cs.dropWhile p).length ≤ cs.length :=
  (List.dropWhile_sublist p).length_le

/-- A split loses nothing. -/
theorem splitBefore_append (found : List Char → Bool) (cs : List Char) :
    (splitBefore found cs).1 ++ (splitBefore found cs).2 = cs := by
  induction cs with
  | nil => rfl
  | cons c cs ih =>
    simp only [splitBefore]
    split
    · rfl
    · simpa using ih

theorem length_splitBefore_le (found : List Char → Bool) (cs : List Char) :
    (splitBefore found cs).2.length ≤ cs.length := by
  have := congrArg List.length (splitBefore_append found cs)
  simp only [List.length_append] at this
  omega

theorem splitQuoted_append {cs taken rest : List Char} (h : splitQuoted cs = some (taken, rest)) :
    taken ++ rest = cs := by
  fun_induction splitQuoted cs generalizing taken rest with
  | case1 => simp at h
  | case2 cs ih =>
    obtain ⟨⟨t, r⟩, hr, he⟩ := Option.map_eq_some_iff.1 h
    simp only [Prod.mk.injEq] at he
    obtain ⟨rfl, rfl⟩ := he
    simp [ih hr]
  | case3 cs =>
    simp only [Option.some.injEq, Prod.mk.injEq] at h
    obtain ⟨rfl, rfl⟩ := h
    rfl
  | case4 c cs _ _ ih =>
    obtain ⟨⟨t, r⟩, hr, he⟩ := Option.map_eq_some_iff.1 h
    simp only [Prod.mk.injEq] at he
    obtain ⟨rfl, rfl⟩ := he
    simp [ih hr]

theorem splitQuoted_ne_nil {cs taken rest : List Char} (h : splitQuoted cs = some (taken, rest)) : taken ≠ [] := by
  fun_induction splitQuoted cs generalizing taken rest <;> simp_all <;> grind

theorem length_le_of_startsClose {cs : List Char} (h : startsClose cs = true) : 2 ≤ cs.length := by
  unfold startsClose at h
  split at h <;> simp_all

theorem close_decreases {tokens : List Token} {p : Char → Bool} {f : Fault} {c c' : Cursor} {m : Mode}
    (h : (close tokens p f c).next = some (m, c')) : measure m c' < 3 * c.rest.length := by
  simp only [close] at h
  split at h
  · next closes =>
    simp only [Option.some.injEq, Prod.mk.injEq] at h
    obtain ⟨rfl, rfl⟩ := h
    have := length_le_of_startsClose closes
    have := length_dropWhile_le p c.rest
    simp only [Cursor.rest_takeRun] at *
    simp only [measure, Mode.rank, Cursor.rest_skip, Cursor.rest_drop, Cursor.rest_takeRun, List.length_drop]
    omega
  · simp [stop] at h

theorem stepParameters_decreases {c c' : Cursor} {m : Mode} (h : (stepParameters c).next = some (m, c')) :
    measure m c' < 3 * c.rest.length := by
  simp only [stepParameters] at h
  have shorter := length_splitBefore_le endsParameter c.rest
  split at h
  · simp [stop] at h
  next d more hr =>
  simp only [hr, List.length_cons] at shorter
  split at h
  · simp only [Option.some.injEq, Prod.mk.injEq] at h
    obtain ⟨rfl, rfl⟩ := h
    simp only [measure, Mode.rank, Cursor.rest_take]
    omega
  split at h
  · simp only [Option.some.injEq, Prod.mk.injEq] at h
    obtain ⟨rfl, rfl⟩ := h
    simp only [measure, Mode.rank, Cursor.rest_skip, Cursor.rest_drop, Cursor.rest_take, hr, List.length_drop,
      List.length_cons]
    omega
  split at h
  all_goals
    have := close_decreases h
    simp only [Cursor.rest_drop, Cursor.rest_take, hr, List.length_cons] at this
    omega

theorem stepKeyword_decreases {c c' : Cursor} {m : Mode} (h : (stepKeyword c).next = some (m, c')) :
    measure m c' < measure .keyword c := by
  simp only [stepKeyword] at h
  generalize hc : (if startsOpen c.rest then c.skip 2 else c) = opened at h
  have shorter : opened.rest.length ≤ c.rest.length := by
    subst hc
    split
    · simp
    · exact Nat.le_refl _
  have spaces := length_dropWhile_le isSpace opened.rest
  split at h
  · simp only [Option.some.injEq, Prod.mk.injEq] at h
    obtain ⟨rfl, rfl⟩ := h
    simp only [measure, Mode.rank, Cursor.rest_skipRun]
    omega
  · split at h
    · simp [stop] at h
    · simp only [Option.some.injEq, Prod.mk.injEq] at h
      obtain ⟨rfl, rfl⟩ := h
      have opening := length_dropWhile_le isOpening ((opened.skipRun isSpace).takeRun isNameChar).rest
      have name := congrArg List.length
        (List.takeWhile_append_dropWhile (p := isNameChar) (l := (opened.skipRun isSpace).rest))
      have window : ((opened.skipRun isSpace).takeRun isNameChar).window =
          (opened.skipRun isSpace).rest.takeWhile isNameChar := rfl
      rw [window]
      simp only [List.length_append, Cursor.rest_skipRun, Cursor.rest_takeRun] at *
      by_cases hif : (opened.rest.dropWhile isSpace).takeWhile isNameChar = ['i', 'f']
      · rw [hif] at name ⊢
        simp only [List.length_cons, List.length_nil] at name
        simp only [modeAfter, if_true, measure, Mode.rank, Cursor.rest_skipRun, Cursor.rest_drop, Cursor.rest_takeRun]
        omega
      · have : (modeAfter ((opened.rest.dropWhile isSpace).takeWhile isNameChar)).rank = 0 := by
          simp only [modeAfter, hif, if_false]
          split
          · rfl
          split <;> rfl
        have one : Mode.keyword.rank = 1 := rfl
        simp only [measure, this, one, Cursor.rest_skipRun, Cursor.rest_drop, Cursor.rest_takeRun]
        omega

/-- Every step consumes text, or passes to a mode that has to. -/
theorem step_decreases {m m' : Mode} {c c' : Cursor} (h : (step m c).next = some (m', c')) :
    measure m' c' < measure m c := by
  cases m with
  | text =>
    simp only [step, stepText] at h
    split at h
    · simp at h
    · simp only [Option.some.injEq, Prod.mk.injEq] at h
      obtain ⟨rfl, rfl⟩ := h
      have := length_splitBefore_le startsOpen c.rest
      simp only [measure, Mode.rank, Cursor.rest_drop, Cursor.rest_take]
      omega
  | keyword => exact stepKeyword_decreases h
  | modelKey =>
    have := close_decreases (c := (c.takeRun isKeyChar).drop) h
    have := length_dropWhile_le isKeyChar c.rest
    simp only [measure, Mode.rank, Cursor.rest_drop, Cursor.rest_takeRun] at *
    omega
  | parameter =>
    simp only [step, stepParameter] at h
    split at h
    · simp [stop] at h
    · have := close_decreases h
      have := length_splitBefore_le startsClose (c.skipRun isSpace).rest
      have := length_dropWhile_le isSpace c.rest
      simp only [measure, Mode.rank, Cursor.rest_drop, Cursor.rest_take, Cursor.rest_skipRun] at *
      omega
  | parameters =>
    have := stepParameters_decreases h
    simp only [measure, Mode.rank] at *
    omega
  | quoted =>
    simp only [step, stepQuoted] at h
    split at h
    · next taken rest hq =>
      simp only [Option.some.injEq, Prod.mk.injEq] at h
      obtain ⟨rfl, rfl⟩ := h
      have := congrArg List.length (splitQuoted_append hq)
      have := List.length_pos_iff.2 (splitQuoted_ne_nil hq)
      simp only [List.length_append, measure, Mode.rank, Cursor.rest_drop, Cursor.rest_take] at *
      omega
    · simp [stop] at h
  | instruction =>
    have := close_decreases h
    simp only [measure, Mode.rank] at *
    omega

/-! ## The whole scan -/

/-- The tokens of a run of the machine. -/
def run (m : Mode) (c : Cursor) : List Token :=
  match h : (step m c).next with
  | none => (step m c).tokens
  | some (m', c') =>
    have := step_decreases h
    (step m c).tokens ++ run m' c'
termination_by measure m c

end Scanner

/-- The tokens of a template source. An error token can only be the last one. -/
def scan (source : String) : List Token := Scanner.run .text (.origin source.toList)

/-- The tokens of a source without faults, or its error token. -/
def tokenize (source : String) : Except Token (List Token) :=
  let tokens := scan source
  match tokens.find? fun t => t.kind == .error with
  | some t => .error t
  | none => .ok tokens

end Stencil
