import Mathlib
import Stencil.Proofs.Syntax.Flattening
import Stencil.Proofs.Syntax.PrintRoundTrip

/-!
# Where a path can stand

A path can be a value, the condition of a branch, the argument of a call, and the collection of a loop. The scanner has
two ways to find its end: a path that stands alone goes on as long as there are key characters, while a parameter ends
at separators, parentheses and behind a part in double quotes. The two agree on a path without double quotes.

* `parse_place_iff`: a path is read back from its place unless it is a parameter with a double quote in it.
-/

namespace Stencil

open Scanner

/-! ## Texts of paths -/

def Bracketing.isQuote (c : Char) : Bool := c == '"' || c == '\x27'

/-- Whether all brackets and quotes are closed behind a text. Only an open bracket can be closed, and quotes stand
within brackets. -/
def Bracketing.closes (b : Bracketing) : List Char → Bool
  | [] => b == .outside
  | c :: cs =>
    (b.quote.isSome || decide (0 < b.depth) || !(c == ']' || isQuote c)) && (b.next c).closes cs

/-- The text of a path that can stand alone. -/
structure IsPathText (p : String) : Prop where
  dot : p.toList.head? = some '.'
  chars : ∀ c ∈ p.toList, isKeyChar c = true
  closed : Bracketing.outside.closes p.toList = true

/-! ## Places -/

/-- A directive with its content. -/
def directive (content : String) : String := "\x7b\x7b " ++ content ++ " \x7d\x7d"

/-- Where a path can stand. -/
inductive PathPlace where
  | value
  | condition
  /-- The only argument of a call of the function. -/
  | argument (function : String)
  /-- The collection of a loop over the item, without an index. -/
  | collection (item : String)

namespace PathPlace

/-- The source with a path in its place. -/
def source (p : String) : PathPlace → String
  | value => directive p
  | condition => directive ("if " ++ p) ++ directive "end"
  | argument function => directive (function ++ "(" ++ p ++ ")")
  | collection item => directive ("foreach(" ++ item ++ " in " ++ p ++ ")") ++ directive "end"

/-- The node of the path in its place. -/
def node (p : String) : PathPlace → Node
  | value => .value (.parse p) .origin
  | condition => .branch (.path (.parse p)) [] none .origin
  | argument function => .call ⟨function, [p], none, .origin⟩
  | collection item => .loop item none (.parse p) [] .origin

/-- The names of functions and items are names, and no function has the name of a directive. -/
def IsNamed : PathPlace → Prop
  | value | condition => True
  | argument function => IsName function ∧ Directive.ofKeyword? function = none
  | collection item => IsName item

/-- Whether the path is scanned as a parameter between others. -/
def isParameter : PathPlace → Bool
  | value | condition => false
  | argument _ | collection _ => true

end PathPlace

/-! ## Path texts -/

theorem isBlank_of_isKeyChar {c : Char} (h : isKeyChar c = true) : Text.isBlank c = false := by
  cases blank : Text.isBlank c with
  | false => rfl
  | true =>
    have noName := isNameChar_of_isBlank blank
    simp only [isKeyChar, noName, Bool.false_or, Bool.or_eq_true, beq_iff_eq] at h
    rcases h with (((rfl | rfl) | rfl) | rfl) | rfl
    all_goals exact absurd blank (by decide)

namespace Bracketing

variable {b : Bracketing}

/-- A quote behind which all is closed would stand outside brackets. -/
theorem not_closes_concat_quote (inner : b.quote ≠ none → 0 < b.depth) (cs : List Char) :
    b.closes (cs ++ ['"']) = false := by
  induction cs generalizing b with
  | nil =>
    obtain ⟨depth, quote⟩ := b
    cases quote with
    | none =>
      by_cases deep : 0 < depth
      · simp [closes, next, deep, outside]
      · simp [closes, isQuote, deep]
    | some q =>
      have deep : 0 < depth := inner (by simp)
      have other : depth ≠ 0 := by omega
      simp only [List.nil_append, closes, next]
      split <;> simp [outside, other]
  | cons c cs ih =>
    have kept : (b.next c).quote ≠ none → 0 < (b.next c).depth := by
      unfold next
      split
      · split
        · simp
        · exact inner
      · split
        · next h => exact fun _ => h.2
        · split
          · simp
          · split
            · simp
            · exact inner
    rw [List.cons_append, closes, ih kept, Bool.and_false]

end Bracketing

namespace IsPathText

variable {p : String}

theorem toList_ne_nil (h : IsPathText p) : p.toList ≠ [] := by
  intro empty
  have dot := h.dot
  rw [empty] at dot
  cases dot

theorem getLast?_ne (h : IsPathText p) : p.toList.getLast? ≠ some '"' := by
  intro last
  obtain ⟨cs, split⟩ := List.getLast?_eq_some_iff.1 last
  have closed := h.closed
  rw [split, Bracketing.not_closes_concat_quote (by simp [Bracketing.outside])] at closed
  cases closed

/-- The path of the text keeps it as it is. -/
theorem text_parse (h : IsPathText p) : (Path.parse p).text = p := by
  rw [Path.parse, Text.dropEnds_of_forall fun c hc => isBlank_of_isKeyChar (h.chars c hc), String.ofList_toList]

theorem isDotPath (h : IsPathText p) : IsDotPath (Path.parse p) := by
  have text := h.text_parse
  refine ⟨⟨?_, ?_, ?_⟩, ?_⟩
  · rw [text]
  · rw [text]
    rintro rfl
    exact h.toList_ne_nil rfl
  · rw [text]
    exact h.chars
  · rw [text]
    exact h.dot

end IsPathText

/-! ## Parameters with a double quote -/

namespace Scanner

section Quoted

variable {w cs taken rest : List Char}

theorem getLast?_of_splitQuoted (h : splitQuoted cs = some (taken, rest)) : taken.getLast? = some '"' := by
  have some_ : taken ≠ [] := splitQuoted_ne_nil h
  fun_induction splitQuoted cs generalizing taken rest with
  | case1 => cases h
  | case2 cs ih =>
    obtain ⟨⟨t, r⟩, inner, same⟩ := Option.map_eq_some_iff.1 h
    cases same
    rw [List.getLast?_cons_cons, List.getLast?_cons, ih inner (splitQuoted_ne_nil inner)]
    rfl
  | case3 cs =>
    cases h
    rfl
  | case4 c cs _ _ ih =>
    obtain ⟨⟨t, r⟩, inner, same⟩ := Option.map_eq_some_iff.1 h
    cases same
    rw [List.getLast?_cons, ih inner (splitQuoted_ne_nil inner)]
    rfl

/-- A parameter ends behind its first part in double quotes. -/
theorem passes_quoted_part (chars : ∀ c ∈ w, isWordChar c = true) (h : splitQuoted cs = some (taken, rest)) :
    Passes .parameters (w ++ '"' :: cs) [bare .parameter (w ++ '"' :: taken)] .parameters rest := by
  have ends : endsParameter ('"' :: cs) = true := by simp [endsParameter]
  have first : ∀ l, step .parameters ⟨l, [], w ++ '"' :: cs⟩ = ⟨[], some (.quoted, ⟨l, w ++ ['"'], cs⟩)⟩ := by
    intro l
    simp only [step, stepParameters, splitBefore_word chars ends, Cursor.take, List.nil_append, if_true]
  refine .of_steps first fun l => ?_
  have window : w ++ ['"'] ++ taken ≠ [] := by simp
  simp only [step, stepQuoted, h, Cursor.take]
  refine ⟨_, rfl, ?_⟩
  rw [emit_unlocated (by decide), bareWindow_of_ne_nil window, List.append_assoc, List.singleton_append]

/-- A part in double quotes that is not closed is a fault. -/
theorem run_unfinished (chars : ∀ c ∈ w, isWordChar c = true) (h : splitQuoted cs = none) (l : Location) :
    ∃ t ∈ run .parameters ⟨l, [], w ++ '"' :: cs⟩, t.kind = .error := by
  have ends : endsParameter ('"' :: cs) = true := by simp [endsParameter]
  have first : step .parameters ⟨l, [], w ++ '"' :: cs⟩ = ⟨[], some (.quoted, ⟨l, w ++ ['"'], cs⟩)⟩ := by
    simp only [step, stepParameters, splitBefore_word chars ends, Cursor.take, List.nil_append, if_true]
  have second :
      step .quoted ⟨l, w ++ ['"'], cs⟩ = stop [] .unfinishedQuote (Cursor.take ⟨l, w ++ ['"'], cs⟩ cs []) := by
    simp only [step, stepQuoted, h]
  rw [run_of_next (by rw [first]), first, run_of_stop (by rw [second]; rfl), second]
  exact ⟨_, List.mem_singleton.2 rfl, rfl⟩

end Quoted

end Scanner

/-! ## Paths as parameters -/

section Parameter

variable {p : String} {rest : List Char}

theorem IsPathText.isWordChar (h : IsPathText p) (noQuote : '"' ∉ p.toList) : ∀ c ∈ p.toList, isWordChar c = true :=
  fun c hc => isWordChar_of_isKeyChar (h.chars c hc) fun quote => noQuote (quote ▸ hc)

/-- A path with a double quote in it is cut short, or its directive has no end. -/
theorem run_path_quote (h : IsPathText p) (quote : '"' ∈ p.toList) (l : Location) :
    (∃ t ∈ run .parameters ⟨l, [], p.toList ++ rest⟩, t.kind = .error)
      ∨ ∃ a ts, (run .parameters ⟨l, [], p.toList ++ rest⟩).map Token.unlocated = bare .parameter a :: ts
        ∧ a.head? = some '.' ∧ a.getLast? = some '"' := by
  obtain ⟨w, r, split, noQuote⟩ := List.eq_append_cons_of_mem quote
  have chars : ∀ c ∈ w, isWordChar c = true := by
    intro c hc
    refine isWordChar_of_isKeyChar (h.chars c ?_) fun same => noQuote (same ▸ hc)
    rw [split]
    exact List.mem_append_left _ hc
  have dot := h.dot
  rw [split] at dot ⊢
  rw [List.append_assoc, List.cons_append]
  cases part : splitQuoted (r ++ rest) with
  | none => exact .inl (run_unfinished chars part l)
  | some parts =>
    obtain ⟨taken, after⟩ := parts
    obtain ⟨us, l', same, steps⟩ := passes_quoted_part chars part l
    refine .inr ⟨w ++ '"' :: taken, (run .parameters ⟨l', [], after⟩).map Token.unlocated, ?_, ?_, ?_⟩
    · rw [steps.run_eq, List.map_append, same]
      rfl
    · cases w with
      | nil => cases dot
      | cons c w => exact dot
    · rw [List.getLast?_append, List.getLast?_cons, getLast?_of_splitQuoted part]
      rfl

end Parameter

namespace PathPlace

variable {place : PathPlace} {p : String}

/-- The tokens in front of a path that is a parameter. -/
def front : PathPlace → List Token
  | value | condition => []
  | argument function => [bare .function function.toList]
  | collection item =>
    [bare .function Directive.loop.letters, bare .parameter item.toList, bare .parameter ['i', 'n']]

/-- The text behind the directive of the path. -/
def behind : PathPlace → List Char
  | value | argument _ => []
  | condition | collection _ => braced Directive.close.letters

theorem passes_front (named : place.IsNamed) (parameter : place.isParameter = true) (dot : p.toList.head? = some '.') :
    Passes .text (place.source p).toList place.front .parameters
      (p.toList ++ ')' :: ' ' :: '}' :: '}' :: place.behind) := by
  cases place with
  | value => cases parameter
  | condition => cases parameter
  | argument function =>
    obtain ⟨name, noDirective⟩ := named
    have first : ∀ c ∈ (p.toList ++ ')' :: ' ' :: '}' :: '}' :: []).head?, isOpening c = false := by
      rw [List.head?_append, dot]
      simp [isOpening]
    have opened := passes_open_name ('(' :: (p.toList ++ ')' :: ' ' :: '}' :: '}' :: []))
      (IsName.toList_ne_nil name.1) name.2 (by simp; decide)
      (fun isIf => absurd isIf (Directive.ne_letters noDirective .branch))
    have skipped : ('(' :: (p.toList ++ ')' :: ' ' :: '}' :: '}' :: [])).dropWhile isOpening
        = p.toList ++ ')' :: ' ' :: '}' :: '}' :: [] :=
      dropWhile_append_stop (show ∀ c ∈ ['('], isOpening c = true by simp [isOpening]) first
    rw [modeAfter_of_noDirective noDirective, skipped] at opened
    simpa [source, directive, front, behind] using opened
  | collection item =>
    have header := passes_header none (p.toList ++ ')' :: ' ' :: '}' :: '}' :: braced Directive.close.letters)
      (show IsName item from named) (by simp)
    simpa [source, directive, front, behind, Directive.letters, printIndex, braced] using header

end PathPlace

/-! ## Reading -/

section Read

variable {p : String} {ts : List Token}

/-- A template that is read has no fault among its tokens. -/
theorem kind_ne_of_parse {source : String} {t : Template} (h : Template.parse source = .ok t) :
    ∀ x ∈ scan source, x.kind ≠ .error :=
  (statements_aligned (isFault_of_ofTokens (parse_eq_ok.1 h))).kind_ne

theorem head?_statements (t : Token) (ts : List Token) :
    (statements (t :: ts)).head? = some (Statement.read t ts).1 := by
  rw [statements_cons]
  split <;> rfl

/-- Printed statements are read back from their source. -/
theorem statements_print {source : String} (ss : List Statement)
    (printed : source.toList = ss.flatMap Statement.print)
    (printable : ∀ s ∈ ss, s.IsPrintable) (separate : ss.IsChain Separate) (apart : ss.IsChain Apart) :
    (statements (scan source)).map Statement.unlocated = ss.map Statement.unlocated := by
  have tokens : (scan source).map Token.unlocated = ss.flatMap Statement.tokens := by
    rw [scan, printed]
    exact run_print printable separate .origin
  rw [← statements_unlocated, tokens, statements_tokens (fun s hs => (printable s hs).isReadable) apart]

/-- A parameter that starts as a path does, and has no separator at its end, is not changed. -/
theorem cleanArgument_path {a : List Char} (first : a.head? = some '.')
    (last : ∀ c ∈ a.getLast?, c ≠ ',' ∧ c ≠ ' ') : cleanArgument (String.ofList a) = String.ofList a := by
  obtain ⟨cs, rfl⟩ := List.head?_eq_some_iff.1 first
  have ends : Text.dropEnds (fun c => c == ',' || c == ' ') ('.' :: cs) = '.' :: cs := by
    refine Text.dropEnds_eq_self (by simp) fun c hc => ?_
    obtain ⟨comma, space⟩ := last c hc
    simp [comma, space]
  rw [cleanArgument, String.toList_ofList, ends]
  simp [Text.unquote]

theorem trim_path {a : List Char} (first : a.head? = some '.') (last : ∀ c ∈ a.getLast?, Text.isBlank c = false) :
    Text.dropEnds Text.isBlank a = a := by
  refine Text.dropEnds_eq_self (fun c hc => ?_) last
  rw [first, Option.mem_some_iff] at hc
  rw [← hc]
  decide

/-- A call whose first argument is such a parameter. -/
theorem read_argument {f : String} (noDirective : Directive.ofKeyword? f = none) {a : List Char}
    (first : a.head? = some '.') (last : ∀ c ∈ a.getLast?, Text.isBlank c = false ∧ c ≠ ',' ∧ c ≠ ' ') :
    Statement.read (bare .function f.toList) (bare .parameter a :: ts)
      = (.call ⟨f, String.ofList a :: (Statement.readArguments ts).1, none, .origin⟩,
        (Statement.readArguments ts).2) := by
  have function : (bare .function f.toList).kind = .function := rfl
  have text : (bare .function f.toList).text = f := String.ofList_toList
  have parameter : (bare .parameter a).isParameter = true := rfl
  have clean : cleanArgument (bare .parameter a).text = String.ofList a :=
    cleanArgument_path first fun c hc => (last c hc).2
  have noComma : Text.trim (bare .parameter a).text ≠ "," := by
    have trimmed : Text.trim (bare .parameter a).text = String.ofList a := by
      rw [bare, Text.trim, String.toList_ofList, trim_path first fun c hc => (last c hc).1]
    rw [trimmed]
    intro same
    have same := congrArg String.toList same
    rw [String.toList_ofList] at same
    rw [same] at first
    exact absurd first (by decide)
  simp only [Statement.read, function, text, noDirective, Statement.readCall, Statement.readArguments,
    List.takeWhile_cons_of_pos parameter, List.dropWhile_cons_of_pos parameter]
  rw [List.filter_cons_of_pos (by simpa using noComma), List.map_cons, clean]
  rfl

end Read

namespace PathPlace

variable {place : PathPlace} {p : String}

/-- A path in its place is read as the node of the place. -/
theorem statements_source (h : IsPathText p) (named : place.IsNamed)
    (noQuote : place.isParameter = true → '"' ∉ p.toList) :
    (statements (scan (place.source p))).map Statement.unlocated = spellingAll [place.node p] := by
  have path := h.isDotPath
  have text := h.text_parse
  cases place with
  | value =>
    refine statements_print ([.value (.parse p) .origin]) ?_ (by simpa [Statement.IsPrintable] using path)
      (by simp) (by simp)
    simp [source, directive, Statement.print, text, braced]
  | condition =>
    refine statements_print ([.openBranch (.path (.parse p)) .origin, .close .origin]) ?_ ?_ ?_ ?_
    · simp [source, directive, Statement.print, Condition.print, text, braced, Directive.letters]
    · simpa using ⟨path, trivial⟩
    · simp [Separate, Statement.isText]
    · simp [Apart, Statement.isValue]
  | argument function =>
    have paren := passes_paren [] (h.isWordChar (noQuote rfl))
    rw [bareWindow_of_ne_nil h.toList_ne_nil] at paren
    obtain ⟨us, l, same, cut⟩ := run_of_passes ((passes_front named rfl h.dot).trans paren) .origin
    have tokens : (scan (source p (.argument function))).map Token.unlocated
        = [bare .function function.toList, bare .parameter p.toList] := by
      rw [scan, Cursor.origin, cut, run_of_stop rfl, List.map_append, same]
      rfl
    have last : ∀ c ∈ p.toList.getLast?, Text.isBlank c = false ∧ c ≠ ',' ∧ c ≠ ' ' := by
      intro c hc
      have key := h.chars c (List.mem_of_getLast? hc)
      exact ⟨isBlank_of_isKeyChar key, ne_of_kind key (by decide), ne_of_kind key (by decide)⟩
    rw [← statements_unlocated, tokens, statements_cons, read_argument named.2 h.dot last]
    simp [Statement.isFault, Statement.readArguments, statements, spellingAll, Node.spelling, node, Call.unlocated]
  | collection item =>
    have header : IsLoopHeader item none (.parse p) := ⟨named, by simp, path.toIsKeyPath, text.symm ▸ noQuote rfl⟩
    refine statements_print ([.openLoop item none (.parse p) .origin, .close .origin]) ?_ ?_ ?_ ?_
    · simp [source, directive, Statement.print, text, braced, Directive.letters, printIndex]
    · simpa using ⟨header, trivial⟩
    · simp [Separate, Statement.isText]
    · simp [Apart, Statement.isValue]

/-- A parameter with a double quote in it is read as another argument or collection, if it is read at all. -/
theorem not_parse_of_quote (h : IsPathText p) (named : place.IsNamed) (parameter : place.isParameter = true)
    (quote : '"' ∈ p.toList) {t : Template} (read : Template.parse (place.source p) = .ok t) :
    unlocatedAll t.nodes ≠ [place.node p] := by
  intro same
  obtain ⟨us, l, tokens, steps⟩ := passes_front named parameter h.dot .origin
  have scanned : scan (place.source p) = us ++ run .parameters ⟨l, [], p.toList ++ _⟩ := steps.run_eq
  rcases run_path_quote h quote l with ⟨x, member, error⟩ | ⟨a, ts, cut, first, last⟩
  · exact kind_ne_of_parse read x (scanned ▸ List.mem_append_right _ member) error
  have other : String.ofList a ≠ p := by
    intro equal
    have ends := h.getLast?_ne
    rw [← equal, String.toList_ofList] at ends
    exact ends last
  have lastChar : ∀ c ∈ a.getLast?, Text.isBlank c = false ∧ c ≠ ',' ∧ c ≠ ' ' := by
    intro c hc
    rw [last, Option.mem_some_iff] at hc
    rw [← hc]
    decide
  have spelled := spelling_of_ofTokens (parse_eq_ok.1 read)
  rw [← statements_unlocated, scanned, List.map_append, tokens, cut, ← spellingAll_unlocatedAll t.nodes, same]
    at spelled
  have heads := congrArg List.head? spelled
  cases place with
  | value => cases parameter
  | condition => cases parameter
  | argument function =>
    rw [front, List.singleton_append, head?_statements, read_argument named.2 first lastChar] at heads
    simp [spellingAll, Node.spelling, node, Call.unlocated] at heads
    exact other heads.1
  | collection item =>
    have header : Statement.read (bare .function Directive.loop.letters)
        (bare .parameter item.toList :: bare .parameter ['i', 'n'] :: bare .parameter a :: ts)
        = (.openLoop item none (.parse (String.ofList a)) .origin, ts) := by
      simp only [Statement.read, Statement.kind_letters, Statement.ofKeyword?_bare_letters]
      exact Statement.read_header none (show IsName item from named) (by simp) a ts
    rw [front, List.cons_append, List.cons_append, List.cons_append, List.nil_append, head?_statements, header] at heads
    simp only [spellingAll, Node.spelling, node, List.cons_append, List.head?_cons, Option.some.injEq,
      Statement.openLoop.injEq, true_and, and_true] at heads
    have texts := congrArg Path.text heads
    rw [h.text_parse, Path.parse, String.toList_ofList, trim_path first fun c hc => (lastChar c hc).1] at texts
    exact other texts

end PathPlace

/-- **A path means the same in every place**, but for a parameter with a double quote in it. -/
theorem parse_place_iff {place : PathPlace} {p : String} (h : IsPathText p) (named : place.IsNamed) :
    (∃ t, Template.parse (place.source p) = .ok t ∧ t.unlocated = ⟨[place.node p], none, none, []⟩)
      ↔ (place.isParameter = true → '"' ∉ p.toList) := by
  constructor
  · rintro ⟨t, read, same⟩ parameter quote
    exact PathPlace.not_parse_of_quote h named parameter quote read (congrArg Template.nodes same)
  · intro noQuote
    have free : ∀ s ∈ spellingAll [place.node p], s.isExtends = false := by
      cases place with
      | argument function =>
        have other : function ≠ "extends" := by
          intro same
          have noDirective := named.2
          rw [same] at noDirective
          exact absurd noDirective (by decide)
        simpa [spellingAll, Node.spelling, PathPlace.node, Statement.isExtends, Call.unlocated] using other
      | _ => simp [spellingAll, Node.spelling, PathPlace.node, Statement.isExtends, spellingOption]
    obtain ⟨t, read, same⟩ := ofTokens_of_spelling (PathPlace.statements_source h named noQuote) free
    refine ⟨t, parse_eq_ok.2 read, ?_⟩
    rw [same]
    cases place <;> rfl

/-- The quoted key of an index makes two arguments of one path. -/
theorem parse_place_iff_key :
    ¬ ∃ t, Template.parse ((PathPlace.argument "f").source ".a[\"k\"]") = .ok t
      ∧ t.unlocated = ⟨[(PathPlace.argument "f").node ".a[\"k\"]"], none, none, []⟩ := by
  have path : IsPathText ".a[\"k\"]" := ⟨by decide, List.all_eq_true.1 (by decide), by decide⟩
  have name : IsName "f" := ⟨by decide, List.all_eq_true.1 (by decide)⟩
  rw [parse_place_iff path (show (PathPlace.argument "f").IsNamed from ⟨name, by decide⟩)]
  exact fun free => free rfl (by decide)

end Stencil
