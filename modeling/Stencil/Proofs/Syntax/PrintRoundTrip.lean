import Mathlib.Data.List.Chain
import Stencil.Proofs.Syntax.Printing

/-!
# Reading back what is printed

Printed statements are scanned into their tokens one after the other, since text is never printed twice in a row. The
tokens are read as the statements again, but for one thing: a call in front of a value takes it as an argument.

* `run_print`: the tokens of printed statements are the tokens of the statements.
* `statements_tokens`: these are read as the statements if no call stands in front of a value.
* `parse_print_iff`: printed nodes are read back exactly if no call stands in front of a value.
-/

namespace Stencil

open Scanner

/-! ## Scanning one statement after the other -/

section Run

variable {ss : List Statement} {cs rest : List Char} {ts : List Token}

/-- Nothing of two texts tells where the first one ends. -/
def Separate (s s' : Statement) : Prop := ¬ (s.isText = true ∧ s'.isText = true)

theorem startsOpen_print {s : Statement} (h : s.IsPrintable) (noText : s.isText = false) :
    startsOpen (s.print ++ rest) = true := by
  cases s with
  | text content l => cases noText
  | fault e => exact h.elim
  | _ => rfl

theorem run_of_passes (h : Passes .text cs ts .text rest) (l : Location) :
    ∃ us l', us.map Token.unlocated = ts ∧ run .text ⟨l, [], cs⟩ = us ++ run .text ⟨l', [], rest⟩ := by
  obtain ⟨us, l', same, steps⟩ := h l
  exact ⟨us, l', same, steps.run_eq⟩

/-- The tokens of printed statements. -/
theorem run_print (printable : ∀ s ∈ ss, s.IsPrintable) (separate : ss.IsChain Separate) (l : Location) :
    (run .text ⟨l, [], ss.flatMap Statement.print⟩).map Token.unlocated = ss.flatMap Statement.tokens := by
  induction ss generalizing l with
  | nil => rw [List.flatMap_nil, run_of_stop rfl]; rfl
  | cons s ss ih =>
    rw [List.forall_mem_cons] at printable
    have later := ih printable.2 separate.tail
    rw [List.flatMap_cons, List.flatMap_cons]
    obtain ⟨us, l', same, cut⟩ : ∃ us l', us.map Token.unlocated = s.tokens ∧
        run .text ⟨l, [], s.print ++ ss.flatMap Statement.print⟩
          = us ++ run .text ⟨l', [], ss.flatMap Statement.print⟩ := by
      cases isText : s.isText with
      | false => exact run_of_passes (passes_print printable.1 isText) l
      | true =>
        cases s with
        | text content place =>
          have plain : IsPlainText content := printable.1
          refine run_text (IsName.toList_ne_nil plain.named) plain.closed plain.last ?_ l
          cases ss with
          | nil => exact .inl rfl
          | cons s' ss =>
            have noText : s'.isText = false := by
              rw [← Bool.not_eq_true]
              exact fun both => separate.rel ⟨rfl, both⟩
            rw [List.flatMap_cons]
            exact .inr (startsOpen_print (printable.2 _ List.mem_cons_self) noText)
        | _ => cases isText
    rw [cut, List.map_append, same, later l']

end Run

/-! ## Reading one statement -/

theorem isNameChar_of_isBlank {c : Char} (h : Text.isBlank c = true) : isNameChar c = false := by
  have all : ∀ n ∈ [9, 10, 11, 12, 13, 32, 133, 160, 5760, 8192, 8193, 8194, 8195, 8196, 8197, 8198, 8199, 8200, 8201,
      8202, 8232, 8233, 8239, 8287, 12288], isNameChar (Char.ofNat n) = false := by decide +kernel
  have member := all c.toNat (by
    simp only [Text.isBlank, Bool.or_eq_true, Bool.and_eq_true, decide_eq_true_eq, beq_iff_eq] at h
    simp only [List.mem_cons, List.not_mem_nil, or_false]
    omega)
  rwa [Char.ofNat_toNat] at member

theorem dropEnds_quoted {p : Char → Bool} (h : p '"' = false) (cs : List Char) :
    Text.dropEnds p (quoted cs) = quoted cs := by
  refine Text.dropEnds_eq_self (by simpa [quoted] using h) ?_
  rw [quoted, ← List.cons_append, List.getLast?_concat]
  simpa using h

theorem cleanArgument_quoted (a : String) : cleanArgument (String.ofList (quoted a.toList)) = a := by
  rw [cleanArgument, String.toList_ofList, dropEnds_quoted (by decide)]
  have inner : Text.unquote '"' (quoted a.toList) = some a.toList := by
    simp [Text.unquote, quoted]
  simp [inner]

theorem trim_quoted (cs : List Char) : Text.trim (String.ofList (quoted cs)) = String.ofList (quoted cs) := by
  rw [Text.trim, String.toList_ofList, dropEnds_quoted (by decide)]

theorem cleanArgument_name {name : String} (h : IsName name) : cleanArgument name = name := by
  obtain ⟨c, cs, split⟩ := List.exists_cons_of_ne_nil (IsName.toList_ne_nil h.1)
  have noSeparator : ∀ c ∈ name.toList, (c == ',' || c == ' ') = false := by
    intro c hc
    have comma : c ≠ ',' := ne_of_kind (h.2 c hc) (by decide)
    have space : c ≠ ' ' := ne_of_kind (h.2 c hc) (by decide)
    simp [comma, space]
  have noQuote : c ≠ '"' := ne_of_kind (h.2 c (by rw [split]; exact List.mem_cons_self)) (by decide)
  rw [cleanArgument, Text.dropEnds_of_forall noSeparator, split]
  simp only [Text.unquote, if_neg noQuote, Option.getD_none]
  rw [← split, String.ofList_toList]

theorem trim_name {name : String} (h : IsName name) : Text.trim name = name := by
  have noBlank : ∀ c ∈ name.toList, Text.isBlank c = false := by
    intro c hc
    cases blank : Text.isBlank c with
    | false => rfl
    | true =>
      have := isNameChar_of_isBlank blank
      rw [h.2 c hc] at this
      cases this
  exact Text.trim_eq_self noBlank

theorem cleanArgument_inclusion {name : String} (h : IsIncludable name) :
    cleanArgument (String.ofList (name.toList ++ [' '])) = name := by
  have clean := h.clean
  rw [cleanArgument] at clean ⊢
  rw [String.toList_ofList, Text.dropEnds_concat (by decide)]
  exact clean

namespace Statement

theorem ofList_quoted_ne_comma (cs : List Char) : String.ofList (quoted cs) ≠ "," := by
  intro same
  have := congrArg String.toList same
  rw [String.toList_ofList] at this
  cases cs <;> simp [quoted] at this

theorem readArguments_quoted (arguments : List String) :
    readArguments (arguments.map fun a => bare .parameter (quoted a.toList)) = (arguments, []) := by
  induction arguments with
  | nil => rfl
  | cons a as ih =>
    rw [readArguments, Prod.mk.injEq] at ih
    have comma : Text.trim (bare .parameter (quoted a.toList)).text ≠ "," := by
      rw [bare, trim_quoted]
      exact ofList_quoted_ne_comma _
    have parameter : (bare .parameter (quoted a.toList)).isParameter = true := rfl
    have clean : cleanArgument (bare .parameter (quoted a.toList)).text = a := cleanArgument_quoted a
    rw [readArguments, List.map_cons, List.takeWhile_cons_of_pos parameter, List.dropWhile_cons_of_pos parameter,
      List.filter_cons_of_pos (by simpa using comma), List.map_cons, clean, ih.1, ih.2]

theorem readCall_callTokens {c : Call} (h : c.IsPrintable) :
    readCall (bare .function c.name.toList) (c.arguments.map fun a => bare .parameter (quoted a.toList))
      = (c.unlocated, []) := by
  rw [readCall, readArguments_quoted]
  simp [bare, Call.unlocated, ← h.noValue]

theorem read_callTokens {c : Call} (h : c.IsPrintable) :
    read (bare .function c.name.toList) (c.arguments.map fun a => bare .parameter (quoted a.toList))
      = (call c.unlocated, []) := by
  have noDirective : Directive.ofKeyword? (bare .function c.name.toList).text = none := by
    rw [bare, String.ofList_toList]
    exact h.noDirective
  have function : (bare .function c.name.toList).kind = .function := rfl
  simp only [read, function, noDirective, readCall_callTokens h]

/-- The token of the name of a directive is read as the directive says. -/
theorem kind_letters (d : Directive) : (bare .function d.letters).kind = .function := rfl

theorem ofKeyword?_bare_letters (d : Directive) : Directive.ofKeyword? (bare .function d.letters).text = some d :=
  d.ofKeyword?_letters

theorem isWord_name {name : String} (h : IsName name) (word : String) :
    isWord word (bare .parameter name.toList) = (name == word) := by
  have parameter : (bare .parameter name.toList).isParameter = true := rfl
  have text : (bare .parameter name.toList).text = name := String.ofList_toList
  rw [isWord, parameter, text, trim_name h, Bool.true_and]

/-- The tokens of a loop's header are read as the loop, whatever its collection is. -/
theorem read_header {item : String} (index : Option String) (hi : IsName item)
    (hx : ∀ i ∈ index, IsName i ∧ i ≠ "in") (collection : List Char) (rest : List Token) :
    readLoop (bare .function Directive.loop.letters) (bare .parameter item.toList
        :: (index.toList.map (fun i => bare .parameter i.toList)
          ++ bare .parameter ['i', 'n'] :: bare .parameter collection :: rest))
      = (openLoop item index (.parse (String.ofList collection)) .origin, rest) := by
  have parameter : ∀ cs, (bare .parameter cs).isParameter = true := fun _ => rfl
  have cleanItem : cleanArgument (bare .parameter item.toList).text = item := by
    rw [bare, String.ofList_toList, cleanArgument_name hi]
  have isIn : isWord "in" (bare .parameter ['i', 'n']) = true := by decide
  have indexRead : readIndex (index.toList.map (fun i => bare .parameter i.toList)
      ++ bare .parameter ['i', 'n'] :: bare .parameter collection :: rest)
      = (index, bare .parameter ['i', 'n'] :: bare .parameter collection :: rest) := by
    have noComma : isWord "," (bare .parameter ['i', 'n']) = false := by decide
    rw [readIndex_eq]
    cases index with
    | none => simp [skipComma, indexName, noComma, isIn, parameter]
    | some i =>
      obtain ⟨named, notIn⟩ := hx i rfl
      have iComma : i ≠ "," := by
        rintro rfl
        exact absurd (named.2 ',' (by decide)) (by decide)
      have text : (bare .parameter i.toList).text = i := String.ofList_toList
      simp [skipComma, indexName, isWord_name named, iComma, notIn, parameter, text, cleanArgument_name named]
  simp only [readLoop, parameter, cleanItem, hi.1, indexRead, isIn]
  simp [bare]

theorem read_loop {item : String} {index : Option String} {collection : Path}
    (h : IsLoopHeader item index collection) :
    readLoop (bare .function Directive.loop.letters) (bare .parameter item.toList
        :: (index.toList.map (fun i => bare .parameter i.toList)
          ++ [bare .parameter ['i', 'n'], bare .parameter collection.text.toList]))
      = (openLoop item index collection .origin, []) := by
  rw [read_header index h.itemName h.indexName, String.ofList_toList, h.path.parsed]

/-- The tokens of a printed statement are read as the statement, and none of them is left. -/
theorem read_tokens {s : Statement} (h : s.IsPrintable) :
    ∃ t ts, s.tokens = t :: ts ∧ read t ts = (s.unlocated, []) := by
  cases s with
  | text content l => exact ⟨_, _, rfl, by simp [read, bare, unlocated]⟩
  | value p l =>
    have path : IsDotPath p := h
    refine ⟨_, _, rfl, ?_⟩
    have parameter : (bare .parameter p.text.toList).kind = .parameter := rfl
    have text : (bare .parameter p.text.toList).text = p.text := String.ofList_toList
    have dot : (p.text.toList.dropWhile Text.isBlank).head? = some '.' := by
      obtain ⟨cs, split⟩ := List.head?_eq_some_iff.1 path.dot
      rw [split]
      rfl
    simp only [read, parameter, text, dot, if_true, path.parsed]
    rfl
  | call c => exact ⟨_, _, rfl, read_callTokens h⟩
  | inclusion name l =>
    have includable : IsIncludable name := h
    refine ⟨_, _, rfl, ?_⟩
    have clean : cleanArgument (bare .parameter (name.toList ++ [' '])).text = name :=
      cleanArgument_inclusion includable
    simp only [read, kind_letters, ofKeyword?_bare_letters, readNamed, clean, includable.named]
    rfl
  | openBranch condition l =>
    cases condition with
    | path p =>
      have path : IsDotPath p := h
      refine ⟨_, _, rfl, ?_⟩
      have parameter : (bare .parameter p.text.toList).kind = .parameter := rfl
      have text : (bare .parameter p.text.toList).text = p.text := String.ofList_toList
      simp only [read, kind_letters, ofKeyword?_bare_letters, readBranch, parameter, text, path.parsed]
      rfl
    | call c =>
      have callable : c.IsPrintable := h
      refine ⟨_, _, rfl, ?_⟩
      have function : (bare .function c.name.toList).kind = .function := rfl
      have text : (bare .function c.name.toList).text = c.name := String.ofList_toList
      simp only [read, kind_letters, ofKeyword?_bare_letters, callTokens, readBranch, function, text,
        callable.noDirective, Option.isSome_none, Bool.false_eq_true, if_false, readCall_callTokens callable]
      rfl
  | openLoop item index collection l =>
    refine ⟨_, _, rfl, ?_⟩
    simp only [read, kind_letters, ofKeyword?_bare_letters]
    exact read_loop h
  | openBlock name l =>
    have named : IsName name := h
    refine ⟨_, _, rfl, ?_⟩
    have clean : cleanArgument (bare .parameter name.toList).text = name := by
      rw [bare, String.ofList_toList, cleanArgument_name named]
    simp only [read, kind_letters, ofKeyword?_bare_letters, readNamed, clean, named.1]
    rfl
  | alternative l => exact ⟨_, _, rfl, rfl⟩
  | close l => exact ⟨_, _, rfl, rfl⟩
  | fault e => exact h.elim

/-- What makes the tokens of a statement a unit for the reader. -/
structure IsReadable (s : Statement) : Prop where
  noFault : s.isFault = false
  read : ∃ t ts, s.tokens = t :: ts ∧ read t ts = (s.unlocated, []) ∧ t.isParameter = s.isValue
    ∧ (s.isValue = true → ts = [])

theorem IsPrintable.isReadable {s : Statement} (h : s.IsPrintable) : s.IsReadable := by
  obtain ⟨t, ts, tokens, same⟩ := read_tokens h
  refine ⟨?_, t, ts, tokens, same, ?_, ?_⟩
  · cases s with
    | fault e => exact h.elim
    | _ => rfl
  · cases s with
    | openBranch condition l => cases condition <;> cases tokens <;> rfl
    | fault e => exact h.elim
    | _ => cases tokens; rfl
  · intro isValue
    cases s with
    | value p l => cases tokens; rfl
    | _ => cases isValue

end Statement

/-! ## Reading one statement after the other -/

section Read

variable {s : Statement} {ss : List Statement}

/-- The second statement does not begin with a parameter that the first one takes. -/
def Apart (s s' : Statement) : Prop := ¬ (s.takesArguments = true ∧ s'.isValue = true)

theorem takeWhile_tokens (readable : ∀ s ∈ ss, s.IsReadable) (noValue : ∀ s ∈ ss.head?, s.isValue = false) :
    (ss.flatMap Statement.tokens).takeWhile Token.isParameter = [] := by
  cases ss with
  | nil => rfl
  | cons s ss =>
    obtain ⟨t, ts, tokens, -, parameter, -⟩ := (readable s List.mem_cons_self).read
    rw [noValue s rfl] at parameter
    simp [tokens, parameter]

/-- The parameters in front of the tokens are the leading values. -/
theorem dropWhile_tokens (readable : ∀ s ∈ ss, s.IsReadable) :
    (ss.flatMap Statement.tokens).dropWhile Token.isParameter
      = (ss.dropWhile Statement.isValue).flatMap Statement.tokens := by
  induction ss with
  | nil => rfl
  | cons s ss ih =>
    rw [List.forall_mem_cons] at readable
    obtain ⟨t, ts, tokens, -, parameter, single⟩ := readable.1.read
    cases isValue : s.isValue with
    | true =>
      rw [isValue] at parameter
      rw [List.flatMap_cons, tokens, single isValue, List.dropWhile_cons_of_pos isValue, ← ih readable.2]
      simp [parameter]
    | false =>
      rw [isValue] at parameter
      rw [List.flatMap_cons, List.dropWhile_cons_of_neg (by simp [isValue]), List.flatMap_cons, tokens]
      simp [parameter]

/-- A statement that takes no arguments leaves the tokens behind its own. -/
theorem statements_tokens_cons (readable : s.IsReadable) (noCall : s.takesArguments = false) (us : List Token) :
    statements (s.tokens ++ us) = s.unlocated :: statements us := by
  obtain ⟨t, ts, tokens, same, -, -⟩ := readable.read
  have joined : Statement.read t (ts ++ us) = _ :=
    Statement.read_append (by rw [same]; simp [readable.noFault]) (.inl (by rw [same]; simp [noCall]))
  rw [tokens, List.cons_append, statements_cons, joined, same]
  simp [readable.noFault]

/-- A statement that takes arguments takes the parameters behind its own. -/
theorem statements_tokens_cons_of_takes (readable : s.IsReadable) (takes : s.takesArguments = true)
    (us : List Token) :
    statements (s.tokens ++ us)
      = s.unlocated.gain (Statement.readArguments us).1 :: statements (us.dropWhile Token.isParameter) := by
  obtain ⟨t, ts, tokens, same, -, -⟩ := readable.read
  have joined : Statement.read t (ts ++ us) = _ :=
    Statement.read_append_of_takes (by rw [same]; simp [takes]) (by rw [same])
  rw [tokens, List.cons_append, statements_cons, joined, same]
  simp [readable.noFault, Statement.readArguments]

/-- Tokens of statements are read as the statements if no call stands in front of a value. -/
theorem statements_tokens (readable : ∀ s ∈ ss, s.IsReadable) (apart : ss.IsChain Apart) :
    statements (ss.flatMap Statement.tokens) = ss.map Statement.unlocated := by
  induction ss with
  | nil => simp [statements]
  | cons s ss ih =>
    rw [List.forall_mem_cons] at readable
    have later := ih readable.2 apart.tail
    rw [List.flatMap_cons, List.map_cons]
    cases takes : s.takesArguments with
    | false => rw [statements_tokens_cons readable.1 takes, later]
    | true =>
      have noValue : ∀ s' ∈ ss.head?, s'.isValue = false := by
        intro s' first
        rw [← Bool.not_eq_true]
        exact fun isValue => apart.rel_head? first ⟨takes, isValue⟩
      have none' := takeWhile_tokens readable.2 noValue
      have all := List.takeWhile_append_dropWhile (p := Token.isParameter) (l := ss.flatMap Statement.tokens)
      rw [none', List.nil_append] at all
      rw [statements_tokens_cons_of_takes readable.1 takes, all, Statement.readArguments, none', later]
      simp

/-- A call in front of a value makes one statement of both. -/
theorem length_statements_tokens (readable : ∀ s ∈ ss, s.IsReadable) :
    (statements (ss.flatMap Statement.tokens)).length ≤ ss.length
      ∧ ((statements (ss.flatMap Statement.tokens)).length = ss.length → ss.IsChain Apart) := by
  induction hn : ss.length using Nat.strongRecOn generalizing ss with
  | _ n ih =>
    cases ss with
    | nil => exact ⟨by simp [statements], fun _ => .nil⟩
    | cons s ss =>
      rw [List.forall_mem_cons] at readable
      rw [List.length_cons] at hn
      rw [List.flatMap_cons, List.isChain_cons]
      cases takes : s.takesArguments with
      | false =>
        obtain ⟨le, chain⟩ := ih _ (by omega) readable.2 rfl
        rw [statements_tokens_cons readable.1 takes, List.length_cons]
        refine ⟨by omega, fun same => ⟨fun s' _ both => ?_, chain (by omega)⟩⟩
        rw [takes] at both
        cases both.1
      | true =>
        have shorter := (List.dropWhile_sublist (l := ss) Statement.isValue).length_le
        obtain ⟨le, chain⟩ := ih (ss.dropWhile Statement.isValue).length (by omega)
          (fun s hs => readable.2 s ((List.dropWhile_sublist _).subset hs)) rfl
        rw [statements_tokens_cons_of_takes readable.1 takes, dropWhile_tokens readable.2, List.length_cons]
        refine ⟨by omega, fun same => ?_⟩
        have all : ss.dropWhile Statement.isValue = ss := (List.dropWhile_sublist _).eq_of_length (by omega)
        rw [all] at chain same
        refine ⟨fun s' first both => ?_, chain (by omega)⟩
        have noValue := List.head?_dropWhile_not Statement.isValue ss
        rw [all, first] at noValue
        exact absurd both.2 (by simpa using noValue)

end Read

/-! ## Sources -/

/-- What is printed in front of the nodes, as a statement. -/
def baseStatements : Option String → List Statement
  | none => []
  | some base => [.call ⟨"extends", [base], none, .origin⟩]

/-- The node of the directive that names a base. -/
def baseNodes : Option String → List Node
  | none => []
  | some base => [.call ⟨"extends", [base], none, .origin⟩]

theorem spellingAll_baseNodes (base : Option String) : spellingAll (baseNodes base) = baseStatements base := by
  cases base <;> rfl

/-- Nodes and a base whose source can be read back. -/
structure IsPrintableSource (base : Option String) (ns : List Node) : Prop where
  statements : ∀ s ∈ spellingAll ns, s.IsPrintable
  separate : (spellingAll ns).IsChain Separate
  named : ∀ b ∈ base, b ≠ "" ∧ IsArgument b
  layout : ∀ b ∈ base, ∀ n ∈ ns, n.isBlock = true ∨ n.isBlank = true

theorem callTokens_base (base : String) :
    Statement.callTokens ⟨"extends", [base], none, .origin⟩
      = [bare .function Directive.base.letters, bare .parameter (quoted base.toList)] := by
  have letters : "extends".toList = Directive.base.letters := by decide
  rw [Statement.callTokens, letters]
  rfl

theorem passes_base {base : String} (h : IsArgument base) (rest : List Char) :
    Passes .text (printBase (some base) ++ rest) (Statement.callTokens ⟨"extends", [base], none, .origin⟩) .text
      rest := by
  have skipped : (' ' :: (quoted base.toList ++ ' ' :: '}' :: '}' :: rest)).dropWhile isOpening
      = quoted base.toList ++ ' ' :: '}' :: '}' :: rest := rfl
  have opened := passes_open_directive .base (quoted base.toList ++ ' ' :: '}' :: '}' :: rest) (c := ' ') (by decide)
    fun isIf => by cases isIf
  rw [skipped] at opened
  have space : Passes .parameters (' ' :: '}' :: '}' :: rest) [] .parameters ('}' :: '}' :: rest) :=
    passes_word _ (List.forall_mem_nil _) rfl
  rw [printBase, braced_append, List.append_assoc, callTokens_base]
  exact opened.trans ((passes_quoted h).trans (space.trans passes_end))

theorem isReadable_base (base : String) : (Statement.call ⟨"extends", [base], none, .origin⟩).IsReadable := by
  have arguments := Statement.readArguments_quoted [base]
  rw [List.map_singleton] at arguments
  have name : (bare .function Directive.base.letters).text = "extends" := by decide
  refine ⟨rfl, _, _, callTokens_base base, ?_, rfl, fun isValue => by cases isValue⟩
  simp only [Statement.read, Statement.kind_letters, Statement.readCall, arguments, name]
  rfl

section Source

variable {base : Option String} {ns : List Node}

theorem scan_printSource (h : IsPrintableSource base ns) :
    (scan (printSource base ns)).map Token.unlocated
      = (baseStatements base ++ spellingAll ns).flatMap Statement.tokens := by
  have printed : ∀ l, (run .text ⟨l, [], (spellingAll ns).flatMap Statement.print⟩).map Token.unlocated
      = (spellingAll ns).flatMap Statement.tokens := run_print h.statements h.separate
  rw [scan, printSource, String.toList_ofList, Cursor.origin]
  cases base with
  | none => exact printed _
  | some base =>
    obtain ⟨us, l', same, cut⟩ := run_of_passes (passes_base (h.named base rfl).2 _) .origin
    rw [cut, List.map_append, same, printed l']
    rfl

theorem isReadable_source (h : IsPrintableSource base ns) :
    ∀ s ∈ baseStatements base ++ spellingAll ns, s.IsReadable := by
  intro s hs
  rcases List.mem_append.1 hs with hs | hs
  · cases base with
    | none => cases hs
    | some base =>
      rw [List.mem_singleton.1 hs]
      exact isReadable_base base
  · exact (h.statements s hs).isReadable

/-- A base stands apart from what may follow it. -/
theorem isChain_source (h : IsPrintableSource base ns) :
    (baseStatements base ++ spellingAll ns).IsChain Apart ↔ (spellingAll ns).IsChain Apart := by
  cases base with
  | none => exact Iff.rfl
  | some base =>
    rw [baseStatements, List.singleton_append, List.isChain_cons]
    refine and_iff_right fun s first both => ?_
    cases ns with
    | nil => cases first
    | cons n ns =>
      have layout := h.layout base rfl n List.mem_cons_self
      cases n with
      | value p l => rcases layout with layout | layout <;> cases layout
      | text | call | branch | loop | inclusion | block => cases first; cases both.2

theorem isExtends_of_isPrintable {s : Statement} (h : s.IsPrintable) : s.isExtends = false := by
  cases s with
  | call c =>
    have printable : c.IsPrintable := h
    have other : c.name ≠ "extends" := by
      intro same
      have noDirective := printable.noDirective
      rw [same] at noDirective
      exact absurd noDirective (by decide)
    simpa [Statement.isExtends] using other
  | _ => rfl

/-- The template of nodes with a base. -/
def sourceTemplate (base : Option String) (ns : List Node) : Template :=
  ⟨baseNodes base ++ unlocatedAll ns, base, none, (refersTo base.toList (spellingAll ns)).reverse⟩

theorem checkLayout_source (h : IsPrintableSource base ns) :
    checkLayout ((baseNodes base ++ unlocatedAll ns).filter (!·.isBlank)) = .ok () := by
  have free : ∀ n ∈ unlocatedAll ns, n.isExtends = false := by
    refine isExtends_of_spelling fun s hs => ?_
    rw [spellingAll_unlocatedAll] at hs
    exact isExtends_of_isPrintable (h.statements s hs)
  cases base with
  | none => exact checkLayout_of_none fun n hn => free n (List.mem_filter.1 hn).1
  | some base =>
    have blocks : ∀ n ∈ (unlocatedAll ns).filter (!·.isBlank), n.isExtends = false ∧ n.isBlock = true := by
      intro n hn
      obtain ⟨mem, noBlank⟩ := List.mem_filter.1 hn
      refine ⟨free n mem, ?_⟩
      rw [unlocatedAll_eq_map] at mem
      obtain ⟨m, hm, rfl⟩ := List.mem_map.1 mem
      rw [Node.isBlock_unlocated]
      refine (h.layout base rfl m hm).resolve_right fun blank => ?_
      simp [blank] at noBlank
    have first : ∀ ms : List Node, ((baseNodes (some base) ++ ms).filter (!·.isBlank))
        = .call ⟨"extends", [base], none, .origin⟩ :: ms.filter (!·.isBlank) := fun _ => rfl
    rw [first, checkLayout, List.find?_eq_none.2 fun n hn => by simp [blocks n hn]]

/-- Built from its statements, a source is its template. -/
theorem run_source (h : IsPrintableSource base ns) :
    ∃ b, Builder.empty.run (baseStatements base ++ spellingAll ns) = (b, none)
      ∧ b.finish = .ok (sourceTemplate base ns) := by
  have free : ∀ s ∈ spellingAll ns, s.isExtends = false := fun s hs => isExtends_of_isPrintable (h.statements s hs)
  have layout := checkLayout_source h
  cases base with
  | none =>
    obtain ⟨events, built⟩ := Builder.run_spellingAll ns free .empty
    refine ⟨_, built, ?_⟩
    simp only [baseNodes, List.nil_append] at layout
    simp only [Builder.gain, Builder.empty, Builder.finish, List.append_nil, List.reverse_reverse, layout]
    rfl
  | some base =>
    have start : Builder.empty.run (baseStatements (some base))
        = (⟨[.call ⟨"extends", [base], none, .origin⟩], [], some base, [base], [.node 0 .origin .function]⟩, none) := by
      simp only [baseStatements, Builder.run, Builder.step, Builder.extend, (h.named base rfl).1, if_true, if_false]
      rfl
    obtain ⟨events, built⟩ := Builder.run_spellingAll ns free
      ⟨[.call ⟨"extends", [base], none, .origin⟩], [], some base, [base], [.node 0 .origin .function]⟩
    refine ⟨_, (Builder.run_append start _).trans built, ?_⟩
    simp only [baseNodes, List.singleton_append] at layout
    simp only [Builder.gain, Builder.finish, List.reverse_append, List.reverse_reverse, List.reverse_singleton,
      List.singleton_append, layout]
    rfl

/-- Printed nodes are read back, places apart, exactly if no call stands right in front of a value. -/
theorem parse_print_iff (h : IsPrintableSource base ns) :
    (∃ t, Template.parse (printSource base ns) = .ok t ∧ t.unlocated = sourceTemplate base ns)
      ↔ (spellingAll ns).IsChain Apart := by
  have tokens := scan_printSource h
  have readable := isReadable_source h
  rw [← isChain_source h]
  constructor
  · rintro ⟨t, read, same⟩
    refine (length_statements_tokens readable).2 ?_
    have spelled := spelling_of_ofTokens (parse_eq_ok.1 read)
    have nodes : unlocatedAll t.nodes = baseNodes base ++ unlocatedAll ns := congrArg Template.nodes same
    rw [← statements_unlocated, tokens, ← spellingAll_unlocatedAll t.nodes, nodes, spellingAll_append,
      spellingAll_baseNodes, spellingAll_unlocatedAll] at spelled
    rw [spelled]
  · intro apart
    obtain ⟨b, built, finished⟩ := run_source h
    have spelled : (statements (scan (printSource base ns))).map Statement.unlocated
        = (baseStatements base ++ spellingAll ns).map Statement.unlocated := by
      rw [← statements_unlocated, tokens, statements_tokens readable apart]
    obtain ⟨t, read, same⟩ := ofTokens_of_run spelled built finished
    refine ⟨t, parse_eq_ok.2 read, ?_⟩
    rw [same]
    cases base <;> simp [sourceTemplate, Template.unlocated, baseNodes, unlocatedAll, Node.unlocated, Call.unlocated]

theorem parse_print_iff_block :
    (∃ t, Template.parse (printSource (some "b") [.block "s" [.value ⟨".x", [⟨"x", []⟩]⟩ .origin] .origin]) = .ok t
        ∧ t.unlocated = sourceTemplate (some "b") [.block "s" [.value ⟨".x", [⟨"x", []⟩]⟩ .origin] .origin])
      ↔ (spellingAll [.block "s" [.value ⟨".x", [⟨"x", []⟩]⟩ .origin] .origin]).IsChain Apart := by
  have path : IsDotPath ⟨".x", [⟨"x", []⟩]⟩ := ⟨⟨by cbv, by decide, List.all_eq_true.1 (by decide)⟩, by decide⟩
  have name : IsName "s" := ⟨by decide, List.all_eq_true.1 (by decide)⟩
  refine parse_print_iff ⟨?_, ?_, ?_, ?_⟩
  · simp only [spellingAll, Node.spelling, List.append_nil, List.singleton_append, List.forall_mem_cons]
    exact ⟨name, path, trivial, List.forall_mem_nil _⟩
  · simp [spellingAll, Node.spelling, Separate, Statement.isText]
  · rintro _ ⟨⟩
    exact ⟨by decide, by unfold IsArgument; decide⟩
  · rintro _ ⟨⟩
    simp [Node.isBlock]

end Source

end Stencil
