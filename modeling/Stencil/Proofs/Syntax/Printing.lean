import Stencil.Proofs.Syntax.Juxtaposition
import Stencil.Proofs.Syntax.Passes

/-!
# Canonical source text

Nodes are printed statement by statement, in the order of their spelling. The conditions under which the text of a
statement is read back (`IsPrintable`) are conditions on its own names, paths and texts; between statements only texts
must not touch.

* `passes_print`: the scanner makes of a printed statement its tokens (`Statement.tokens`).
* `read_tokens`: the tokens of a statement are read as the statement.
* `parse_print_iff`: printed nodes are read back exactly if no call stands right in front of a value.
-/

namespace Stencil

open Scanner

/-! ## The printer -/

/-- The letters of a directive. -/
def Directive.letters : Directive → List Char
  | .branch => ['i', 'f']
  | .alternative => ['e', 'l', 's', 'e']
  | .close => ['e', 'n', 'd']
  | .loop => ['f', 'o', 'r', 'e', 'a', 'c', 'h']
  | .inclusion => ['i', 'n', 'c', 'l', 'u', 'd', 'e']
  | .block => ['b', 'l', 'o', 'c', 'k']
  | .base => ['e', 'x', 't', 'e', 'n', 'd', 's']

def printArguments : List String → List Char
  | [] => []
  | [a] => quoted a.toList
  | a :: b :: as => quoted a.toList ++ ',' :: ' ' :: printArguments (b :: as)

def Call.print (c : Call) : List Char := c.name.toList ++ '(' :: (printArguments c.arguments ++ [')'])

def Condition.print : Condition → List Char
  | .path p => p.text.toList
  | .call c => c.print

/-- The index of a loop behind its item, if it has one. -/
def printIndex : Option String → List Char
  | none => []
  | some index => ',' :: ' ' :: index.toList

namespace Statement

def print : Statement → List Char
  | text content _ => content.toList
  | value p _ => braced p.text.toList
  | call c => braced c.print
  | inclusion name _ => braced (Directive.inclusion.letters ++ ' ' :: name.toList)
  | openBranch condition _ => braced (Directive.branch.letters ++ ' ' :: condition.print)
  | openLoop item index collection _ =>
    braced (Directive.loop.letters ++ '(' :: (item.toList ++ (printIndex index ++
      ' ' :: 'i' :: 'n' :: ' ' :: (collection.text.toList ++ [')']))))
  | openBlock name _ => braced (Directive.block.letters ++ ' ' :: name.toList)
  | alternative _ => braced Directive.alternative.letters
  | close _ => braced Directive.close.letters
  | fault _ => []

end Statement

/-- The directive that names a base, if there is one. -/
def printBase : Option String → List Char
  | none => []
  | some base => braced (Directive.base.letters ++ ' ' :: quoted base.toList)

/-- The source of nodes with a base. -/
def printSource (base : Option String) (ns : List Node) : String :=
  String.ofList (printBase base ++ (spellingAll ns).flatMap Statement.print)

/-! ## What can be printed -/

def IsName (name : String) : Prop := name ≠ "" ∧ ∀ c ∈ name.toList, isNameChar c = true

/-- A path of key characters. -/
structure IsKeyPath (p : Path) : Prop where
  parsed : Path.parse p.text = p
  named : p.text ≠ ""
  chars : ∀ c ∈ p.text.toList, isKeyChar c = true

/-- A path of key characters behind a dot. -/
structure IsDotPath (p : Path) : Prop extends IsKeyPath p where
  dot : p.text.toList.head? = some '.'

/-- A text that is read back from between quotes. -/
def IsArgument (a : String) : Prop := escapesQuotes '"' a.toList = true

structure Call.IsPrintable (c : Call) : Prop where
  name : IsName c.name
  noDirective : Directive.ofKeyword? c.name = none
  noValue : c.value = none
  arguments : ∀ a ∈ c.arguments, IsArgument a

def Condition.IsPrintable : Condition → Prop
  | .path p => IsDotPath p
  | .call c => c.IsPrintable

/-- A text without the opening of a directive, which may not come about behind it either. -/
structure IsPlainText (content : String) : Prop where
  named : content ≠ ""
  closed : ¬ ['{', '{'] <:+: content.toList
  last : content.toList.getLast? ≠ some '{'

/-- Anything but the end of a directive that stays whole when separators and quotes are taken off. -/
structure IsIncludable (name : String) : Prop where
  named : name ≠ ""
  closed : ¬ ['}', '}'] <:+: name.toList
  first : ∀ c ∈ name.toList.head?, isOpening c = false
  clean : cleanArgument name = name

structure IsLoopHeader (item : String) (index : Option String) (collection : Path) : Prop where
  itemName : IsName item
  indexName : ∀ i ∈ index, IsName i ∧ i ≠ "in"
  path : IsKeyPath collection
  noQuote : '"' ∉ collection.text.toList

namespace Statement

def IsPrintable : Statement → Prop
  | text content _ => IsPlainText content
  | value p _ => IsDotPath p
  | call c => c.IsPrintable
  | inclusion name _ => IsIncludable name
  | openBranch condition _ => condition.IsPrintable
  | openLoop item index collection _ => IsLoopHeader item index collection
  | openBlock name _ => IsName name
  | alternative _ | close _ => True
  | fault _ => False

def isText : Statement → Bool
  | text .. => true
  | _ => false

/-! ## The tokens of a statement -/

def callTokens (c : Call) : List Token :=
  bare .function c.name.toList :: c.arguments.map fun a => bare .parameter (quoted a.toList)

/-- The tokens of a printed statement, without places. -/
def tokens : Statement → List Token
  | text content _ => [bare .text content.toList]
  | value p _ => [bare .parameter p.text.toList]
  | call c => callTokens c
  | inclusion name _ => [bare .function Directive.inclusion.letters, bare .parameter (name.toList ++ [' '])]
  | openBranch (.path p) _ => [bare .function Directive.branch.letters, bare .parameter p.text.toList]
  | openBranch (.call c) _ => bare .function Directive.branch.letters :: callTokens c
  | openLoop item index collection _ =>
    bare .function Directive.loop.letters :: bare .parameter item.toList
      :: (index.toList.map (fun i => bare .parameter i.toList)
        ++ [bare .parameter ['i', 'n'], bare .parameter collection.text.toList])
  | openBlock name _ => [bare .function Directive.block.letters, bare .parameter name.toList]
  | alternative _ => [bare .function Directive.alternative.letters]
  | close _ => [bare .function Directive.close.letters]
  | fault _ => []

end Statement

/-! ## Scanning what is printed -/

theorem braced_append (cs rest : List Char) :
    braced cs ++ rest = '{' :: '{' :: ' ' :: (cs ++ ' ' :: '}' :: '}' :: rest) := by
  simp [braced]

theorem Directive.isNameChar_letters (d : Directive) : ∀ c ∈ d.letters, isNameChar c = true := by
  have all : d.letters.all isNameChar = true := by cases d <;> decide
  exact List.all_eq_true.1 all

theorem Directive.letters_ne_nil (d : Directive) : d.letters ≠ [] := by cases d <;> decide

theorem Directive.ofKeyword?_letters (d : Directive) : ofKeyword? (String.ofList d.letters) = some d := by
  cases d <;> decide

theorem Directive.ne_letters {name : String} (h : ofKeyword? name = none) (d : Directive) :
    name.toList ≠ d.letters := by
  intro same
  have : name = String.ofList d.letters := by rw [← same, String.ofList_toList]
  rw [this, ofKeyword?_letters] at h
  cases h

theorem IsName.toList_ne_nil {name : String} (h : name ≠ "") : name.toList ≠ [] := by
  intro empty
  exact h (String.toList_injective empty)

section Scan

variable {rest : List Char}

theorem passes_arguments (arguments : List String) (h : ∀ a ∈ arguments, IsArgument a) :
    Passes .parameters (printArguments arguments ++ ')' :: ' ' :: '}' :: '}' :: rest)
      (arguments.map fun a => bare .parameter (quoted a.toList)) .text rest := by
  induction arguments with
  | nil => exact passes_paren _ (List.forall_mem_nil _)
  | cons a as ih =>
    rw [List.forall_mem_cons] at h
    cases as with
    | nil => exact (passes_quoted h.1).trans (passes_paren _ (List.forall_mem_nil _))
    | cons b bs =>
      rw [printArguments, List.append_assoc, List.cons_append, List.cons_append]
      have comma : Passes .parameters (',' :: ' ' :: (printArguments (b :: bs) ++ ')' :: ' ' :: '}' :: '}' :: rest)) []
          .parameters (' ' :: (printArguments (b :: bs) ++ ')' :: ' ' :: '}' :: '}' :: rest)) :=
        passes_word _ (List.forall_mem_nil _) rfl
      have space : Passes .parameters (' ' :: (printArguments (b :: bs) ++ ')' :: ' ' :: '}' :: '}' :: rest)) []
          .parameters (printArguments (b :: bs) ++ ')' :: ' ' :: '}' :: '}' :: rest) :=
        passes_word _ (List.forall_mem_nil _) rfl
      exact (passes_quoted h.1).trans (comma.trans (space.trans (ih h.2)))

/-- Only the parenthesis stands between the name of a call and its arguments. -/
theorem dropWhile_isOpening_arguments (arguments : List String) :
    ('(' :: (printArguments arguments ++ ')' :: rest)).dropWhile isOpening
      = printArguments arguments ++ ')' :: rest := by
  have first : ∀ c ∈ (printArguments arguments ++ ')' :: rest).head?, isOpening c = false := by
    cases arguments with
    | nil => simp [printArguments, isOpening]
    | cons a as => cases as <;> simp [printArguments, quoted, isOpening]
  exact dropWhile_append_stop (show ∀ c ∈ ['('], isOpening c = true by simp [isOpening]) first

theorem modeAfter_of_noDirective {name : String} (h : Directive.ofKeyword? name = none) :
    modeAfter name.toList = .parameters := by
  have branch := Directive.ne_letters h .branch
  have close := Directive.ne_letters h .close
  have alternative := Directive.ne_letters h .alternative
  have inclusion := Directive.ne_letters h .inclusion
  simp only [Directive.letters] at branch close alternative inclusion
  simp [modeAfter, branch, close, alternative, inclusion]

theorem call_print_append (c : Call) (rest : List Char) :
    c.print ++ rest = c.name.toList ++ '(' :: (printArguments c.arguments ++ ')' :: rest) := by
  simp [Call.print]

theorem passes_call {c : Call} (h : c.IsPrintable) :
    Passes .text (braced c.print ++ rest) (Statement.callTokens c) .text rest := by
  rw [braced_append, call_print_append]
  have name := passes_open_name ('(' :: (printArguments c.arguments ++ ')' :: ' ' :: '}' :: '}' :: rest))
    (IsName.toList_ne_nil h.name.1) h.name.2 (by simp; decide)
    (fun isIf => absurd isIf (Directive.ne_letters h.noDirective .branch))
  rw [modeAfter_of_noDirective h.noDirective, dropWhile_isOpening_arguments] at name
  exact name.trans (passes_arguments c.arguments h.arguments)

theorem isWordChar_of_isNameChar {c : Char} (h : isNameChar c = true) : isWordChar c = true := by
  simp only [isWordChar, Bool.and_eq_true, bne_iff_ne]
  exact ⟨⟨⟨⟨ne_of_kind h (by decide), ne_of_kind h (by decide)⟩, ne_of_kind h (by decide)⟩, ne_of_kind h (by decide)⟩,
    ne_of_kind h (by decide)⟩

theorem isWordChar_of_isKeyChar {c : Char} (h : isKeyChar c = true) (noQuote : c ≠ '"') : isWordChar c = true := by
  simp only [isWordChar, Bool.and_eq_true, bne_iff_ne]
  exact ⟨⟨⟨⟨ne_of_kind h (by decide), noQuote⟩, ne_of_kind h (by decide)⟩, ne_of_kind h (by decide)⟩,
    ne_of_kind h (by decide)⟩

theorem IsName.isWordChar {name : String} (h : IsName name) : ∀ c ∈ name.toList, isWordChar c = true :=
  fun c hc => isWordChar_of_isNameChar (h.2 c hc)

/-- What stands between a directive and a name behind it is skipped. -/
theorem dropWhile_isOpening_name {name : String} (rest : List Char) (h : IsName name) {c : Char}
    (hc : isOpening c = true) : (c :: (name.toList ++ rest)).dropWhile isOpening = name.toList ++ rest := by
  have first : ∀ d ∈ (name.toList ++ rest).head?, isOpening d = false := by
    obtain ⟨d, ds, split⟩ := List.exists_cons_of_ne_nil (IsName.toList_ne_nil h.1)
    have named := h.2 d (by rw [split]; exact List.mem_cons_self)
    have space : d ≠ ' ' := ne_of_kind named (by decide)
    have paren : d ≠ '(' := ne_of_kind named (by decide)
    simp [split, isOpening, space, paren]
  have only : ∀ d ∈ [c], isOpening d = true := by simpa using hc
  exact dropWhile_append_stop only first

theorem startsClose_name {name : String} (h : IsName name) : startsClose (name.toList ++ rest) = false := by
  obtain ⟨d, ds, split⟩ := List.exists_cons_of_ne_nil (IsName.toList_ne_nil h.1)
  have named := h.2 d (by rw [split]; exact List.mem_cons_self)
  rw [split, ← Bool.not_eq_true, startsClose_iff]
  rintro ⟨es, pair⟩
  exact ne_of_kind named (by decide) (List.cons.inj pair).1

theorem passes_open_directive (d : Directive) (rest : List Char) {c : Char} (hc : isNameChar c = false)
    (notAlone : d = .branch → startsClose ((c :: rest).dropWhile isOpening) = false) :
    Passes .text ('{' :: '{' :: ' ' :: (d.letters ++ c :: rest)) [bare .function d.letters] (modeAfter d.letters)
      ((c :: rest).dropWhile isOpening) := by
  refine passes_open_name _ d.letters_ne_nil d.isNameChar_letters (by simpa using hc) fun isIf => notAlone ?_
  cases d with
  | branch => rfl
  | _ => cases isIf

theorem passes_value {p : Path} (h : IsDotPath p) :
    Passes .text (braced p.text.toList ++ rest) [bare .parameter p.text.toList] .text rest := by
  obtain ⟨cs, dot⟩ : ∃ cs, p.text.toList = '.' :: cs := List.head?_eq_some_iff.1 h.dot
  have key := passes_key rest (IsName.toList_ne_nil h.named) h.chars
  rw [dot] at key ⊢
  rw [braced_append]
  exact passes_open.trans (passes_open_path.trans key)

theorem passes_inclusion {name : String} (h : IsIncludable name) (l : Location) :
    Passes .text ((Statement.inclusion name l).print ++ rest) (Statement.inclusion name l).tokens .text rest := by
  have first : ∀ c ∈ (name.toList ++ ' ' :: '}' :: '}' :: rest).head?, isOpening c = false := by
    obtain ⟨c, cs, split⟩ := List.exists_cons_of_ne_nil (IsName.toList_ne_nil h.named)
    have opening := h.first c (by rw [split]; rfl)
    simpa [split] using opening
  have space : ∀ c ∈ name.toList.head?, isSpace c = false := by
    intro c hc
    have := h.first c hc
    simp only [isOpening, Bool.or_eq_false_iff] at this
    exact this.1
  have opened := passes_open_directive .inclusion (name.toList ++ ' ' :: '}' :: '}' :: rest) (c := ' ') (by decide)
    fun isIf => by cases isIf
  have skipped : (' ' :: (name.toList ++ ' ' :: '}' :: '}' :: rest)).dropWhile isOpening
      = name.toList ++ ' ' :: '}' :: '}' :: rest :=
    dropWhile_append_stop (show ∀ c ∈ [' '], isOpening c = true by simp [isOpening]) first
  rw [skipped] at opened
  rw [Statement.print, braced_append, List.append_assoc]
  exact opened.trans (passes_parameter (IsName.toList_ne_nil h.named) h.closed space)

theorem passes_openBlock {name : String} (h : IsName name) (l : Location) :
    Passes .text ((Statement.openBlock name l).print ++ rest) (Statement.openBlock name l).tokens .text rest := by
  have opened := passes_open_directive .block (name.toList ++ ' ' :: '}' :: '}' :: rest) (c := ' ') (by decide)
    fun isIf => by cases isIf
  rw [dropWhile_isOpening_name _ h (by decide)] at opened
  have word := passes_word ('}' :: '}' :: rest) (d := ' ') h.isWordChar (by decide)
  rw [bareWindow_of_ne_nil (IsName.toList_ne_nil h.1)] at word
  rw [Statement.print, braced_append, List.append_assoc]
  exact opened.trans (word.trans passes_end)

theorem passes_openBranch {condition : Condition} (h : condition.IsPrintable) (l : Location) :
    Passes .text ((Statement.openBranch condition l).print ++ rest) (Statement.openBranch condition l).tokens .text
      rest := by
  rw [Statement.print, braced_append, List.append_assoc]
  cases condition with
  | path p =>
    obtain ⟨cs, dot⟩ : ∃ cs, p.text.toList = '.' :: cs := List.head?_eq_some_iff.1 h.dot
    have key := passes_key rest (IsName.toList_ne_nil h.named) h.chars
    have skipped : (' ' :: (p.text.toList ++ ' ' :: '}' :: '}' :: rest)).dropWhile isOpening
        = p.text.toList ++ ' ' :: '}' :: '}' :: rest := by
      rw [dot]
      rfl
    have opened := passes_open_directive .branch (p.text.toList ++ ' ' :: '}' :: '}' :: rest) (c := ' ')
      (by decide) fun _ => by rw [skipped, dot]; rfl
    rw [skipped] at opened
    have path : Passes .keyword (p.text.toList ++ ' ' :: '}' :: '}' :: rest) [] .modelKey
        (p.text.toList ++ ' ' :: '}' :: '}' :: rest) := by
      rw [dot]
      exact passes_path
    exact opened.trans (path.trans key)
  | call c =>
    have skipped := dropWhile_isOpening_name ('(' :: (printArguments c.arguments ++ ')' :: ' ' :: '}' :: '}' :: rest))
      h.name (c := ' ') (by decide)
    have opened := passes_open_directive .branch (c.name.toList ++ '(' :: (printArguments c.arguments
      ++ ')' :: ' ' :: '}' :: '}' :: rest)) (c := ' ') (by decide)
      fun _ => by rw [skipped]; exact startsClose_name h.name
    rw [skipped] at opened
    have name := passes_name ('(' :: (printArguments c.arguments ++ ')' :: ' ' :: '}' :: '}' :: rest))
      (IsName.toList_ne_nil h.name.1) h.name.2 (by simp; decide)
      (fun isIf => absurd isIf (Directive.ne_letters h.noDirective .branch))
    rw [modeAfter_of_noDirective h.noDirective, dropWhile_isOpening_arguments] at name
    rw [Condition.print, List.cons_append, call_print_append]
    exact opened.trans (name.trans (passes_arguments c.arguments h.arguments))

/-- The item of a loop, its index if there is one, and the blank behind them. -/
theorem passes_item {item : String} {index : Option String} (rest : List Char) (hi : IsName item)
    (hx : ∀ i ∈ index, IsName i) :
    Passes .parameters (item.toList ++ (printIndex index ++ ' ' :: rest))
      (bare .parameter item.toList :: index.toList.map fun i => bare .parameter i.toList) .parameters rest := by
  cases index with
  | none =>
    have word := passes_word rest (d := ' ') hi.isWordChar (by decide)
    rw [bareWindow_of_ne_nil (IsName.toList_ne_nil hi.1)] at word
    exact word
  | some index =>
    have hx := hx index rfl
    have first := passes_word (' ' :: (index.toList ++ ' ' :: rest)) (d := ',') hi.isWordChar (by decide)
    have second := passes_word rest (d := ' ') hx.isWordChar (by decide)
    have space : Passes .parameters (' ' :: (index.toList ++ ' ' :: rest)) [] .parameters
        (index.toList ++ ' ' :: rest) :=
      passes_word _ (List.forall_mem_nil _) (by decide)
    rw [bareWindow_of_ne_nil (IsName.toList_ne_nil hi.1)] at first
    rw [bareWindow_of_ne_nil (IsName.toList_ne_nil hx.1)] at second
    exact first.trans (space.trans second)

/-- The header of a loop up to its collection. -/
theorem passes_header {item : String} (index : Option String) (rest : List Char) (hi : IsName item)
    (hx : ∀ i ∈ index, IsName i) :
    Passes .text ('{' :: '{' :: ' ' :: (Directive.loop.letters ++ '(' :: (item.toList
        ++ (printIndex index ++ ' ' :: 'i' :: 'n' :: ' ' :: rest))))
      (bare .function Directive.loop.letters :: bare .parameter item.toList
        :: (index.toList.map (fun i => bare .parameter i.toList) ++ [bare .parameter ['i', 'n']]))
      .parameters rest := by
  have word : Passes .parameters ('i' :: 'n' :: ' ' :: rest) [bare .parameter ['i', 'n']] .parameters rest :=
    passes_word (w := ['i', 'n']) _ (List.all_eq_true.1 (by decide)) (by decide)
  have names := passes_item ('i' :: 'n' :: ' ' :: rest) hi hx
  have opened := passes_open_directive .loop (item.toList ++ (printIndex index ++ ' ' :: 'i' :: 'n' :: ' ' :: rest))
    (c := '(') (by decide) fun isIf => by cases isIf
  rw [dropWhile_isOpening_name _ hi (by decide)] at opened
  exact opened.trans (names.trans word)

theorem passes_openLoop {item : String} {index : Option String} {collection : Path}
    (h : IsLoopHeader item index collection) (l : Location) :
    Passes .text ((Statement.openLoop item index collection l).print ++ rest)
      (Statement.openLoop item index collection l).tokens .text rest := by
  have key : ∀ c ∈ collection.text.toList, isWordChar c = true := fun c hc =>
    isWordChar_of_isKeyChar (h.path.chars c hc) fun quote => h.noQuote (quote ▸ hc)
  have last := passes_paren rest key
  rw [bareWindow_of_ne_nil (IsName.toList_ne_nil h.path.named)] at last
  have whole := (passes_header index _ h.itemName fun i hi => (h.indexName i hi).1).trans last
  rw [Statement.print, braced_append]
  simpa [Statement.tokens] using whole

theorem passes_instruction_directive (d : Directive) (h : modeAfter d.letters = .instruction) :
    Passes .text (braced d.letters ++ rest) [bare .function d.letters] .text rest := by
  have opened := passes_open_directive d ('}' :: '}' :: rest) (c := ' ') (by decide) fun isIf => by
    rw [isIf] at h
    cases h
  rw [h] at opened
  rw [braced_append]
  exact opened.trans passes_instruction

/-- The scanner makes of a printed directive its tokens. -/
theorem passes_print {s : Statement} (h : s.IsPrintable) (noText : s.isText = false) :
    Passes .text (s.print ++ rest) s.tokens .text rest := by
  cases s with
  | text content l => cases noText
  | value p l => exact passes_value h
  | call c => exact passes_call h
  | inclusion name l => exact passes_inclusion h l
  | openBranch condition l => exact passes_openBranch h l
  | openLoop item index collection l => exact passes_openLoop h l
  | openBlock name l => exact passes_openBlock h l
  | alternative l => exact passes_instruction_directive .alternative rfl
  | close l => exact passes_instruction_directive .close rfl
  | fault e => exact h.elim

end Scan

end Stencil
