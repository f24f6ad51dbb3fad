import Mathlib
import Stencil.Proofs.Syntax.Nesting

/-!
# Flattening

A tree that has been read, flattened in the order of its source, has one mark for each token: the keyword or the name
that opens a node, the parameters of its header, its body, and the words that close it. Tokens without a mark are lone
commas, between the arguments of a call or behind the item of a loop.

* `Aligned`: marks against the tokens that they stand for.
* `Statement.read_aligned`: a statement has marks for exactly the tokens that it takes.
* `ofTokens_aligned`: the marks of a tree are aligned with all tokens that it was read from.
-/

namespace Stencil

/-! ## Marks -/

/-- What a cleaned parameter is read as. -/
inductive Role where
  /-- The name of an inclusion or of a block. -/
  | name
  | item
  | index
  | argument
  deriving DecidableEq, Repr

/-- What a flattened tree has for one token. -/
inductive Mark where
  | text (content : String) (location : Location)
  | value (path : Path) (location : Location)
  /-- The name of a function that is called. -/
  | callee (name : String) (location : Location)
  /-- The keyword that opens a node. -/
  | opening (directive : Directive) (location : Location)
  | parameter (role : Role) (text : String)
  /-- The path of a condition or of a collection. -/
  | path (path : Path)
  /-- The word `in` of a loop. -/
  | inWord
  /-- An `else` or `end`, whose place a tree does not keep. -/
  | closing (directive : Directive)
  deriving DecidableEq, Repr

/-- A path with the text of a parameter, without the blanks around it. -/
def Path.IsOf (p : Path) (t : Token) : Prop := p = .parse t.text ∧ p.text = Text.trim t.text

namespace Mark

/-- Whether a mark stands for a token. -/
def Fits : Mark → Token → Prop
  | text content l, t => t = ⟨.text, content, l⟩
  | value p l, t => t.kind = .parameter ∧ t.location = l ∧ p.IsOf t
  | callee name l, t => t = ⟨.function, name, l⟩
  | opening directive l, t => t = ⟨.function, directive.keyword, l⟩
  | parameter role content, t =>
    t.kind = .parameter ∧ cleanArgument t.text = content
      ∧ (role = .argument → Text.trim t.text ≠ ",") ∧ (role = .index → Text.trim t.text ≠ "in")
  | path p, t => t.kind = .parameter ∧ p.IsOf t
  | inWord, t => t.kind = .parameter ∧ Text.trim t.text = "in"
  | closing directive, t => t.kind = .function ∧ t.text = directive.keyword

/-- Whether tokens without a mark may stand behind a mark. -/
def Skips : Mark → List Token → Prop
  | callee .., skipped | parameter .argument _, skipped => ∀ t ∈ skipped, Statement.isWord "," t = true
  | parameter .item _, skipped => skipped.length ≤ 1 ∧ ∀ t ∈ skipped, Statement.isWord "," t = true
  | _, skipped => skipped = []

end Mark

/-- Marks stand for the tokens of a list, each for one, in order. -/
inductive Aligned : List Mark → List Token → Prop
  | nil : Aligned [] []
  | cons {m : Mark} {t : Token} {skipped : List Token} {ms : List Mark} {ts : List Token} (fits : m.Fits t)
    (skips : m.Skips skipped) (rest : Aligned ms ts) : Aligned (m :: ms) (t :: (skipped ++ ts))

def Call.marks (c : Call) : List Mark := .callee c.name c.location :: c.arguments.map (.parameter .argument)

def Condition.marks : Condition → List Mark
  | .path p => [.path p]
  | .call c => c.marks

/-- The marks of a loop's item and index. -/
def loopMarks (item : String) (index : Option String) : List Mark :=
  .parameter .item item :: (index.map (Mark.parameter .index)).toList

mutual

/-- The marks of a node in the order of its source. -/
def Node.marks : Node → List Mark
  | .text content l => [.text content l]
  | .value p l => [.value p l]
  | .call c => c.marks
  | .branch condition body alternative l =>
    .opening .branch l :: (condition.marks ++ (marksAll body ++ (marksOption alternative ++ [.closing .close])))
  | .loop item index collection body l =>
    .opening .loop l :: (loopMarks item index ++ (.inWord :: .path collection :: (marksAll body ++ [.closing .close])))
  | .inclusion name l => [.opening .inclusion l, .parameter .name name]
  | .block name body l => .opening .block l :: .parameter .name name :: (marksAll body ++ [.closing .close])

def marksAll : List Node → List Mark
  | [] => []
  | n :: ns => n.marks ++ marksAll ns

def marksOption : Option (List Node) → List Mark
  | none => []
  | some ns => .closing .alternative :: marksAll ns

end

/-! ## Marks of statements -/

def Statement.marks : Statement → List Mark
  | .text content l => [.text content l]
  | .value p l => [.value p l]
  | .call c => c.marks
  | .inclusion name l => [.opening .inclusion l, .parameter .name name]
  | .openBranch condition l => .opening .branch l :: condition.marks
  | .openLoop item index collection l => .opening .loop l :: (loopMarks item index ++ [.inWord, .path collection])
  | .openBlock name l => [.opening .block l, .parameter .name name]
  | .alternative _ => [.closing .alternative]
  | .close _ => [.closing .close]
  | .fault _ => []

@[simp] theorem Statement.marks_kept (s : Statement) : s.kept.marks = s.marks := by cases s <;> rfl

mutual

theorem Node.marks_eq : ∀ n : Node, n.marks = n.written.flatMap Statement.marks
  | .text .. | .value .. | .call .. | .inclusion .. => by simp [Node.marks, Node.written, Statement.marks]
  | .branch _ body alternative _ => by
    simp [Node.marks, Node.written, Statement.marks, marksAll_eq body, marksOption_eq alternative]
  | .loop _ _ _ body _ => by simp [Node.marks, Node.written, Statement.marks, marksAll_eq body]
  | .block _ body _ => by simp [Node.marks, Node.written, Statement.marks, marksAll_eq body]

theorem marksAll_eq : ∀ ns : List Node, marksAll ns = (writtenAll ns).flatMap Statement.marks
  | [] => rfl
  | n :: ns => by rw [marksAll, Node.marks_eq n, marksAll_eq ns, writtenAll, List.flatMap_append]

theorem marksOption_eq : ∀ ns : Option (List Node), marksOption ns = (writtenOption ns).flatMap Statement.marks
  | none => rfl
  | some ns => by simp [marksOption, writtenOption, Statement.marks, marksAll_eq ns]

end

/-! ## Alignment -/

namespace Aligned

theorem append {ms ms' : List Mark} {ts ts' : List Token} (h : Aligned ms ts) (h' : Aligned ms' ts') :
    Aligned (ms ++ ms') (ts ++ ts') := by
  induction h with
  | nil => exact h'
  | cons fits skips _ ih => simpa using cons fits skips ih

/-- A mark with nothing to skip. -/
theorem single {m : Mark} {t : Token} {ms : List Mark} {ts : List Token} (fits : m.Fits t) (skips : m.Skips [])
    (rest : Aligned ms ts) : Aligned (m :: ms) (t :: ts) := by
  simpa using cons fits skips rest

end Aligned

theorem Mark.fits_opening {t : Token} {d : Directive} (h : t.kind = .function) (text : t.text = d.keyword) :
    (Mark.opening d t.location).Fits t := by
  cases t
  cases h
  cases text
  rfl

/-- A mark stands for no error token. -/
theorem Mark.Fits.kind_ne {m : Mark} {t : Token} (h : m.Fits t) : t.kind ≠ .error := by
  cases m with
  | text | callee | opening => rw [show t = _ from h]; simp
  | value | parameter | path | inWord | closing => rw [show t.kind = _ from h.1]; simp

/-- Nothing but lone commas stands behind a mark. -/
theorem Mark.Skips.isWord {m : Mark} {skipped : List Token} (h : m.Skips skipped) :
    ∀ t ∈ skipped, Statement.isWord "," t = true := by
  unfold Mark.Skips at h
  split at h
  · exact h
  · exact h
  · exact h.2
  · simp [h]

theorem Aligned.kind_ne {ms : List Mark} {ts : List Token} (h : Aligned ms ts) : ∀ t ∈ ts, t.kind ≠ .error := by
  induction h with
  | nil => simp
  | cons fits skips _ ih =>
    simp only [List.mem_cons, List.mem_append]
    rintro t (rfl | skipped | later)
    · exact fits.kind_ne
    · have word := skips.isWord t skipped
      simp only [Statement.isWord, Bool.and_eq_true] at word
      rw [Token.kind_of_isParameter word.1]
      decide
    · exact ih t later

/-! ## Reading -/

namespace Statement

theorem isOf_parse (t : Token) : (Path.parse t.text).IsOf t := ⟨rfl, rfl⟩

/-- A mark that may have commas behind it, and the arguments behind that. -/
theorem aligned_arguments {m : Mark} {t : Token} (fits : m.Fits t)
    (skips : ∀ skipped, (∀ c ∈ skipped, isWord "," c = true) → m.Skips skipped) (rest : List Token) :
    ∃ taken, rest = taken ++ (readArguments rest).2
      ∧ Aligned (m :: (readArguments rest).1.map (.parameter .argument)) (t :: taken) := by
  have bare : Aligned [m] [t] := .single fits (skips [] (by simp)) .nil
  induction rest generalizing m t with
  | nil => exact ⟨[], rfl, bare⟩
  | cons c rest ih =>
    cases hc : c.isParameter with
    | false => exact ⟨[], by simp [readArguments, hc], by simpa [readArguments, hc] using bare⟩
    | true =>
      have behind : (readArguments (c :: rest)).2 = (readArguments rest).2 := by simp [readArguments, hc]
      by_cases comma : Text.trim c.text = ","
      · -- one more comma behind the same mark
        have same : (readArguments (c :: rest)).1 = (readArguments rest).1 := by simp [readArguments, hc, comma]
        obtain ⟨taken, split, aligned⟩ := ih fits skips bare
        refine ⟨c :: taken, by rw [behind, List.cons_append, ← split], ?_⟩
        rw [same]
        cases aligned with
        | cons _ skipped more =>
          rw [← List.cons_append]
          refine .cons fits (skips _ ?_) more
          simpa [isWord, hc, comma] using skipped.isWord
      · have one : (readArguments (c :: rest)).1 = cleanArgument c.text :: (readArguments rest).1 := by
          simp [readArguments, hc, comma]
        have fits' : (Mark.parameter .argument (cleanArgument c.text)).Fits c :=
          ⟨Token.kind_of_isParameter hc, rfl, fun _ => comma, by simp⟩
        obtain ⟨taken, split, aligned⟩ := ih fits' (fun _ h => h) (.single fits' (by simp [Mark.Skips]) .nil)
        refine ⟨c :: taken, by rw [behind, List.cons_append, ← split], ?_⟩
        rw [one]
        exact .single fits (skips [] (by simp)) aligned

theorem readCall_aligned {t : Token} (h : t.kind = .function) (rest : List Token) :
    ∃ taken, t :: rest = taken ++ (readCall t rest).2 ∧ Aligned (readCall t rest).1.marks taken := by
  have fits : (Mark.callee t.text t.location).Fits t := by
    cases t
    cases h
    rfl
  obtain ⟨taken, split, aligned⟩ := aligned_arguments fits (fun _ h => h) rest
  exact ⟨t :: taken, congrArg (t :: ·) split, aligned⟩

/-- What the header of a named directive has, if it is no fault. -/
theorem readNamed_eq {d : Directive} {make : String → Location → Statement} {t : Token} {rest : List Token}
    (ok : (readNamed d make t rest).1.isFault = false) : ∃ name after, rest = name :: after ∧ name.isParameter = true
      ∧ readNamed d make t rest = (make (cleanArgument name.text) t.location, after) := by
  cases rest with
  | nil => cases ok
  | cons name after =>
    simp only [readNamed] at ok ⊢
    split at ok
    · cases ok
    next parameter =>
    split at ok
    · cases ok
    next named =>
    rw [if_neg parameter, if_neg named]
    exact ⟨name, after, rfl, by simpa using parameter, rfl⟩

theorem readNamed_aligned {d : Directive} {make : String → Location → Statement} {t : Token} {rest : List Token}
    (marks : ∀ name l, (make name l).marks = [.opening d l, .parameter .name name])
    (fits : (Mark.opening d t.location).Fits t) (ok : (readNamed d make t rest).1.isFault = false) :
    ∃ taken, t :: rest = taken ++ (readNamed d make t rest).2 ∧ Aligned (readNamed d make t rest).1.marks taken := by
  obtain ⟨name, after, rfl, parameter, same⟩ := readNamed_eq ok
  have fits' : (Mark.parameter .name (cleanArgument name.text)).Fits name :=
    ⟨Token.kind_of_isParameter parameter, rfl, by simp, by simp⟩
  rw [same, marks]
  exact ⟨[t, name], rfl, .single fits rfl (.single fits' rfl .nil)⟩

theorem readBranch_aligned {t : Token} {rest : List Token} (fits : (Mark.opening .branch t.location).Fits t)
    (ok : (readBranch t rest).1.isFault = false) :
    ∃ taken, t :: rest = taken ++ (readBranch t rest).2 ∧ Aligned (readBranch t rest).1.marks taken := by
  cases rest with
  | nil => cases ok
  | cons c rest =>
    cases hc : c.kind with
    | text | error => simp [readBranch, hc, isFault] at ok
    | parameter =>
      have fits' : (Mark.path (.parse c.text)).Fits c := ⟨hc, isOf_parse c⟩
      refine ⟨[t, c], by simp [readBranch, hc], ?_⟩
      simpa [readBranch, hc, marks, Condition.marks] using Aligned.single fits rfl (.single fits' rfl .nil)
    | function =>
      cases hd : (Directive.ofKeyword? c.text).isSome with
      | true => simp [readBranch, hc, hd, isFault] at ok
      | false =>
        obtain ⟨taken, split, aligned⟩ := readCall_aligned hc rest
        refine ⟨t :: taken, by simp [readBranch, hc, hd, split], ?_⟩
        simpa [readBranch, hc, hd, marks, Condition.marks] using Aligned.single fits rfl aligned

theorem skipComma_split (ts : List Token) :
    ∃ skipped, ts = skipped ++ skipComma ts ∧ ∀ content, (Mark.parameter .item content).Skips skipped := by
  cases ts with
  | nil => exact ⟨[], rfl, fun _ => by simp [Mark.Skips]⟩
  | cons t ts =>
    by_cases comma : isWord "," t = true
    · exact ⟨[t], by simp [skipComma, comma], fun _ => by simp [Mark.Skips, comma]⟩
    · exact ⟨[], by simp [skipComma, comma], fun _ => by simp [Mark.Skips]⟩

theorem indexName_split (ts : List Token) :
    ∃ taken, ts = taken ++ (indexName ts).2
      ∧ ∀ ms us, Aligned ms us
        → Aligned (((indexName ts).1.map (Mark.parameter .index)).toList ++ ms) (taken ++ us) := by
  cases ts with
  | nil => exact ⟨[], rfl, fun _ _ h => h⟩
  | cons t ts =>
    by_cases named : (t.isParameter && !isWord "in" t) = true
    · refine ⟨[t], by simp [indexName, named], fun ms us h => ?_⟩
      have parameter := (Bool.and_eq_true_iff.1 named).1
      have fits : (Mark.parameter .index (cleanArgument t.text)).Fits t := by
        refine ⟨Token.kind_of_isParameter parameter, rfl, by simp, fun _ => ?_⟩
        simpa [isWord, parameter] using named
      simpa [indexName, named] using Aligned.single fits rfl h
    · exact ⟨[], by simp [indexName, named], fun ms us h => by simpa [indexName, named] using h⟩

/-- What a loop's header has, if it is no fault. -/
theorem readLoop_eq {t : Token} {rest : List Token} (ok : (readLoop t rest).1.isFault = false) :
    ∃ item more index word collection after, rest = item :: more ∧ item.isParameter = true
      ∧ readIndex more = (index, word :: collection :: after) ∧ isWord "in" word = true
      ∧ collection.isParameter = true
      ∧ readLoop t rest = (openLoop (cleanArgument item.text) index (.parse collection.text) t.location, after) := by
  cases rest with
  | nil => cases ok
  | cons item more =>
    rcases hi : readIndex more with ⟨index, _ | ⟨word, _ | ⟨collection, after⟩⟩⟩ <;>
      simp only [readLoop, hi] at ok ⊢ <;> split at ok
    · cases ok
    · cases ok
    · cases ok
    · split at ok <;> cases ok
    · cases ok
    next present =>
    split at ok
    · cases ok
    next word' =>
    split at ok
    next parameter =>
      rw [if_neg present, if_neg word', if_pos parameter]
      rw [Bool.or_eq_true, not_or, Bool.not_eq_true', Bool.not_eq_false] at present
      exact ⟨item, more, index, word, collection, after, rfl, present.1, hi, by simpa using word', parameter, rfl⟩
    · cases ok

theorem readLoop_aligned {t : Token} {rest : List Token} (fits : (Mark.opening .loop t.location).Fits t)
    (ok : (readLoop t rest).1.isFault = false) :
    ∃ taken, t :: rest = taken ++ (readLoop t rest).2 ∧ Aligned (readLoop t rest).1.marks taken := by
  obtain ⟨item, more, index, word, collection, after, rfl, hItem, hIndex, hWord, hCollection, read⟩ := readLoop_eq ok
  obtain ⟨skipped, comma, skips⟩ := skipComma_split more
  obtain ⟨name, named, alignedIndex⟩ := indexName_split (skipComma more)
  rw [readIndex_eq] at hIndex
  rw [hIndex] at named alignedIndex
  have fitsItem : (Mark.parameter .item (cleanArgument item.text)).Fits item :=
    ⟨Token.kind_of_isParameter hItem, rfl, by simp, by simp⟩
  have fitsWord : Mark.inWord.Fits word := by
    simp only [isWord, Bool.and_eq_true, beq_iff_eq] at hWord
    exact ⟨Token.kind_of_isParameter hWord.1, hWord.2⟩
  have fitsCollection : (Mark.path (.parse collection.text)).Fits collection :=
    ⟨Token.kind_of_isParameter hCollection, isOf_parse collection⟩
  have behind : Aligned [.inWord, .path (.parse collection.text)] [word, collection] :=
    .single fitsWord rfl (.single fitsCollection rfl .nil)
  refine ⟨t :: item :: (skipped ++ (name ++ [word, collection])), ?_, ?_⟩
  · rw [read, comma, named]
    simp
  · rw [read]
    exact .single fits rfl (.cons fitsItem (skips _) (alignedIndex _ _ behind))

/-- A statement that is no fault has marks for exactly the tokens that it takes. -/
theorem read_aligned {t : Token} {rest : List Token} (ok : (read t rest).1.isFault = false) :
    ∃ taken, t :: rest = taken ++ (read t rest).2 ∧ Aligned (read t rest).1.marks taken := by
  cases hk : t.kind with
  | error => simp [read, hk, isFault] at ok
  | text =>
    have fits : (Mark.text t.text t.location).Fits t := by
      cases t
      cases hk
      rfl
    exact ⟨[t], by simp [read, hk], by simpa [read, hk, marks] using Aligned.single fits rfl .nil⟩
  | parameter =>
    simp only [read, hk] at ok ⊢
    split at ok
    next dot =>
      rw [if_pos dot]
      exact ⟨[t], rfl, .single ⟨hk, rfl, isOf_parse t⟩ rfl .nil⟩
    · cases ok
  | function =>
    simp only [read, hk] at ok ⊢
    cases hd : Directive.ofKeyword? t.text with
    | none => exact readCall_aligned hk rest
    | some d =>
      have text : t.text = d.keyword := by
        have found := List.find?_some hd
        exact (beq_iff_eq.1 found).symm
      have fits : (Mark.opening d t.location).Fits t := Mark.fits_opening hk text
      rw [hd] at ok
      cases d with
      | branch => exact readBranch_aligned fits ok
      | alternative => exact ⟨[t], rfl, .single ⟨hk, text⟩ rfl .nil⟩
      | close => exact ⟨[t], rfl, .single ⟨hk, text⟩ rfl .nil⟩
      | loop => exact readLoop_aligned fits ok
      | inclusion => exact readNamed_aligned (fun _ _ => rfl) fits ok
      | block => exact readNamed_aligned (fun _ _ => rfl) fits ok
      | base => exact readCall_aligned hk rest

end Statement

/-- The marks of statements are aligned with all tokens that the statements are read from. -/
theorem statements_aligned {ts : List Token} (ok : ∀ s ∈ statements ts, s.isFault = false) :
    Aligned ((statements ts).flatMap Statement.marks) ts := by
  induction h : ts.length using Nat.strongRecOn generalizing ts with
  | _ n ih =>
    cases ts with
    | nil =>
      rw [statements]
      exact .nil
    | cons t ts =>
      have first : (Statement.read t ts).1.isFault = false := by
        refine ok _ ?_
        rw [statements_cons]
        split <;> exact List.mem_cons_self
      rw [statements_cons, if_neg (by simp [first])] at ok ⊢
      have shorter := Statement.read_length_le t ts
      simp only [List.length_cons] at h
      obtain ⟨taken, split, aligned⟩ := Statement.read_aligned first
      rw [split, List.flatMap_cons]
      exact aligned.append (ih _ (by omega) (fun s hs => ok s (List.mem_cons_of_mem _ hs)) rfl)

/-- A tree that is read from tokens has marks for exactly these tokens, in order, and no token is an error. -/
theorem ofTokens_aligned {ts : List Token} {t : Template} (h : (Template.ofTokens ts).1 = .ok t) :
    (∀ k ∈ ts, k.kind ≠ .error) ∧ Aligned (marksAll t.nodes) ts := by
  have marks : marksAll t.nodes = (statements ts).flatMap Statement.marks := by
    rw [marksAll_eq, written_of_ofTokens h, List.flatMap_map]
    simp only [Statement.marks_kept]
  have aligned : Aligned (marksAll t.nodes) ts := marks ▸ statements_aligned (isFault_of_ofTokens h)
  exact ⟨aligned.kind_ne, aligned⟩

theorem ofTokens_aligned_branch :
    (∀ k ∈ ([⟨.function, "if", .origin⟩, ⟨.function, "f", .origin⟩, ⟨.parameter, ".x", .origin⟩,
        ⟨.parameter, ",", .origin⟩, ⟨.parameter, " \"a\"", .origin⟩, ⟨.text, "b", .origin⟩,
        ⟨.function, "else", .origin⟩, ⟨.parameter, ".y ", .origin⟩, ⟨.function, "end", .origin⟩] : List Token),
      k.kind ≠ .error)
      ∧ Aligned [.opening .branch .origin, .callee "f" .origin, .parameter .argument ".x", .parameter .argument "a",
          .text "b" .origin, .closing .alternative, .value ⟨".y", [⟨"y", []⟩]⟩ .origin, .closing .close]
        [⟨.function, "if", .origin⟩, ⟨.function, "f", .origin⟩, ⟨.parameter, ".x", .origin⟩,
          ⟨.parameter, ",", .origin⟩, ⟨.parameter, " \"a\"", .origin⟩, ⟨.text, "b", .origin⟩,
          ⟨.function, "else", .origin⟩, ⟨.parameter, ".y ", .origin⟩, ⟨.function, "end", .origin⟩] :=
  ofTokens_aligned (t := ⟨[.branch (.call ⟨"f", [".x", "a"], none, .origin⟩) [.text "b" .origin]
    (some [.value ⟨".y", [⟨"y", []⟩]⟩ .origin]) .origin], none, none, []⟩) (by cbv)

end Stencil
