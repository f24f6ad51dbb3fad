import Stencil.Proofs.Syntax.Nesting

/-!
# Directives as brackets

Branches, loops and blocks are opened and are closed by an `end`, and the first part of a branch may be ended by an
`else`. A machine that looks at nothing but these keywords keeps the brackets that are open on a stack (`Bracket.step`),
and so comes to a verdict about a list of tokens (`Bracket.verdict`).

Tokens whose headers are well formed (`WellHeaded`) are read as templates exactly if the verdict is that they are
complete; otherwise the verdict tells the fault.

* `step_of_heads`: a statement does to the frames of a builder what its first token does to the brackets.
* `ends_run`: the run of a builder ends as the verdict says.
* `ofTokens_verdict`: so does reading.
-/

namespace Stencil

/-! ## Headers -/

/-- The directive that a token is the keyword of. -/
def Token.directive? (t : Token) : Option Directive :=
  if t.kind = .function then Directive.ofKeyword? t.text else none

/-- Whether a token names a function, and no directive. -/
def Token.IsCallee (t : Token) : Prop := t.kind = .function ∧ Directive.ofKeyword? t.text = none

/-- What can stand between the item of a loop and the word `in`: a lone comma, and a parameter as the index. -/
def IsIndexPart (between : List Token) : Prop :=
  ∃ comma index : Option Token, between = comma.toList ++ index.toList
    ∧ (∀ t ∈ comma, Statement.isWord "," t = true)
    ∧ ∀ t ∈ index, t.isParameter = true ∧ Statement.isWord "in" t = false

/-- `Heads t header rest`: the header that belongs to a token is well formed, where `rest` stands behind it. A call
takes all parameters; a parameter that nothing takes starts with a point. -/
inductive Heads (t : Token) : List Token → List Token → Prop
  | text {rest : List Token} (kind : t.kind = .text) : Heads t [] rest
  | path {rest : List Token} (kind : t.kind = .parameter)
      (point : (t.text.toList.dropWhile Text.isBlank).head? = some '.') : Heads t [] rest
  | call {args rest : List Token} (callee : t.IsCallee) (parameters : ∀ a ∈ args, a.isParameter = true)
      (behind : ∀ n ∈ rest.head?, n.isParameter = false) : Heads t args rest
  | named {name : Token} {rest : List Token} (keyword : t.directive? = some .inclusion ∨ t.directive? = some .block)
      (parameter : name.isParameter = true) (filled : cleanArgument name.text ≠ "") : Heads t [name] rest
  | loop {item word collection : Token} {between rest : List Token} (keyword : t.directive? = some .loop)
      (parameter : item.isParameter = true) (filled : cleanArgument item.text ≠ "") (index : IsIndexPart between)
      (inWord : Statement.isWord "in" word = true) (path : collection.isParameter = true) :
    Heads t (item :: (between ++ [word, collection])) rest
  | branchOnPath {path : Token} {rest : List Token} (keyword : t.directive? = some .branch)
      (parameter : path.isParameter = true) : Heads t [path] rest
  | branchOnCall {callee : Token} {args rest : List Token} (keyword : t.directive? = some .branch)
      (isCallee : callee.IsCallee) (parameters : ∀ a ∈ args, a.isParameter = true)
      (behind : ∀ n ∈ rest.head?, n.isParameter = false) : Heads t (callee :: args) rest
  | part {rest : List Token} (keyword : t.directive? = some .alternative ∨ t.directive? = some .close) : Heads t [] rest

/-- Tokens without errors and without a base in which all headers are well formed. -/
inductive WellHeaded : List Token → Prop
  | nil : WellHeaded []
  | cons {t : Token} {header rest : List Token} (heads : Heads t header rest) (later : WellHeaded rest) :
    WellHeaded (t :: (header ++ rest))

/-! ## Brackets -/

/-- A branch, loop or block that is open, and whether it is a branch in its second part. -/
structure Bracket where
  directive : Directive
  location : Location
  behindElse : Bool
  deriving DecidableEq, Repr

/-- What a machine finds out about a list of tokens. -/
inductive Verdict where
  | complete
  /-- The token is an `end` or `else` for which nothing suitable is open. -/
  | misplaced (t : Token)
  /-- The innermost bracket that is open at the end. -/
  | unclosed (b : Bracket)
  deriving DecidableEq, Repr

namespace Bracket

/-- What a token does to the open brackets, the innermost one first; nothing if it is misplaced. -/
def step (stack : List Bracket) (t : Token) : Option (List Bracket) :=
  match t.directive?, stack with
  | some .branch, _ => some (⟨.branch, t.location, false⟩ :: stack)
  | some .loop, _ => some (⟨.loop, t.location, false⟩ :: stack)
  | some .block, _ => some (⟨.block, t.location, false⟩ :: stack)
  | some .close, _ :: outer => some outer
  | some .close, [] => none
  | some .alternative, ⟨.branch, opened, false⟩ :: outer => some (⟨.branch, opened, true⟩ :: outer)
  | some .alternative, _ => none
  | _, _ => some stack

/-- The verdict about tokens behind open brackets. -/
def verdict (stack : List Bracket) : List Token → Verdict
  | [] =>
    match stack with
    | [] => .complete
    | b :: _ => .unclosed b
  | t :: ts =>
    match step stack t with
    | none => .misplaced t
    | some stack => verdict stack ts

theorem step_of_neutral {stack : List Bracket} {t : Token} (h : t.directive? = none) : step stack t = some stack := by
  simp [step, h]

theorem verdict_append {stack : List Bracket} {header : List Token} (h : ∀ t ∈ header, t.directive? = none)
    (rest : List Token) : verdict stack (header ++ rest) = verdict stack rest := by
  induction header with
  | nil => rfl
  | cons t header ih =>
    rw [List.cons_append, verdict, step_of_neutral (h t List.mem_cons_self)]
    exact ih fun u hu => h u (List.mem_cons_of_mem t hu)

end Bracket

section Headers

variable {t : Token} {header rest : List Token}

theorem Token.directive?_of_isParameter (h : t.isParameter = true) : t.directive? = none :=
  if_neg (by rw [Token.kind_of_isParameter h]; decide)

theorem Token.IsCallee.directive? (h : t.IsCallee) : t.directive? = none := by
  rw [Token.directive?, if_pos h.1, h.2]

theorem Token.keyword_of_directive? {d : Directive} (h : t.directive? = some d) :
    t.kind = .function ∧ Directive.ofKeyword? t.text = some d ∧ t.text = d.keyword := by
  unfold Token.directive? at h
  split at h
  · next kind =>
    have found := List.find?_some h
    exact ⟨kind, h, (beq_iff_eq.1 found).symm⟩
  · cases h

theorem Token.directive?_of_isWord {word : String} (h : Statement.isWord word t = true) : t.directive? = none :=
  Token.directive?_of_isParameter (Bool.and_eq_true_iff.1 h).1

/-- No keyword stands in a header. -/
theorem Heads.neutral (h : Heads t header rest) : ∀ u ∈ header, u.directive? = none := by
  cases h with
  | text | path | part => simp
  | call _ parameters => exact fun u hu => Token.directive?_of_isParameter (parameters u hu)
  | named _ parameter | branchOnPath _ parameter => simpa using Token.directive?_of_isParameter parameter
  | branchOnCall _ isCallee parameters =>
    simpa [isCallee.directive?] using fun u hu => Token.directive?_of_isParameter (parameters u hu)
  | loop _ parameter _ index inWord path =>
    obtain ⟨comma, index, rfl, commas, indexes⟩ := index
    simp only [List.mem_cons, List.mem_append, Option.mem_toList, List.not_mem_nil, or_false]
    rintro u (rfl | (hu | hu) | rfl | rfl)
    · exact Token.directive?_of_isParameter parameter
    · exact Token.directive?_of_isWord (commas u hu)
    · exact Token.directive?_of_isParameter (indexes u hu).1
    · exact Token.directive?_of_isWord inWord
    · exact Token.directive?_of_isParameter path

/-! ## Reading a header -/

namespace Statement

/-- Arguments are read up to the first token that is no parameter. -/
theorem readArguments_of_parameters {args : List Token} (parameters : ∀ a ∈ args, a.isParameter = true)
    (behind : ∀ n ∈ rest.head?, n.isParameter = false) : (readArguments (args ++ rest)).2 = rest := by
  simp only [readArguments]
  rw [List.dropWhile_append_of_pos parameters, Text.dropWhile_eq_self behind]

/-- An index part is read up to the word `in`. -/
theorem readIndex_of_part {between : List Token} {word : Token} (index : IsIndexPart between)
    (inWord : isWord "in" word = true) : (readIndex (between ++ word :: rest)).2 = word :: rest := by
  have noComma : isWord "," word = false := by
    rw [isWord, Bool.and_eq_true, beq_iff_eq] at inWord
    simp [isWord, inWord.2]
  obtain ⟨comma, index, rfl, commas, indexes⟩ := index
  rw [readIndex_eq]
  cases comma with
  | some c =>
    have skipped : skipComma (c :: (index.toList ++ word :: rest)) = index.toList ++ word :: rest := by
      simp [skipComma, commas c rfl]
    show (indexName (skipComma (c :: (index.toList ++ word :: rest)))).2 = _
    rw [skipped]
    cases index with
    | none => simp [indexName, inWord]
    | some i => simp [indexName, indexes i rfl]
  | none =>
    cases index with
    | none => simp [skipComma, noComma, indexName, inWord]
    | some i =>
      -- An index that is a lone comma is taken for a separator.
      by_cases comma : isWord "," i = true
      · simp [skipComma, comma, indexName, inWord]
      · simp [skipComma, comma, indexName, indexes i rfl]

/-- The header of a loop is read up to the path of its collection. -/
theorem readLoop_of_header {item word collection : Token} {between : List Token} (parameter : item.isParameter = true)
    (filled : cleanArgument item.text ≠ "") (index : IsIndexPart between) (inWord : isWord "in" word = true)
    (path : collection.isParameter = true) : readLoop t (item :: (between ++ word :: collection :: rest))
      = (openLoop (cleanArgument item.text) (readIndex (between ++ word :: collection :: rest)).1
          (.parse collection.text) t.location, rest) := by
  have after : (readIndex (between ++ word :: collection :: rest)).2 = word :: collection :: rest :=
    readIndex_of_part index inWord
  generalize hi : readIndex (between ++ word :: collection :: rest) = found at after ⊢
  obtain ⟨index, behind⟩ := found
  cases after
  simp [readLoop, hi, parameter, filled, inWord, path]

end Statement

end Headers

/-! ## Building -/

def Opener.bracket : Opener → Bracket
  | .branch _ l => ⟨.branch, l, false⟩
  | .alternative _ _ l => ⟨.branch, l, true⟩
  | .loop _ _ _ l => ⟨.loop, l, false⟩
  | .block _ l => ⟨.block, l, false⟩

namespace Builder

/-- The brackets that are open around the nodes of a builder. -/
def brackets (b : Builder) : List Bracket := b.frames.map fun f => f.opener.bracket

/-- A step of a builder goes along with what a token does to the brackets. -/
inductive StepsWith (t : Token) : Option (List Bracket) → Except ParseError Builder → Prop
  | ok {stack : List Bracket} {b : Builder} (same : b.brackets = stack) : StepsWith t (some stack) (.ok b)
  | misplaced {d : Directive} (keyword : t.text = d.keyword) : StepsWith t none (.error (.unboundEnd d t.location))

namespace StepsWith

variable {t : Token} {b : Builder}

/-- A complete node leaves the brackets as they are. -/
theorem push {b' : Builder} {n : Node} (keeps : Bracket.step b.brackets t = some b.brackets)
    (frames : b'.frames = b.frames) : StepsWith t (Bracket.step b.brackets t) (.ok (b'.push n)) := by
  rw [keeps]
  refine .ok ?_
  rw [brackets, brackets]
  exact congrArg _ frames

/-- An `else` turns to the second part of a branch that is in its first part, and is misplaced elsewhere. -/
theorem alternative (keyword : t.directive? = some .alternative) (b : Builder) :
    StepsWith t (Bracket.step b.brackets t) (b.step (.alternative t.location)) := by
  obtain ⟨-, -, text⟩ := Token.keyword_of_directive? keyword
  rcases b with ⟨nodes, _ | ⟨⟨o, before⟩, frames⟩, base, references, events⟩
  · simp only [brackets, List.map_nil, Bracket.step, keyword]
    exact .misplaced text
  · simp only [brackets, List.map_cons, Bracket.step, keyword]
    cases o with
    | branch condition l => exact .ok rfl
    | alternative | loop | block => exact .misplaced text

/-- An `end` closes the innermost bracket, and is misplaced where none is open. -/
theorem close (keyword : t.directive? = some .close) (b : Builder) :
    StepsWith t (Bracket.step b.brackets t) (b.step (.close t.location)) := by
  obtain ⟨-, -, text⟩ := Token.keyword_of_directive? keyword
  rcases b with ⟨nodes, _ | ⟨⟨o, before⟩, frames⟩, base, references, events⟩
  · simp only [brackets, List.map_nil, Bracket.step, keyword]
    exact .misplaced text
  · simp only [brackets, List.map_cons, Bracket.step, keyword]
    exact .ok rfl

/-- An opener opens its bracket. -/
theorem openWith {o : Opener} (opens : Bracket.step b.brackets t = some (o.bracket :: b.brackets)) :
    StepsWith t (Bracket.step b.brackets t) (.ok (b.openWith o)) := by
  rw [opens]
  exact .ok rfl

end StepsWith

end Builder

/-- The statement that a token begins, where its header is well formed. -/
theorem step_of_heads {t : Token} {header rest : List Token} (h : Heads t header rest) :
    ∃ s, Statement.read t (header ++ rest) = (s, rest) ∧ s.isFault = false ∧ s.isExtends = false
      ∧ ∀ b : Builder, Builder.StepsWith t (Bracket.step b.brackets t) (b.step s) := by
  cases h with
  | text kind =>
    have neutral : t.directive? = none := if_neg (by simp [kind])
    refine ⟨.text t.text t.location, by simp [Statement.read, kind], rfl, rfl, fun b => ?_⟩
    exact .push (Bracket.step_of_neutral neutral) rfl
  | path kind point =>
    have neutral : t.directive? = none := if_neg (by simp [kind])
    refine ⟨.value (.parse t.text) t.location, by simp [Statement.read, kind, point], rfl, rfl, fun b => ?_⟩
    exact .push (Bracket.step_of_neutral neutral) rfl
  | call callee parameters behind =>
    obtain ⟨kind, word⟩ := callee
    have other : t.text ≠ "extends" := by
      intro same
      rw [same] at word
      cases word
    refine ⟨.call (Statement.readCall t (header ++ rest)).1, ?_, rfl, ?_, fun b => ?_⟩
    · simp [Statement.read, kind, word, Statement.readCall, Statement.readArguments_of_parameters parameters behind]
    · simpa [Statement.isExtends, Statement.readCall] using other
    · have step : b.step (.call (Statement.readCall t (header ++ rest)).1)
          = .ok (b.push (.call (Statement.readCall t (header ++ rest)).1)) := if_neg other
      rw [step]
      exact .push (Bracket.step_of_neutral (Token.IsCallee.directive? ⟨kind, word⟩)) rfl
  | @named name rest keyword parameter filled =>
    rcases keyword with keyword | keyword <;> obtain ⟨kind, word, -⟩ := Token.keyword_of_directive? keyword
    · refine ⟨.inclusion (cleanArgument name.text) t.location, ?_, rfl, rfl, fun b => ?_⟩
      · simp [Statement.read, kind, word, Statement.readNamed, parameter, filled]
      · exact .push (by simp [Bracket.step, keyword]) (by rw [Builder.refer_eq])
    · refine ⟨.openBlock (cleanArgument name.text) t.location, ?_, rfl, rfl, fun b => ?_⟩
      · simp [Statement.read, kind, word, Statement.readNamed, parameter, filled]
      · exact .openWith (by simp [Bracket.step, keyword, Opener.bracket])
  | @loop item word collection between rest keyword parameter filled index inWord path =>
    obtain ⟨kind, name, -⟩ := Token.keyword_of_directive? keyword
    refine ⟨.openLoop (cleanArgument item.text) (Statement.readIndex (between ++ word :: collection :: rest)).1
      (.parse collection.text) t.location, ?_, rfl, rfl, fun b => ?_⟩
    · simp [Statement.read, kind, name, Statement.readLoop_of_header parameter filled index inWord path]
    · exact .openWith (by simp [Bracket.step, keyword, Opener.bracket])
  | @branchOnPath path rest keyword parameter =>
    obtain ⟨kind, word, -⟩ := Token.keyword_of_directive? keyword
    refine ⟨.openBranch (.path (.parse path.text)) t.location, ?_, rfl, rfl, fun b => ?_⟩
    · simp [Statement.read, kind, word, Statement.readBranch, Token.kind_of_isParameter parameter]
    · exact .openWith (by simp [Bracket.step, keyword, Opener.bracket])
  | @branchOnCall callee args rest keyword isCallee parameters behind =>
    obtain ⟨kind, word, -⟩ := Token.keyword_of_directive? keyword
    refine ⟨.openBranch (.call (Statement.readCall callee (args ++ rest)).1) t.location, ?_, rfl, rfl, fun b => ?_⟩
    · simp [Statement.read, kind, word, Statement.readBranch, isCallee.1, isCallee.2, Statement.readCall,
        Statement.readArguments_of_parameters parameters behind]
    · exact .openWith (by simp [Bracket.step, keyword, Opener.bracket])
  | part keyword =>
    rcases keyword with keyword | keyword <;> obtain ⟨kind, word, -⟩ := Token.keyword_of_directive? keyword
    · exact ⟨.alternative t.location, by simp [Statement.read, kind, word], rfl, rfl, .alternative keyword⟩
    · exact ⟨.close t.location, by simp [Statement.read, kind, word], rfl, rfl, .close keyword⟩

/-! ## Verdicts -/

/-- How a builder ends on tokens with a verdict. -/
inductive Builder.EndsBy : Verdict → Builder × Option ParseError → Prop
  | complete {b : Builder} (closed : b.frames = []) : EndsBy .complete (b, none)
  | misplaced {b : Builder} {t : Token} {d : Directive} (keyword : t.text = d.keyword) :
    EndsBy (.misplaced t) (b, some (.unboundEnd d t.location))
  | unclosed {b : Builder} {f : Frame} {outer : List Frame} (inside : b.frames = f :: outer) :
    EndsBy (.unclosed f.opener.bracket) (b, none)

/-- Behind a well-formed header the statements go on. -/
theorem statements_of_heads {t : Token} {header rest : List Token} (h : Heads t header rest) :
    ∃ s, statements (t :: (header ++ rest)) = s :: statements rest ∧ s.isExtends = false
      ∧ ∀ b : Builder, Builder.StepsWith t (Bracket.step b.brackets t) (b.step s) := by
  obtain ⟨s, read, ok, other, step⟩ := step_of_heads h
  exact ⟨s, by rw [statements_cons, read, if_neg (by simp [ok])], other, step⟩

/-- The run of a builder ends as the verdict says. -/
theorem ends_run {ts : List Token} (headed : WellHeaded ts) (b : Builder) :
    Builder.EndsBy (Bracket.verdict b.brackets ts) (b.run (statements ts)) := by
  induction headed generalizing b with
  | nil =>
    rw [statements]
    obtain ⟨nodes, _ | ⟨f, outer⟩, base, references, events⟩ := b
    · exact .complete rfl
    · exact .unclosed rfl
  | @cons t header rest heads later ih =>
    obtain ⟨s, cut, -, step⟩ := statements_of_heads heads
    rw [cut, Bracket.verdict, Builder.run]
    have taken := step b
    generalize Bracket.step b.brackets t = stack at taken ⊢
    generalize b.step s = next at taken ⊢
    cases taken with
    | misplaced keyword => exact .misplaced keyword
    | ok same =>
      simp only [Bracket.verdict_append heads.neutral]
      rw [← same]
      exact ih _

/-- No statement of well-headed tokens names a base. -/
theorem isExtends_of_wellHeaded {ts : List Token} (headed : WellHeaded ts) :
    ∀ s ∈ statements ts, s.isExtends = false := by
  induction headed with
  | nil => simp [statements]
  | cons heads _ ih =>
    obtain ⟨s, cut, other, -⟩ := statements_of_heads heads
    rw [cut]
    exact List.forall_mem_cons.2 ⟨other, ih⟩

theorem Opener.bracket_directive (o : Opener) : o.bracket.directive = o.directive := by cases o <;> rfl

theorem Opener.bracket_location (o : Opener) : o.bracket.location = o.location := by cases o <;> rfl

/-- Where everything is closed and no base is named, there is a template. -/
theorem Builder.finish_of_run {ss : List Statement} {b : Builder} (run : Builder.empty.run ss = (b, none))
    (closed : b.frames = []) (free : ∀ s ∈ ss, s.isExtends = false) : ∃ t, b.finish = .ok t := by
  have written : writtenAll b.nodes.reverse = ss.map Statement.kept := by
    simpa [Builder.written, closed, framesWritten, Builder.empty, writtenAll] using written_run run
  have layout : checkLayout (b.nodes.reverse.filter (!·.isBlank)) = .ok () := by
    refine checkLayout_of_none fun n hn => isExtends_of_spelling ?_ n (List.mem_filter.1 hn).1
    rw [← map_unlocated_writtenAll, written]
    simpa using free
  exact ⟨_, by simp only [finish, closed, layout]; rfl⟩

/-- What is read from tokens with a verdict. -/
inductive ReadBy : Verdict → Except ParseError Template → Prop
  | complete {t : Template} : ReadBy .complete (.ok t)
  | misplaced {t : Token} {d : Directive} (keyword : t.text = d.keyword) :
    ReadBy (.misplaced t) (.error (.unboundEnd d t.location))
  | unclosed {b : Bracket} : ReadBy (.unclosed b) (.error (.unclosed b.directive b.location))

theorem readBy_ofTokens {ts : List Token} (headed : WellHeaded ts) :
    ReadBy (Bracket.verdict [] ts) (Template.ofTokens ts).1 := by
  have ends := ends_run headed .empty
  rw [Template.ofTokens]
  show ReadBy (Bracket.verdict (Builder.brackets .empty) ts) _
  generalize hv : Bracket.verdict (Builder.brackets .empty) ts = v at ends ⊢
  generalize hr : Builder.empty.run (statements ts) = r at ends ⊢
  cases ends with
  | complete closed =>
    obtain ⟨t, finished⟩ := Builder.finish_of_run hr closed (isExtends_of_wellHeaded headed)
    simp only [finished]
    exact .complete
  | misplaced keyword => exact .misplaced keyword
  | @unclosed b f outer inside =>
    simp only [Builder.finish, inside, ← Opener.bracket_directive, ← Opener.bracket_location]
    exact .unclosed

/-- **Directives are brackets.** Tokens with well-formed headers are read as a template exactly if the verdict is that
they are complete; a misplaced token, or the innermost bracket that is open at the end, is the fault. -/
theorem ofTokens_verdict {ts : List Token} (headed : WellHeaded ts) :
    ((∃ t, (Template.ofTokens ts).1 = .ok t) ↔ Bracket.verdict [] ts = .complete)
      ∧ (∀ t, Bracket.verdict [] ts = .misplaced t →
        ∃ d : Directive, t.text = d.keyword ∧ (Template.ofTokens ts).1 = .error (.unboundEnd d t.location))
      ∧ ∀ o, Bracket.verdict [] ts = .unclosed o →
        (Template.ofTokens ts).1 = .error (.unclosed o.directive o.location) := by
  have read := readBy_ofTokens headed
  generalize Bracket.verdict [] ts = v at read ⊢
  generalize (Template.ofTokens ts).1 = r at read ⊢
  cases read with
  | complete => simp
  | @misplaced t d keyword => simp [keyword]
  | unclosed => simp

/-- A branch on a call with a loop inside, whose second `else` is misplaced. -/
theorem ofTokens_verdict_second_else :
    let word (kind : TokenKind) (text : String) : Token := ⟨kind, text, .origin⟩
    let ts := [word .function "if", word .function "isSet", word .parameter "a", word .function "foreach",
      word .parameter "row", word .parameter "i", word .parameter "in", word .parameter ".rows", word .text "-",
      word .parameter ".row", word .function "end", word .function "else", word .function "else"]
    WellHeaded ts ∧ Bracket.verdict [] ts = .misplaced (word .function "else")
      ∧ (Template.ofTokens ts).1 = .error (.unboundEnd .alternative .origin) := by
  intro word ts
  have alone {t : Token} {rest : List Token} (heads : Heads t [] rest) (later : WellHeaded rest) :
      WellHeaded (t :: rest) := .cons heads later
  let parts := [word .function "end", word .function "else", word .function "else"]
  have inner : WellHeaded (word .text "-" :: word .parameter ".row" :: parts) :=
    alone (.text rfl) (alone (.path rfl (by decide)) (alone (.part (.inr (by decide)))
      (alone (.part (.inl (by decide))) (alone (.part (.inl (by decide))) .nil))))
  have index : IsIndexPart [word .parameter "i"] := ⟨none, some (word .parameter "i"), rfl, by simp, by decide⟩
  have loop (rest : List Token) : Heads (word .function "foreach")
      (word .parameter "row" :: ([word .parameter "i"] ++ [word .parameter "in", word .parameter ".rows"])) rest :=
    .loop (by decide) rfl (by decide) index (by decide) rfl
  have branch (rest : List Token) (behind : ∀ n ∈ rest.head?, n.isParameter = false) :
      Heads (word .function "if") [word .function "isSet", word .parameter "a"] rest :=
    .branchOnCall (by decide) ⟨rfl, by decide⟩ (by decide) behind
  have headed : WellHeaded ts := .cons (branch _ (by decide)) (.cons (loop _) inner)
  have verdict : Bracket.verdict [] ts = .misplaced (word .function "else") := by decide
  obtain ⟨d, keyword, read⟩ := (ofTokens_verdict headed).2.1 _ verdict
  have same : d = .alternative := by cases d <;> first | rfl | exact absurd keyword (by decide)
  exact ⟨headed, verdict, same ▸ read⟩

end Stencil
