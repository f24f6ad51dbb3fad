import Mathlib
import Stencil.Proofs.Syntax.Nesting
import Stencil.Proofs.Syntax.ScannerShift

/-!
# Sources one behind the other

No token marks the end of a directive, so a call takes all parameters that follow it: its own ones, and those of the
values right behind it.

* `statements_append`: statements of two lists of tokens, the first of which ends with no call.
* `statements_append_gain`: behind a call, the first values of the second list become arguments.
* `parse_append_iff`: two sources without a base, one behind the other, are read as their nodes one behind the other
  unless a call meets a value.
-/

namespace Stencil

namespace Statement

/-- Whether the statement takes all parameters up to the next token of another kind. -/
def takesArguments : Statement → Bool
  | call _ => true
  | openBranch (.call _) _ => true
  | _ => false

def isValue : Statement → Bool
  | value .. => true
  | _ => false

/-- The statement with more arguments, if it takes any. -/
def gain (arguments : List String) : Statement → Statement
  | call c => call { c with arguments := c.arguments ++ arguments }
  | openBranch (.call c) l => openBranch (.call { c with arguments := c.arguments ++ arguments }) l
  | s => s

@[simp] theorem takesArguments_unlocated (s : Statement) : s.unlocated.takesArguments = s.takesArguments := by
  cases s with
  | openBranch condition l => cases condition <;> rfl
  | _ => rfl

@[simp] theorem isValue_unlocated (s : Statement) : s.unlocated.isValue = s.isValue := by cases s <;> rfl

@[simp] theorem gain_nil (s : Statement) : s.gain [] = s := by
  cases s with
  | call c => simp [gain]
  | openBranch condition l => cases condition <;> simp [gain]
  | _ => rfl

@[simp] theorem isFault_gain (arguments : List String) (s : Statement) : (s.gain arguments).isFault = s.isFault := by
  cases s with
  | openBranch condition l => cases condition <;> rfl
  | _ => rfl

/-! ## One statement with more tokens behind -/

section Read

variable {t : Token} {ts us : List Token}

theorem readArguments_append (h : (readArguments ts).2 ≠ []) :
    readArguments (ts ++ us) = ((readArguments ts).1, (readArguments ts).2 ++ us) := by
  simp only [readArguments, Scanner.takeWhile_append_of_dropWhile h, Scanner.dropWhile_append_of_dropWhile h]

theorem readArguments_append_of_all (h : (readArguments ts).2 = []) :
    readArguments (ts ++ us) = ((readArguments ts).1 ++ (readArguments us).1, (readArguments us).2) := by
  have parameters : ∀ t ∈ ts, t.isParameter = true := List.dropWhile_eq_nil_iff.1 h
  simp only [readArguments, List.takeWhile_append_of_pos parameters, List.dropWhile_append_of_pos parameters,
    List.takeWhile_eq_self_iff.2 parameters, List.filter_append, List.map_append]

theorem readNamed_append {d : Directive} {make : String → Location → Statement}
    (ok : (readNamed d make t ts).1.isFault = false) :
    readNamed d make t (ts ++ us) = ((readNamed d make t ts).1, (readNamed d make t ts).2 ++ us) := by
  cases ts with
  | nil => cases ok
  | cons p ts =>
    simp only [readNamed, List.cons_append]
    split
    · rfl
    split <;> rfl

theorem skipComma_append (h : ts ≠ []) : skipComma (ts ++ us) = skipComma ts ++ us := by
  cases ts with
  | nil => exact absurd rfl h
  | cons t ts =>
    simp only [List.cons_append, skipComma]
    split <;> rfl

theorem indexName_append (h : ts ≠ []) : indexName (ts ++ us) = ((indexName ts).1, (indexName ts).2 ++ us) := by
  cases ts with
  | nil => exact absurd rfl h
  | cons t ts =>
    simp only [List.cons_append, indexName]
    split <;> rfl

theorem readIndex_append (h : (readIndex ts).2 ≠ []) :
    readIndex (ts ++ us) = ((readIndex ts).1, (readIndex ts).2 ++ us) := by
  rw [readIndex_eq] at h
  have skipped : skipComma ts ≠ [] := by
    intro empty
    rw [empty] at h
    exact h rfl
  have start : ts ≠ [] := by
    rintro rfl
    exact skipped rfl
  rw [readIndex_eq, readIndex_eq, skipComma_append start, indexName_append skipped]

theorem readLoop_append (ok : (readLoop t ts).1.isFault = false) :
    readLoop t (ts ++ us) = ((readLoop t ts).1, (readLoop t ts).2 ++ us) := by
  cases ts with
  | nil => cases ok
  | cons item ts =>
    simp only [readLoop, List.cons_append] at ok ⊢
    split
    · rfl
    next named =>
    rw [if_neg named] at ok
    have index : (readIndex ts).2 ≠ [] := by
      intro empty
      rw [empty] at ok
      cases ok
    rw [readIndex_append index]
    generalize readIndex ts = found at ok index ⊢
    obtain ⟨name, _ | ⟨word, after⟩⟩ := found
    · exact absurd rfl index
    · simp only [List.cons_append] at ok ⊢
      split
      · rfl
      next isIn =>
      rw [if_neg isIn] at ok
      cases after with
      | nil => cases ok
      | cons collection after =>
        simp only [List.cons_append]
        split <;> rfl

theorem readBranch_append (ok : (readBranch t ts).1.isFault = false)
    (more : (readBranch t ts).1.takesArguments = false ∨ (readBranch t ts).2 ≠ []) :
    readBranch t (ts ++ us) = ((readBranch t ts).1, (readBranch t ts).2 ++ us) := by
  cases ts with
  | nil => cases ok
  | cons c ts =>
    cases h : c.kind with
    | text => simp only [readBranch, List.cons_append, h]
    | error => simp only [readBranch, List.cons_append, h]
    | parameter => simp only [readBranch, List.cons_append, h]
    | function =>
      simp only [readBranch, List.cons_append, h] at more ⊢
      split
      · rfl
      next other =>
      rw [if_neg other] at more
      rcases more with more | more
      · cases more
      · simp only [readCall] at more ⊢
        rw [readArguments_append more]

/-- A statement does not change when more tokens follow, unless it takes them as arguments. -/
theorem read_append (ok : (read t ts).1.isFault = false)
    (more : (read t ts).1.takesArguments = false ∨ (read t ts).2 ≠ []) :
    read t (ts ++ us) = ((read t ts).1, (read t ts).2 ++ us) := by
  cases h : t.kind with
  | error => simp only [read, h]
  | text => simp only [read, h]
  | parameter =>
    simp only [read, h]
    split <;> rfl
  | function =>
    simp only [read, h] at ok more ⊢
    cases hd : Directive.ofKeyword? t.text with
    | none =>
      simp only [hd, takesArguments, Bool.true_eq_false, false_or, readCall] at more ⊢
      rw [readArguments_append more]
    | some d =>
      rw [hd] at ok more
      cases d with
      | branch => exact readBranch_append ok more
      | alternative => rfl
      | close => rfl
      | loop => exact readLoop_append ok
      | inclusion => exact readNamed_append ok
      | block => exact readNamed_append ok
      | base =>
        simp only [takesArguments, Bool.true_eq_false, false_or, readCall] at more ⊢
        rw [readArguments_append more]

theorem readCall_append_of_all (h : (readCall t ts).2 = []) :
    readCall t (ts ++ us)
      = (⟨t.text, (readCall t ts).1.arguments ++ (readArguments us).1, none, t.location⟩, (readArguments us).2) := by
  simp only [readCall] at h ⊢
  rw [readArguments_append_of_all h]

theorem readNamed_takesArguments {d : Directive} {make : String → Location → Statement}
    (hm : ∀ name l, (make name l).takesArguments = false) : (readNamed d make t ts).1.takesArguments = false := by
  unfold readNamed
  repeat' split
  all_goals first | rfl | exact hm _ _

theorem readLoop_takesArguments : (readLoop t ts).1.takesArguments = false := by
  unfold readLoop
  repeat' split
  all_goals rfl

/-- A statement that takes arguments is a call, or a branch on a call. -/
theorem takes_cases (takes : (read t ts).1.takesArguments = true) :
    (t.kind = .function ∧ (Directive.ofKeyword? t.text = none ∨ Directive.ofKeyword? t.text = some .base)
        ∧ ∀ us, read t us = (call (readCall t us).1, (readCall t us).2))
      ∨ ∃ c more, ts = c :: more ∧ c.kind = .function ∧ Directive.ofKeyword? c.text = none
        ∧ ∀ us, read t (c :: us) = (openBranch (.call (readCall c us).1) t.location, (readCall c us).2) := by
  cases h : t.kind with
  | error => simp [read, h, takesArguments] at takes
  | text => simp [read, h, takesArguments] at takes
  | parameter =>
    simp only [read, h] at takes
    split at takes <;> cases takes
  | function =>
    cases hd : Directive.ofKeyword? t.text with
    | none => exact .inl ⟨rfl, .inl rfl, fun us => by simp only [read, h, hd]⟩
    | some d =>
      simp only [read, h, hd] at takes ⊢
      cases d with
      | alternative => cases takes
      | close => cases takes
      | loop => simp only [readLoop_takesArguments, Bool.false_eq_true] at takes
      | inclusion => rw [readNamed_takesArguments fun _ _ => rfl] at takes; cases takes
      | block => rw [readNamed_takesArguments fun _ _ => rfl] at takes; cases takes
      | base => exact .inl ⟨trivial, .inr rfl, fun us => rfl⟩
      | branch =>
        cases ts with
        | nil => cases takes
        | cons c ts =>
          simp only [readBranch] at takes
          split at takes
          · cases takes
          · next kind =>
            split at takes
            · cases takes
            · next other =>
              have free : Directive.ofKeyword? c.text = none := by simpa using other
              exact .inr ⟨c, ts, rfl, kind, free, fun us => by simp [readBranch, kind, free]⟩
          · cases takes
          · cases takes

/-- A statement that takes arguments, and has taken all tokens, takes those that follow as well. -/
theorem read_append_of_takes (takes : (read t ts).1.takesArguments = true) (all : (read t ts).2 = []) :
    read t (ts ++ us) = ((read t ts).1.gain (readArguments us).1, (readArguments us).2) := by
  rcases takes_cases takes with ⟨-, -, same⟩ | ⟨c, more, rfl, -, -, same⟩
  · rw [same ts] at all
    rw [same (ts ++ us), same ts, readCall_append_of_all all]
    rfl
  · rw [same more] at all
    rw [List.cons_append, same (more ++ us), same more, readCall_append_of_all all]
    rfl

end Read

end Statement

/-! ## All statements with more tokens behind -/

/-- Only a parameter is read as a value. -/
theorem Statement.isValue_read {t : Token} {ts : List Token} (h : t.isParameter = false) :
    (read t ts).1.isValue = false := by
  cases hk : t.kind with
  | parameter => simp [Token.isParameter, hk] at h
  | error => simp only [read, hk, isValue]
  | text => simp only [read, hk, isValue]
  | function =>
    simp only [read, hk]
    unfold readBranch readLoop readNamed
    repeat' split
    all_goals rfl

theorem statements_ne_nil {ts : List Token} (h : ts ≠ []) : statements ts ≠ [] := by
  cases ts with
  | nil => exact absurd rfl h
  | cons t ts =>
    rw [statements_cons]
    split <;> exact List.cons_ne_nil _ _

/-- The last statement is read from the last tokens, whatever follows them. -/
theorem statements_split {ts : List Token} {init : List Statement} {s : Statement}
    (h : statements ts = init ++ [s]) (ok : ∀ s ∈ statements ts, s.isFault = false) :
    ∃ t rest, Statement.read t rest = (s, []) ∧
      ∀ us, statements (ts ++ us) = init ++ statements (t :: (rest ++ us)) := by
  induction hn : ts.length using Nat.strongRecOn generalizing ts init with
  | _ n ih =>
    cases ts with
    | nil => simp [statements] at h
    | cons t ts =>
      have shorter := Statement.read_length_le t ts
      have noFault : (Statement.read t ts).1.isFault = false := by
        refine ok _ ?_
        rw [statements_cons]
        split <;> exact List.mem_cons_self
      rw [statements_cons, if_neg (by simp [noFault])] at h ok
      cases init with
      | nil =>
        obtain ⟨first, none'⟩ := List.cons.inj h
        have last : (Statement.read t ts).2 = [] := by
          by_contra more
          exact statements_ne_nil more none'
        exact ⟨t, ts, Prod.ext first last, fun us => rfl⟩
      | cons i init =>
        obtain ⟨first, rest⟩ := List.cons.inj h
        have more : (Statement.read t ts).2 ≠ [] := by
          intro empty
          rw [empty, statements] at rest
          simp at rest
        simp only [List.length_cons] at hn
        obtain ⟨u, after, last, split⟩ := ih _ (by omega) rest (fun s hs => ok s (List.mem_cons_of_mem _ hs)) rfl
        refine ⟨u, after, last, fun us => ?_⟩
        rw [List.cons_append, statements_cons, Statement.read_append noFault (.inr more), if_neg (by simp [noFault]),
          split, ← first, List.cons_append]

section Behind

variable {ts us : List Token} {init : List Statement} {s : Statement}

/-- Behind a statement that takes arguments, leading parameters become arguments. -/
theorem statements_append_gain (h : statements ts = init ++ [s]) (ok : ∀ s ∈ statements ts, s.isFault = false)
    (takes : s.takesArguments = true) :
    statements (ts ++ us)
      = init ++ s.gain (Statement.readArguments us).1 :: statements (Statement.readArguments us).2 := by
  obtain ⟨t, rest, last, split⟩ := statements_split h ok
  have joined : Statement.read t (rest ++ us) = _ :=
    Statement.read_append_of_takes (by rw [last]; exact takes) (by rw [last])
  have noFault : s.isFault = false := ok s (by simp [h])
  rw [split, statements_cons, joined, last]
  simp [noFault]

/-- Two lists of tokens are read one after the other if the first one ends with no call, or the second one begins with
no parameter. -/
theorem statements_append (ok : ∀ s ∈ statements ts, s.isFault = false)
    (apart : (∀ s, (statements ts).getLast? = some s → s.takesArguments = false)
      ∨ us.takeWhile Token.isParameter = []) :
    statements (ts ++ us) = statements ts ++ statements us := by
  rcases List.eq_nil_or_concat (statements ts) with empty | ⟨init, s, h⟩
  · have : ts = [] := by
      by_contra some'
      exact statements_ne_nil some' empty
    rw [this]
    simp [statements]
  · rw [List.concat_eq_append] at h
    cases takes : s.takesArguments with
    | false =>
      obtain ⟨t, rest, last, split⟩ := statements_split h ok
      have noFault : s.isFault = false := ok s (by simp [h])
      have same : Statement.read t (rest ++ us) = _ :=
        Statement.read_append (by rw [last]; exact noFault) (.inl (by rw [last]; exact takes))
      rw [split, statements_cons, same, last, h]
      simp [noFault]
    | true =>
      have noParameter : us.takeWhile Token.isParameter = [] := by
        refine apart.resolve_left fun no => ?_
        rw [no s (by rw [h]; simp)] at takes
        cases takes
      have all : us.dropWhile Token.isParameter = us := by
        have := List.takeWhile_append_dropWhile (p := Token.isParameter) (l := us)
        rwa [noParameter, List.nil_append] at this
      rw [statements_append_gain h ok takes, h]
      simp [Statement.readArguments, noParameter, all]

end Behind

/-- Parameters at the start of a source that are no fault are values. -/
theorem statements_eq_values {us : List Token} (ok : ∀ s ∈ statements us, s.isFault = false) :
    statements us = (us.takeWhile Token.isParameter).map (fun t => .value (.parse t.text) t.location)
      ++ statements (us.dropWhile Token.isParameter) := by
  induction us with
  | nil => rfl
  | cons u us ih =>
    cases h : u.isParameter with
    | false => simp [h]
    | true =>
      have first : Statement.read u us = (.value (.parse u.text) u.location, us) := by
        have kind := Token.kind_of_isParameter h
        have noFault : (Statement.read u us).1.isFault = false := by
          refine ok _ ?_
          rw [statements_cons]
          split <;> exact List.mem_cons_self
        simp only [Statement.read, kind] at noFault ⊢
        split
        · rfl
        · next path => rw [if_neg path] at noFault; cases noFault
      rw [statements_cons, first] at ok ⊢
      simp only [Statement.isFault, Bool.false_eq_true, if_false, List.mem_cons, forall_eq_or_imp] at ok ⊢
      rw [List.takeWhile_cons_of_pos h, List.dropWhile_cons_of_pos h, ih ok.2]
      rfl

/-! ## Nodes one behind the other -/

namespace Node

def isCall : Node → Bool
  | .call _ => true
  | _ => false

def isValue : Node → Bool
  | .value .. => true
  | _ => false

end Node

def endsWithCall (ns : List Node) : Bool := ns.getLast?.any Node.isCall

def startsWithValue (ns : List Node) : Bool := ns.head?.any Node.isValue

/-- Only a call at the end is spelled with a last statement that takes arguments. -/
theorem getLast?_spellingAll (ns : List Node) :
    (spellingAll ns).getLast?.any Statement.takesArguments = endsWithCall ns := by
  rcases List.eq_nil_or_concat ns with rfl | ⟨init, n, rfl⟩
  · rfl
  · rw [List.concat_eq_append, spellingAll_append]
    cases n <;> simp [endsWithCall, spellingAll, Node.spelling, Node.isCall, Statement.takesArguments,
      List.getLast?_cons]

theorem head?_spellingAll (ns : List Node) : (spellingAll ns).head?.any Statement.isValue = startsWithValue ns := by
  cases ns with
  | nil => rfl
  | cons n ns => cases n <;> simp [startsWithValue, spellingAll, Node.spelling, Node.isValue, Statement.isValue]

/-- Behind leading values the spelling goes on with the nodes behind them. -/
theorem spellingAll_of_values {vs rest : List Statement} {ns : List Node} (h : spellingAll ns = vs ++ rest)
    (values : ∀ v ∈ vs, v.isValue = true) : ∃ ms, spellingAll ms = rest := by
  induction vs generalizing ns with
  | nil => exact ⟨ns, h⟩
  | cons v vs ih =>
    rw [List.forall_mem_cons] at values
    cases ns with
    | nil => simp [spellingAll] at h
    | cons n ns =>
      cases n with
      | value p l =>
        simp only [spellingAll, Node.spelling, List.cons_append, List.nil_append, List.cons.injEq] at h
        exact ih h.2 values.2
      | text | call | branch | loop | inclusion | block =>
        simp only [spellingAll, Node.spelling, List.cons_append, List.nil_append, List.cons.injEq] at h
        rw [← h.1] at values
        cases values.1

/-! ## Sources -/

theorem parse_eq_ok {source : String} {t : Template} :
    Template.parse source = .ok t ↔ (Template.ofTokens (scan source)).1 = .ok t := by
  have unfolded : Template.parse source
      = (Template.ofTokens (scan source)).1.map fun t => { t with sourcePath := none } := rfl
  rw [unfolded]
  cases h : (Template.ofTokens (scan source)).1 with
  | error e => exact Iff.rfl
  | ok t' =>
    obtain ⟨b, _, _, rfl⟩ := ofTokens_eq_ok h
    exact Iff.rfl

section Sources

variable {a b : String} {ta tb : Template}

theorem statements_scan_append (closed : EndsClosed a) :
    (statements (scan (a ++ b))).map Statement.unlocated
      = (statements (scan a ++ scan b)).map Statement.unlocated := by
  rw [← statements_unlocated, scan_append closed, statements_unlocated]

theorem head?_statements_isValue {us : List Token} (ok : ∀ s ∈ statements us, s.isFault = false) :
    (statements us).head?.any Statement.isValue = false ↔ us.takeWhile Token.isParameter = [] := by
  cases us with
  | nil => simp [statements]
  | cons u us =>
    cases h : u.isParameter with
    | true =>
      rw [statements_eq_values ok]
      simp [h, Statement.isValue]
    | false =>
      have other : (Statement.read u us).1.isValue = false := Statement.isValue_read h
      rw [statements_cons]
      split <;> simp [h, other]

/-- A source begins with a value exactly if its tokens begin with a parameter. -/
theorem startsWithValue_of_ofTokens {us : List Token} {t : Template} (h : (Template.ofTokens us).1 = .ok t) :
    startsWithValue t.nodes = false ↔ us.takeWhile Token.isParameter = [] := by
  rw [← head?_statements_isValue (isFault_of_ofTokens h), ← head?_spellingAll, ← spelling_of_ofTokens h,
    List.head?_map, Option.any_map]
  simp only [Statement.isValue_unlocated]

/-- The last statement of a source that ends with a call is the call. -/
theorem statements_of_endsWithCall {ts : List Token} {t : Template} (h : (Template.ofTokens ts).1 = .ok t)
    (call : endsWithCall t.nodes = true) :
    ∃ init c ms, statements ts = init ++ [.call c] ∧ init.map Statement.unlocated = spellingAll ms := by
  have spelled := spelling_of_ofTokens h
  rcases List.eq_nil_or_concat t.nodes with empty | ⟨ms, n, nodes⟩
  · rw [empty] at call; cases call
  rw [List.concat_eq_append] at nodes
  rw [nodes, endsWithCall, List.getLast?_concat] at call
  cases n with
  | text | value | branch | loop | inclusion | block => cases call
  | call c =>
    rw [nodes, spellingAll_append] at spelled
    obtain ⟨init, last, split, spelledInit, spelledLast⟩ := List.map_eq_append_iff.1 spelled
    obtain ⟨s, rfl, same⟩ : ∃ s, last = [s] ∧ s.unlocated = .call c.unlocated := by
      simpa [spellingAll, Node.spelling, List.map_eq_singleton_iff, eq_comm] using spelledLast
    cases s with
    | call c' => exact ⟨init, c', ms, split, spelledInit⟩
    | _ => simp [Statement.unlocated] at same

/-- Behind the leading parameters of a source its spelling goes on with some nodes. -/
theorem exists_spelling_dropWhile {us : List Token} {t : Template} (h : (Template.ofTokens us).1 = .ok t) :
    ∃ ms, spellingAll ms = (statements (us.dropWhile Token.isParameter)).map Statement.unlocated := by
  have spelled := spelling_of_ofTokens h
  rw [statements_eq_values (isFault_of_ofTokens h), List.map_append] at spelled
  refine spellingAll_of_values spelled.symm fun v hv => ?_
  simp only [List.map_map, List.mem_map] at hv
  obtain ⟨t, _, rfl⟩ := hv
  rfl

/-- Where there is no base, no statement that is read names one. -/
theorem isExtends_of_mem_map {ts : List Token} {t : Template} (h : (Template.ofTokens ts).1 = .ok t)
    (free : t.base = none) {ss : List Statement} (part : ∀ s ∈ ss, s ∈ statements ts) :
    ∀ s ∈ ss.map Statement.unlocated, s.isExtends = false := by
  intro s hs
  obtain ⟨s, mem, rfl⟩ := List.mem_map.1 hs
  rw [Statement.isExtends_unlocated]
  exact isExtends_of_ofTokens h free s (part s mem)

/-- Sources that do not meet in a call and a value are read one after the other. -/
theorem parse_append_of_apart (ha : Template.parse a = .ok ta) (hb : Template.parse b = .ok tb)
    (freeA : ta.base = none) (freeB : tb.base = none) (closed : EndsClosed a)
    (apart : endsWithCall ta.nodes = false ∨ startsWithValue tb.nodes = false) :
    ∃ t, Template.parse (a ++ b) = .ok t ∧ t.base = none
      ∧ unlocatedAll t.nodes = unlocatedAll (ta.nodes ++ tb.nodes) := by
  simp only [parse_eq_ok] at ha hb ⊢
  have okA := isFault_of_ofTokens ha
  have spelledA := spelling_of_ofTokens ha
  have spelledB := spelling_of_ofTokens hb
  rw [ofTokens_iff, statements_scan_append closed, statements_append okA ?_, List.map_append, spelledA, spelledB,
    spellingAll_append]
  · refine ⟨rfl, fun s hs => ?_⟩
    rw [List.mem_append, ← spelledA, ← spelledB] at hs
    rcases hs with hs | hs
    · exact isExtends_of_mem_map ha freeA (fun _ mem => mem) s hs
    · exact isExtends_of_mem_map hb freeB (fun _ mem => mem) s hs
  · rcases apart with noCall | noValue
    · refine .inl fun s hs => ?_
      rw [← getLast?_spellingAll, ← spelledA, List.getLast?_map, hs] at noCall
      simpa using noCall
    · exact .inr ((startsWithValue_of_ofTokens hb).1 noValue)

/-- A call at the end takes the values at the start of what follows as arguments. -/
theorem spelling_append_of_taken (ha : Template.parse a = .ok ta) (closed : EndsClosed a) {init : List Statement}
    {c : Call} {ms rs : List Node} (split : statements (scan a) = init ++ [.call c])
    (spelledInit : init.map Statement.unlocated = spellingAll ms)
    (spelledRest : spellingAll rs
      = (statements ((scan b).dropWhile Token.isParameter)).map Statement.unlocated) :
    (statements (scan (a ++ b))).map Statement.unlocated = spellingAll (ms ++
      .call { c with arguments := c.arguments ++ (Statement.readArguments (scan b)).1 } :: rs) := by
  have joined : statements (scan a ++ scan b) = _ :=
    statements_append_gain split (isFault_of_ofTokens (parse_eq_ok.1 ha)) rfl
  rw [statements_scan_append closed, joined, List.map_append, List.map_cons, spelledInit, spellingAll_append,
    spellingAll, spelledRest]
  rfl

/-- A call at the end takes the values at the start of what follows, so that fewer statements are read. -/
theorem parse_append_of_taken (ha : Template.parse a = .ok ta) (hb : Template.parse b = .ok tb)
    (freeA : ta.base = none) (freeB : tb.base = none) (closed : EndsClosed a)
    (call : endsWithCall ta.nodes = true) (value : startsWithValue tb.nodes = true) :
    ∃ t, Template.parse (a ++ b) = .ok t ∧ t.base = none
      ∧ (spellingAll t.nodes).length < (spellingAll ta.nodes).length + (spellingAll tb.nodes).length := by
  simp only [parse_eq_ok] at ha hb ⊢
  have valuesB := statements_eq_values (isFault_of_ofTokens hb)
  have taken : (scan b).takeWhile Token.isParameter ≠ [] := by
    intro none'
    rw [(startsWithValue_of_ofTokens hb).2 none'] at value
    cases value
  obtain ⟨init, c, ms, split, spelledInit⟩ := statements_of_endsWithCall ha call
  obtain ⟨rs, spelledRest⟩ := exists_spelling_dropWhile hb
  have spelled := spelling_append_of_taken (parse_eq_ok.2 ha) closed split spelledInit spelledRest
  let gained : Node := .call { c with arguments := c.arguments ++ (Statement.readArguments (scan b)).1 }
  have free : ∀ s ∈ spellingAll (ms ++ gained :: rs), s.isExtends = false := by
    intro s hs
    have freeCall : (Statement.call c).isExtends = false :=
      isExtends_of_ofTokens ha freeA _ (by rw [split]; simp)
    rw [spellingAll_append, spellingAll, List.mem_append, List.mem_append, ← spelledInit, spelledRest] at hs
    rcases hs with hs | hs | hs
    · exact isExtends_of_mem_map ha freeA (fun s mem => by rw [split]; exact List.mem_append_left _ mem) s hs
    · simp only [gained, Node.spelling, List.mem_singleton] at hs
      rw [hs]
      exact freeCall
    · exact isExtends_of_mem_map hb freeB (fun s mem => by rw [valuesB]; exact List.mem_append_right _ mem) s hs
  obtain ⟨t, read, base, nodes⟩ := ofTokens_iff.2 ⟨spelled, free⟩
  refine ⟨t, read, base, ?_⟩
  have count := congrArg List.length valuesB
  have countInit := congrArg List.length spelledInit
  have positive := List.length_pos_iff.2 taken
  rw [← spelling_of_ofTokens ha, ← spelling_of_ofTokens hb, ← spellingAll_unlocatedAll t.nodes, nodes,
    spellingAll_unlocatedAll, spellingAll_append, spellingAll, spelledRest, split]
  simp only [List.length_append, List.length_map, Node.spelling, List.length_cons, List.length_nil] at count countInit ⊢
  omega

/-- Two sources without a base, the first of which ends behind a directive: one behind the other they are read, and as
their nodes one behind the other exactly if no call meets a value. -/
theorem parse_append_iff (ha : Template.parse a = .ok ta) (hb : Template.parse b = .ok tb)
    (freeA : ta.base = none) (freeB : tb.base = none) (closed : EndsClosed a) :
    ∃ t, Template.parse (a ++ b) = .ok t ∧ t.base = none
      ∧ (unlocatedAll t.nodes = unlocatedAll (ta.nodes ++ tb.nodes)
        ↔ ¬ (endsWithCall ta.nodes = true ∧ startsWithValue tb.nodes = true)) := by
  by_cases meet : endsWithCall ta.nodes = true ∧ startsWithValue tb.nodes = true
  · obtain ⟨t, read, base, fewer⟩ := parse_append_of_taken ha hb freeA freeB closed meet.1 meet.2
    refine ⟨t, read, base, fun same => ?_, fun apart => absurd meet apart⟩
    rw [← spellingAll_unlocatedAll t.nodes, same, spellingAll_unlocatedAll, spellingAll_append,
      List.length_append] at fewer
    exact absurd fewer (Nat.lt_irrefl _)
  · have apart : endsWithCall ta.nodes = false ∨ startsWithValue tb.nodes = false := by
      cases hc : endsWithCall ta.nodes with
      | false => exact .inl rfl
      | true =>
        cases hv : startsWithValue tb.nodes with
        | false => exact .inr rfl
        | true => exact absurd ⟨hc, hv⟩ meet
    obtain ⟨t, read, base, same⟩ := parse_append_of_apart ha hb freeA freeB closed apart
    exact ⟨t, read, base, fun _ => meet, fun _ => same⟩

theorem parse_append_iff_call_value :
    ∃ t, Template.parse ("\x7b\x7b f() \x7d\x7d" ++ "\x7b\x7b .x \x7d\x7d") = .ok t ∧ t.base = none
      ∧ (unlocatedAll t.nodes
          = unlocatedAll ([.call ⟨"f", [], none, ⟨1, 4, 3⟩⟩] ++ [.value ⟨".x", [⟨"x", []⟩]⟩ ⟨1, 4, 3⟩])
        ↔ ¬ (true = true ∧ true = true)) :=
  parse_append_iff
    (show Template.parse _ = .ok ⟨[.call ⟨"f", [], none, ⟨1, 4, 3⟩⟩], none, none, []⟩ by cbv)
    (show Template.parse _ = .ok ⟨[.value ⟨".x", [⟨"x", []⟩]⟩ ⟨1, 4, 3⟩], none, none, []⟩ by cbv) rfl rfl
    ⟨_, _, .head rfl (.head rfl (.head rfl (.refl _ _)))⟩

end Sources

end Stencil
