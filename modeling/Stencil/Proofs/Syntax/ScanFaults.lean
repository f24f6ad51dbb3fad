import Stencil.Proofs.Syntax.Flattening
import Stencil.Proofs.Syntax.Juxtaposition

/-!
# Sources in which the scanner meets an error

Where the scanner stops, the tokens in front of the error may be the start of something that could be read. Reading then
comes to the error and reports it, unless the tokens end within a header: the header of an inclusion, a block, a loop or
a base takes the error for a parameter that is missing, and reports that. The condition of a branch is no such case.

* `lacking?`: what the header at the end of some tokens lacks.
* `Builder.run_fault`: the outcome where tokens that can be continued end with an error.
* `parse_eq_lex_iff`: a source with such an error is never read; which error is reported.
-/

namespace Stencil

/-! ## Headers that are cut off -/

/-- What a header lacks that has these parameters so far. -/
def Directive.lacks? : Directive → List Token → Option HeaderFault
  | .inclusion, ps | .block, ps => if ps = [] then some .nameMissing else none
  | .base, ps => if ps.all (Statement.isWord ",") then some .baseMissing else none
  | .loop, [] => some .itemMissing
  | .loop, _ :: more =>
    match (Statement.readIndex more).2 with
    | [] => some .inMissing
    | [_] => some .collectionMissing
    | _ => none
  | .branch, _ | .alternative, _ | .close, _ => none

/-- What the header of a keyword lacks; other tokens begin no header. -/
def Token.lacks? (t : Token) (ps : List Token) : Option ParseError :=
  if t.kind = .function then
    (Directive.ofKeyword? t.text).bind fun d => (d.lacks? ps).map fun fault => .invalid d fault t.location
  else none

/-- What the last header lacks: that of the last token that is no parameter. -/
def lacking? : List Token → Option ParseError
  | [] => none
  | t :: ts => if ts.all Token.isParameter then t.lacks? ts else lacking? ts

section Lacking

variable {t : Token} {front ts us : List Token}

theorem lacking?_append (h : ts.all Token.isParameter = false) : lacking? (front ++ ts) = lacking? ts := by
  induction front with
  | nil => rfl
  | cons t front ih =>
    have other : (front ++ ts).all Token.isParameter = false := by rw [List.all_append, h, Bool.and_false]
    rw [List.cons_append, lacking?, if_neg (by simp [other]), ih]

theorem lacks?_of_kind (h : t.kind ≠ .function) (ps : List Token) : t.lacks? ps = none := if_neg h

theorem lacks?_of_no_keyword (h : Directive.ofKeyword? t.text = none) (ps : List Token) : t.lacks? ps = none := by
  simp [Token.lacks?, h]

theorem lacks?_of_keyword {d : Directive} (kind : t.kind = .function) (h : Directive.ofKeyword? t.text = some d)
    (ps : List Token) : t.lacks? ps = (d.lacks? ps).map fun fault => .invalid d fault t.location := by
  simp [Token.lacks?, kind, h]

theorem lacking?_of_all (h : ts.all Token.isParameter = true) : lacking? ts = none := by
  cases ts with
  | nil => rfl
  | cons t ts =>
    rw [List.all_cons, Bool.and_eq_true] at h
    rw [lacking?, if_pos h.2, lacks?_of_kind]
    rw [Token.kind_of_isParameter h.1]
    decide

/-- What is lacking is no error of the scanner. -/
theorem lacking?_ne_lex {message : String} {l : Location} : lacking? ts ≠ some (.lex message l) := by
  induction ts with
  | nil => exact nofun
  | cons t ts ih =>
    rw [lacking?]
    split
    · simp only [Token.lacks?]
      split
      · simp [Option.bind_eq_some_iff]
      · exact nofun
    · exact ih

end Lacking

namespace Statement

variable {t e : Token} {ts us : List Token}

/-! ## One statement -/

/-- What is read of an index is parameters. -/
theorem readIndex_split (ts : List Token) :
    ∃ taken, ts = taken ++ (readIndex ts).2 ∧ taken.all Token.isParameter = true := by
  obtain ⟨skipped, comma, skips⟩ := skipComma_split ts
  have words : skipped.all Token.isParameter = true :=
    List.all_eq_true.2 fun t ht => (Bool.and_eq_true_iff.1 ((skips "").isWord t ht)).1
  rw [readIndex_eq]
  cases rest : skipComma ts with
  | nil => exact ⟨skipped, by rw [comma, rest]; rfl, words⟩
  | cons t more =>
    rw [rest] at comma
    simp only [indexName]
    split
    · next named =>
      refine ⟨skipped ++ [t], by rw [comma, List.append_assoc]; rfl, ?_⟩
      simp [words, (Bool.and_eq_true_iff.1 named).1]
    · exact ⟨skipped, comma, words⟩

theorem lacking?_cons_of_all (all : ts.all Token.isParameter = true) : lacking? (t :: ts) = t.lacks? ts := if_pos all

/-- Behind arguments comes no parameter. -/
theorem readArguments_ne_nil (more : (readArguments ts).2 ≠ []) :
    (readArguments ts).2.all Token.isParameter = false := by
  obtain ⟨t, rest, split⟩ := List.exists_cons_of_ne_nil more
  have first := List.head?_dropWhile_not Token.isParameter ts
  change ts.dropWhile _ = _ at split
  rw [split] at first
  rw [readArguments, split, List.all_cons, Bool.and_eq_false_iff]
  exact .inl (by simpa using first)

/-- The header of a statement that is complete lacks nothing. -/
theorem lacks?_of_read (ok : (read t ts).1.isFault = false) (takes : (read t ts).1.takesArguments = false)
    (all : (read t ts).2.all Token.isParameter = true) : ts.all Token.isParameter = true ∧ t.lacks? ts = none := by
  cases kind : t.kind with
  | error => simp [read, kind, isFault] at ok
  | text => exact ⟨by simpa [read, kind] using all, lacks?_of_kind (by simp [kind]) ts⟩
  | parameter =>
    refine ⟨?_, lacks?_of_kind (by simp [kind]) ts⟩
    simp only [read, kind] at all
    split at all <;> exact all
  | function =>
    cases hd : Directive.ofKeyword? t.text with
    | none => simp [read, kind, hd, takesArguments] at takes
    | some d =>
      simp only [read, kind, hd] at ok takes all
      rw [lacks?_of_keyword kind hd]
      cases d with
      | base => simp [takesArguments] at takes
      | alternative => exact ⟨all, rfl⟩
      | close => exact ⟨all, rfl⟩
      | inclusion | block =>
        obtain ⟨name, after, rfl, parameter, same⟩ := readNamed_eq ok
        rw [same] at all
        exact ⟨by rw [List.all_cons, parameter, all]; rfl, rfl⟩
      | branch =>
        cases ts with
        | nil => cases ok
        | cons c more =>
          refine ⟨?_, rfl⟩
          cases hc : c.kind with
          | text | error => simp [readBranch, hc, isFault] at ok
          | parameter => simpa [readBranch, hc, Token.isParameter] using all
          | function =>
            simp only [readBranch, hc] at ok takes
            split at takes
            · next other => rw [if_pos other] at ok; cases ok
            · cases takes
      | loop =>
        obtain ⟨item, more, index, word, collection, after, rfl, hItem, hIndex, hWord, hCollection, same⟩ :=
          readLoop_eq ok
        obtain ⟨taken, split, parameters⟩ := readIndex_split more
        rw [hIndex] at split
        rw [same] at all
        refine ⟨?_, by simp [Directive.lacks?, hIndex]⟩
        simp [split, hItem, parameters, (Bool.and_eq_true_iff.1 hWord).1, hCollection, all]

/-- Where a statement is complete, what is lacking is lacking behind it. -/
theorem lacking?_read (ok : (read t ts).1.isFault = false)
    (more : (read t ts).1.takesArguments = false ∨ (read t ts).2 ≠ []) :
    lacking? (t :: ts) = lacking? (read t ts).2 := by
  cases all : (read t ts).2.all Token.isParameter with
  | false =>
    obtain ⟨taken, split, -⟩ := read_aligned ok
    rw [split, lacking?_append all]
  | true =>
    rw [lacking?_of_all all]
    cases takes : (read t ts).1.takesArguments with
    | false =>
      obtain ⟨parameters, none'⟩ := lacks?_of_read ok takes all
      rw [lacking?_cons_of_all parameters, none']
    | true =>
      have some' := more.resolve_left (by simp [takes])
      rcases takes_cases takes with ⟨-, -, same⟩ | ⟨c, args, rfl, -, -, same⟩ <;> rw [same] at all some'
      · exact absurd all (by simp [readCall, readArguments_ne_nil some'])
      · exact absurd all (by simp [readCall, readArguments_ne_nil some'])

/-- No arguments are lone commas. -/
theorem readArguments_eq_nil (parameters : ts.all Token.isParameter = true) :
    ts.all (isWord ",") = true ↔ (readArguments ts).1 = [] := by
  have whole : ts.takeWhile Token.isParameter = ts := List.takeWhile_eq_self_iff.2 (List.all_eq_true.1 parameters)
  simp only [readArguments, whole, List.map_eq_nil_iff, List.filter_eq_nil_iff, List.all_eq_true, isWord,
    Bool.and_eq_true, beq_iff_eq, decide_eq_true_eq, not_not]
  exact ⟨fun h t ht => (h t ht).2, fun h t ht => ⟨List.all_eq_true.1 parameters t ht, h t ht⟩⟩

/-- What is wrong with a base that has no arguments. -/
def baseMissing? : Statement → Option ParseError
  | call c => if c.name = "extends" ∧ c.arguments = [] then some (.invalid .base .baseMissing c.location) else none
  | _ => none

/-- Where a statement takes arguments up to the end, only those of a base can be lacking. -/
theorem lacking?_of_takes (takes : (read t ts).1.takesArguments = true) (all : (read t ts).2 = []) :
    lacking? (t :: ts) = (read t ts).1.baseMissing? := by
  rcases takes_cases takes with ⟨kind, keyword, same⟩ | ⟨c, args, rfl, kind, keyword, same⟩ <;> rw [same] at all ⊢
  · have parameters : ts.all Token.isParameter = true := List.all_eq_true.2 (List.dropWhile_eq_nil_iff.1 all)
    rw [lacking?_cons_of_all parameters]
    rcases keyword with other | base
    · have name : ¬ t.text = "extends" := by
        intro name
        rw [name] at other
        exact absurd other (by decide)
      rw [lacks?_of_no_keyword other]
      exact (if_neg fun h => name h.1).symm
    · have name : t.text = "extends" := by
        have found := List.find?_some base
        exact (beq_iff_eq.1 found).symm
      rw [lacks?_of_keyword kind base]
      simp only [Directive.lacks?, baseMissing?, readCall, name, true_and, ← readArguments_eq_nil parameters]
      split <;> rfl
  · have parameters : args.all Token.isParameter = true := List.all_eq_true.2 (List.dropWhile_eq_nil_iff.1 all)
    rw [lacking?, if_neg (by simp [Token.isParameter, kind]), lacking?_cons_of_all parameters,
      lacks?_of_no_keyword keyword]
    rfl

/-! ## A statement that is cut off -/

/-- Only before its name a named directive can be cut off. -/
theorem readNamed_of_cut {d : Directive} {make : String → Location → Statement}
    (made : ∀ name l, (make name l).isFault = false) (ok : (readNamed d make t (ts ++ us)).1.isFault = false)
    (cut : (readNamed d make t ts).1.isFault = true) : ts = [] := by
  cases ts with
  | nil => rfl
  | cons p ts =>
    simp only [readNamed, List.cons_append] at ok cut
    split at ok
    · cases ok
    next parameter =>
    split at ok
    · cases ok
    next named =>
    rw [if_neg parameter, if_neg named, made] at cut
    cases cut

/-- Only before its condition a branch can be cut off. -/
theorem readBranch_of_cut (ok : (readBranch t (ts ++ us)).1.isFault = false)
    (cut : (readBranch t ts).1.isFault = true) : ts = [] := by
  cases ts with
  | nil => rfl
  | cons c ts =>
    cases kind : c.kind with
    | text | error => simp [readBranch, kind, isFault] at ok
    | parameter => simp [readBranch, kind, isFault] at cut
    | function =>
      simp only [readBranch, List.cons_append, kind] at ok cut
      split at ok
      · cases ok
      · next other => rw [if_neg other] at cut; cases cut

section Cut

variable (error : e.kind = .error)
include error

theorem isParameter_of_error : e.isParameter = false := by simp [Token.isParameter, error]

theorem isWord_of_error (word : String) : isWord word e = false := by simp [isWord, isParameter_of_error error]

theorem indexName_error (h : (indexName ts).2 = []) : (indexName (ts ++ [e])).2 = [e] := by
  cases ts with
  | nil => simp [indexName, isParameter_of_error error]
  | cons t ts =>
    simp only [indexName, List.cons_append] at h ⊢
    split at h
    · next named => simp [named, show ts = [] from h]
    · cases h

/-- An error is no index, and no comma. -/
theorem readIndex_error (h : (readIndex ts).2 = []) : (readIndex (ts ++ [e])).2 = [e] := by
  rw [readIndex_eq] at h ⊢
  cases ts with
  | nil => simp [skipComma, indexName, isWord_of_error error, isParameter_of_error error]
  | cons t ts =>
    rw [skipComma_append (List.cons_ne_nil t ts)]
    exact indexName_error error h

/-- The header of a loop that is cut off. -/
theorem readLoop_of_cut (ok : (readLoop t (ts ++ us)).1.isFault = false) (cut : (readLoop t ts).1.isFault = true) :
    ts.all Token.isParameter = true ∧ ∃ fault, Directive.loop.lacks? ts = some fault
      ∧ (readLoop t (ts ++ [e])).1 = .fault (.invalid .loop fault t.location) := by
  cases ts with
  | nil => exact ⟨rfl, .itemMissing, rfl, by simp [readLoop, isParameter_of_error error]⟩
  | cons item more =>
    simp only [readLoop, List.cons_append] at ok cut ⊢
    split at ok
    · cases ok
    next present =>
    rw [if_neg present] at cut ⊢
    have parameter : item.isParameter = true := by
      rw [Bool.or_eq_true, not_or, Bool.not_eq_true', Bool.not_eq_false] at present
      exact present.1
    obtain ⟨taken, split, parameters⟩ := readIndex_split more
    cases found : (readIndex more).2 with
    | nil =>
      have behind := readIndex_error error found
      refine ⟨?_, .inMissing, by simp [Directive.lacks?, found], ?_⟩
      · rw [split, found, List.append_nil, List.all_cons, parameter, parameters]
        rfl
      generalize readIndex (more ++ [e]) = read at behind ⊢
      obtain ⟨index, rest⟩ := read
      simp only [show rest = [e] from behind, isWord_of_error error, Bool.not_false, if_true]
    | cons word after =>
      have some' : (readIndex more).2 ≠ [] := by simp [found]
      rw [readIndex_append some', found] at ok ⊢
      rw [found] at cut
      simp only [List.cons_append] at ok cut ⊢
      split at ok
      · cases ok
      next isIn =>
      rw [if_neg isIn] at cut ⊢
      cases after with
      | nil =>
        refine ⟨?_, .collectionMissing, by simp [Directive.lacks?, found], by simp [isParameter_of_error error]⟩
        rw [Bool.not_eq_true', Bool.not_eq_false] at isIn
        rw [split, found]
        simp [parameter, parameters, (Bool.and_eq_true_iff.1 isIn).1]
      | cons collection after =>
        simp only [List.cons_append] at ok cut
        split at ok
        · next parameter => rw [if_pos parameter] at cut; cases cut
        · cases ok

/-- A statement that is cut off reports what its header lacks, or the error if that is nothing. -/
theorem read_of_cut (ok : (read t (ts ++ us)).1.isFault = false) (cut : (read t ts).1.isFault = true) :
    (read t (ts ++ [e])).1 = .fault ((lacking? (t :: ts)).getD (.lex e.text e.location)) := by
  cases kind : t.kind with
  | error => simp [read, kind, isFault] at ok
  | text => simp [read, kind, isFault] at cut
  | parameter =>
    simp only [read, kind] at ok cut
    split at cut
    · cases cut
    · next other => rw [if_neg other] at ok; cases ok
  | function =>
    cases hd : Directive.ofKeyword? t.text with
    | none => simp [read, kind, hd, isFault] at cut
    | some d =>
      simp only [read, kind, hd] at ok cut ⊢
      cases d with
      | base | alternative | close => cases cut
      | inclusion | block =>
        obtain rfl := readNamed_of_cut (fun _ _ => rfl) ok cut
        rw [lacking?_cons_of_all rfl, lacks?_of_keyword kind hd]
        simp [readNamed, isParameter_of_error error, Directive.lacks?]
      | branch =>
        obtain rfl := readBranch_of_cut ok cut
        rw [lacking?_cons_of_all rfl, lacks?_of_keyword kind hd]
        simp [readBranch, error, Directive.lacks?]
      | loop =>
        obtain ⟨parameters, fault, lacks, same⟩ := readLoop_of_cut error ok cut
        rw [lacking?_cons_of_all parameters, lacks?_of_keyword kind hd, lacks, same]
        rfl

end Cut

end Statement

namespace Builder

variable {b b' : Builder} {e : Token} {ts us : List Token}

theorem run_statements_cons (b : Builder) (t : Token) (ts : List Token) :
    (b.run (statements (t :: ts))).2 = match b.step (Statement.read t ts).1 with
      | .ok b' => (b'.run (statements (Statement.read t ts).2)).2
      | .error e => some e := by
  rw [statements_cons]
  cases fault : (Statement.read t ts).1.isFault with
  | true =>
    rw [if_pos rfl, run]
    cases hs : (Statement.read t ts).1 with
    | fault e => rfl
    | _ => rw [hs] at fault; cases fault
  | false =>
    rw [if_neg Bool.false_ne_true, run]
    cases b.step (Statement.read t ts).1 <;> rfl

theorem run_error (error : e.kind = .error) (b : Builder) :
    (b.run (statements [e])).2 = some (.lex e.text e.location) := by
  rw [run_statements_cons]
  simp [Statement.read, error, step]

/-- Fewer arguments make no difference but for a base without any. -/
theorem step_of_gain {s : Statement} {arguments : List String} (h : b.step (s.gain arguments) = .ok b') :
    (s.baseMissing? = none ∧ ∃ b'', b.step s = .ok b'')
      ∨ ∃ fault, s.baseMissing? = some fault ∧ b.step s = .error fault := by
  cases s with
  | call c =>
    by_cases base : c.name = "extends"
    · simp only [Statement.gain, step, base, if_true, Statement.baseMissing?, true_and] at h ⊢
      simp only [extend] at h ⊢
      split at h
      · cases h
      next first =>
      rw [if_neg first]
      cases present : c.arguments with
      | nil => exact .inr ⟨_, if_pos rfl, rfl⟩
      | cons name others =>
        simp only [present, List.cons_append] at h
        split at h
        · cases h
        next named => exact .inl ⟨if_neg (List.cons_ne_nil _ _), _, by simp only [if_neg named]; rfl⟩
    · exact .inl ⟨if_neg fun h => base h.1, _, if_neg base⟩
  | openBranch condition l => exact .inl ⟨rfl, _, rfl⟩
  | fault e => cases h
  | _ => exact .inl ⟨rfl, b', h⟩

/-- **What an error behind tokens that can be continued is reported as.** -/
theorem run_fault (error : e.kind = .error) (h : (b.run (statements (ts ++ us))).2 = none) :
    (b.run (statements (ts ++ [e]))).2 = some ((lacking? ts).getD (.lex e.text e.location)) := by
  induction hn : ts.length using Nat.strongRecOn generalizing b ts with
  | _ n ih =>
    cases ts with
    | nil => exact run_error error b
    | cons t ts =>
      rw [List.cons_append, run_statements_cons] at h ⊢
      cases taken : b.step (Statement.read t (ts ++ us)).1 with
      | error fault => rw [taken] at h; cases h
      | ok b' =>
      rw [taken] at h
      cases cut : (Statement.read t ts).1.isFault with
      | true =>
        rw [Statement.read_of_cut error (isFault_of_step taken) cut]
        rfl
      | false =>
        by_cases more : (Statement.read t ts).1.takesArguments = false ∨ (Statement.read t ts).2 ≠ []
        · have shorter := Statement.read_length_le t ts
          rw [Statement.read_append cut more] at taken h ⊢
          rw [taken, Statement.lacking?_read cut more]
          exact ih _ (by simp only [List.length_cons] at hn; omega) h rfl
        · -- All tokens are taken as arguments, so that the error comes next, or the base is missing.
          rw [not_or, Bool.not_eq_false, not_not] at more
          obtain ⟨takes, all⟩ := more
          have none' : Statement.readArguments [e] = ([], [e]) := by
            simp [Statement.readArguments, Statement.isParameter_of_error error]
          rw [Statement.read_append_of_takes takes all] at taken
          rw [Statement.read_append_of_takes takes all, none', Statement.gain_nil,
            Statement.lacking?_of_takes takes all]
          rcases step_of_gain taken with ⟨named, b'', same⟩ | ⟨fault, missing, same⟩
          · rw [same, named]
            exact run_error error b''
          · rw [same, missing]
            rfl

end Builder

/-! ## Sources -/

/-- A fault that is met while the statements of a source are taken is the outcome of the source. -/
theorem parse_of_fault {source : String} {ts : List Token} {fault : ParseError} (scanned : scan source = ts)
    (h : (Builder.empty.run (statements ts)).2 = some fault) : Template.parse source = .error fault := by
  have outcome : (Template.ofTokens (scan source)).1 = .error fault := by
    simp only [Template.ofTokens, scanned, h]
  simp only [Template.parse, Template.parseTraced, outcome]
  rfl

/-- **An error of the scanner is reported**, unless what stands in front of it ends within a header that reports a
parameter as missing. A source with an error is not read in any case. -/
theorem parse_eq_lex_iff {source : String} {ts : List Token} {e : Token} (scanned : scan source = ts ++ [e])
    (error : e.kind = .error) :
    (∀ t, Template.parse source ≠ .ok t)
      ∧ ∀ us t, (Template.ofTokens (ts ++ us)).1 = .ok t →
        (Template.parse source = .error (.lex e.text e.location) ↔ lacking? ts = none)
          ∧ ∀ fault, lacking? ts = some fault → Template.parse source = .error fault := by
  refine ⟨fun t read => ?_, fun us t read => ?_⟩
  · have plain := (ofTokens_aligned (parse_eq_ok.1 read)).1 e
    rw [scanned] at plain
    exact plain (by simp) error
  · obtain ⟨b, run, -, -⟩ := ofTokens_eq_ok read
    have taken : (Builder.empty.run (statements (ts ++ us))).2 = none := by rw [run]
    rw [parse_of_fault scanned (Builder.run_fault error taken)]
    cases found : lacking? ts with
    | none => exact ⟨iff_of_true rfl rfl, nofun⟩
    | some fault =>
      refine ⟨⟨fun same => ?_, nofun⟩, fun _ same => congrArg Except.error (Option.some.inj same)⟩
      rw [Option.getD_some, Except.error.injEq] at same
      exact absurd (same ▸ found) lacking?_ne_lex

/-- An inclusion that is cut off before its name reports that the name is missing. -/
theorem parse_eq_lex_iff_include :
    Template.parse "\x7b\x7b include" = .error (.invalid .inclusion .nameMissing ⟨1, 4, 3⟩) := by
  have scanned : scan "\x7b\x7b include"
      = [⟨.function, "include", ⟨1, 4, 3⟩⟩] ++ [⟨.error, "Unfinished parameter at position 10", ⟨1, 11, 10⟩⟩] := by cbv
  have continued : (Template.ofTokens ([⟨.function, "include", ⟨1, 4, 3⟩⟩] ++ [⟨.parameter, "a", ⟨1, 12, 11⟩⟩])).1
      = .ok ⟨[.inclusion "a" ⟨1, 4, 3⟩], none, none, ["a"]⟩ := by cbv
  exact ((parse_eq_lex_iff scanned rfl).2 _ _ continued).2 _ (by decide)

end Stencil
