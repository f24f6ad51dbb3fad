import Stencil.Syntax.Parser

/-!
# Syntax without places

Tokens, statements and nodes with all locations set to the start of a text. The message of an error token names a place
as well, and is dropped.

* `statements_unlocated`: reading looks at kinds and texts only, so tokens that differ in their places are read as
  statements that differ in their places.
-/

namespace Stencil

/-! ## Forgetting places -/

def Token.unlocated (t : Token) : Token := ⟨t.kind, if t.kind = .error then "" else t.text, .origin⟩

def ParseError.unlocated : ParseError → ParseError
  | .lex _ _ => .lex "" .origin
  | .unboundEnd directive _ => .unboundEnd directive .origin
  | .unclosed directive _ => .unclosed directive .origin
  | .invalid directive fault _ => .invalid directive fault .origin
  | .unexpectedParameter value _ => .unexpectedParameter value .origin
  | .extendsNotFirst _ => .extendsNotFirst .origin
  | .contentOutsideBlock _ => .contentOutsideBlock .origin

def Call.unlocated (c : Call) : Call := { c with location := .origin }

def Condition.unlocated : Condition → Condition
  | .path p => .path p
  | .call c => .call c.unlocated

mutual

def Node.unlocated : Node → Node
  | .text content _ => .text content .origin
  | .value p _ => .value p .origin
  | .call c => .call c.unlocated
  | .branch condition body alternative _ =>
    .branch condition.unlocated (unlocatedAll body) (unlocatedOption alternative) .origin
  | .loop item index collection body _ => .loop item index collection (unlocatedAll body) .origin
  | .inclusion name _ => .inclusion name .origin
  | .block name body _ => .block name (unlocatedAll body) .origin

def unlocatedAll : List Node → List Node
  | [] => []
  | n :: ns => n.unlocated :: unlocatedAll ns

def unlocatedOption : Option (List Node) → Option (List Node)
  | none => none
  | some ns => some (unlocatedAll ns)

end

theorem unlocatedAll_eq_map (ns : List Node) : unlocatedAll ns = ns.map Node.unlocated := by
  induction ns with
  | nil => rfl
  | cons n ns ih => rw [unlocatedAll, ih, List.map_cons]

namespace Statement

def unlocated : Statement → Statement
  | text content _ => text content .origin
  | value p _ => value p .origin
  | call c => call c.unlocated
  | inclusion name _ => inclusion name .origin
  | openBranch condition _ => openBranch condition.unlocated .origin
  | openLoop item index collection _ => openLoop item index collection .origin
  | openBlock name _ => openBlock name .origin
  | alternative _ => alternative .origin
  | close _ => close .origin
  | fault e => fault e.unlocated

@[simp] theorem isFault_unlocated (s : Statement) : s.unlocated.isFault = s.isFault := by cases s <;> rfl

end Statement

/-! ## Reading without places -/

@[simp] theorem Token.kind_unlocated (t : Token) : t.unlocated.kind = t.kind := rfl

@[simp] theorem Token.location_unlocated (t : Token) : t.unlocated.location = .origin := rfl

@[simp] theorem Token.isParameter_unlocated (t : Token) : t.unlocated.isParameter = t.isParameter := rfl

theorem Token.text_unlocated {t : Token} (h : t.kind ≠ .error) : t.unlocated.text = t.text := by
  rw [unlocated, if_neg h]

theorem Token.kind_of_isParameter {t : Token} (h : t.isParameter = true) : t.kind = .parameter := by
  simpa [isParameter] using h

theorem Token.text_unlocated_of_isParameter {t : Token} (h : t.isParameter = true) : t.unlocated.text = t.text :=
  text_unlocated (by rw [kind_of_isParameter h]; decide)

namespace Statement

@[simp] theorem isWord_unlocated (word : String) (t : Token) : isWord word t.unlocated = isWord word t := by
  cases h : t.isParameter with
  | true => simp [isWord, Token.text_unlocated_of_isParameter h]
  | false => simp [isWord, h]

theorem readArguments_unlocated (ts : List Token) :
    readArguments (ts.map Token.unlocated) = ((readArguments ts).1, (readArguments ts).2.map Token.unlocated) := by
  induction ts with
  | nil => rfl
  | cons t ts ih =>
    cases h : t.isParameter with
    | true =>
      simp only [readArguments, Prod.mk.injEq] at ih ⊢
      simp only [List.map_cons, Token.isParameter_unlocated, h, List.takeWhile_cons_of_pos, List.dropWhile_cons_of_pos,
        List.filter_cons, Token.text_unlocated_of_isParameter h]
      refine ⟨?_, ih.2⟩
      split
      · rw [List.map_cons, List.map_cons, ih.1, Token.text_unlocated_of_isParameter h]
      · exact ih.1
    | false => simp [readArguments, h]

theorem readCall_unlocated {t : Token} (h : t.kind ≠ .error) (ts : List Token) :
    readCall t.unlocated (ts.map Token.unlocated)
      = ((readCall t ts).1.unlocated, (readCall t ts).2.map Token.unlocated) := by
  simp only [readCall, readArguments_unlocated, Token.text_unlocated h]
  rfl

theorem readNamed_unlocated (d : Directive) (make : String → Location → Statement)
    (hm : ∀ name l, (make name l).unlocated = make name .origin) (t : Token) (ts : List Token) :
    readNamed d make t.unlocated (ts.map Token.unlocated)
      = ((readNamed d make t ts).1.unlocated, (readNamed d make t ts).2.map Token.unlocated) := by
  cases ts with
  | nil => rfl
  | cons p ts =>
    cases h : p.isParameter with
    | true =>
      simp only [readNamed, List.map_cons, Token.isParameter_unlocated, h, Token.text_unlocated_of_isParameter h]
      by_cases hc : cleanArgument p.text = ""
      · simp [hc, unlocated, ParseError.unlocated]
      · simp [hc, hm]
    | false => simp [readNamed, h, unlocated, ParseError.unlocated]

theorem readBranch_unlocated (t : Token) (ts : List Token) :
    readBranch t.unlocated (ts.map Token.unlocated)
      = ((readBranch t ts).1.unlocated, (readBranch t ts).2.map Token.unlocated) := by
  cases ts with
  | nil => rfl
  | cons c ts =>
    cases h : c.kind with
    | text => simp [readBranch, h, unlocated, ParseError.unlocated]
    | error => simp [readBranch, h, unlocated, ParseError.unlocated, Token.unlocated]
    | parameter =>
      have hc : c.unlocated.text = c.text := Token.text_unlocated (by rw [h]; decide)
      simp [readBranch, h, hc, unlocated, Condition.unlocated]
    | function =>
      have notError : c.kind ≠ .error := by rw [h]; decide
      simp only [readBranch, List.map_cons, Token.kind_unlocated, h, Token.text_unlocated notError,
        readCall_unlocated notError]
      split <;> simp [unlocated, ParseError.unlocated, Condition.unlocated]

/-- The tokens behind a lone comma, if there is one. -/
def skipComma : List Token → List Token
  | [] => []
  | t :: ts => if isWord "," t then ts else t :: ts

/-- The name of an index, which is any parameter but the word `in`. -/
def indexName : List Token → Option String × List Token
  | [] => (none, [])
  | t :: ts => if t.isParameter && !isWord "in" t then (some (cleanArgument t.text), ts) else (none, t :: ts)

theorem readIndex_eq (ts : List Token) : readIndex ts = indexName (skipComma ts) := by
  cases ts with
  | nil => rfl
  | cons t ts =>
    by_cases h : isWord "," t = true
    · simp only [readIndex, skipComma, h, if_true]
      cases ts <;> rfl
    · simp only [readIndex, skipComma, h, if_false, Bool.false_eq_true, indexName]

theorem skipComma_unlocated (ts : List Token) :
    skipComma (ts.map Token.unlocated) = (skipComma ts).map Token.unlocated := by
  cases ts with
  | nil => rfl
  | cons t ts =>
    simp only [List.map_cons, skipComma, isWord_unlocated]
    split <;> rfl

theorem indexName_unlocated (ts : List Token) :
    indexName (ts.map Token.unlocated) = ((indexName ts).1, (indexName ts).2.map Token.unlocated) := by
  cases ts with
  | nil => rfl
  | cons t ts =>
    simp only [List.map_cons, indexName, isWord_unlocated, Token.isParameter_unlocated]
    split
    · next h =>
      rw [Bool.and_eq_true] at h
      rw [Token.text_unlocated_of_isParameter h.1]
    · rfl

theorem readIndex_unlocated (ts : List Token) :
    readIndex (ts.map Token.unlocated) = ((readIndex ts).1, (readIndex ts).2.map Token.unlocated) := by
  rw [readIndex_eq, readIndex_eq, skipComma_unlocated, indexName_unlocated]

theorem readLoop_unlocated (t : Token) (ts : List Token) :
    readLoop t.unlocated (ts.map Token.unlocated)
      = ((readLoop t ts).1.unlocated, (readLoop t ts).2.map Token.unlocated) := by
  cases ts with
  | nil => rfl
  | cons item ts =>
    cases h : item.isParameter with
    | false => simp [readLoop, h, unlocated, ParseError.unlocated]
    | true =>
      simp only [readLoop, List.map_cons, Token.isParameter_unlocated, h, Token.text_unlocated_of_isParameter h,
        readIndex_unlocated]
      split
      · rfl
      · rcases readIndex ts with ⟨index, _ | ⟨word, after⟩⟩
        · rfl
        · simp only [List.map_cons, isWord_unlocated]
          split
          · rfl
          · cases after with
            | nil => rfl
            | cons p after =>
              cases hp : p.isParameter with
              | true =>
                simp only [List.map_cons, Token.isParameter_unlocated, hp, Token.text_unlocated_of_isParameter hp,
                  if_true]
                rfl
              | false =>
                simp only [List.map_cons, Token.isParameter_unlocated, hp, Bool.false_eq_true, if_false]
                rfl

theorem read_unlocated (t : Token) (ts : List Token) :
    read t.unlocated (ts.map Token.unlocated) = ((read t ts).1.unlocated, (read t ts).2.map Token.unlocated) := by
  cases h : t.kind with
  | error => simp [read, h, unlocated, ParseError.unlocated, Token.unlocated]
  | text =>
    have ht : t.unlocated.text = t.text := Token.text_unlocated (by rw [h]; decide)
    simp [read, h, ht, unlocated]
  | parameter =>
    have ht : t.unlocated.text = t.text := Token.text_unlocated (by rw [h]; decide)
    simp only [read, Token.kind_unlocated, h, ht]
    split <;> rfl
  | function =>
    have notError : t.kind ≠ .error := by rw [h]; decide
    simp only [read, Token.kind_unlocated, h, Token.text_unlocated notError]
    cases Directive.ofKeyword? t.text with
    | none => simp only [readCall_unlocated notError, unlocated]
    | some d =>
      cases d with
      | branch => exact readBranch_unlocated t ts
      | alternative => rfl
      | close => rfl
      | loop => exact readLoop_unlocated t ts
      | inclusion => exact readNamed_unlocated .inclusion inclusion (fun _ _ => rfl) t ts
      | block => exact readNamed_unlocated .block openBlock (fun _ _ => rfl) t ts
      | base => simp only [readCall_unlocated notError, unlocated]

end Statement

theorem statements_cons (t : Token) (ts : List Token) :
    statements (t :: ts) = if (Statement.read t ts).1.isFault then [(Statement.read t ts).1]
      else (Statement.read t ts).1 :: statements (Statement.read t ts).2 := by
  rw [statements]

/-- Places do not count for reading. -/
theorem statements_unlocated (ts : List Token) :
    statements (ts.map Token.unlocated) = (statements ts).map Statement.unlocated := by
  induction h : ts.length using Nat.strongRecOn generalizing ts with
  | _ n ih =>
    cases ts with
    | nil => simp [statements]
    | cons t ts =>
      have shorter := Statement.read_length_le t ts
      simp only [List.length_cons] at h
      rw [List.map_cons, statements_cons, statements_cons, Statement.read_unlocated, Statement.isFault_unlocated]
      split
      · rfl
      · rw [List.map_cons, ih _ (by omega) _ rfl]

end Stencil
