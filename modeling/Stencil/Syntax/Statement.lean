import Stencil.Syntax.ParseError
import Stencil.Syntax.Template
import Stencil.Syntax.Token

/-!
# Statements

The tokens of a source are read in groups: a statement is a piece of text, a model path, or a directive with the
parameters that belong to it. Statements are still flat; nesting is built from them afterwards. A fault ends the list.

* `Statement.read_length_le`: a statement never gives tokens back.
-/

namespace Stencil

inductive Statement where
  | text (content : String) (location : Location)
  | value (path : Path) (location : Location)
  | call (call : Call)
  | inclusion (name : String) (location : Location)
  | openBranch (condition : Condition) (location : Location)
  | openLoop (item : String) (index : Option String) (collection : Path) (location : Location)
  | openBlock (name : String) (location : Location)
  | alternative (location : Location)
  | close (location : Location)
  | fault (error : ParseError)
  deriving DecidableEq, Repr

/-- A parameter without separators at its ends and without one layer of double quotes. -/
def cleanArgument (raw : String) : String :=
  let cs := Text.dropEnds (fun c => c == ',' || c == ' ') raw.toList
  String.ofList ((Text.unquote '"' cs).getD cs)

namespace Statement

def isWord (word : String) (t : Token) : Bool := t.isParameter && Text.trim t.text == word

/-- The arguments in front of a list of tokens, and the tokens behind them. A lone comma is no argument. -/
def readArguments (tokens : List Token) : List String × List Token :=
  (((tokens.takeWhile Token.isParameter).filter fun t => Text.trim t.text ≠ ",").map fun t => cleanArgument t.text,
    tokens.dropWhile Token.isParameter)

/-- A call of the function named by `name`. -/
def readCall (name : Token) (rest : List Token) : Call × List Token :=
  (⟨name.text, (readArguments rest).1, none, name.location⟩, (readArguments rest).2)

/-- A directive with one parameter, its name. -/
def readNamed (directive : Directive) (make : String → Location → Statement) (keyword : Token) (rest : List Token) :
    Statement × List Token :=
  let missing := fault (.invalid directive .nameMissing keyword.location)
  match rest with
  | [] => (missing, [])
  | t :: rest =>
    if !t.isParameter then (missing, t :: rest)
    else if cleanArgument t.text = "" then (missing, rest)
    else (make (cleanArgument t.text) keyword.location, rest)

/-- The condition of a branch: a parameter, or a call of a function that is no directive. -/
def readBranch (keyword : Token) (rest : List Token) : Statement × List Token :=
  let missing := fault (.invalid .branch .conditionMissing keyword.location)
  match rest with
  | [] => (missing, [])
  | t :: rest =>
    match t.kind with
    | .parameter => (openBranch (.path (.parse t.text)) keyword.location, rest)
    | .function =>
      if (Directive.ofKeyword? t.text).isSome then (missing, rest)
      else (openBranch (.call (readCall t rest).1) keyword.location, (readCall t rest).2)
    | .error => (fault (.lex t.text t.location), rest)
    | .text => (missing, rest)

/-- What follows the item of a loop: a lone comma, the name of the index, both or neither. -/
def readIndex (rest : List Token) : Option String × List Token :=
  let rest := match rest with
    | t :: more => if isWord "," t then more else t :: more
    | [] => []
  match rest with
  | t :: more => if t.isParameter && !isWord "in" t then (some (cleanArgument t.text), more) else (none, t :: more)
  | [] => (none, [])

/-- The header of a loop: item, optional index, the word `in`, and the path of the collection. -/
def readLoop (keyword : Token) (rest : List Token) : Statement × List Token :=
  let missing (f : HeaderFault) := fault (.invalid .loop f keyword.location)
  match rest with
  | [] => (missing .itemMissing, [])
  | item :: rest =>
    if !item.isParameter || cleanArgument item.text = "" then (missing .itemMissing, rest)
    else
      let (index, rest) := readIndex rest
      match rest with
      | [] => (missing .inMissing, [])
      | word :: rest =>
        if !isWord "in" word then (missing .inMissing, rest)
        else
          match rest with
          | [] => (missing .collectionMissing, [])
          | collection :: rest =>
            if collection.isParameter then
              (openLoop (cleanArgument item.text) index (.parse collection.text) keyword.location, rest)
            else (missing .collectionMissing, rest)

/-- The statement that begins with the token `t`, and the tokens behind it. -/
def read (t : Token) (rest : List Token) : Statement × List Token :=
  match t.kind with
  | .error => (fault (.lex t.text t.location), rest)
  | .text => (text t.text t.location, rest)
  | .parameter =>
    if (t.text.toList.dropWhile Text.isBlank).head? = some '.' then (value (.parse t.text) t.location, rest)
    else (fault (.unexpectedParameter t.text t.location), rest)
  | .function =>
    match Directive.ofKeyword? t.text with
    | some .branch => readBranch t rest
    | some .alternative => (alternative t.location, rest)
    | some .close => (close t.location, rest)
    | some .loop => readLoop t rest
    | some .inclusion => readNamed .inclusion inclusion t rest
    | some .block => readNamed .block openBlock t rest
    | some .base | none => (call (readCall t rest).1, (readCall t rest).2)

/-! ## Progress -/

theorem readCall_length_le (t : Token) (rest : List Token) : (readCall t rest).2.length ≤ rest.length :=
  (List.dropWhile_sublist _).length_le

theorem readNamed_length_le (d : Directive) (make : String → Location → Statement) (t : Token) (rest : List Token) :
    (readNamed d make t rest).2.length ≤ rest.length := by
  unfold readNamed
  repeat' split
  all_goals simp

theorem readBranch_length_le (t : Token) (rest : List Token) : (readBranch t rest).2.length ≤ rest.length := by
  unfold readBranch
  repeat' split
  all_goals try simp
  all_goals exact Nat.le_trans (readCall_length_le _ _) (Nat.le_succ _)

theorem readIndex_length_le (rest : List Token) : (readIndex rest).2.length ≤ rest.length := by
  unfold readIndex
  repeat' split
  all_goals simp_all
  all_goals grind

theorem readLoop_length_le (t : Token) (rest : List Token) : (readLoop t rest).2.length ≤ rest.length := by
  unfold readLoop
  split
  · simp
  next item rest =>
    have := readIndex_length_le rest
    generalize readIndex rest = found at this ⊢
    obtain ⟨index, after⟩ := found
    repeat' split
    all_goals simp_all
    all_goals omega

theorem read_length_le (t : Token) (rest : List Token) : (read t rest).2.length ≤ rest.length := by
  unfold read
  repeat' split
  all_goals first
    | exact Nat.le_refl _
    | exact readBranch_length_le t rest
    | exact readLoop_length_le t rest
    | exact readNamed_length_le _ _ t rest
    | exact readCall_length_le t rest

def isFault : Statement → Bool
  | fault _ => true
  | _ => false

end Statement

/-- The statements of a list of tokens, up to the first fault. -/
def statements : List Token → List Statement
  | [] => []
  | t :: rest =>
    let s := (Statement.read t rest).1
    if s.isFault then [s]
    else
      have := Statement.read_length_le t rest
      s :: statements (Statement.read t rest).2
termination_by tokens => tokens.length

end Stencil
