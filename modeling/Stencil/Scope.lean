import Stencil.Error
import Stencil.NameMap
import Stencil.Syntax.Path
import Stencil.Text.Alphabetic
import Stencil.Value

/-!
# What a path refers to

A path is looked up in the model first. Only if it leads to nothing there, its first name is looked up among the
bindings of loops and the rest of the path in what is bound. A path that leads nowhere refers to null; indexing
something of the wrong kind is an error.

An index expression is a literal, quoted or not, or a path again, whose text is then the index.

* `index_eq`: looking up an index expression is looking up the path that it is. The text of an index expression is
  shorter than the path that holds it, so that the lookup ends.
-/

namespace Stencil

/-- What an index expression is. -/
inductive IndexForm where
  | literal (text : String)
  | path (path : Path)
  deriving DecidableEq, Repr

/-- A text in quotes is a literal, a text that starts with a point or a letter is a path, and any other text is a
literal. -/
def IndexForm.parse (expression : String) : IndexForm :=
  let text := Text.trim expression
  match (Text.unquote '"' text.toList).or (Text.unquote '\x27' text.toList) with
  | some inner => .literal (String.ofList inner)
  | none =>
    if text.toList.head?.any (fun c => c = '.' ∨ Text.isAlphabetic c) then .path (Path.parse text) else .literal text

namespace Value

/-- The part of a value that a segment names. The empty name refers to the value itself; null is no part. -/
def part? (v : Value) (name : String) : Option Value :=
  if name = "" then some v else (v.member? name).filter fun w => !w.isNull

/-- The part of a value at an index. An index that starts with a digit is a position in a list, any other index is a key
of a map. `name` is how the value was reached. -/
def at? (v : Value) (name index : String) : Except Error (Option Value) :=
  if index.toList.head?.any Char.isDigit then
    match Decimal.readNat64 index.toList, v with
    | .error _, _ => .error (.invalidIndex name index)
    | .ok position, .array items => .ok items[position]?
    | .ok _, _ => .error (.notAList name index)
  else
    match v with
    | .map entries => .ok (entries.lookup index)
    | _ => .error (.notADictionary name index)

end Value

/-! ## Walking -/

section Walk

variable (index : String → Except Error (Option String))

/-- Applies index expressions one after the other. Null has no parts, and there is nothing at an index that is null. -/
def indexAll (name : String) (v : Value) : List String → Except Error (Option Value)
  | [] => .ok (some v)
  | expression :: rest =>
    if v.isNull then .ok none
    else do
      let some key ← index expression | return none
      let some w ← v.at? name key | return none
      indexAll name w rest

/-- Follows segments from a value. -/
def walk (v : Value) : List Segment → Except Error (Option Value)
  | [] => .ok (if v.isNull then none else some v)
  | s :: rest =>
    match v.part? s.name with
    | none => .ok none
    | some w => do
      let some x ← indexAll index s.name w s.indexes | return none
      walk x rest

end Walk

/-- A model and the bindings of the loops around a place. -/
structure Scope where
  model : Value
  scratch : NameMap Value

namespace Scope

/-- What the segments of a path lead to among the bindings. -/
def walkScratch (s : Scope) (index : String → Except Error (Option String)) :
    List Segment → Except Error (Option Value)
  | [] => .ok none
  | first :: rest =>
    match s.scratch.get? first.name with
    | none => .ok none
    | some bound => do
      let some head ← indexAll index first.name bound first.indexes | return none
      walk index head rest

/-- What a path refers to, given what its index expressions are. -/
def resolveWith (s : Scope) (index : String → Except Error (Option String)) (p : Path) : Except Error Value :=
  if p.isRoot then .ok s.model
  else do
    match ← walk index s.model p.segments with
    | some v => return v
    | none => return (← s.walkScratch index p.segments).getD .null

/-- The index that an expression stands for; nothing if it refers to null. -/
def index (s : Scope) (expression : String) : Except Error (Option String) :=
  match IndexForm.parse expression with
  | .literal text => .ok (some text)
  | .path p => do
    let inner (e : String) : Except Error (Option String) :=
      if _h : e.length < expression.length then s.index e else .ok none
    let v ← s.resolveWith inner p
    return if v.isNull then none else some v.text
termination_by expression.length

/-- What a path refers to. -/
def resolve (s : Scope) (p : Path) : Except Error Value := s.resolveWith s.index p

/-- What the text of an argument stands for: a path if it starts with a point, or else itself. -/
def argument (s : Scope) (text : String) : Except Error Value :=
  if text.toList.head? = some '.' then s.resolve (Path.parse text) else .ok (.string text)

end Scope

/-! ## Index expressions are looked up as paths -/

section Congruence

variable {f g : String → Except Error (Option String)}

theorem indexAll_congr (name : String) (v : Value) {es : List String} (h : ∀ e ∈ es, f e = g e) :
    indexAll f name v es = indexAll g name v es := by
  induction es generalizing v with
  | nil => rfl
  | cons e es ih =>
    simp only [indexAll, h e (by simp)]
    have rest (w : Value) : indexAll f name w es = indexAll g name w es := ih w fun e' he => h e' (by simp [he])
    simp only [rest]

theorem walk_congr (v : Value) {segments : List Segment} (h : ∀ s ∈ segments, ∀ e ∈ s.indexes, f e = g e) :
    walk f v segments = walk g v segments := by
  induction segments generalizing v with
  | nil => rfl
  | cons s rest ih =>
    have first (w : Value) : indexAll f s.name w s.indexes = indexAll g s.name w s.indexes :=
      indexAll_congr s.name w (h s (by simp))
    have later (w : Value) : walk f w rest = walk g w rest := ih w fun s' hs => h s' (by simp [hs])
    simp only [walk, first, later]

theorem Scope.resolveWith_congr (s : Scope) {p : Path} (h : ∀ t ∈ p.segments, ∀ e ∈ t.indexes, f e = g e) :
    s.resolveWith f p = s.resolveWith g p := by
  have scratch : s.walkScratch f p.segments = s.walkScratch g p.segments := by
    cases hp : p.segments with
    | nil => rfl
    | cons first rest =>
      rw [hp] at h
      have head (w : Value) : indexAll f first.name w first.indexes = indexAll g first.name w first.indexes :=
        indexAll_congr first.name w (h first (by simp))
      have later (w : Value) : walk f w rest = walk g w rest := walk_congr w fun t ht => h t (by simp [ht])
      simp only [walkScratch, head, later]
  simp only [resolveWith, walk_congr s.model h, scratch]

end Congruence

theorem Path.le_sum_of_mem {n : Nat} {ns : List Nat} (h : n ∈ ns) : n ≤ ns.sum := by
  induction ns with
  | nil => simp at h
  | cons m ms ih =>
    rw [List.sum_cons]
    rcases List.mem_cons.1 h with rfl | h
    · omega
    · exact Nat.le_trans (ih h) (by omega)

theorem Path.length_le_weight {segments : List Segment} {s : Segment} {e : String} (hs : s ∈ segments)
    (he : e ∈ s.indexes) : e.length ≤ Path.weight segments := by
  have inner : e.length ≤ (s.indexes.map String.length).sum :=
    le_sum_of_mem (List.mem_map_of_mem he)
  have outer : (s.indexes.map String.length).sum ≤ Path.weight segments :=
    le_sum_of_mem (List.mem_map_of_mem (f := fun s : Segment => (s.indexes.map String.length).sum) hs)
  omega

/-- The index expressions of a path are shorter than its text. -/
theorem Path.length_lt_of_mem {text : String} {s : Segment} (hs : s ∈ (parse text).segments) {e : String}
    (he : e ∈ s.indexes) : e.length < (parse text).text.length := by
  have lighter := length_le_weight hs he
  by_cases blank : (parse text).text = ""
  · rw [segments_of_text_eq blank] at hs
    cases hs
  · have := weight_parse_lt text blank
    omega

namespace IndexForm

variable {expression : String} {p : Path}

/-- A path in an index expression is the path of its trimmed text. -/
theorem eq_parse (h : parse expression = .path p) :
    p = Path.parse (Text.trim expression) ∧ p.text.length ≤ expression.length := by
  have same : p = Path.parse (Text.trim expression) := by
    simp only [parse] at h
    split at h
    · cases h
    · split at h
      · simp only [path.injEq] at h
        exact h.symm
      · cases h
  have trimmed := Text.length_trim_le expression
  have kept := Path.length_parse_le (Text.trim expression)
  refine ⟨same, ?_⟩
  rw [same]
  omega

theorem length_lt (h : parse expression = .path p) {s : Segment} {e : String} (hs : s ∈ p.segments)
    (he : e ∈ s.indexes) : e.length < expression.length := by
  obtain ⟨rfl, shorter⟩ := eq_parse h
  have := Path.length_lt_of_mem hs he
  omega

end IndexForm

/-- Looking up an index expression that is a path is looking up this path. -/
theorem Scope.index_eq (s : Scope) (expression : String) :
    s.index expression = match IndexForm.parse expression with
      | .literal text => .ok (some text)
      | .path p => (s.resolve p).map fun v => if v.isNull then none else some v.text := by
  rw [Scope.index]
  split
  · rfl
  · next p hp =>
    have : s.resolveWith (fun e => if _h : e.length < expression.length then s.index e else .ok none) p
        = s.resolve p := by
      apply Scope.resolveWith_congr
      intro t ht e he
      simp [IndexForm.length_lt hp ht he]
    simp only [this]
    cases s.resolve p <;> rfl

end Stencil
