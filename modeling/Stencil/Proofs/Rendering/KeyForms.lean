import Stencil.Proofs.Rendering.PathExtension
import Stencil.Proofs.Syntax.PathPlaces
import Stencil.Proofs.Syntax.PathPieces

/-!
# Members and quoted keys

An entry of a map can be reached by a name behind a dot or by a quoted index in brackets. The two are cut from the path
and looked up in different ways, and agree if the key could be a name: both lead to the entry, also for a path that goes
on behind it.

* `walk_segments_parse`: empty pieces between dots lead nowhere else.
* `walk_index_concat`: one more index, from where the path leads without it.
* `KeyForm.walk_text`: where a path with a key behind it leads.
* `Scope.resolve_key_forms`: all forms of a key, and what is behind them, refer to the same.
-/

namespace Stencil

/-! ## Walks -/

section Walk

variable {index : String → Except Error (Option String)} {v : Value}

/-- A segment without a name and indexes stays where it is. -/
theorem walk_unnamed (segments : List Segment) : walk index v (⟨"", []⟩ :: segments) = walk index v segments := by
  rw [walk_cons]
  rfl

/-- Empty pieces between dots do not count, whether they are dropped or not. -/
theorem walk_filter (pieces : List (List Char)) :
    walk index v ((pieces.filter (· ≠ [])).map Segment.parse) = walk index v (pieces.map Segment.parse) := by
  induction pieces generalizing v with
  | nil => rfl
  | cons piece pieces ih =>
    by_cases empty : piece = []
    · subst empty
      rw [List.filter_cons_of_neg (by simp), List.map_cons, ih]
      exact (walk_unnamed _).symm
    · rw [List.filter_cons_of_pos (by simpa using empty), List.map_cons, List.map_cons, walk_cons, walk_cons]
      simp only [ih]

theorem walk_segments_parse (text : String) : walk index v (Path.parse text).segments
    = walk index v (Path.segmentsOf (Text.dropEnds Text.isBlank text.toList)) :=
  walk_filter _

theorem indexAll_append (name : String) (es es' : List String) : indexAll index name v (es ++ es')
    = thenIfSome (indexAll index name v es) fun w => indexAll index name w es' := by
  induction es generalizing v with
  | nil => rfl
  | cons e es ih =>
    rw [List.cons_append, indexAll_cons, indexAll_cons]
    split
    · rfl
    · simp only [ih, thenIfSome_assoc]

/-- One more index, from where the path leads without it. -/
theorem walk_index_concat (before : List Segment) (name : String) (indexes : List String) (e : String) :
    walk index v (before ++ [⟨name, indexes ++ [e]⟩])
      = thenIfSome (walk index v (before ++ [⟨name, indexes⟩])) fun w =>
          thenIfSome (indexAll index name w [e]) fun x => walk index x [] := by
  rw [walk_append, walk_append, thenIfSome_assoc]
  congr 1
  funext u
  rw [walk_cons, walk_cons]
  cases u.part? name with
  | none => rfl
  | some w =>
    simp only [indexAll_append, thenIfSome_assoc]
    congr 1
    funext x
    cases x <;> rfl

end Walk

/-! ## Keys -/

/-- A quoted text is an index as it is. -/
theorem IndexForm.parse_quoted {q : Char} (isQuote : q = '"' ∨ q = '\x27') (key : List Char) :
    IndexForm.parse (String.ofList (q :: (key ++ [q]))) = .literal (String.ofList key) := by
  have noBlank : Text.isBlank q = false := by rcases isQuote with rfl | rfl <;> decide
  have trimmed : Text.trim (String.ofList (q :: (key ++ [q]))) = String.ofList (q :: (key ++ [q])) := by
    rw [Text.trim, String.toList_ofList, Text.dropEnds_eq_self]
    · simpa using noBlank
    · simpa [List.getLast?_cons] using noBlank
  have unquoted : (Text.unquote '"' (q :: (key ++ [q]))).or (Text.unquote '\x27' (q :: (key ++ [q]))) = some key := by
    rcases isQuote with rfl | rfl
    · rw [Text.unquote_quoted]
      rfl
    · rw [Text.unquote_quoted]
      rfl
  simp only [IndexForm.parse, trimmed, String.toList_ofList, unquoted]

/-- A path text that is closed at its end. Quotes outside brackets would not open anything. -/
structure IsClosedText (p : String) : Prop where
  chars : ∀ c ∈ p.toList, Scanner.isKeyChar c = true
  closed : Bracketing.outside.after p.toList = .outside

/-- A key that could be a name, and is no position of a list. -/
structure IsNameKey (k : String) : Prop where
  ne_empty : k ≠ ""
  chars : ∀ c ∈ k.toList, Scanner.isNameChar c = true
  noDigit : ∀ c ∈ k.toList.head?, c.isDigit = false

namespace IsNameKey

variable {k : String}

theorem not_mem (h : IsNameKey k) {c : Char} (other : Scanner.isNameChar c = false) : c ∉ k.toList := by
  intro member
  rw [h.chars c member] at other
  cases other

theorem isKeyChar (h : IsNameKey k) : ∀ c ∈ k.toList, Scanner.isKeyChar c = true := by
  intro c hc
  simp [Scanner.isKeyChar, h.chars c hc]

/-- Such a key is looked up among the entries of a map. -/
theorem at?_map (h : IsNameKey k) (entries : List (String × Value)) (name : String) :
    Value.at? (.map entries) name k = .ok (entries.lookup k) := by
  have noPosition : ¬k.toList.head?.any Char.isDigit = true := by
    rw [Option.any_eq_true]
    rintro ⟨c, hc, digit⟩
    rw [h.noDigit c hc] at digit
    cases digit
  unfold Value.at?
  rw [if_neg noPosition]

/-- Such a key is a member of a map unless it is null there, from where no path leads on either. -/
theorem walk_member (h : IsNameKey k) {index : String → Except Error (Option String)}
    (entries : List (String × Value)) :
    walk index (.map entries) [⟨k, []⟩] = thenIfSome (.ok (entries.lookup k)) fun w => walk index w [] := by
  rw [walk_cons, Value.part?, if_neg h.ne_empty, Value.member?]
  rcases entries.lookup k with _ | w
  · rfl
  · by_cases null : w.isNull = true
    · rw [Value.isNull_eq_true_iff.1 null]
      rfl
    · rw [Option.filter_some, if_pos (by simpa using null)]
      rfl

end IsNameKey

/-- How a key stands behind a path. -/
inductive KeyForm where
  | doubleQuoted
  | singleQuoted
  | dotted

namespace KeyForm

/-- The path with a key behind it. -/
def text (path key : String) : KeyForm → String
  | doubleQuoted => path ++ "[\"" ++ key ++ "\"]"
  | singleQuoted => path ++ "['" ++ key ++ "']"
  | dotted => path ++ "." ++ key

variable {p k : String}

/-- A key in quotes or behind a dot. -/
theorem toList_text (p k : String) (form : KeyForm) :
    (∃ q, (q = '"' ∨ q = '\x27') ∧ (form.text p k).toList = p.toList ++ Path.quotedIndex q k.toList)
      ∨ (form.text p k).toList = p.toList ++ '.' :: k.toList := by
  cases form with
  | doubleQuoted => exact .inl ⟨'"', .inl rfl, by simp [text, Path.quotedIndex]⟩
  | singleQuoted => exact .inl ⟨'\x27', .inr rfl, by simp [text, Path.quotedIndex]⟩
  | dotted => exact .inr (by simp [text])

/-- With the key, the path is closed again. -/
theorem isClosedText (path : IsClosedText p) (key : IsNameKey k) (form : KeyForm) : IsClosedText (form.text p k) := by
  rcases toList_text p k form with ⟨q, isQuote, chars⟩ | chars
  · have noQuote : q ∉ k.toList := key.not_mem (by rcases isQuote with rfl | rfl <;> decide)
    have quote : Scanner.isKeyChar q = true := by rcases isQuote with rfl | rfl <;> decide
    refine ⟨fun c hc => ?_, ?_⟩
    · simp only [chars, Path.quotedIndex, List.mem_append, List.mem_cons, List.not_mem_nil, or_false] at hc
      rcases hc with hc | rfl | rfl | hc | rfl | rfl
      · exact path.chars c hc
      · decide
      · exact quote
      · exact key.isKeyChar c hc
      · exact quote
      · decide
    · rw [chars, Bracketing.after_append, path.closed, Path.after_quotedIndex isQuote noQuote]
  · refine ⟨fun c hc => ?_, ?_⟩
    · simp only [chars, List.mem_append, List.mem_cons] at hc
      rcases hc with hc | rfl | hc
      · exact path.chars c hc
      · decide
      · exact key.isKeyChar c hc
    · have noBracket : '[' ∉ '.' :: k.toList := by
        simpa using key.not_mem (show Scanner.isNameChar '[' = false by decide)
      rw [chars, Bracketing.after_append, path.closed, Bracketing.after_of_no_bracket noBracket]

/-- Where a path leads to a map, the path with a key behind it leads to the entry. -/
theorem walk_text {index : String → Except Error (Option String)} {v : Value} {entries : List (String × Value)}
    (path : IsClosedText p) (key : IsNameKey k)
    (literal : ∀ q, (q = '"' ∨ q = '\x27') → index (String.ofList (q :: (k.toList ++ [q]))) = .ok (some k))
    (found : walk index v (Path.segmentsOf p.toList) = .ok (some (.map entries))) (form : KeyForm) :
    walk index v (Path.segmentsOf (form.text p k).toList)
      = thenIfSome (.ok (entries.lookup k)) fun w => walk index w [] := by
  rcases toList_text p k form with ⟨q, isQuote, chars⟩ | chars
  · have noQuote : q ∉ k.toList := key.not_mem (by rcases isQuote with rfl | rfl <;> decide)
    obtain ⟨before, name, indexes, segments, segments'⟩ :=
      Path.segmentsOf_index path.closed isQuote noQuote (key.not_mem (by decide))
    rw [segments] at found
    rw [chars, segments', walk_index_concat, found]
    show thenIfSome (indexAll index name (.map entries) [_]) _ = _
    rw [indexAll_cons, literal q isQuote]
    show thenIfSome (thenIfSome (Value.at? (.map entries) name k) _) _ = _
    rw [key.at?_map, thenIfSome_assoc]
    rfl
  · have segments : Path.segmentsOf k.toList = [⟨String.ofList k.toList, []⟩] :=
      Path.segmentsOf_name (key.not_mem (by decide)) (key.not_mem (by decide))
    rw [chars, Path.segmentsOf_member path.closed, segments, walk_append, found, String.ofList_toList]
    exact key.walk_member entries

end KeyForm

namespace Scope

variable {model : Value} {p k : String} {entries : List (String × Value)}

/-- A closed path text is cut into segments as it is. -/
theorem resolve_parse (path : IsClosedText p) : resolve ⟨model, .empty⟩ (.parse p)
    = (walk (index ⟨model, .empty⟩) model (Path.segmentsOf p.toList)).map fun v => v.getD .null := by
  rw [resolve_unbound, walk_segments_parse, Text.dropEnds_of_forall fun c hc => isBlank_of_isKeyChar (path.chars c hc)]

/-- What is behind a closed path text is followed from where that leads. -/
theorem resolve_parse_dot (path : IsClosedText p) (q : String) : resolve ⟨model, .empty⟩ (.parse (p ++ "." ++ q))
    = (thenIfSome (walk (index ⟨model, .empty⟩) model (Path.segmentsOf p.toList)) fun w =>
        walk (index ⟨model, .empty⟩) w (Path.segmentsOf (Text.dropEnd Text.isBlank q.toList))).map fun v =>
          v.getD .null := by
  have chars : (p ++ "." ++ q).toList = p.toList ++ '.' :: q.toList := by simp
  rw [resolve_unbound, walk_segments_parse, chars,
    Path.dropEnds_append_dot fun c hc => isBlank_of_isKeyChar (path.chars c hc), Path.segmentsOf_member path.closed,
    walk_append]

/-- **Quoted keys and members agree.** Where a path refers to a map, a key behind it that could be a name refers to its
entry, or to null if there is none, in quotes as well as behind a dot; and what follows behind a further dot, with all
its index expressions, refers to the same value or is the same error. -/
theorem resolve_key_forms (path : IsClosedText p) (key : IsNameKey k)
    (found : resolve ⟨model, .empty⟩ (.parse p) = .ok (.map entries)) (form : KeyForm) :
    resolve ⟨model, .empty⟩ (.parse (form.text p k)) = .ok ((entries.lookup k).getD .null)
      ∧ ∀ (other : KeyForm) (q : String), resolve ⟨model, .empty⟩ (.parse (form.text p k ++ "." ++ q))
        = resolve ⟨model, .empty⟩ (.parse (other.text p k ++ "." ++ q)) := by
  have literal : ∀ q, (q = '"' ∨ q = '\x27') →
      index ⟨model, .empty⟩ (String.ofList (q :: (k.toList ++ [q]))) = .ok (some k) := by
    intro q isQuote
    rw [index_eq, IndexForm.parse_quoted isQuote, String.ofList_toList]
  have leads : walk (index ⟨model, .empty⟩) model (Path.segmentsOf p.toList) = .ok (some (.map entries)) := by
    rw [resolve_parse path] at found
    generalize walk (index ⟨model, .empty⟩) model (Path.segmentsOf p.toList) = came at found ⊢
    rcases came with e | _ | w
    · cases found
    · cases found
    · obtain rfl : w = .map entries := Except.ok.inj found
      rfl
  have entry := KeyForm.walk_text path key literal leads
  refine ⟨?_, fun other q => ?_⟩
  · rw [resolve_parse (form.isClosedText path key), entry]
    rcases entries.lookup k with _ | w
    · rfl
    · by_cases null : w.isNull = true
      · rw [Value.isNull_eq_true_iff.1 null]
        rfl
      · show (walk (index ⟨model, .empty⟩) w []).map _ = _
        rw [walk, if_neg null]
        rfl
  · rw [resolve_parse_dot (form.isClosedText path key), resolve_parse_dot (other.isClosedText path key), entry, entry]

/-- An entry behind an index that is a path, and what it holds. -/
theorem resolve_key_forms_rows :
    let model := Value.map [("key", .string "b"), ("rows", .map [("b", .map [("sum_1", .map [("x", .bool true)])])])]
    resolve ⟨model, .empty⟩ (.parse ".rows[.key]['sum_1']") = .ok (.map [("x", .bool true)])
      ∧ resolve ⟨model, .empty⟩ (.parse ".rows[.key][\"sum_1\"].x")
        = resolve ⟨model, .empty⟩ (.parse ".rows[.key].sum_1.x")
      ∧ resolve ⟨model, .empty⟩ (.parse ".rows[.key].sum_1.x") = .ok (.bool true) := by
  intro model
  have path : IsClosedText ".rows[.key]" := ⟨List.all_eq_true.1 (by decide), by decide⟩
  have key : IsNameKey "sum_1" := ⟨by decide, List.all_eq_true.1 (by decide), by simp⟩
  have found : resolve ⟨model, .empty⟩ (.parse ".rows[.key]") = .ok (.map [("sum_1", .map [("x", .bool true)])]) := by
    cbv
  have quoted := resolve_key_forms path key found .singleQuoted
  have both := (resolve_key_forms path key found .doubleQuoted).2 .dotted "x"
  exact ⟨quoted.1, both, by cbv⟩

end Scope

end Stencil
