import Stencil.Coercion
import Stencil.Proofs.Rendering.Shadowing

/-!
# Paths behind paths

Where there are no bindings, a path that goes on is looked up in what its first part refers to, as far as the index
expressions behind that part are literals: paths within them would be looked up in another model.

Null has no parts and nothing is indexed in it, so that a path which has come to null stays there, whatever its further
index expressions are.

* `walk_append`: segments behind other ones, from any value and for all index expressions.
* `Scope.resolve_append`: the path of both parts, with the values and the errors of either.
-/

namespace Stencil

/-! ## Literals -/

namespace Text

variable {quote : Char} {cs inner : List Char}

theorem unquote_quoted : unquote quote (quote :: (inner ++ [quote])) = some inner := by
  simp [unquote]

/-- Only a text in quotes can be taken out of them. -/
theorem eq_quoted_of_unquote (h : unquote quote cs = some inner) : cs = quote :: (inner ++ [quote]) := by
  unfold unquote at h
  split at h
  · cases h
  next c rest =>
  split at h
  · next first =>
    split at h
    · next d hd =>
      split at h
      · next last =>
        cases h
        rw [first, ← last, List.dropLast_append_getLast? d hd]
      · cases h
    · cases h
  · cases h

end Text

namespace IndexForm

/-- Whether an index expression is in quotes, or starts neither with a point nor with a letter. Blanks around it do not
count. -/
def IsLiteral (expression : String) : Prop :=
  let cs := (Text.trim expression).toList
  (∃ quote inner, (quote = '"' ∨ quote = '\x27') ∧ cs = quote :: (inner ++ [quote]))
    ∨ ∀ c ∈ cs.head?, c ≠ '.' ∧ Text.isAlphabetic c = false

/-- These are the expressions that are not looked up as paths. -/
theorem isLiteral_iff {expression : String} :
    IsLiteral expression ↔ ∃ text, IndexForm.parse expression = .literal text := by
  unfold IsLiteral IndexForm.parse
  simp only
  generalize Text.trim expression = trimmed
  cases quoted : (Text.unquote '"' trimmed.toList).or (Text.unquote '\x27' trimmed.toList) with
  | some inner =>
    refine ⟨fun _ => ⟨_, rfl⟩, fun _ => .inl ?_⟩
    rcases Option.or_eq_some_iff.1 quoted with h | ⟨-, h⟩
    · exact ⟨_, inner, .inl rfl, Text.eq_quoted_of_unquote h⟩
    · exact ⟨_, inner, .inr rfl, Text.eq_quoted_of_unquote h⟩
  | none =>
    have bare : ¬∃ quote inner, (quote = '"' ∨ quote = '\x27') ∧ trimmed.toList = quote :: (inner ++ [quote]) := by
      rintro ⟨quote, inner, rfl | rfl, h⟩ <;> simp [h, Text.unquote_quoted] at quoted
    simp only [bare, false_or]
    cases trimmed.toList.head? with
    | none => simp
    | some c =>
      simp only [Option.mem_some_iff, forall_eq', Option.any_some, decide_eq_true_eq]
      constructor
      · rintro ⟨noPoint, noLetter⟩
        exact ⟨trimmed, if_neg (by simp [noPoint, noLetter])⟩
      · rintro ⟨text, parsed⟩
        split at parsed
        · cases parsed
        · next noPath => simpa using noPath

end IndexForm

/-- A literal stands for the same index in every scope. -/
theorem Scope.index_of_isLiteral {expression : String} (literal : IndexForm.IsLiteral expression) (s s' : Scope) :
    s.index expression = s'.index expression := by
  obtain ⟨text, parsed⟩ := IndexForm.isLiteral_iff.1 literal
  rw [index_eq, index_eq, parsed]

/-! ## Walks -/

section Walk

variable {index : String → Except Error (Option String)} {v : Value}

theorem thenIfSome_assoc {α β γ : Type} (x : Except Error (Option α)) (f : α → Except Error (Option β))
    (g : β → Except Error (Option γ)) : thenIfSome (thenIfSome x f) g = thenIfSome x fun a => thenIfSome (f a) g := by
  rcases x with _ | _ | a <;> rfl

/-- Null has no parts, and its index expressions are not looked at. -/
theorem walk_null (segments : List Segment) : walk index .null segments = .ok none := by
  induction segments with
  | nil => rfl
  | cons s rest ih =>
    rw [walk_cons]
    by_cases unnamed : s.name = ""
    · have part : Value.part? .null s.name = some .null := by simp [Value.part?, unnamed]
      rw [part]
      cases hs : s.indexes with
      | nil => exact ih
      | cons e es => rfl
    · have part : Value.part? .null s.name = none := by simp [Value.part?, Value.member?, unnamed]
      rw [part]

/-- Segments behind other ones are followed from where these lead. -/
theorem walk_append (before after : List Segment) :
    walk index v (before ++ after) = thenIfSome (walk index v before) fun w => walk index w after := by
  induction before generalizing v with
  | nil =>
    by_cases null : v.isNull = true
    · rw [Value.isNull_eq_true_iff.1 null]
      exact walk_null after
    · rw [walk, if_neg null]
      rfl
  | cons s rest ih =>
    rw [List.cons_append, walk_cons, walk_cons]
    cases v.part? s.name with
    | none => rfl
    | some w =>
      simp only [ih]
      exact (thenIfSome_assoc _ _ _).symm

end Walk

/-! ## Paths -/

namespace Scope

variable {model : Value} {p q : Path}

/-- Without bindings, a path leads where its segments do, and to null if they lead nowhere. -/
theorem resolve_unbound : resolve ⟨model, .empty⟩ p
    = (walk (index ⟨model, .empty⟩) model p.segments).map fun v => v.getD .null := by
  unfold resolve resolveWith
  by_cases root : p.isRoot = true
  · rw [if_pos root]
    rw [Path.isRoot, List.isEmpty_iff] at root
    rw [root, walk]
    by_cases null : model.isNull = true
    · rw [if_pos null, Value.isNull_eq_true_iff.1 null]
      rfl
    · rw [if_neg null]
      rfl
  · rw [if_neg root]
    have fallback : walkScratch ⟨model, .empty⟩ (index ⟨model, .empty⟩) p.segments = .ok none := by
      cases p.segments <;> rfl
    rw [fallback]
    rcases walk (index ⟨model, .empty⟩) model p.segments with _ | _ | v <;> rfl

/-- **Paths compose.** A path goes on from what its first part refers to; an error of that part is the error of the
path. Behind null there is null, also where index expressions would be errors elsewhere. -/
theorem resolve_append (model : Value) (p : Path) :
    (∀ (q : Path) (text : String), (∀ s ∈ q.segments, ∀ e ∈ s.indexes, IndexForm.IsLiteral e) →
      resolve ⟨model, .empty⟩ ⟨text, p.segments ++ q.segments⟩
        = resolve ⟨model, .empty⟩ p >>= fun v => resolve ⟨v, .empty⟩ q)
    ∧ ∀ (q : Path) (text : String), resolve ⟨model, .empty⟩ p = .ok .null →
      resolve ⟨model, .empty⟩ ⟨text, p.segments ++ q.segments⟩ = .ok .null := by
  refine ⟨fun q text literal => ?_, fun q text null => ?_⟩
  · rw [resolve_unbound, resolve_unbound, walk_append]
    rcases walk (index ⟨model, .empty⟩) model p.segments with e | _ | w
    · rfl
    · show _ = resolve ⟨.null, .empty⟩ q
      rw [resolve_unbound, walk_null]
      rfl
    · show (walk (index ⟨model, .empty⟩) w q.segments).map _ = resolve ⟨w, .empty⟩ q
      rw [resolve_unbound, walk_congr w fun s hs e he => index_of_isLiteral (literal s hs e he) _ _]
  · rw [resolve_unbound] at null ⊢
    rw [walk_append]
    generalize walk (index ⟨model, .empty⟩) model p.segments = came at null ⊢
    rcases came with e | _ | w
    · cases null
    · rfl
    · obtain rfl : w = .null := Except.ok.inj null
      show (walk (index ⟨model, .empty⟩) .null q.segments).map _ = _
      rw [walk_null]
      rfl

/-- Behind an index that is a path there are literals, and behind a missing entry an index that is no number. -/
theorem resolve_append_rows :
    let row := Value.map [("x", .array [.bool true])]
    let model := Value.map [("key", .string "b"), ("rows", .map [("b", row)])]
    let cell := Path.parse ".[\"x\"]['y']"
    (∀ s ∈ cell.segments, ∀ e ∈ s.indexes, IndexForm.IsLiteral e)
      ∧ resolve ⟨model, .empty⟩ (Path.parse ".rows[.key]") = .ok row
      ∧ resolve ⟨model, .empty⟩ ⟨".rows[.key].[\"x\"]['y']", (Path.parse ".rows[.key]").segments ++ cell.segments⟩
        = .error (.notADictionary "" "y")
      ∧ resolve ⟨model, .empty⟩ (Path.parse ".rows.c") = .ok .null
      ∧ resolve ⟨model, .empty⟩ ⟨".rows.c.[1x]", (Path.parse ".rows.c").segments ++ (Path.parse ".[1x]").segments⟩
        = .ok .null := by
  intro row model cell
  have segments : cell.segments = [⟨"", ["\"x\"", "'y'"]⟩] := by cbv
  have double : IndexForm.parse "\"x\"" = .literal "x" := by cbv
  have single : IndexForm.parse "'y'" = .literal "y" := by cbv
  have literal : ∀ s ∈ cell.segments, ∀ e ∈ s.indexes, IndexForm.IsLiteral e := by
    simpa [segments] using And.intro (IndexForm.isLiteral_iff.2 ⟨_, double⟩) (IndexForm.isLiteral_iff.2 ⟨_, single⟩)
  have found : resolve ⟨model, .empty⟩ (Path.parse ".rows[.key]") = .ok row := by
    have key : index ⟨model, .empty⟩ ".key" = .ok (some "b") := by
      rw [index_eq, show IndexForm.parse ".key" = .path (Path.parse ".key") by decide]
      rfl
    have rows : (Path.parse ".rows[.key]").segments = [⟨"rows", [".key"]⟩] := by cbv
    rw [resolve_unbound, rows, walk_cons]
    show (thenIfSome (indexAll _ "rows" (.map [("b", row)]) [".key"]) _).map _ = _
    rw [indexAll_cons, key]
    rfl
  have fails : resolve ⟨row, .empty⟩ cell = .error (.notADictionary "" "y") := by
    have x : index ⟨row, .empty⟩ "\"x\"" = .ok (some "x") := by rw [index_eq, double]
    have y : index ⟨row, .empty⟩ "'y'" = .ok (some "y") := by rw [index_eq, single]
    rw [resolve_unbound, segments, walk_cons]
    show (thenIfSome (indexAll _ "" row ["\"x\"", "'y'"]) _).map _ = _
    rw [indexAll_cons, x]
    show (thenIfSome (indexAll _ "" (.array [.bool true]) ["'y'"]) _).map _ = _
    rw [indexAll_cons, y]
    rfl
  have missing : resolve ⟨model, .empty⟩ (Path.parse ".rows.c") = .ok .null := by cbv
  refine ⟨literal, found, ?_, missing, (resolve_append model _).2 _ _ missing⟩
  rw [(resolve_append model _).1 _ _ literal, found]
  exact fails

end Scope

end Stencil
