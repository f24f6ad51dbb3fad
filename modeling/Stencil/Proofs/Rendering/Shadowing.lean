import Mathlib
import Stencil.Scope

/-!
# Bindings do not shadow the model

The bindings of loops are asked only where the model has nothing, and this holds of the paths within index expressions
as well. So what a path refers to without any bindings, it refers to under all bindings, unless that is null.

A path within an index expression is shorter than the path around it. A lookup that follows index expressions only to a
given depth (`indexWithin`) is therefore the lookup itself, if the depth is the length of the path.

* `resolve_unshadowed`: the same value or error under all bindings; index expressions shorter than the path that holds
  them; no lookup deeper than the path is long.
-/

namespace Stencil

/-! ## Walks -/

section Walk

variable {f g : String → Except Error (Option String)}

/-- The second of two steps, where the first one leads somewhere. -/
def thenIfSome {α β : Type} (x : Except Error (Option α)) (k : α → Except Error (Option β)) :
    Except Error (Option β) := do
  let some a ← x | return none
  k a

/-- Two steps that lead somewhere, or to an error: the first one does, and the second one if the first one leads on. -/
theorem thenIfSome_of_found {α β : Type} {x x' : Except Error (Option α)} {k k' : α → Except Error (Option β)}
    (first : x ≠ .ok none → x' = x) (rest : ∀ a, k a ≠ .ok none → k' a = k a)
    (found : thenIfSome x k ≠ .ok none) : thenIfSome x' k' = thenIfSome x k := by
  have leads : x ≠ .ok none := by
    intro nowhere
    rw [nowhere] at found
    exact found rfl
  rw [first leads]
  cases x with
  | error e => rfl
  | ok a =>
    cases a with
    | none => rfl
    | some a => exact rest a found

variable {name : String} {v : Value}

theorem indexAll_cons (e : String) (es : List String) : indexAll f name v (e :: es)
    = if v.isNull then .ok none
      else thenIfSome (f e) fun key => thenIfSome (v.at? name key) fun w => indexAll f name w es := by
  rw [indexAll]
  rcases f e with _ | _ | key
  · rfl
  · rfl
  show (if v.isNull then .ok none else v.at? name key >>= _) = (if v.isNull then .ok none else v.at? name key >>= _)
  rcases v.at? name key with _ | _ | w <;> rfl

theorem walk_cons (s : Segment) (rest : List Segment) : walk f v (s :: rest)
    = match v.part? s.name with
      | none => .ok none
      | some w => thenIfSome (indexAll f s.name w s.indexes) fun x => walk f x rest := by
  rw [walk]
  cases v.part? s.name with
  | none => rfl
  | some w => rcases hx : indexAll f s.name w s.indexes with _ | _ | x <;> simp only [hx] <;> rfl

theorem Scope.walkScratch_cons (s : Scope) (first : Segment) (rest : List Segment) :
    s.walkScratch f (first :: rest) = match s.scratch.get? first.name with
      | none => .ok none
      | some bound => thenIfSome (indexAll f first.name bound first.indexes) fun head => walk f head rest := by
  rw [walkScratch]
  cases s.scratch.get? first.name with
  | none => rfl
  | some bound => rcases hx : indexAll f first.name bound first.indexes with _ | _ | head <;> simp only [hx] <;> rfl

/-- Index expressions one after the other, if they lead somewhere, depend only on those that do. -/
theorem indexAll_of_found {es : List String} (same : ∀ e ∈ es, f e ≠ .ok none → g e = f e)
    (found : indexAll f name v es ≠ .ok none) : indexAll g name v es = indexAll f name v es := by
  induction es generalizing v with
  | nil => rfl
  | cons e es ih =>
    rw [indexAll_cons] at found
    rw [indexAll_cons, indexAll_cons]
    by_cases null : v.isNull = true
    · simp only [null, if_true]
    · simp only [null, Bool.false_eq_true, if_false] at found ⊢
      apply thenIfSome_of_found (same e List.mem_cons_self) _ found
      intro key found
      apply thenIfSome_of_found (fun _ => rfl) _ found
      intro w found
      exact ih (fun x hx => same x (List.mem_cons_of_mem e hx)) found

/-- Segments, if they lead somewhere, depend only on index expressions that do. -/
theorem walk_of_found {segments : List Segment}
    (same : ∀ s ∈ segments, ∀ e ∈ s.indexes, f e ≠ .ok none → g e = f e) (found : walk f v segments ≠ .ok none) :
    walk g v segments = walk f v segments := by
  induction segments generalizing v with
  | nil => rfl
  | cons s rest ih =>
    rw [walk_cons] at found
    rw [walk_cons, walk_cons]
    cases part : v.part? s.name with
    | none => rfl
    | some w =>
      simp only [part] at found ⊢
      apply thenIfSome_of_found (indexAll_of_found (same s List.mem_cons_self)) _ found
      intro x found
      exact ih (fun t ht => same t (List.mem_cons_of_mem s ht)) found

end Walk

namespace Scope

variable {model : Value} {bindings : NameMap Value}

/-! ## Lookups -/

/-- Where the model has something, the bindings are not asked. -/
theorem resolveWith_of_found {f g : String → Except Error (Option String)} {p : Path}
    (same : ∀ s ∈ p.segments, ∀ e ∈ s.indexes, f e ≠ .ok none → g e = f e)
    (found : resolveWith ⟨model, .empty⟩ f p ≠ .ok .null) :
    resolveWith ⟨model, bindings⟩ g p = resolveWith ⟨model, .empty⟩ f p := by
  by_cases root : p.isRoot = true
  · simp only [resolveWith, root, if_true]
  · have leads : walk f model p.segments ≠ .ok none := by
      intro nowhere
      apply found
      -- Without bindings the fallback has nothing either.
      have fallback : walkScratch ⟨model, .empty⟩ f p.segments = .ok none := by
        cases p.segments <;> rfl
      simp only [resolveWith, root, Bool.false_eq_true, if_false, nowhere, fallback]
      rfl
    simp only [resolveWith, root, Bool.false_eq_true, if_false, walk_of_found same leads]
    cases hw : walk f model p.segments with
    | error e => rfl
    | ok w =>
      cases w with
      | none => exact absurd hw leads
      | some w => rfl

/-- The induction is on the length of the index expression, whose own index expressions are shorter. -/
theorem index_of_found {expression : String} (found : index ⟨model, .empty⟩ expression ≠ .ok none) :
    index ⟨model, bindings⟩ expression = index ⟨model, .empty⟩ expression := by
  induction hn : expression.length using Nat.strongRecOn generalizing expression with
  | _ n ih =>
    rw [index_eq] at found
    rw [index_eq, index_eq]
    cases form : IndexForm.parse expression with
    | literal text => rfl
    | path p =>
      simp only [form] at found ⊢
      have resolved : resolve ⟨model, bindings⟩ p = resolve ⟨model, .empty⟩ p := by
        apply resolveWith_of_found
        · intro s hs e he leads
          exact ih e.length (hn ▸ IndexForm.length_lt form hs he) leads rfl
        · intro null
          rw [resolve, null] at found
          exact found rfl
      rw [resolved]

/-- What a path refers to without bindings, it refers to under all bindings. -/
theorem resolve_of_found {p : Path} (found : resolve ⟨model, .empty⟩ p ≠ .ok .null) :
    resolve ⟨model, bindings⟩ p = resolve ⟨model, .empty⟩ p :=
  resolveWith_of_found (fun _ _ _ _ => index_of_found) found

/-! ## Depth -/

/-- Looking up an index expression, with an alarm where paths within paths go beyond a depth. -/
def indexWithin (alarm : Error) (s : Scope) : Nat → String → Except Error (Option String)
  | 0, _ => .error alarm
  | depth + 1, expression =>
    match IndexForm.parse expression with
    | .literal text => .ok (some text)
    | .path p => (s.resolveWith (indexWithin alarm s depth) p).map fun v => if v.isNull then none else some v.text

/-- Looking up a path, with an alarm where paths within paths go beyond a depth. -/
def resolveWithin (alarm : Error) (s : Scope) (depth : Nat) (p : Path) : Except Error Value :=
  s.resolveWith (indexWithin alarm s depth) p

/-- An expression that is not longer than the depth does not raise the alarm. -/
theorem indexWithin_eq (alarm : Error) (s : Scope) {depth : Nat} {expression : String}
    (short : expression.length < depth) : indexWithin alarm s depth expression = s.index expression := by
  induction depth generalizing expression with
  | zero => omega
  | succ depth ih =>
    rw [indexWithin, index_eq]
    cases form : IndexForm.parse expression with
    | literal text => rfl
    | path p =>
      have resolved : s.resolveWith (indexWithin alarm s depth) p = s.resolve p := by
        apply resolveWith_congr
        intro t ht e he
        have shorter := IndexForm.length_lt form ht he
        exact ih (by omega)
      simp only [resolved]

/-! ## What a path refers to -/

/-- **Bindings do not shadow the model**, and lookups end, since paths within index expressions get shorter. -/
theorem resolve_unshadowed (model : Value) :
    (∀ (p : Path) (bindings : NameMap Value) (r : Except Error Value), r ≠ .ok .null →
      resolve ⟨model, .empty⟩ p = r → resolve ⟨model, bindings⟩ p = r)
    ∧ (∀ text, ∀ s ∈ (Path.parse text).segments, ∀ e ∈ s.indexes, e.length < (Path.parse text).text.length
      ∧ ∀ q, IndexForm.parse e = .path q → q = Path.parse (Text.trim e) ∧ q.text.length ≤ e.length)
    ∧ ∀ (text : String) (bindings : NameMap Value) (alarm : Error) (depth : Nat),
      (Path.parse text).text.length ≤ depth →
        resolveWithin alarm ⟨model, bindings⟩ depth (Path.parse text)
          = resolve ⟨model, bindings⟩ (Path.parse text) := by
  refine ⟨?_, ?_, ?_⟩
  · intro p bindings r some found
    rw [← found] at some ⊢
    exact resolve_of_found some
  · intro text s hs e he
    exact ⟨Path.length_lt_of_mem hs he, fun q => IndexForm.eq_parse⟩
  · intro text bindings alarm depth deep
    apply resolveWith_congr
    intro s hs e he
    have shorter := Path.length_lt_of_mem hs he
    exact indexWithin_eq alarm _ (by omega)

/-- A path within an index expression is not shadowed either. -/
theorem resolve_unshadowed_index :
    resolve ⟨.map [("a", .map [("x", .bool true)]), ("k", .string "x")],
      (NameMap.empty.insert "k" (.string "y")).insert "a" .null⟩ (Path.parse ".a[.k]") = .ok (.bool true) :=
  (resolve_unshadowed _).1 _ _ _ (by simp) (by cbv)

end Scope

end Stencil
