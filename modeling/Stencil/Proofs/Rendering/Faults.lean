import Stencil.Evaluation
import Stencil.Proofs.Rendering.HeldTemplates

/-!
# Where errors come from

Looking up a path fails at an index only. Evaluating a call has errors of its own as well, which are about values and
functions. Any other error of a call is one that a function of the host has returned.

* `Scope.resolve_error`, `Evaluation.call_error`: the errors of paths and of calls.
-/

namespace Stencil

/-- Whether an error is about the values and functions of an evaluation. -/
def Error.isOfEvaluation : Error → Bool
  | .unknownFunction .. | .argumentCount .. | .parameterConversion .. | .invalidSignature .. | .function .. => true
  | .notAList .. | .notADictionary .. | .invalidIndex .. | .conditionType .. | .format .. => true
  | _ => false

/-- The same but for a function that is not there. -/
def Error.isOfValues : Error → Bool
  | .unknownFunction .. => false
  | e => e.isOfEvaluation

theorem Error.isOfEvaluation_of_isOfValues {e : Error} (h : e.isOfValues = true) : e.isOfEvaluation = true := by
  unfold isOfValues at h
  split at h
  · cases h
  · exact h

/-- Whether an error is about an index of a path. -/
def Error.isOfIndex : Error → Bool
  | .notAList .. | .notADictionary .. | .invalidIndex .. => true
  | _ => false

theorem Error.isOfValues_of_isOfIndex {e : Error} (h : e.isOfIndex = true) : e.isOfValues = true := by
  unfold isOfIndex at h
  split at h
  · rfl
  · rfl
  · rfl
  · cases h

/-- The error of two steps is that of the first or, behind a first that succeeds, that of the second. -/
theorem except_bind_error {ε α β : Type} {r : Except ε α} {f : α → Except ε β} {e : ε} (h : r >>= f = .error e) :
    r = .error e ∨ ∃ a, r = .ok a ∧ f a = .error e := by
  cases r with
  | error e' =>
    cases h
    exact .inl rfl
  | ok a => exact .inr ⟨a, rfl, h⟩

/-! ## Paths -/

namespace Value

theorem at?_error {v : Value} {name index : String} {e : Error} (h : v.at? name index = .error e) :
    e.isOfIndex = true := by
  unfold at? at h
  split at h <;> split at h <;> cases h <;> rfl

end Value

section Walk

variable {index : String → Except Error (Option String)} {e : Error}

theorem indexAll_error {name : String} {v : Value} {es : List String}
    (inner : ∀ x ∈ es, ∀ e, index x = .error e → e.isOfIndex = true) (h : indexAll index name v es = .error e) :
    e.isOfIndex = true := by
  induction es generalizing v with
  | nil => cases h
  | cons x es ih =>
    rw [indexAll] at h
    split at h
    · cases h
    rcases except_bind_error h with h | ⟨_ | key, -, h⟩
    · exact inner x List.mem_cons_self e h
    · cases h
    rcases except_bind_error h with h | ⟨_ | w, -, h⟩
    · exact Value.at?_error h
    · cases h
    · exact ih (fun y hy => inner y (List.mem_cons_of_mem x hy)) h

theorem walk_error {v : Value} {segments : List Segment}
    (inner : ∀ s ∈ segments, ∀ x ∈ s.indexes, ∀ e, index x = .error e → e.isOfIndex = true)
    (h : walk index v segments = .error e) : e.isOfIndex = true := by
  induction segments generalizing v with
  | nil =>
    rw [walk] at h
    split at h <;> cases h
  | cons s rest ih =>
    rw [walk] at h
    split at h
    · cases h
    rcases except_bind_error h with h | ⟨_ | w, -, h⟩
    · exact indexAll_error (inner s List.mem_cons_self) h
    · cases h
    · exact ih (fun t ht => inner t (List.mem_cons_of_mem s ht)) h

theorem Scope.resolveWith_error {s : Scope} {p : Path}
    (inner : ∀ t ∈ p.segments, ∀ x ∈ t.indexes, ∀ e, index x = .error e → e.isOfIndex = true)
    (h : s.resolveWith index p = .error e) : e.isOfIndex = true := by
  unfold resolveWith at h
  split at h
  · cases h
  rcases except_bind_error h with h | ⟨_ | w, -, h⟩
  · exact walk_error inner h
  · rcases except_bind_error h with h | ⟨w, -, h⟩
    · unfold walkScratch at h
      split at h
      · cases h
      next first rest segments =>
      rw [segments] at inner
      split at h
      · cases h
      rcases except_bind_error h with h | ⟨_ | w, -, h⟩
      · exact indexAll_error (inner first List.mem_cons_self) h
      · cases h
      · exact walk_error (fun t ht => inner t (List.mem_cons_of_mem first ht)) h
    · cases h
  · cases h

end Walk

/-- Index expressions are looked up as paths, whose own index expressions are shorter. -/
theorem Scope.index_error {s : Scope} {expression : String} {e : Error} (h : s.index expression = .error e) :
    e.isOfIndex = true := by
  induction hn : expression.length using Nat.strongRecOn generalizing expression e with
  | _ n ih =>
    rw [Scope.index_eq] at h
    split at h
    · cases h
    next p hp =>
    have resolved : s.resolve p = .error e := by
      cases hr : s.resolve p with
      | error e' => rw [hr] at h; cases h; rfl
      | ok v => rw [hr] at h; cases h
    refine Scope.resolveWith_error (fun t ht x hx e' he' => ?_) resolved
    exact ih x.length (hn ▸ IndexForm.length_lt hp ht hx) he' rfl

/-- What is wrong with a path is told as an error about one of its indexes. -/
theorem Scope.resolve_error {s : Scope} {p : Path} {e : Error} (h : s.resolve p = .error e) :
    e.isOfIndex = true :=
  resolveWith_error (fun _ _ _ _ _ => index_error) h

theorem Scope.argument_error {s : Scope} {text : String} {e : Error} (h : s.argument text = .error e) :
    e.isOfIndex = true := by
  unfold argument at h
  split at h
  · exact resolve_error h
  · cases h

/-! ## Functions -/

/-- A value of a list of entries is the value of one of them. -/
theorem NameMap.get?_ofList {α : Type} {entries : List (String × α)} {name : String} {a : α}
    (h : (NameMap.ofList entries).get? name = some a) : ∃ key, (key, a) ∈ entries := by
  suffices general : ∀ m : NameMap α, (entries.foldl (fun m e => m.insert e.1 e.2) m).get? name = some a →
      m.get? name = some a ∨ ∃ key, (key, a) ∈ entries by
    rcases general .empty h with h | h
    · cases h
    · exact h
  clear h
  intro m h
  induction entries generalizing m with
  | nil => exact .inl h
  | cons entry entries ih =>
    rcases ih _ h with h | ⟨key, hk⟩
    · rw [get?_insert] at h
      split at h
      · cases h
        exact .inr ⟨entry.1, List.mem_cons_self⟩
      · exact .inl h
    · exact .inr ⟨key, List.mem_cons_of_mem _ hk⟩

theorem applyArgs_error {α : Type} {name : String} {position : Nat} {ps : List ParamType} {f : Curried α ps}
    {args : List Arg} {e : Error} (h : applyArgs name position ps f args = .error e) : e.isOfValues = true := by
  induction ps generalizing position args with
  | nil => cases h
  | cons p ps ih =>
    cases args with
    | nil =>
      simp only [applyArgs] at h
      split at h
      · exact ih h
      · cases h
        rfl
    | cons arg rest =>
      simp only [applyArgs] at h
      split at h
      · exact ih h
      · cases h
        rfl

/-- A built-in function is made of a typed one, or is the one that formats. -/
theorem Builtin.function?_cases {name : String} {f : Function} (h : function? name = some f) :
    (∃ ps g, f = .typed ps g) ∨ f = format := by
  obtain ⟨key, hk⟩ := NameMap.get?_ofList h
  simp only [List.mem_cons, List.not_mem_nil, or_false, Prod.mk.injEq] at hk
  rcases hk with ⟨-, rfl⟩ | ⟨-, rfl⟩ | ⟨-, rfl⟩ | ⟨-, rfl⟩ | ⟨-, rfl⟩ | ⟨-, rfl⟩ | ⟨-, rfl⟩
  all_goals first
    | exact .inr rfl
    | exact .inl ⟨_, _, rfl⟩

theorem Locale.format_error {l : Locale} {v : Value} {pattern : String} {e : Error}
    (h : l.format v pattern = .error e) : e.isOfValues = true := by
  unfold format at h
  cases v <;> simp only at h
  all_goals first
    | cases h
    | (split at h <;> cases h; rfl)

theorem Builtin.invoke_error {name : String} {f : Function} {i : Invocation} {e : Error} (h : function? name = some f)
    (failed : f.invoke i = .error e) : e.isOfValues = true := by
  rcases function?_cases h with ⟨ps, g, rfl⟩ | rfl
  · exact applyArgs_error failed
  · simp only [format] at failed
    split at failed
    · split at failed
      · cases failed
        rfl
      · next c _ =>
        cases hf : c.locale.format _ _ with
        | error e' =>
          rw [hf] at failed
          cases failed
          exact Locale.format_error hf
        | ok v => rw [hf] at failed; cases failed
    · cases failed

/-! ## Calls -/

namespace Evaluation

variable {e : Evaluation} {name : String} {texts : List String} {err : Error}

theorem adaptAll_error {index : Nat} {kinds : List ParamKind} (h : e.adaptAll name index kinds texts = .error err) :
    err.isOfValues = true := by
  induction kinds generalizing index texts with
  | nil => cases h
  | cons kind kinds ih =>
    cases texts with
    | nil => cases h
    | cons text texts =>
      rw [adaptAll] at h
      rcases except_bind_error h with h | ⟨arg, -, h⟩
      · rcases except_bind_error h with h | ⟨v, -, h⟩
        · exact Error.isOfValues_of_isOfIndex (Scope.argument_error h)
        · split at h
          · split at h
            · cases h
            · cases h
              rfl
          · cases h
      · rcases except_bind_error h with h | ⟨args, -, h⟩
        · exact ih h
        · cases h

theorem restTexts_error (h : e.restTexts texts = .error err) : err.isOfValues = true := by
  induction texts with
  | nil => cases h
  | cons text texts ih =>
    rw [restTexts] at h
    rcases except_bind_error h with h | ⟨v, -, h⟩
    · exact Error.isOfValues_of_isOfIndex (Scope.argument_error h)
    · rcases except_bind_error h with h | ⟨ts, -, h⟩
      · exact ih h
      · cases h

theorem arguments_error {params : List ParamKind} (h : e.arguments name params texts = .error err) :
    err.isOfValues = true := by
  simp only [arguments] at h
  cases hm : Function.misplaced? params with
  | some position =>
    rw [hm] at h
    cases h
    rfl
  | none =>
    rw [hm] at h
    simp only at h
    by_cases count : texts.length < (Function.fixed params).length
        ∨ (!Function.isVariadic params) = true ∧ (Function.fixed params).length < texts.length
    · rw [if_pos count] at h
      cases h
      rfl
    rw [if_neg count] at h
    rcases except_bind_error h with h | ⟨single, -, h⟩
    · exact adaptAll_error h
    split at h
    · rcases except_bind_error h with h | ⟨rest, -, h⟩
      · exact restTexts_error h
      · cases h
    · cases h

/-- An error of a call is that there is no function of its name, or it is about values, or a function of the host has
returned it. -/
theorem call_error (h : e.call name texts = .error err) : err = .unknownFunction name
    ∨ err.isOfValues = true ∨ ∃ f i, e.functions.get? name = some f ∧ f.invoke i = .error err := by
  unfold call at h
  split at h
  · cases h
    exact .inl rfl
  next f found =>
  rcases except_bind_error h with h | ⟨args, -, h⟩
  · exact .inr (.inl (arguments_error h))
  · rcases Option.or_eq_some_iff.1 found with found | ⟨-, found⟩
    · exact .inr (.inr ⟨f, _, found, h⟩)
    · exact .inr (.inl (Builtin.invoke_error found h))

end Evaluation

end Stencil
