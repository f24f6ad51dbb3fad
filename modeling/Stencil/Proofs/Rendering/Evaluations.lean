import Stencil.Evaluation

/-!
# What evaluations depend on

Of the bindings of loops and of the functions of the host, evaluations see only what is found under each name. The
spelling of the names in these maps and the order of their entries do not matter.

* `Scope.resolve_of_bindings`: paths under bindings that answer alike.
* `Evaluation.call_congr`: calls in scopes where their argument texts stand for the same values.
* `Evaluation.call_of_seen`: calls over registries that their functions do not tell apart.
-/

namespace Stencil

namespace Scope

variable {model : Value} {bindings bindings' : NameMap Value}

section

variable (same : ∀ name, bindings'.get? name = bindings.get? name)

include same

theorem resolveWith_of_bindings (index : String → Except Error (Option String)) (p : Path) :
    resolveWith ⟨model, bindings'⟩ index p = resolveWith ⟨model, bindings⟩ index p := by
  have fallback : walkScratch ⟨model, bindings'⟩ index p.segments = walkScratch ⟨model, bindings⟩ index p.segments := by
    cases p.segments with
    | nil => rfl
    | cons first rest => rw [walkScratch, walkScratch, same]
  rw [resolveWith, resolveWith, fallback]

theorem index_of_bindings (expression : String) :
    index ⟨model, bindings'⟩ expression = index ⟨model, bindings⟩ expression := by
  induction hn : expression.length using Nat.strongRecOn generalizing expression with
  | _ n ih =>
    rw [index_eq, index_eq]
    cases form : IndexForm.parse expression with
    | literal text => rfl
    | path p =>
      have resolved : resolve ⟨model, bindings'⟩ p = resolve ⟨model, bindings⟩ p := by
        rw [resolve, resolve, resolveWith_of_bindings same]
        apply resolveWith_congr
        intro t ht e he
        exact ih e.length (hn ▸ IndexForm.length_lt form ht he) e rfl
      simp only [resolved]

/-- A path refers to the same under bindings that answer alike. -/
theorem resolve_of_bindings (p : Path) : resolve ⟨model, bindings'⟩ p = resolve ⟨model, bindings⟩ p := by
  rw [resolve, resolve, resolveWith_of_bindings same]
  apply resolveWith_congr
  intro t _ e _
  exact index_of_bindings same e

theorem argument_of_bindings (text : String) :
    argument ⟨model, bindings'⟩ text = argument ⟨model, bindings⟩ text := by
  rw [argument, argument, resolve_of_bindings same]

end

end Scope

namespace Evaluation

section

variable {e e' : Evaluation} {texts : List String}

theorem adaptAll_congr (same : ∀ text ∈ texts, e'.scope.argument text = e.scope.argument text) (name : String)
    (index : Nat) (kinds : List ParamKind) :
    e'.adaptAll name index kinds texts = e.adaptAll name index kinds texts := by
  induction kinds generalizing index texts with
  | nil => rfl
  | cons kind kinds ih =>
    cases texts with
    | nil => rfl
    | cons text texts =>
      rw [List.forall_mem_cons] at same
      have adapted : e'.adapt name index kind text = e.adapt name index kind text := by
        unfold adapt
        rw [same.1]
      unfold adaptAll
      rw [adapted, ih same.2]

theorem restTexts_congr (same : ∀ text ∈ texts, e'.scope.argument text = e.scope.argument text) :
    e'.restTexts texts = e.restTexts texts := by
  induction texts with
  | nil => rfl
  | cons text texts ih =>
    rw [List.forall_mem_cons] at same
    unfold restTexts
    rw [same.1, ih same.2]

/-- Arguments are adapted in the scope alone. -/
theorem arguments_congr (same : ∀ text ∈ texts, e'.scope.argument text = e.scope.argument text) (name : String)
    (params : List ParamKind) : e'.arguments name params texts = e.arguments name params texts := by
  have rest (count : Nat) : e'.restTexts (texts.drop count) = e.restTexts (texts.drop count) :=
    restTexts_congr fun text ht => same text (List.mem_of_mem_drop ht)
  unfold arguments
  simp only [adaptAll_congr same, rest]

/-- A call sees functions by name only. -/
theorem call_congr (same : ∀ text ∈ texts, e'.scope.argument text = e.scope.argument text)
    (functions : ∀ name, e'.functions.get? name = e.functions.get? name)
    (surroundings : e'.surroundings = e.surroundings) (name : String) : e'.call name texts = e.call name texts := by
  unfold call function?
  simp only [functions, arguments_congr same, surroundings]

end

variable {functions : NameMap Function} {name : String}

/-- A call sees the registered templates only through its function. -/
theorem call_of_seen {s : Surroundings} {r : Registry} (scope : Scope) (texts : List String)
    (seen : ∀ f, function? ⟨scope, functions, s⟩ name = some f → f.params.getLast? = some .context → ∀ args,
      f.invoke ⟨name, args, some { s with templates := r }⟩ = f.invoke ⟨name, args, some s⟩) :
    call ⟨scope, functions, { s with templates := r }⟩ name texts = call ⟨scope, functions, s⟩ name texts := by
  have same : function? ⟨scope, functions, { s with templates := r }⟩ name = function? ⟨scope, functions, s⟩ name := rfl
  unfold call
  rw [same]
  cases found : function? ⟨scope, functions, s⟩ name with
  | none => rfl
  | some f =>
    have adapted : arguments ⟨scope, functions, { s with templates := r }⟩ name f.params texts
        = arguments ⟨scope, functions, s⟩ name f.params texts := by
      apply arguments_congr
      exact fun _ _ => rfl
    simp only [adapted]
    refine congrArg _ (funext fun args => ?_)
    split
    · next last => exact seen f found last args
    · rfl

end Evaluation

end Stencil
