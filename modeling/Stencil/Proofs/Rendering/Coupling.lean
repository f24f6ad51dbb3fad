import Stencil.Proofs.Rendering.Evaluations
import Stencil.Proofs.Rendering.Faults
import Stencil.Proofs.Rendering.Registration
import Stencil.Proofs.Rendering.Simulation

/-!
# Coupled renders

Two renders are coupled if they end alike from states that are alike: with the same value or with errors that are
alike, and in states that are alike again. What it means to be alike is a parameter (`Likeness`); in any case the
contexts have no hook and differ at most in their registries and in how names are spelled (`Spelling`).

The rules follow the steps of a render, down to one rule for each kind of node, and to all nodes if inclusions, blocks
and the templates in values are coupled (`coupled_renderNodes`). What becomes of these is left to the uses of the rules,
and so is what templates are composed of (`coupled_renderTemplate`).
-/

namespace Stencil

namespace Render

/-! ## Outcomes -/

/-- What a render ends with and the state after it. -/
def outcome {α : Type} (r : Render α) (s : RenderState) : Except Error α × RenderState := r.run s

section Outcomes

variable {α β : Type}

theorem outcome_pure (a : α) (s : RenderState) : outcome (pure a) s = (.ok a, s) := rfl

theorem outcome_bind (r : Render α) (f : α → Render β) (s : RenderState) :
    outcome (r >>= f) s = match outcome r s with
      | (.ok a, t) => outcome (f a) t
      | (.error e, t) => (.error e, t) := by
  show ExceptT.bindCont f (outcome r s).1 (outcome r s).2 = _
  rcases outcome r s with ⟨_ | _, t⟩ <;> rfl

/-- Two steps succeed only if both of them do. -/
theorem outcome_bind_ok {r : Render α} {f : α → Render β} {b : β} {s u : RenderState}
    (h : outcome (r >>= f) s = (.ok b, u)) :
    ∃ a t, outcome r s = (.ok a, t) ∧ outcome (f a) t = (.ok b, u) := by
  rw [outcome_bind] at h
  generalize first : outcome r s = o at h
  obtain ⟨_ | a, t⟩ := o
  · cases h
  · exact ⟨a, t, rfl, h⟩

theorem outcome_tryCatch (r : Render α) (handle : Error → Render α) (s : RenderState) :
    outcome (tryCatch r handle) s = match outcome r s with
      | (.ok a, t) => (.ok a, t)
      | (.error e, t) => outcome (handle e) t := by
  simp only [outcome, tryCatch, tryCatchThe, MonadExceptOf.tryCatch, ExceptT.tryCatch, ExceptT.run, ExceptT.mk,
    Bind.bind, StateT.bind]
  rcases r s with ⟨_ | _, t⟩ <;> rfl

theorem outcome_context (s : RenderState) : outcome context s = (.ok s.context, s) := rfl

theorem outcome_update (f : Context → Context) (s : RenderState) :
    outcome (update f) s = (.ok (), { s with context := f s.context }) := rfl

theorem outcome_record (e : Event) (s : RenderState) :
    outcome (record e) s = (.ok (), { s with events := e :: s.events }) := rfl

theorem outcome_lift (x : Except Error α) (s : RenderState) : outcome (liftM x) s = (x, s) := by
  cases x <;> rfl

theorem outcome_resolve (model : Value) (p : Path) (s : RenderState) :
    outcome (resolve model p) s = (Scope.resolve ⟨model, s.context.scratch⟩ p, s) := by
  unfold resolve
  rw [outcome_bind, outcome_context]
  exact outcome_lift _ s

/-- An error as it leaves a template whose source may be known. -/
def marked (path : Option String) (e : Error) : Error :=
  match path with
  | none => e
  | some p => .within p e

theorem outcome_within (path : Option String) (r : Render α) (s : RenderState) :
    outcome (within path r) s = ((outcome r s).1.mapError (marked path), (outcome r s).2) := by
  cases path with
  | none =>
    show outcome r s = _
    rcases outcome r s with ⟨_ | _, t⟩ <;> rfl
  | some p =>
    show outcome (tryCatch r fun e => throw (.within p e)) s = _
    rw [outcome_tryCatch]
    rcases outcome r s with ⟨_ | _, t⟩ <;> rfl

theorem outcome_within_ok {path : Option String} {r : Render α} {a : α} {s u : RenderState}
    (h : outcome (within path r) s = (.ok a, u)) : outcome r s = (.ok a, u) := by
  rw [outcome_within] at h
  generalize outcome r s = o at h ⊢
  obtain ⟨_ | a', t⟩ := o
  · cases h
  · exact h

end Outcomes

section Compose

variable {t b : Template} {base : String} {s : RenderState}

theorem compose_of_none (h : t.base = none) : compose t = pure t.nodes := by
  unfold compose
  rw [h]

/-- The nodes of the base are rendered over the registry with the blocks of the template. -/
theorem outcome_compose_of_some (extending : t.base = some base) (found : s.context.templates.template? base = some b) :
    outcome (compose t) s = (.ok b.nodes,
      { s with context := s.context.withTemplates (s.context.templates.addBlocks t.blocks) }) := by
  unfold compose
  rw [extending]
  simp only
  rw [outcome_bind, outcome_context]
  simp only [found]
  rw [outcome_bind, outcome_update, Context.foldl_addTemplate]
  rfl

theorem outcome_compose_of_missing (extending : t.base = some base)
    (missing : s.context.templates.template? base = none) :
    outcome (compose t) s = (.error (.baseTemplateNotFound base), s) := by
  unfold compose
  rw [extending]
  simp only
  rw [outcome_bind, outcome_context]
  simp only [missing]
  rfl

end Compose

theorem cause_marked (path : Option String) (e : Error) : (marked path e).cause = e.cause := by
  cases path <;> rfl

/-! ## Likeness -/

/-- The same value, which has a property, or errors that are alike. -/
inductive Results {α : Type} (errors : Error → Error → Prop) (Q : α → Prop) :
    Except Error α → Except Error α → Prop where
  | ok {a : α} (h : Q a) : Results errors Q (.ok a) (.ok a)
  | error {e e' : Error} (h : errors e e') : Results errors Q (.error e) (.error e')

theorem Results.refl {α : Type} {errors : Error → Error → Prop} (h : ∀ e, errors e e) (x : Except Error α) :
    Results errors (fun _ => True) x x := by
  cases x with
  | error e => exact .error (h e)
  | ok a => exact .ok trivial

theorem Results.imp {α : Type} {errors : Error → Error → Prop} {Q R : α → Prop} {x x' : Except Error α}
    (h : Results errors Q x x') (weaker : ∀ a, Q a → R a) : Results errors R x x' := by
  cases h with
  | ok h => exact .ok (weaker _ h)
  | error h => exact .error h

theorem Results.of_mapError {α : Type} {g : Error → Error} {x x' : Except Error α}
    (h : x'.mapError g = x.mapError g) : Results (fun e e' => g e' = g e) (fun _ => True) x x' := by
  cases x with
  | error e =>
    cases x' with
    | error e' => exact .error (Except.error.inj h)
    | ok a => cases h
  | ok a =>
    cases x' with
    | error e' => cases h
    | ok a' =>
      cases h
      exact .ok trivial

theorem rel_refl {α : Type} {R : α → α → Prop} (h : ∀ a, R a a) : ∀ o : Option α, Option.Rel R o o
  | none => .none
  | some a => .some (h a)

/-- How names may be spelled in one of two renders and in the other one. -/
structure Spelling where
  /-- Spellings of one name. -/
  names : String → String → Prop
  /-- Maps that differ at most in how their names are spelled. -/
  maps {α : Type} : NameMap α → NameMap α → Prop
  names_refl : ∀ name, names name name
  fold_eq : ∀ {name name'}, names name name' → fold name' = fold name
  get?_eq : ∀ {α : Type} {m m' : NameMap α}, maps m m' → ∀ name, m'.get? name = m.get? name
  insert : ∀ {α : Type} {m m' : NameMap α} {name name' : String} (a : α), maps m m' → names name name' →
    maps (m.insert name a) (m'.insert name' a)

namespace Spelling

/-- Names are spelled the same. -/
def exact : Spelling where
  names := Eq
  maps := Eq
  names_refl _ := rfl
  fold_eq := by rintro name _ rfl; rfl
  get?_eq := by rintro α m _ rfl name; rfl
  insert := by rintro α m _ name _ a rfl rfl; rfl

variable {σ : Spelling} {c c' : Context}

/-- Contexts that differ at most in their registries and in the spelling of names. -/
structure Same (σ : Spelling) (c c' : Context) : Prop where
  output : c'.output = c.output
  locale : c'.locale = c.locale
  hook : c'.hook = c.hook
  functions : σ.maps c.functions c'.functions
  scratch : σ.maps c.scratch c'.scratch

theorem Same.withTemplates (h : σ.Same c c') (r r' : Registry) :
    σ.Same (c.withTemplates r) (c'.withTemplates r') :=
  ⟨h.output, h.locale, h.hook, h.functions, h.scratch⟩

theorem Same.surroundings (h : σ.Same c c') :
    c'.toSurroundings = { c.toSurroundings with templates := c'.templates } := by
  simp only [← h.output, ← h.locale]

/-- Where names are spelled the same, only the registries may be different. -/
theorem eq_of_exact (h : exact.Same c c') : c' = c.withTemplates c'.templates := by
  obtain ⟨output, locale, hook, functions, scratch⟩ := h
  rcases c with ⟨⟨_, _, _⟩, _, _, _⟩
  rcases c' with ⟨⟨_, _, _⟩, _, _, _⟩
  simp only [exact] at output locale hook functions scratch
  simp only [output, locale, hook, functions, scratch, Context.withTemplates]

theorem exact_same (c : Context) (r : Registry) : exact.Same c (c.withTemplates r) := ⟨rfl, rfl, rfl, rfl, rfl⟩

/-- Calls of one function with the same arguments. -/
structure Calls (σ : Spelling) (c c' : Call) : Prop where
  name : σ.names c.name c'.name
  arguments : c'.arguments = c.arguments
  value : c'.value = c.value

theorem Calls.refl (σ : Spelling) (c : Call) : σ.Calls c c := ⟨σ.names_refl c.name, rfl, rfl⟩

/-- Conditions on the same path or on calls of one function. -/
inductive Conditions (σ : Spelling) : Condition → Condition → Prop
  | path (p : Path) : Conditions σ (.path p) (.path p)
  | call {c c' : Call} (h : σ.Calls c c') : Conditions σ (.call c) (.call c')

theorem Conditions.refl (σ : Spelling) : ∀ condition : Condition, σ.Conditions condition condition
  | .path p => .path p
  | .call c => .call (.refl σ c)

/-- The indexes of loops: spellings of one name, or none. -/
theorem indexes_refl (σ : Spelling) (index : Option String) : Option.Rel σ.names index index :=
  rel_refl σ.names_refl index

end Spelling

/-- What is asked of states and of errors beyond what makes all states alike. -/
structure Likeness where
  spelling : Spelling := .exact
  /-- What holds of the locale and of the functions of the host, which a render leaves as they are. -/
  host : Locale → NameMap Function → Prop
  registries : Registry → Registry → Prop
  /-- What holds of the templates in the model and in bindings. -/
  held : Template → Prop
  events : List Event → List Event → Prop
  errors : Error → Error → Prop
  events_notIterable : ∀ collection kind l l', events l l' →
    events (.notIterable collection kind :: l) (.notIterable collection kind :: l')
  errors_evaluation : ∀ e, e.isOfEvaluation = true → errors e e
  /-- Calls that see different registries end alike. -/
  calls : ∀ (scope : Scope) (functions : NameMap Function) (s : Surroundings) (r : Registry) (name name' : String)
    (texts : List String), spelling.names name name' → host s.locale functions → registries s.templates r →
    Results errors (fun _ => True) (Evaluation.call ⟨scope, functions, s⟩ name texts)
      (Evaluation.call ⟨scope, functions, { s with templates := r }⟩ name' texts)

namespace Likeness

/-- What is alike in renders that do the same: events and errors are, and calls do not see the registries. -/
def equal (host : Locale → NameMap Function → Prop) (registries : Registry → Registry → Prop) (held : Template → Prop)
    (calls : ∀ (scope : Scope) (functions : NameMap Function) (s : Surroundings) (r : Registry) (name : String)
      (texts : List String), host s.locale functions → registries s.templates r →
      Evaluation.call ⟨scope, functions, { s with templates := r }⟩ name texts
        = Evaluation.call ⟨scope, functions, s⟩ name texts) : Likeness where
  host := host
  registries := registries
  held := held
  events := Eq
  errors := Eq
  events_notIterable _ _ _ _ := congrArg _
  errors_evaluation _ _ := rfl
  calls := by
    rintro scope functions s r name _ texts rfl holds alike
    rw [calls scope functions s r name texts holds alike]
    exact .refl (fun _ => rfl) _

/-- Contexts without a hook, the same but for the spelling of names and for registries that are alike. -/
structure Contexts (L : Likeness) (c c' : Context) : Prop where
  same : L.spelling.Same c c'
  hook : c.hook = none
  host : L.host c.locale c.functions
  scratch : c.scratch.Holds L.held
  registries : L.registries c.templates c'.templates

/-- States whose contexts and events are alike. -/
structure States (L : Likeness) (s s' : RenderState) : Prop where
  contexts : L.Contexts s.context s'.context
  events : L.events s.events s'.events

/-- What is asked of registries is asked of nothing else. -/
theorem Contexts.withTemplates {L : Likeness} {c c' : Context} (h : L.Contexts c c') {r r' : Registry}
    (alike : L.registries r r') : L.Contexts (c.withTemplates r) (c'.withTemplates r') :=
  ⟨h.same.withTemplates r r', h.hook, h.host, h.scratch, alike⟩

end Likeness

/-- Both renders end alike from given states, in states that are alike. -/
abbrev CoupledAt {α : Type} (L : Likeness) (Q : α → Prop) (r r' : Render α) (s s' : RenderState) : Prop :=
  Results L.errors Q (outcome r s).1 (outcome r' s').1 ∧ L.States (outcome r s).2 (outcome r' s').2

/-- From states that are alike, both renders end alike, in states that are alike. -/
def Coupled {α : Type} (L : Likeness) (Q : α → Prop) (r r' : Render α) : Prop :=
  ∀ s s', L.States s s' → CoupledAt L Q r r' s s'

/-- Coupled renders that have no value. -/
abbrev CoupledSteps (L : Likeness) (r r' : Render Unit) : Prop := Coupled L (fun _ => True) r r'

/-! ## Rules for single steps -/

section Rules

variable {α β : Type} {L : Likeness} {Q : α → Prop} {R : β → Prop}

theorem coupled_pure {a : α} (h : Q a) : Coupled L Q (pure a) (pure a) :=
  fun _ _ states => ⟨.ok h, states⟩

theorem coupled_throw {e e' : Error} (h : L.errors e e') : Coupled L Q (throw e) (throw e') :=
  fun _ _ states => ⟨.error h, states⟩

/-- The second steps need only be coupled for the values that the first ones end with. -/
theorem Coupled.bind {r r' : Render α} {f f' : α → Render β} (first : Coupled L Q r r')
    (rest : ∀ a, Q a → Coupled L R (f a) (f' a)) : Coupled L R (r >>= f) (r' >>= f') := by
  intro s s' states
  obtain ⟨results, after⟩ := first s s' states
  rw [CoupledAt, outcome_bind, outcome_bind]
  generalize outcome r s = o at results after ⊢
  generalize outcome r' s' = o' at results after ⊢
  obtain ⟨x, t⟩ := o
  obtain ⟨x', t'⟩ := o'
  cases results with
  | ok h => exact rest _ h t t' after
  | error h => exact ⟨.error h, after⟩

theorem Coupled.imp {R : α → Prop} {r r' : Render α} (h : Coupled L Q r r') (weaker : ∀ a, Q a → R a) :
    Coupled L R r r' :=
  fun s s' states => (h s s' states).imp_left fun results => results.imp weaker

/-- A step of the first render to which nothing corresponds in the second. -/
theorem Coupled.after {check : Render Unit} {r r' : Render α} (first : CoupledSteps L check (pure ()))
    (rest : Coupled L Q r r') : Coupled L Q (do check; r) r' := by
  have : r' = (do pure (); r') := (pure_bind () fun _ => r').symm
  rw [this]
  exact first.bind fun _ _ => rest

theorem coupled_context {f f' : Context → Render α} (h : ∀ c c', L.Contexts c c' → Coupled L Q (f c) (f' c')) :
    Coupled L Q (context >>= f) (context >>= f') := by
  intro s s' states
  rw [CoupledAt, outcome_bind, outcome_bind, outcome_context, outcome_context]
  exact h s.context s'.context states.contexts s s' states

theorem coupled_update {f f' : Context → Context} (h : ∀ c c', L.Contexts c c' → L.Contexts (f c) (f' c')) :
    CoupledSteps L (update f) (update f') :=
  fun s s' states => ⟨.ok trivial, h s.context s'.context states.contexts, states.events⟩

theorem coupled_write (text : String) : CoupledSteps L (write text) (write text) := by
  apply coupled_update
  rintro c c' ⟨⟨output, locale, none', functions, bindings⟩, hook, host, scratch, registries⟩
  exact ⟨⟨congrArg (· ++ text) output, locale, none', functions, bindings⟩, hook, host, scratch, registries⟩

theorem coupled_bind {name name' : String} (names : L.spelling.names name name') {v : Value} (held : v.Holds L.held) :
    CoupledSteps L (bind name v) (bind name' v) := by
  apply coupled_update
  rintro c c' ⟨⟨output, locale, none', functions, bindings⟩, hook, host, scratch, registries⟩
  exact ⟨⟨output, locale, none', functions, L.spelling.insert v bindings names⟩, hook, host, scratch.insert held,
    registries⟩

theorem coupled_record {e : Event} (h : ∀ l l', L.events l l' → L.events (e :: l) (e :: l')) :
    CoupledSteps L (record e) (record e) :=
  fun s s' states => ⟨.ok trivial, states.contexts, h s.events s'.events states.events⟩

theorem coupled_lift {x x' : Except Error α} (h : Results L.errors Q x x') : Coupled L Q (liftM x) (liftM x') := by
  intro s s' states
  rw [CoupledAt, outcome_lift, outcome_lift]
  exact ⟨h, states⟩

/-- Marking errors keeps renders coupled if marked errors are alike. -/
theorem Coupled.within {r r' : Render α} {path path' : Option String} (h : Coupled L Q r r')
    (marks : ∀ e e', L.errors e e' → L.errors (marked path e) (marked path' e')) :
    Coupled L Q (within path r) (within path' r') := by
  intro s s' states
  obtain ⟨results, after⟩ := h s s' states
  rw [CoupledAt, outcome_within, outcome_within]
  refine ⟨?_, after⟩
  generalize (outcome r s).1 = x at results ⊢
  generalize (outcome r' s').1 = x' at results ⊢
  cases results with
  | ok h => exact .ok h
  | error h => exact .error (marks _ _ h)

end Rules

/-! ## Rules for values, calls and loops -/

section Model

variable {L : Likeness} {model : Value} (held : model.Holds L.held)

include held in
theorem coupled_resolve (p : Path) : Coupled L (fun v => v.Holds L.held) (resolve model p) (resolve model p) := by
  apply coupled_context
  intro c c' alike
  rw [Scope.resolve_of_bindings (L.spelling.get?_eq alike.same.scratch)]
  apply coupled_lift
  cases h : Scope.resolve ⟨model, c.scratch⟩ p with
  | error e =>
    have values := Error.isOfValues_of_isOfIndex (Scope.resolve_error h)
    exact .error (L.errors_evaluation e (Error.isOfEvaluation_of_isOfValues values))
  | ok v => exact .ok (Scope.resolve_holds held alike.scratch h)

theorem coupled_call {c c' : Call} (calls : L.spelling.Calls c c') :
    Coupled L (fun _ => True) (call model c) (call model c') := by
  unfold call
  rw [calls.value, calls.arguments]
  cases c.value with
  | some text => exact coupled_pure trivial
  | none =>
    apply coupled_context
    intro ctx ctx' alike
    have same : Evaluation.call ⟨⟨model, ctx'.scratch⟩, ctx'.functions, ctx'.toSurroundings⟩ c'.name c.arguments
        = Evaluation.call ⟨⟨model, ctx.scratch⟩, ctx.functions,
          { ctx.toSurroundings with templates := ctx'.templates }⟩ c'.name c.arguments := by
      apply Evaluation.call_congr
      · exact fun text _ => Scope.argument_of_bindings (L.spelling.get?_eq alike.same.scratch) text
      · exact L.spelling.get?_eq alike.same.functions
      · exact alike.same.surroundings
    rw [same]
    exact coupled_lift (L.calls _ _ ctx.toSurroundings _ c.name c'.name c.arguments calls.name alike.host
      alike.registries)

theorem coupled_renderCall {c c' : Call} (calls : L.spelling.Calls c c') :
    CoupledSteps L (renderCall model c) (renderCall model c') := by
  apply (coupled_call calls).bind
  intro v _
  apply coupled_context
  intro ctx ctx' alike
  rw [alike.same.locale]
  exact coupled_write (ctx.locale.display v)

theorem coupled_holds (location : Location) (v : Value) :
    Coupled L (fun _ => True) (holds location v) (holds location v) := by
  unfold holds
  split
  · exact coupled_pure trivial
  · exact coupled_pure trivial
  · exact coupled_throw (L.errors_evaluation _ rfl)

include held in
theorem coupled_test {condition condition' : Condition} (conditions : L.spelling.Conditions condition condition')
    (location : Location) :
    Coupled L (fun _ => True) (test model condition location) (test model condition' location) := by
  cases conditions with
  | path p => exact (coupled_resolve held p).bind fun v _ => coupled_holds location v
  | call calls => exact (coupled_call calls).bind fun v _ => coupled_holds location v

/-- Where there is no hook, no value is dealt with. -/
theorem coupled_offer (p : Path) (v : Value) : Coupled L (fun handled => handled = false) (offer p v) (offer p v) := by
  apply coupled_context
  intro c c' alike
  have hook := alike.hook
  have hook' : c'.hook = none := alike.same.hook.trans hook
  simp only [hook, hook']
  exact coupled_pure rfl

theorem coupled_eachItem {item item' : String} (hItem : L.spelling.names item item') {index index' : Option String}
    (hIndex : Option.Rel L.spelling.names index index') {body body' : Render Unit} (h : CoupledSteps L body body')
    {items : List Value} (hi : ∀ v ∈ items, v.Holds L.held) (position : Nat) :
    CoupledSteps L (eachItem item index body position items) (eachItem item' index' body' position items) := by
  induction items generalizing position with
  | nil => exact coupled_pure trivial
  | cons v rest ih =>
    have later : CoupledSteps L (eachItem item index body (position + 1) rest)
        (eachItem item' index' body' (position + 1) rest) :=
      ih (fun w hw => hi w (List.mem_cons_of_mem v hw)) (position + 1)
    apply (coupled_bind hItem (hi v List.mem_cons_self)).bind
    intro _ _
    cases hIndex with
    | none => exact h.bind fun _ _ => later
    | some hName =>
      apply (coupled_bind hName (Value.holds_ofInt position)).bind
      intro _ _
      exact h.bind fun _ _ => later

/-! ## Rules for nodes -/

variable {nest nest' : List String → Template → Render Unit} {active active' : List String}

include held in
theorem coupled_renderValue (inside : ∀ t, L.held t → CoupledSteps L (nest active t) (nest' active' t)) (p : Path) :
    CoupledSteps L (renderValue model nest active p) (renderValue model nest' active' p) := by
  apply (coupled_resolve held p).bind
  intro v hv
  apply (coupled_offer p v).bind
  rintro _ rfl
  cases v with
  | template identity t => exact inside t (Value.holds_template hv)
  | null => exact coupled_pure trivial
  | _ => exact coupled_write _

include held in
theorem coupled_branch {body body' : List Node} {alternative alternative' : Option (List Node)}
    {condition condition' : Condition} (conditions : L.spelling.Conditions condition condition') (location : Location)
    (hb : CoupledSteps L (renderNodes model nest active body) (renderNodes model nest' active' body'))
    (ha : CoupledSteps L (renderAlternative model nest active alternative)
      (renderAlternative model nest' active' alternative')) :
    CoupledSteps L (renderNode model nest active (.branch condition body alternative location))
      (renderNode model nest' active' (.branch condition' body' alternative' location)) := by
  unfold renderNode
  apply (coupled_test held conditions location).bind
  intro holds _
  cases holds with
  | true => exact hb
  | false => exact ha

include held in
theorem coupled_loop {body body' : List Node} {item item' : String} (hItem : L.spelling.names item item')
    {index index' : Option String} (hIndex : Option.Rel L.spelling.names index index') (collection : Path)
    (location : Location)
    (hb : CoupledSteps L (renderNodes model nest active body) (renderNodes model nest' active' body')) :
    CoupledSteps L (renderNode model nest active (.loop item index collection body location))
      (renderNode model nest' active' (.loop item' index' collection body' location)) := by
  unfold renderNode
  apply (coupled_resolve held collection).bind
  intro v hv
  have cleared : CoupledSteps L (bind item .null) (bind item' .null) := coupled_bind hItem Value.holds_null
  cases v with
  | array items => exact (coupled_eachItem hItem hIndex hb (Value.holds_items hv) 0).bind fun _ _ => cleared
  | _ => exact (coupled_record (L.events_notIterable _ _)).bind fun _ _ => cleared

end Model

/-- An inclusion or a block asks both registries for its name, and renders what they have for it. -/
theorem coupled_renderNamed_of {L : Likeness} {nest nest' : List String → Template → Render Unit} {active : List String}
    {name name' : String} {use : TemplateUse} {T : Template → Template → Prop} (folded : fold name' = fold name)
    (circular : L.errors (.circularReference name) (.circularReference name'))
    (found : ∀ c c', L.Contexts c c' → Option.Rel T (c.templates.template? name) (c'.templates.template? name'))
    (missing : ∀ s s', L.States s s' → s.context.templates.template? name = none →
      L.events (.missingTemplate name use :: s.events) (.missingTemplate name' use :: s'.events))
    (inside : ∀ s s' t t', L.States s s' → s.context.templates.template? name = some t → T t t' → fold name ∉ active →
      CoupledAt L (fun _ => True) (nest (fold name :: active) t) (nest' (fold name :: active) t') s s') :
    CoupledSteps L (renderNamed nest active name use) (renderNamed nest' active name' use) := by
  intro s s' states
  unfold renderNamed
  rw [CoupledAt, outcome_bind, outcome_bind, outcome_context, outcome_context]
  have alike := found _ _ states.contexts
  simp only [folded]
  generalize here : s.context.templates.template? name = x at alike
  generalize s'.context.templates.template? name' = x' at alike
  cases alike with
  | none => exact ⟨.ok trivial, states.contexts, missing s s' states here⟩
  | @some t t' related =>
    by_cases active' : active.contains (fold name) = true
    · simp only [active', if_true]
      exact coupled_throw circular s s' states
    · simp only [active', if_false, Bool.false_eq_true]
      exact inside s s' t t' states here related (by simpa using active')

/-- The same for a name that is spelled the same and has the same template in both registries. -/
theorem coupled_renderNamed {L : Likeness} {nest nest' : List String → Template → Render Unit} {active : List String}
    {name : String} {use : TemplateUse} (circular : L.errors (.circularReference name) (.circularReference name))
    (same : ∀ c c', L.Contexts c c' → c'.templates.template? name = c.templates.template? name)
    (missing : ∀ s s', L.States s s' → s.context.templates.template? name = none →
      L.events (.missingTemplate name use :: s.events) (.missingTemplate name use :: s'.events))
    (inside : ∀ s s' t, L.States s s' → s.context.templates.template? name = some t → fold name ∉ active →
      CoupledAt L (fun _ => True) (nest (fold name :: active) t) (nest' (fold name :: active) t) s s') :
    CoupledSteps L (renderNamed nest active name use) (renderNamed nest' active name use) := by
  refine coupled_renderNamed_of (T := Eq) rfl circular (fun c c' alike => ?_) missing ?_
  · rw [same c c' alike]
    exact rel_refl (fun _ => rfl) _
  · rintro s s' t _ states found rfl fresh
    exact inside s s' t states found fresh

/-- A template is rendered as its nodes are, or asks both registries for its base and is rendered as the nodes that they
have for it, once its blocks are registered. -/
theorem coupled_renderTemplate {L : Likeness} {model : Value} {depth : Nat} {active : List String} {t t' : Template}
    {T : Template → Template → Prop} {f : String → String}
    (marks : ∀ e e', L.errors e e' → L.errors (marked t.sourcePath e) (marked t'.sourcePath e'))
    (bases : t'.base = t.base.map f)
    (own : t.base = none → CoupledSteps L (renderNodes model (renderTemplate model depth) active t.nodes)
      (renderNodes model (renderTemplate model depth) active t'.nodes))
    (found : ∀ b s s', t.base = some b → L.States s s' →
      Option.Rel T (s.context.templates.template? b) (s'.context.templates.template? (f b)))
    (missing : ∀ b s s', t.base = some b → L.States s s' → s.context.templates.template? b = none →
      L.errors (.baseTemplateNotFound b) (.baseTemplateNotFound (f b)))
    (inside : ∀ b u u' s s', t.base = some b → L.States s s' → s.context.templates.template? b = some u → T u u' →
      CoupledAt L (fun _ => True) (renderNodes model (renderTemplate model depth) active u.nodes)
        (renderNodes model (renderTemplate model depth) active u'.nodes)
        { s with context := s.context.withTemplates (s.context.templates.addBlocks t.blocks) }
        { s' with context := s'.context.withTemplates (s'.context.templates.addBlocks t'.blocks) }) :
    CoupledSteps L (renderTemplate model (depth + 1) active t) (renderTemplate model (depth + 1) active t') := by
  unfold renderTemplate
  refine Coupled.within ?_ marks
  cases extending : t.base with
  | none =>
    rw [extending, Option.map_none] at bases
    rw [compose_of_none extending, compose_of_none bases, pure_bind, pure_bind]
    exact own extending
  | some b =>
    rw [extending, Option.map_some] at bases
    intro s s' states
    rw [CoupledAt, outcome_bind, outcome_bind]
    have alike := found b s s' extending states
    generalize here : s.context.templates.template? b = x at alike
    generalize there : s'.context.templates.template? (f b) = x' at alike
    cases alike with
    | none =>
      rw [outcome_compose_of_missing extending here, outcome_compose_of_missing bases there]
      exact ⟨.error (missing b s s' extending states here), states⟩
    | some related =>
      rw [outcome_compose_of_some extending here, outcome_compose_of_some bases there]
      exact inside b _ _ s s' extending states here related

/-! ## Rules for all nodes -/

/-- Renders are coupled step by step. -/
def coupling (L : Likeness) {model : Value} (held : model.Holds L.held) : Simulation model where
  held := L.held
  calls _ := True
  Rel := Coupled L
  primitive step := by
    cases step with
    | pure h => exact coupled_pure h
    | write text => exact coupled_write text
    | bind name h => exact coupled_bind (L.spelling.names_refl name) h
    | notIterable collection kind => exact coupled_record (L.events_notIterable collection kind)
    | resolve p => exact coupled_resolve held p
    | renderCall _ => exact coupled_renderCall (.refl _ _)
    | @test condition location _ => exact coupled_test held (.refl _ condition) location
    | offer p v => exact (coupled_offer p v).imp fun _ _ => trivial
  bind first rest := first.bind rest

/-- Renders of the same nodes are coupled if their inclusions and blocks are, and the templates in values. -/
theorem coupled_renderNodes {L : Likeness} {model : Value} {nest nest' : List String → Template → Render Unit}
    {active active' : List String} (held : model.Holds L.held)
    (inside : ∀ t, L.held t → CoupledSteps L (nest active t) (nest' active' t)) (ns : List Node)
    (named : ∀ name use, (name, use) ∈ sitesAll ns →
      CoupledSteps L (renderNamed nest active name use) (renderNamed nest' active' name use)) :
    CoupledSteps L (renderNodes model nest active ns) (renderNodes model nest' active' ns) :=
  (coupling L held).renderNodes inside ns named fun _ _ _ _ => trivial

end Render

/-- What comes out of a render is taken from how its template ends. -/
theorem Context.render_eq (c : Context) (t : Template) (model : Value) : c.render t model
    = concluded (Render.outcome (Render.renderTemplate model (c.depth t) [] t) ⟨c.fresh, []⟩) := rfl

/-- Renders that end alike have the same output or errors that are alike. -/
theorem Context.mapError_concluded {g : Error → Error} {Q : Unit → Prop} {o o' : Except Error Unit × RenderState}
    (results : Render.Results (fun e e' => g e' = g e) Q o.1 o'.1)
    (output : o'.2.context.output = o.2.context.output) :
    (concluded o').1.mapError g = (concluded o).1.mapError g := by
  obtain ⟨x, s⟩ := o
  obtain ⟨x', s'⟩ := o'
  cases results with
  | ok _ => exact congrArg Except.ok output
  | error alike => exact congrArg Except.error alike

/-- Renders that end with the same have the same output or error. -/
theorem Context.concluded_congr {Q : Unit → Prop} {o o' : Except Error Unit × RenderState}
    (results : Render.Results Eq Q o.1 o'.1) (output : o'.2.context.output = o.2.context.output) :
    (concluded o').1 = (concluded o).1 := by
  obtain ⟨x, s⟩ := o
  obtain ⟨x', s'⟩ := o'
  cases results with
  | ok _ => exact congrArg Except.ok output
  | error same => exact congrArg Except.error same.symm

end Stencil
