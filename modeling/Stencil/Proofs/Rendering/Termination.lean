import Stencil.Proofs.Rendering.Coupling
import Stencil.Proofs.Rendering.Registration

/-!
# Renders end

A watched render does what a render does, and besides checks the active names and the registry: whenever it enters a
template, has composed it and leaves it. If a check fails, or the depth that it is given is used up, it ends with an
alarm.

* `Context.renderWatched_eq_render`: from any registry, with any depth above the number of known names, a watched render
  of values without templates, without a hook, is the render, whatever the alarm is. So no check fails and no depth is
  used up: the render ends by itself, with its output or with an error of its own.
-/

namespace Stencil

namespace Render

/-! ## The watch -/

/-- What holds at every moment of a render: the active names are distinct, registered, and not more than the names that
are known; the registry keeps the names it had and gains known ones only. -/
structure Orderly (initial known active : List String) (r : Registry) : Prop where
  distinct : active.Nodup
  registered : ∀ key ∈ active, key ∈ r.keys
  bounded : active.length ≤ known.dedup.length
  kept : ∀ key ∈ initial, key ∈ r.keys
  gained : ∀ key ∈ r.keys, key ∈ known

instance (initial known active : List String) (r : Registry) : Decidable (Orderly initial known active r) :=
  decidable_of_iff
    (active.Nodup ∧ (∀ key ∈ active, key ∈ r.keys) ∧ active.length ≤ known.dedup.length
      ∧ (∀ key ∈ initial, key ∈ r.keys) ∧ ∀ key ∈ r.keys, key ∈ known)
    ⟨fun ⟨h₁, h₂, h₃, h₄, h₅⟩ => ⟨h₁, h₂, h₃, h₄, h₅⟩, fun ⟨h₁, h₂, h₃, h₄, h₅⟩ => ⟨h₁, h₂, h₃, h₄, h₅⟩⟩

section Watch

variable (initial known : List String) (alarm : Error)

/-- Ends the render with the alarm unless all is well. -/
def check (active : List String) : Render Unit := do
  if Orderly initial known active (← context).templates then pure () else throw alarm

/-- Renders a template down to a depth as `renderTemplate` does, under the watch. -/
def renderWatched (model : Value) : Nat → List String → Template → Render Unit
  | 0, _, _ => throw alarm
  | depth + 1, active, t =>
    within t.sourcePath do
      check initial known alarm active
      let nodes ← compose t
      check initial known alarm active
      renderNodes model (renderWatched model depth) active nodes
      check initial known alarm active

end Watch

/-! ## The registry under active names -/

variable {initial known active : List String} {r : Registry} {t : Template}

/-- What holds of the registry under active names. Templates that are registered register known names only. -/
structure Contained (initial known active : List String) (r : Registry) : Prop where
  registered : ∀ key ∈ active, key ∈ r.keys
  kept : ∀ key ∈ initial, key ∈ r.keys
  gained : ∀ key ∈ r.keys, key ∈ known
  gains : ∀ name t, r.template? name = some t → ∀ key ∈ t.gains, key ∈ known

namespace Contained

theorem length_le (h : Contained initial known active r) (distinct : active.Nodup) :
    active.length ≤ known.dedup.length :=
  length_le_dedup distinct fun key hk => h.gained key (h.registered key hk)

theorem orderly (h : Contained initial known active r) (distinct : active.Nodup) : Orderly initial known active r :=
  ⟨distinct, h.registered, h.length_le distinct, h.kept, h.gained⟩

/-- A name that has a template can become active. -/
theorem enter (h : Contained initial known active r) {name : String} (found : r.template? name = some t) :
    Contained initial known (fold name :: active) r := by
  refine ⟨?_, h.kept, h.gained, h.gains⟩
  intro key hk
  rcases List.mem_cons.1 hk with rfl | hk
  · exact Registry.mem_keys_of_template? found
  · exact h.registered key hk

theorem leave {key : String} (h : Contained initial known (key :: active) r) : Contained initial known active r :=
  ⟨fun other ho => h.registered other (List.mem_cons_of_mem key ho), h.kept, h.gained, h.gains⟩

/-- Blocks of known names can be registered: they register nothing in turn. -/
theorem addBlocks (h : Contained initial known active r) {blocks : List (String × List Node)}
    (names : ∀ key ∈ blocks.map fun block => fold block.1, key ∈ known) :
    Contained initial known active (r.addBlocks blocks) := by
  constructor
  · intro key hk
    exact Registry.mem_keys_addBlocks.2 (.inl (h.registered key hk))
  · intro key hk
    exact Registry.mem_keys_addBlocks.2 (.inl (h.kept key hk))
  · intro key hk
    rcases Registry.mem_keys_addBlocks.1 hk with hk | hk
    · exact h.gained key hk
    · exact names key hk
  · intro name t found key hk
    rcases Registry.template?_addBlocks found with found | ⟨block, _, -, rfl⟩
    · exact h.gains name t found key hk
    · cases hk

end Contained

/-- Watched and other renders have the same contexts, events and errors. -/
def underWatch (initial known active : List String) : Likeness :=
  .equal (fun _ _ => True) (fun r r' => r' = r ∧ Contained initial known active r) (fun _ => False) <| by
    rintro scope functions s _ name texts - ⟨rfl, -⟩
    rfl

/-- Renders that are alike in this way do the same. -/
theorem outcome_eq_of_underWatch {α : Type} {Q : α → Prop} {r r' : Render α}
    (h : Coupled (underWatch initial known active) Q r r') {s : RenderState}
    (states : (underWatch initial known active).States s s) : outcome r s = outcome r' s := by
  obtain ⟨results, after⟩ := h s s states
  generalize outcome r s = o at results after ⊢
  generalize outcome r' s = o' at results after ⊢
  obtain ⟨x, t⟩ := o
  obtain ⟨x', t'⟩ := o'
  have context : t'.context = t.context := by
    rw [Spelling.eq_of_exact after.contexts.same, after.contexts.registries.1]
    rfl
  have events : t.events = t'.events := after.events
  have result : x = x' := by
    cases results with
    | ok h => rfl
    | error h => exact congrArg Except.error h
  obtain ⟨c, l⟩ := t
  obtain ⟨c', l'⟩ := t'
  cases context
  cases events
  rw [result]

/-! ## A watched render is the render -/

variable {alarm : Error} {model : Value}

theorem coupled_check (distinct : active.Nodup) :
    CoupledSteps (underWatch initial known active) (check initial known alarm active) (pure ()) := by
  intro s s' states
  have fine : Orderly initial known active s.context.templates := states.contexts.registries.2.orderly distinct
  have passed : outcome (check initial known alarm active) s = (.ok (), s) := by
    unfold check
    rw [outcome_bind, outcome_context]
    simp only [fine, if_true]
    rfl
  rw [CoupledAt, passed, outcome_pure]
  exact ⟨.ok trivial, states⟩

theorem coupled_compose (names : ∀ key ∈ t.gains, key ∈ known) :
    Coupled (underWatch initial known active) (fun _ => True) (compose t) (compose t) := by
  unfold compose
  unfold Template.gains at names
  cases hb : t.base with
  | none => exact coupled_pure trivial
  | some base =>
    rw [hb] at names
    apply coupled_context
    intro c c' alike
    rw [alike.registries.1]
    cases c.templates.template? base with
    | none => exact coupled_throw rfl
    | some b =>
      refine (coupled_update fun c c' alike => ?_).bind fun _ _ => coupled_pure trivial
      obtain ⟨same, contained⟩ := alike.registries
      rw [Context.foldl_addTemplate, Context.foldl_addTemplate, same]
      exact alike.withTemplates ⟨rfl, contained.addBlocks names⟩

/-- An inclusion or a block makes its name active if it has a template and is not active yet. -/
theorem coupled_watchedNamed {nest nest' : List String → Template → Render Unit} (distinct : active.Nodup)
    (inside : ∀ key t, (key :: active).Nodup → (∀ key ∈ t.gains, key ∈ known) →
      CoupledSteps (underWatch initial known (key :: active)) (nest (key :: active) t) (nest' (key :: active) t))
    (name : String) (use : TemplateUse) :
    CoupledSteps (underWatch initial known active) (renderNamed nest active name use)
      (renderNamed nest' active name use) := by
  refine coupled_renderNamed rfl (fun c c' alike => by rw [alike.registries.1])
    (fun s s' states _ => congrArg _ states.events) fun s s' t states found fresh => ?_
  have distinct' : (fold name :: active).Nodup := List.nodup_cons.2 ⟨fresh, distinct⟩
  obtain ⟨contexts, events⟩ := states
  obtain ⟨same, hook, host, scratch, equal, contained⟩ := contexts
  -- The nested render starts and ends under one more active name.
  obtain ⟨results, left⟩ := inside (fold name) t distinct' (contained.gains name t found) s s'
    ⟨⟨same, hook, host, scratch, equal, contained.enter found⟩, events⟩
  obtain ⟨⟨same, hook, host, scratch, equal, contained⟩, events⟩ := left
  exact ⟨results, ⟨same, hook, host, scratch, equal, contained.leave⟩, events⟩

/-- The depth counts the names that are not active yet, so that it is not used up. -/
theorem coupled_renderWatched (free : model.isTemplateFree = true) {depth depth' : Nat} (distinct : active.Nodup)
    (names : ∀ key ∈ t.gains, key ∈ known) (enough : known.dedup.length < active.length + depth)
    (enough' : known.dedup.length < active.length + depth') :
    CoupledSteps (underWatch initial known active) (renderWatched initial known alarm model depth active t)
      (renderTemplate model depth' active t) := by
  induction depth generalizing depth' active t with
  | zero =>
    intro s s' states
    have := states.contexts.registries.2.length_le distinct
    omega
  | succ depth ih =>
    cases depth' with
    | zero =>
      intro s s' states
      have := states.contexts.registries.2.length_le distinct
      omega
    | succ depth' =>
      have checked : CoupledSteps (underWatch initial known active) (check initial known alarm active) (pure ()) :=
        coupled_check distinct
      have inside (key : String) (t : Template) (distinct' : (key :: active).Nodup)
          (names' : ∀ key ∈ t.gains, key ∈ known) :
          CoupledSteps (underWatch initial known (key :: active))
            (renderWatched initial known alarm model depth (key :: active) t)
            (renderTemplate model depth' (key :: active) t) := by
        have more : (key :: active).length = active.length + 1 := List.length_cons
        exact ih distinct' names' (by omega) (by omega)
      have body (nodes : List Node) : CoupledSteps (underWatch initial known active)
          (renderNodes model (renderWatched initial known alarm model depth) active nodes)
          (renderNodes model (renderTemplate model depth') active nodes) :=
        coupled_renderNodes (Value.holds_of_free free) (fun _ => False.elim) nodes
          fun name use _ => coupled_watchedNamed distinct inside name use
      unfold renderWatched renderTemplate
      refine Coupled.within (checked.after ((coupled_compose names).bind fun nodes _ => checked.after ?_)) ?_
      · have : renderNodes model (renderTemplate model depth') active nodes
            = (do renderNodes model (renderTemplate model depth') active nodes; pure ()) := bind_pure_unit.symm
        rw [this]
        exact (body nodes).bind fun _ _ => checked
      · rintro e _ rfl
        rfl

end Render

namespace Context

variable (c : Context) (t : Template) (model : Value)

/-- Renders a template as `render` does, down to a depth and under the watch. -/
def renderWatched (alarm : Error) (depth : Nat) : Except Error String × Context × List Event :=
  concluded
    ((Render.renderWatched c.templates.keys (c.knownNames t) alarm model depth [] t).run ⟨c.fresh, []⟩)

/-- What is registered before a render is known. -/
theorem contained_fresh : Render.Contained c.templates.keys (c.knownNames t) [] c.fresh.templates := by
  constructor
  · intro key hk
    cases hk
  · intro key hk
    exact hk
  · intro key hk
    exact List.mem_append_left _ (List.mem_append_left _ hk)
  · intro name u found key hk
    exact List.mem_append_left _ (List.mem_append_right _ (Registry.mem_gains found hk))

/-- Above the number of known names, depths do not matter, neither with the watch nor without. -/
theorem outcome_renderWatched (hook : c.hook = none) (free : model.isTemplateFree = true) (alarm : Error)
    {depth depth' : Nat} (enough : (c.knownNames t).dedup.length < depth)
    (enough' : (c.knownNames t).dedup.length < depth') :
    Render.outcome (Render.renderWatched c.templates.keys (c.knownNames t) alarm model depth [] t) ⟨c.fresh, []⟩
      = Render.outcome (Render.renderTemplate model depth' [] t) ⟨c.fresh, []⟩ := by
  have start : (Render.underWatch c.templates.keys (c.knownNames t) []).States ⟨c.fresh, []⟩ ⟨c.fresh, []⟩ :=
    ⟨⟨Render.Spelling.exact_same _ _, hook, trivial, NameMap.holds_empty, rfl, c.contained_fresh t⟩, rfl⟩
  have names : ∀ key ∈ t.gains, key ∈ c.knownNames t := fun key hk => List.mem_append_right _ hk
  exact Render.outcome_eq_of_underWatch
    (Render.coupled_renderWatched free List.nodup_nil names (by simpa using enough) (by simpa using enough')) start

/-- **A render ends.** Its names stay in order, and it does not use up any depth beyond the number of known names. -/
theorem renderWatched_eq_render (hook : c.hook = none) (free : model.isTemplateFree = true) (alarm : Error)
    {depth : Nat} (enough : (c.knownNames t).dedup.length < depth) :
    c.renderWatched t model alarm depth = c.render t model :=
  congrArg concluded (c.outcome_renderWatched t model hook free alarm enough (c.length_knownNames_lt t))

theorem renderWatched_eq_render_loop :
    let c := Context.empty.addTemplate "loop" (.ofNodes [.inclusion "loop" .origin])
    let t := Template.ofNodes [.inclusion "Loop" .origin]
    c.hook = none ∧ Value.isTemplateFree .null = true ∧ (c.knownNames t).dedup.length < 2
      ∧ c.renderWatched t .null .nestingLimit 2 = c.render t .null :=
  ⟨rfl, Value.isTemplateFree_null, by decide,
    renderWatched_eq_render _ _ _ rfl Value.isTemplateFree_null _ (by decide)⟩

end Context

end Stencil
