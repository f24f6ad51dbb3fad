import Mathlib
import Stencil.Proofs.Rendering.Linking
import Stencil.Proofs.Syntax.Extension

/-!
# Bases that extend other templates

A template is rendered by the nodes of its base. If the base extends a template in turn, the call that names the base of
the base is among these nodes, and is evaluated as a call of a function that is not there. A template that is read calls
`extends` nowhere else, so that no other render comes to such a call.

A guarded render does what a render does, but ends with an alarm before it composes a template with a base that has a
base. Renders fail for want of a function `extends` where guarded ones end with the alarm, whatever the alarm is.

* `guards_renderTemplate`: a guarded render goes along with the render as long as no alarm is due.
* `Context.failsOnExtends_iff_usesChain`: renders fail on `extends` where they come to a base that has a base.
-/

namespace Stencil

/-- Templates that are read, and the bodies of their blocks. -/
inductive Template.IsSourced (t : Template) : Prop
  | read (h : t.IsRead)
  | block {whole : Template} {block : String × List Node} (h : whole.IsRead) (hb : block ∈ whole.blocks)
    (same : t = .ofNodes block.2)

theorem Template.IsSourced.headed {t : Template} : t.IsSourced → t.Headed
  | .read h => h.headed
  | .block h hb same => same ▸ h.headed.extendsFree_block hb

/-- Whether a template has a base that has a base. -/
def Registry.chains (r : Registry) (t : Template) : Bool := ((t.base.bind r.template?).bind Template.base).isSome

theorem Registry.chains_iff {r : Registry} {t : Template} : r.chains t = true
    ↔ ∃ base b, t.base = some base ∧ r.template? base = some b ∧ b.base.isSome = true := by
  simp only [chains, Option.isSome_iff_exists, Option.bind_eq_some_iff]
  constructor
  · rintro ⟨other, b, ⟨base, extending, found⟩, further⟩
    exact ⟨base, b, extending, found, other, further⟩
  · rintro ⟨base, b, extending, found, other, further⟩
    exact ⟨other, b, ⟨base, extending, found⟩, further⟩

namespace Context

/-- A template that is registered under a name, or that the hook can register under it. -/
inductive Offers (c : Context) (name : String) (t : Template) : Prop
  | registered (h : c.templates.template? name = some t)
  | byHook {hook : Hook} {path other : String} {v : Value} {s : Surroundings} (present : c.hook = some hook)
    (effect : .register other t ∈ (hook.offer path v s).effects) (same : fold name = fold other)

/-- Whether the template, or one that is offered, names a base that can have a base. -/
def HasChain (c : Context) (t : Template) : Prop :=
  ∃ u base b, (u = t ∨ ∃ name, c.Offers name u) ∧ u.base = some base ∧ c.Offers base b ∧ b.base.isSome = true

end Context

namespace Render

/-! ## Guarded renders -/

/-- Ends the render with the alarm if the template has a base that has a base. -/
def guardBase (alarm : Error) (t : Template) : Render Unit := do
  if (← context).templates.chains t then throw alarm else pure ()

/-- Renders a template as `renderTemplate` does, under the guard. -/
def renderGuarded (alarm : Error) (model : Value) : Nat → List String → Template → Render Unit
  | 0, _, _ => throw .nestingLimit
  | depth + 1, active, t =>
    within t.sourcePath do
      guardBase alarm t
      renderNodes model (renderGuarded alarm model depth) active (← compose t)

theorem outcome_guardBase (alarm : Error) (t : Template) (s : RenderState) : outcome (guardBase alarm t) s
    = if s.context.templates.chains t = true then (.error alarm, s) else (.ok (), s) := by
  unfold guardBase
  rw [outcome_bind, outcome_context]
  simp only
  split <;> rfl

/-! ## The nodes of a base that has a base -/

section Headed

variable (model : Value) (nest : List String → Template → Render Unit) (active : List String) {s : RenderState}

/-- A call of `extends` fails where the host has no function of that name. -/
theorem outcome_extends {c : Call} (name : c.name = "extends") (value : c.value = none)
    (host : s.context.functions.get? "extends" = none) :
    outcome (renderCall model c) s = (.error (.unknownFunction "extends"), s) := by
  have builtin : Builtin.function? "extends" = none := by decide
  unfold renderCall call
  rw [value, name]
  simp only
  rw [outcome_bind, outcome_bind, outcome_context]
  simp only [outcome_lift, Evaluation.call, Evaluation.function?, host, builtin, Option.or_none]

/-- Blanks are written, and then the call that names the base is evaluated. -/
theorem exists_outcome_of_base {t : Template} (headed : t.Headed) (base : t.base.isSome = true)
    (host : s.context.functions.get? "extends" = none) :
    ∃ s', outcome (renderNodes model nest active t.nodes) s = (.error (.unknownFunction "extends"), s') := by
  obtain ⟨name, extending⟩ := Option.isSome_iff_exists.1 base
  rw [Template.Headed, extending] at headed
  obtain ⟨blanks, c, rest, nodes, blank, named, value, -⟩ := headed
  rw [nodes]
  clear nodes
  induction blanks generalizing s with
  | nil =>
    refine ⟨s, ?_⟩
    rw [List.nil_append, renderNodes, renderNode, outcome_bind, outcome_extends model named value host]
  | cons n blanks ih =>
    rw [List.forall_mem_cons] at blank
    obtain ⟨isBlank, blank⟩ := blank
    cases n with
    | text content l =>
      rw [List.cons_append, renderNodes, renderNode, outcome_bind, write, outcome_update]
      exact ih host blank
    | _ => cases isBlank

/-- So a template with such a base fails. -/
theorem exists_outcome_of_chains {t b : Template} {base : String} (extending : t.base = some base)
    (found : s.context.templates.template? base = some b) (headed : b.Headed) (further : b.base.isSome = true)
    (host : s.context.functions.get? "extends" = none) :
    ∃ s', outcome (compose t >>= renderNodes model nest active) s = (.error (.unknownFunction "extends"), s') := by
  rw [outcome_bind, outcome_compose_of_some extending found]
  exact exists_outcome_of_base model nest active headed further host

end Headed

/-! ## Errors of other calls -/

/-- An error about values is no missing function. -/
theorem cause_ne_of_isOfValues {e : Error} (h : e.isOfValues = true) : e.cause ≠ .unknownFunction "extends" := by
  cases e <;> simp [Error.isOfValues, Error.isOfEvaluation, Error.cause] at h ⊢

/-- A call of another function fails for want of `extends` only if the host says so. -/
theorem cause_of_call {name : String} {e : Evaluation} {texts : List String} {err : Error}
    (h : e.call name texts = .error err) (other : name ≠ "extends") (cause : err.cause = .unknownFunction "extends") :
    ReturnedByHost e.functions err.cause := by
  rcases Evaluation.call_error h with rfl | h | ⟨f, i, found, returned⟩
  · exact absurd (Error.unknownFunction.inj cause) other
  · exact absurd cause (cause_ne_of_isOfValues h)
  · exact ⟨name, f, i, err, found, returned, rfl⟩

/-! ## The course of a render -/

section Course

variable (c₀ : Context) (t₀ : Template)

/-- A template that a render can come to: it has no base, or it is the first one, or one that is offered. -/
structure Entered (t : Template) : Prop where
  headed : t.Headed
  offered : t.base = none ∨ t = t₀ ∨ ∃ name, c₀.Offers name t

/-- What holds of the context at every moment of a render. -/
structure Sound (c : Context) : Prop where
  functions : c.functions = c₀.functions
  hook : c.hook = c₀.hook ∨ c.hook = none
  scratch : c.scratch.Holds fun _ => False
  templates : ∀ name t, c.templates.template? name = some t → t.Headed ∧ (t.base = none ∨ c₀.Offers name t)

/-- How a render ends, and how the guarded one does: in the same way, or with the alarm. -/
inductive EndsUnder (alarm : Error) {α : Type} (Q : α → Prop) :
    Except Error α × RenderState → Except Error α × RenderState → Prop
  | ok {a : α} {s : RenderState} (h : Q a) (sound : Sound c₀ s.context) : EndsUnder alarm Q (.ok a, s) (.ok a, s)
  | error {e : Error} {s : RenderState}
    (h : e.cause = .unknownFunction "extends" → ReturnedByHost c₀.functions e.cause) :
    EndsUnder alarm Q (.error e, s) (.error e, s)
  | alarmed {e e' : Error} {s s' : RenderState} (failed : e.cause = .unknownFunction "extends")
    (guarded : e'.cause = alarm.cause) (chain : c₀.HasChain t₀) : EndsUnder alarm Q (.error e, s) (.error e', s')

/-- The guarded render goes along with the render. -/
def Guards (alarm : Error) {α : Type} (Q : α → Prop) (r r' : Render α) : Prop :=
  ∀ s, Sound c₀ s.context → EndsUnder c₀ t₀ alarm Q (outcome r s) (outcome r' s)

end Course

variable {c₀ : Context} {t₀ : Template} {c : Context} {t : Template} {alarm : Error} {model : Value}

/-- The blocks of a template can be registered. -/
theorem Sound.addBlocks (h : Sound c₀ c) (headed : t.Headed) :
    Sound c₀ (c.withTemplates (c.templates.addBlocks t.blocks)) where
  functions := h.functions
  hook := h.hook
  scratch := h.scratch
  templates name u found := by
    rcases Registry.template?_addBlocks found with found | ⟨block, hb, -, rfl⟩
    · exact h.templates name u found
    · exact ⟨headed.extendsFree_block hb, .inl rfl⟩

/-- What the hook does keeps the context sound. -/
theorem Sound.offer (h : Sound c₀ c) (headed : ∀ name t, c₀.Offers name t → t.Headed) {hook : Hook}
    (present : c.hook = some hook) (path : String) (v : Value) (s : Surroundings) :
    Sound c₀ ((hook.offer path v s).effects.foldl Context.perform c) := by
  have first : c₀.hook = some hook := by
    rcases h.hook with same | none'
    · exact same ▸ present
    · rw [none'] at present
      cases present
  refine List.foldlRecOn _ _ h fun c h effect member => ?_
  obtain ⟨functions, hook', scratch, templates⟩ := h
  cases effect with
  | write text => exact ⟨functions, hook', scratch, templates⟩
  | dropHook => exact ⟨functions, .inr rfl, scratch, templates⟩
  | register name t =>
    refine ⟨functions, hook', scratch, fun other u found => ?_⟩
    rw [show (c.perform (.register name t)).templates = c.templates.add name t from rfl,
      Registry.template?_add] at found
    split at found
    · next same =>
      cases found
      have offers : c₀.Offers other t := .byHook first member same
      exact ⟨headed other t offers, .inr offers⟩
    · exact templates other u found

theorem EndsUnder.bind {α β : Type} {Q : α → Prop} {R : β → Prop} {r r' : Render α} {f f' : α → Render β}
    {s : RenderState} (first : EndsUnder c₀ t₀ alarm Q (outcome r s) (outcome r' s))
    (rest : ∀ a, Q a → Guards c₀ t₀ alarm R (f a) (f' a)) :
    EndsUnder c₀ t₀ alarm R (outcome (r >>= f) s) (outcome (r' >>= f') s) := by
  rw [outcome_bind, outcome_bind]
  generalize outcome r s = o at first ⊢
  generalize outcome r' s = o' at first ⊢
  cases first with
  | ok h sound => exact rest _ h _ sound
  | error h => exact .error h
  | alarmed failed guarded chain => exact .alarmed failed guarded chain

/-! ## Steps under the guard -/

theorem guards_resolve (free : model.isTemplateFree = true) (p : Path) :
    Guards c₀ t₀ alarm (fun v => v.Holds fun _ => False) (resolve model p) (resolve model p) := by
  intro s sound
  unfold resolve
  rw [outcome_bind, outcome_context]
  simp only [outcome_lift]
  cases h : Scope.resolve ⟨model, s.context.scratch⟩ p with
  | error e =>
    have values := Error.isOfValues_of_isOfIndex (Scope.resolve_error h)
    exact .error fun cause => absurd cause (cause_ne_of_isOfValues values)
  | ok v => exact .ok (Scope.resolve_holds (Value.holds_of_free free) sound.scratch h) sound

theorem guards_call {c : Call} (other : c.name ≠ "extends") :
    Guards c₀ t₀ alarm (fun _ => True) (call model c) (call model c) := by
  intro s sound
  unfold call
  cases c.value with
  | some text => exact .ok trivial sound
  | none =>
    simp only
    rw [outcome_bind, outcome_context]
    simp only [outcome_lift]
    cases h : Evaluation.call _ c.name c.arguments with
    | error e => exact .error fun cause => sound.functions ▸ cause_of_call h other cause
    | ok v => exact .ok trivial sound

theorem guards_write (text : String) : Guards c₀ t₀ alarm (fun _ => True) (write text) (write text) :=
  fun _ sound => .ok trivial ⟨sound.functions, sound.hook, sound.scratch, sound.templates⟩

theorem guards_renderCall {c : Call} (other : c.name ≠ "extends") :
    Guards c₀ t₀ alarm (fun _ => True) (renderCall model c) (renderCall model c) := by
  refine fun s sound => (guards_call other s sound).bind fun v _ s sound => ?_
  rw [outcome_bind, outcome_context]
  exact guards_write (s.context.locale.display v) s sound

theorem guards_holds (location : Location) (v : Value) :
    Guards c₀ t₀ alarm (fun _ => True) (holds location v) (holds location v) := by
  intro s sound
  unfold holds
  split
  · exact .ok trivial sound
  · exact .ok trivial sound
  · exact .error (by simp [Error.cause])

theorem guards_test (free : model.isTemplateFree = true) {condition : Condition} {location : Location}
    (other : ∀ c ∈ condition.call?, c.name ≠ "extends") :
    Guards c₀ t₀ alarm (fun _ => True) (test model condition location) (test model condition location) := by
  cases condition with
  | path p => exact fun s sound => (guards_resolve free p s sound).bind fun v _ => guards_holds location v
  | call c => exact fun s sound => (guards_call (other c rfl) s sound).bind fun v _ => guards_holds location v

theorem guards_offer (headed : ∀ name t, c₀.Offers name t → t.Headed) (p : Path) (v : Value) :
    Guards c₀ t₀ alarm (fun _ => True) (offer p v) (offer p v) := by
  intro s sound
  unfold offer
  rw [outcome_bind, outcome_context]
  cases present : s.context.hook with
  | none =>
    simp only [present]
    exact .ok trivial sound
  | some hook =>
    simp only [present]
    rw [outcome_bind, outcome_update]
    exact .ok trivial (sound.offer headed present p.text v s.context.toSurroundings)

/-- A step does the same under the guard, and keeps the context sound. Templates in values are not asked for. -/
theorem guards_primitive {α : Type} {Q : α → Prop} {r : Render α} (free : model.isTemplateFree = true)
    (headed : ∀ name t, c₀.Offers name t → t.Headed)
    (step : Primitive model (fun _ => False) (·.name ≠ "extends") Q r) : Guards c₀ t₀ alarm Q r r := by
  cases step with
  | pure h => exact fun s sound => .ok h sound
  | write text => exact guards_write text
  | bind name h =>
    exact fun s sound => .ok trivial ⟨sound.functions, sound.hook, sound.scratch.insert h, sound.templates⟩
  | notIterable collection kind => exact fun s sound => .ok trivial sound
  | resolve p => exact guards_resolve free p
  | renderCall other => exact guards_renderCall other
  | test other => exact guards_test free other
  | offer p v => exact guards_offer headed p v

/-- The guard is kept in all steps. -/
def guarding (c₀ : Context) (t₀ : Template) (alarm : Error) (model : Value) (free : model.isTemplateFree = true)
    (headed : ∀ name t, c₀.Offers name t → t.Headed) : Simulation model where
  held _ := False
  calls c := c.name ≠ "extends"
  Rel := Guards c₀ t₀ alarm
  primitive := guards_primitive free headed
  bind first rest s sound := (first s sound).bind rest

/-- A registered template is entered. -/
theorem guards_renderNamed {nest nest' : List String → Template → Render Unit} {active : List String}
    (inside : ∀ active t, Entered c₀ t₀ t → Guards c₀ t₀ alarm (fun _ => True) (nest active t) (nest' active t))
    (name : String) (use : TemplateUse) :
    Guards c₀ t₀ alarm (fun _ => True) (renderNamed nest active name use) (renderNamed nest' active name use) := by
  intro s sound
  unfold renderNamed
  rw [outcome_bind, outcome_bind, outcome_context]
  cases found : s.context.templates.template? name with
  | none =>
    simp only [found]
    exact .ok trivial sound
  | some t =>
    obtain ⟨headed, offered⟩ := sound.templates name t found
    simp only [found]
    split
    · exact .error (by simp [Error.cause])
    · exact inside _ t ⟨headed, offered.imp_right fun offers => .inr ⟨name, offers⟩⟩ s sound

/-! ## Templates under the guard -/

theorem Guards.within {r r' : Render Unit} (h : Guards c₀ t₀ alarm (fun _ => True) r r') (path : Option String) :
    Guards c₀ t₀ alarm (fun _ => True) (within path r) (within path r') := by
  intro s sound
  have ends := h s sound
  rw [outcome_within, outcome_within]
  generalize outcome r s = o at ends ⊢
  generalize outcome r' s = o' at ends ⊢
  cases ends with
  | ok h sound => exact .ok h sound
  | error h => exact .error (by rw [cause_marked]; exact h)
  | alarmed failed guarded chain =>
    exact .alarmed (by rw [cause_marked]; exact failed) (by rw [cause_marked]; exact guarded) chain

/-- Where no base has a base, the nodes that a template is rendered by do not call `extends`. -/
theorem endsUnder_compose {s : RenderState} (sound : Sound c₀ s.context) (entered : Entered c₀ t₀ t)
    (calm : ¬s.context.templates.chains t = true) :
    EndsUnder c₀ t₀ alarm ExtendsFree (outcome (compose t) s) (outcome (compose t) s) := by
  cases extending : t.base with
  | none =>
    rw [compose_of_none extending]
    exact .ok (entered.headed.extendsFree extending) sound
  | some base =>
    cases found : s.context.templates.template? base with
    | none =>
      rw [outcome_compose_of_missing extending found]
      exact .error (by simp [Error.cause])
    | some b =>
      have alone : b.base = none := by
        rw [Registry.chains_iff] at calm
        push Not at calm
        simpa using calm base b extending found
      rw [outcome_compose_of_some extending found]
      exact .ok ((sound.templates base b found).1.extendsFree alone) (sound.addBlocks entered.headed)

/-- **The guarded render goes along with the render.** The alarm is due where the render fails on `extends`. -/
theorem guards_renderTemplate (free : model.isTemplateFree = true)
    (headed : ∀ name t, c₀.Offers name t → t.Headed) (host : c₀.functions.get? "extends" = none) (depth : Nat)
    (active : List String) (entered : Entered c₀ t₀ t) :
    Guards c₀ t₀ alarm (fun _ => True) (renderTemplate model depth active t)
      (renderGuarded alarm model depth active t) := by
  induction depth generalizing active t with
  | zero => exact fun s _ => .error (by simp [Error.cause])
  | succ depth ih =>
    have nodes (ns : List Node) (extendsFree : ExtendsFree ns) :
        Guards c₀ t₀ alarm (fun _ => True) (renderNodes model (renderTemplate model depth) active ns)
          (renderNodes model (renderGuarded alarm model depth) active ns) :=
      (guarding c₀ t₀ alarm model free headed).renderNodes (fun _ => False.elim) ns
        (fun name use _ => guards_renderNamed (fun active t entered => ih active entered) name use) extendsFree
    unfold renderTemplate renderGuarded
    refine Guards.within (fun s sound => ?_) t.sourcePath
    rw [outcome_bind (guardBase alarm t), outcome_guardBase]
    by_cases chained : s.context.templates.chains t = true
    · -- The alarm goes off, and the render evaluates the call that names the base of the base.
      obtain ⟨base, b, extending, found, further⟩ := Registry.chains_iff.1 chained
      obtain ⟨headed', offered⟩ := sound.templates base b found
      have offers : c₀.Offers base b := offered.resolve_left fun alone => by simp [alone] at further
      have reached := entered.offered.resolve_left fun alone => by simp [alone] at extending
      obtain ⟨s', fails⟩ := exists_outcome_of_chains model (renderTemplate model depth) active extending found headed'
        further (sound.functions ▸ host)
      rw [if_pos chained, fails]
      exact .alarmed rfl rfl ⟨t, base, b, reached, extending, offers, further⟩
    · rw [if_neg chained]
      exact (endsUnder_compose sound entered chained).bind nodes

end Render

/-! ## Renders from a context -/

namespace Context

variable (c : Context) (t : Template) (model : Value)

/-- Renders a template as `render` does, under the guard. -/
def renderGuarded (alarm : Error) : Except Error String × Context × List Event :=
  concluded ((Render.renderGuarded alarm model (c.depth t) [] t).run ⟨c.fresh, []⟩)

theorem renderGuarded_eq (alarm : Error) : c.renderGuarded t model alarm
    = concluded (Render.outcome (Render.renderGuarded alarm model (c.depth t) [] t) ⟨c.fresh, []⟩) := rfl

/-- Whether a render comes to a base that has a base: the guard then ends it with any alarm. -/
def UsesChain : Prop := ∀ alarm, ∃ e, (c.renderGuarded t model alarm).1 = .error e ∧ e.cause = alarm.cause

/-- Whether a render fails because there is no function `extends`. -/
def FailsOnExtends : Prop := ∃ e, (c.render t model).1 = .error e ∧ e.cause = .unknownFunction "extends"

variable {c t model}

/-- A template whose base has a base comes to it at once. -/
theorem usesChain_of_chains (h : c.templates.chains t = true) : c.UsesChain t model := by
  intro alarm
  obtain ⟨depth, hd⟩ : ∃ depth, c.depth t = depth + 1 := ⟨_, rfl⟩
  have ends : (Render.outcome (Render.renderGuarded alarm model (c.depth t) [] t) ⟨c.fresh, []⟩)
      = (.error (Render.marked t.sourcePath alarm), ⟨c.fresh, []⟩) := by
    rw [hd, Render.renderGuarded, Render.outcome_within, Render.outcome_bind, Render.outcome_guardBase,
      if_pos (show c.fresh.templates.chains t = true from h)]
    rfl
  refine ⟨Render.marked t.sourcePath alarm, ?_, Render.cause_marked _ _⟩
  rw [renderGuarded_eq, ends]
  rfl

/-- A guarded render is the render, or it ends with the alarm and the render fails on `extends`. -/
theorem renderGuarded_cases (host : c.functions.get? "extends" = none)
    (sourced : ∀ name u, c.Offers name u → u.IsSourced) (first : t.IsSourced) (free : model.isTemplateFree = true)
    (alarm : Error) :
    (c.renderGuarded t model alarm = c.render t model
        ∧ (c.FailsOnExtends t model → ReturnedByHost c.functions (.unknownFunction "extends")))
      ∨ (c.FailsOnExtends t model ∧ (∃ e, (c.renderGuarded t model alarm).1 = .error e ∧ e.cause = alarm.cause)
        ∧ c.HasChain t) := by
  have headed (name : String) (u : Template) (offers : c.Offers name u) : u.Headed := (sourced name u offers).headed
  have sound : Render.Sound c c.fresh := by
    refine ⟨rfl, .inl rfl, NameMap.holds_empty, fun name u found => ?_⟩
    exact ⟨headed name u (.registered found), .inr (.registered found)⟩
  have ends : Render.EndsUnder c t alarm (fun _ => True)
      (Render.outcome (Render.renderTemplate model (c.depth t) [] t) ⟨c.fresh, []⟩)
      (Render.outcome (Render.renderGuarded alarm model (c.depth t) [] t) ⟨c.fresh, []⟩) :=
    Render.guards_renderTemplate free headed host (c.depth t) [] ⟨first.headed, .inr (.inl rfl)⟩ _ sound
  unfold FailsOnExtends
  rw [render_eq, renderGuarded_eq]
  generalize Render.outcome (Render.renderTemplate model (c.depth t) [] t) ⟨c.fresh, []⟩ = o at ends ⊢
  generalize Render.outcome (Render.renderGuarded alarm model (c.depth t) [] t) ⟨c.fresh, []⟩ = o' at ends ⊢
  cases ends with
  | ok h sound =>
    refine .inl ⟨rfl, ?_⟩
    rintro ⟨e, failed, -⟩
    cases failed
  | error h =>
    refine .inl ⟨rfl, ?_⟩
    rintro ⟨e, failed, cause⟩
    cases failed
    exact cause ▸ h cause
  | alarmed failed guarded chain => exact .inr ⟨⟨_, rfl, failed⟩, ⟨_, rfl, guarded⟩, chain⟩

/-- **A render of templates that are read fails on `extends` where it comes to a base that has a base.** Otherwise it
does so only if a function of the host says so. No render comes to such a base if no template at hand has one. -/
theorem failsOnExtends_iff_usesChain (host : c.functions.get? "extends" = none)
    (sourced : ∀ name u, c.Offers name u → u.IsSourced) (first : t.IsSourced) (free : model.isTemplateFree = true) :
    (c.UsesChain t model → c.FailsOnExtends t model ∧ c.HasChain t)
      ∧ (c.FailsOnExtends t model →
        c.UsesChain t model ∨ ReturnedByHost c.functions (.unknownFunction "extends")) := by
  have either := renderGuarded_cases host sourced first free
  constructor
  · intro uses
    -- One error of the render cannot be two alarms.
    rcases either .nestingLimit with ⟨same, -⟩ | ⟨fails, -, chain⟩
    · rcases either (.circularReference "") with ⟨same', -⟩ | ⟨fails, -, chain⟩
      · obtain ⟨e, failed, cause⟩ := uses .nestingLimit
        obtain ⟨e', failed', cause'⟩ := uses (.circularReference "")
        rw [same] at failed
        rw [same', failed] at failed'
        cases failed'
        rw [cause] at cause'
        cases cause'
      · exact ⟨fails, chain⟩
    · exact ⟨fails, chain⟩
  · intro fails
    by_cases returned : ReturnedByHost c.functions (.unknownFunction "extends")
    · exact .inr returned
    · refine .inl fun alarm => ?_
      rcases either alarm with ⟨-, onlyHost⟩ | ⟨-, ends, -⟩
      · exact absurd (onlyHost fails) returned
      · exact ends

/-- A page whose layout extends another one. -/
theorem failsOnExtends_iff_usesChain_page :
    let page : Template := ⟨[.call ⟨"extends", ["layout"], none, ⟨1, 3, 2⟩⟩], some "layout", none, ["layout"]⟩
    let layout : Template := ⟨[.call ⟨"extends", ["root"], none, ⟨1, 3, 2⟩⟩], some "root", none, ["root"]⟩
    let root : Template := ⟨[.text "x" .origin], none, none, []⟩
    let c := (Context.empty.addTemplate "layout" layout).addTemplate "root" root
    c.functions.get? "extends" = none ∧ (∀ name u, c.Offers name u → u.IsSourced) ∧ page.IsSourced
      ∧ Value.isTemplateFree .null = true ∧ c.UsesChain page .null ∧ c.FailsOnExtends page .null := by
  intro page layout root c
  have host : c.functions.get? "extends" = none := rfl
  have sourced (name : String) (u : Template) : c.Offers name u → u.IsSourced := by
    rintro (found | ⟨present, -, -⟩)
    · rw [show c.templates = ((Registry.add .empty "layout" layout).add "root" root) from rfl,
        Registry.template?_add, Registry.template?_add] at found
      split at found
      · cases found
        exact .read ⟨"x", {}, by cbv⟩
      split at found
      · cases found
        exact .read ⟨"{{extends root}}", {}, by cbv⟩
      · cases found
    · cases present
  have first : page.IsSourced := .read ⟨"{{extends layout}}", {}, by cbv⟩
  have uses : c.UsesChain page .null := usesChain_of_chains (by decide)
  have fails := ((failsOnExtends_iff_usesChain host sourced first Value.isTemplateFree_null).1 uses).1
  exact ⟨host, sourced, first, Value.isTemplateFree_null, uses, fails⟩

end Context

end Stencil
