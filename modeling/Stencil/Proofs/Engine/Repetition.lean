import Stencil.Proofs.Engine.Operations
import Stencil.Proofs.Rendering.Repetition

/-!
# Rendering many times

An engine is read once and rendered many times. If its setting is sheltered, a render does not change what later renders
of any models produce (`Engine.render_after`). Otherwise it can: where the body of a block takes the name of the base of
its own template, the next render extends the body in place of the base.

A loader makes no difference. If it fails, it fails alike before each render, and if it does not, nothing is left to
load for later renders.
-/

namespace Stencil

namespace Engine

/-- The engine after renders of models, whatever came out of them. -/
def after (e : Engine) (fs : FileSystem) (models : List Value) : Engine :=
  models.foldl (fun e model => (e.render fs model).2.1) e

/-- The context that a render of the engine starts from: if there is a loader, what is pending is loaded by then. -/
def prepared (e : Engine) (fs : FileSystem) : Except Error Context :=
  match e.loader with
  | none => .ok e.context
  | some l => (l.loadPending fs e.context).1.map fun _ => (l.loadPending fs e.context).2.context

variable {e : Engine} {fs : FileSystem} {model : Value} {c c' : Context} {x : Except Error String}
  {events : List Event} {fault : Error}

theorem prepared_cases (ready : e.prepared fs = .ok c) : (e.loader = none ∧ c = e.context)
    ∨ ∃ l k s, e.loader = some l ∧ l.loadPending fs e.context = (.ok k, s) ∧ c = s.context := by
  unfold prepared at ready
  cases own : e.loader with
  | none =>
    rw [own] at ready
    exact .inl ⟨rfl, (Except.ok.inj ready).symm⟩
  | some l =>
    rw [own] at ready
    simp only at ready
    rcases outcome : l.loadPending fs e.context with ⟨_ | k, s⟩ <;> rw [outcome] at ready
    · cases ready
    · exact .inr ⟨l, k, s, rfl, outcome, (Except.ok.inj ready).symm⟩

theorem prepared_error (failed : e.prepared fs = .error fault) :
    ∃ l s, e.loader = some l ∧ l.loadPending fs e.context = (.error fault, s) := by
  unfold prepared at failed
  cases own : e.loader with
  | none =>
    rw [own] at failed
    cases failed
  | some l =>
    rw [own] at failed
    simp only at failed
    rcases outcome : l.loadPending fs e.context with ⟨_ | k, s⟩ <;> rw [outcome] at failed
    · cases failed
      exact ⟨l, s, rfl, outcome⟩
    · cases failed

/-- Only the registry is not as it was in the engine, and no name is pending if there is a loader. -/
theorem prepared_same (nodup : e.context.templates.keys.Nodup) (ready : e.prepared fs = .ok c) :
    c = e.context.withTemplates c.templates ∧ c.templates.keys.Nodup
      ∧ (e.loader ≠ none → c.templates.pending = []) := by
  rcases prepared_cases ready with ⟨own, rfl⟩ | ⟨l, k, s, own, filled, rfl⟩
  · exact ⟨rfl, nodup, fun some' => absurd own some'⟩
  · have same := Loader.loadPending_same l fs e.context
    have nodup' := Loader.nodup_loadPending nodup l fs
    have complete := Loader.loadPending_ok nodup (show (l.loadPending fs e.context).1 = .ok k by rw [filled])
    rw [filled] at same nodup' complete
    exact ⟨same, nodup', fun _ => complete⟩

theorem result_of_prepared (ready : e.prepared fs = .ok c) (model : Value) :
    (e.render fs model).1 = (c.render e.template model).1 := by
  rcases rendered : c.render e.template model with ⟨x, c', events⟩
  rcases prepared_cases ready with ⟨own, rfl⟩ | ⟨l, k, s, own, filled, rfl⟩
  · rw [render_of_none own rendered]
  · rw [render_of_ok own filled rendered]

/-- What a render of the engine leaves for the next one, which has nothing to load. -/
theorem render_of_prepared (ready : e.prepared fs = .ok c) (rendered : c.render e.template model = (x, c', events))
    (complete : e.loader ≠ none → c'.templates.pending = []) :
    (e.render fs model).2.1.template = e.template ∧ (e.render fs model).2.1.prepared fs = .ok c'
      ∧ ((e.render fs model).2.1.loader ≠ none → e.loader ≠ none) := by
  rcases prepared_cases ready with ⟨own, rfl⟩ | ⟨l, k, s, own, filled, rfl⟩
  · rw [render_of_none own rendered]
    refine ⟨rfl, ?_, id⟩
    unfold prepared
    simp only [own]
  · have some' : e.loader ≠ none := by simp [own]
    rw [render_of_ok own filled rendered]
    refine ⟨rfl, ?_, fun _ => some'⟩
    unfold prepared
    simp only [Loader.loadPending_of_complete (complete some')]
    rfl

/-! ## Renders where loading fails -/

/-- If loading fails, so does every render, and loading goes on to fail. -/
theorem render_of_unprepared (nodup : e.context.templates.keys.Nodup) (failed : e.prepared fs = .error fault)
    (model : Value) : (e.render fs model).1 = .error fault
      ∧ (e.render fs model).2.1.context.templates.keys.Nodup ∧ (e.render fs model).2.1.prepared fs = .error fault := by
  obtain ⟨l, s, own, outcome⟩ := prepared_error failed
  have nodup' := Loader.nodup_loadPending nodup l fs
  have again := Loader.loadPending_again nodup (show (l.loadPending fs e.context).1 = .error fault by rw [outcome])
  rw [outcome] at nodup' again
  rw [render_of_error own outcome]
  refine ⟨rfl, nodup', ?_⟩
  unfold prepared
  simp only [again]
  rfl

theorem unprepared_after (nodup : e.context.templates.keys.Nodup) (failed : e.prepared fs = .error fault)
    (models : List Value) :
    (e.after fs models).context.templates.keys.Nodup ∧ (e.after fs models).prepared fs = .error fault := by
  induction models generalizing e with
  | nil => exact ⟨nodup, failed⟩
  | cons model models ih =>
    obtain ⟨-, nodup', failed'⟩ := render_of_unprepared nodup failed model
    exact ih nodup' failed'

/-! ## Renders of an engine that is prepared -/

/-- An engine as renders leave it, whose renders started from a context. -/
structure Follows (g : Setting) (fs : FileSystem) (c : Context) (e : Engine) : Prop where
  template : e.template = g.template
  ready : ∃ c', e.prepared fs = .ok c' ∧ c.Follows g c'
  complete : e.loader ≠ none → g.registry.pending = []

variable {g : Setting} (hook : c.hook = none) (blind : ∀ name f, c.functions.get? name = some f → f.IsBlind)
  (sheltered : g.Sheltered)

include hook blind sheltered

theorem Follows.render (h : e.Follows g fs c) (held : model.Holds g.held) :
    (e.render fs model).2.1.Follows g fs c := by
  obtain ⟨template, ⟨c', ready, follows⟩, complete⟩ := h
  rcases rendered : c'.render e.template model with ⟨x, c'', events⟩
  have follows' := Context.follows_render hook blind sheltered held follows (template ▸ rendered)
  obtain ⟨template', ready', loader⟩ :=
    render_of_prepared ready rendered fun some' => follows'.varied.filled (complete some')
  exact ⟨template'.trans template, ⟨c'', ready', follows'⟩, fun some' => complete (loader some')⟩

theorem Follows.after {models : List Value} (h : e.Follows g fs c) (held : ∀ model ∈ models, model.Holds g.held) :
    (e.after fs models).Follows g fs c := by
  induction models generalizing e with
  | nil => exact h
  | cons model models ih =>
    exact ih (h.render hook blind sheltered (held model List.mem_cons_self))
      fun other ho => held other (List.mem_cons_of_mem model ho)

omit hook blind sheltered

/-- **Renders do not change what later renders produce**, where blocks are sheltered. -/
theorem render_after {held : Template → Prop} {before : List Value} (hook : e.context.hook = none)
    (blind : ∀ name f, e.context.functions.get? name = some f → f.IsBlind)
    (nodup : e.context.templates.keys.Nodup)
    (sheltered : ∀ c, e.prepared fs = .ok c → Setting.Sheltered ⟨c.templates, e.template, held⟩)
    (holds : ∀ v ∈ model :: before, v.Holds held)
    (uncut : model.isTemplateFree = true
      ∨ ¬IsCut (e.render fs model).1 ∧ ¬IsCut ((e.after fs before).render fs model).1) :
    ((e.after fs before).render fs model).1 = (e.render fs model).1 := by
  cases ready : e.prepared fs with
  | error fault =>
    obtain ⟨nodup', failed⟩ := unprepared_after nodup ready before
    rw [(render_of_unprepared nodup ready model).1, (render_of_unprepared nodup' failed model).1]
  | ok c =>
    obtain ⟨same, nodup', complete⟩ := prepared_same nodup ready
    have hook' : c.hook = none := by rw [same]; exact hook
    have blind' : ∀ name f, c.functions.get? name = some f → f.IsBlind := by rw [same]; exact blind
    have first : e.Follows ⟨c.templates, e.template, held⟩ fs c :=
      ⟨rfl, ⟨c, ready, Context.follows_refl nodup' rfl⟩, complete⟩
    obtain ⟨template, ⟨c', ready', follows⟩, -⟩ := first.after hook' blind' (sheltered c ready)
      fun v hv => holds v (List.mem_cons_of_mem model hv)
    have result := result_of_prepared ready model
    have result' := result_of_prepared ready' model
    rw [template] at result'
    rw [result, result'] at uncut ⊢
    refine Context.render_follows hook' blind' (sheltered c ready) (holds model List.mem_cons_self) nodup' rfl follows
      ?_ ?_
    · exact uncut.elim (Context.settles_of_free hook') fun uncut => Context.settles_of_uncut uncut.1
    · exact uncut.elim (Context.settles_of_free (follows.hook.trans hook')) fun uncut =>
        Context.settles_of_uncut uncut.2

theorem render_after_layout :
    let e : Engine := ⟨⟨[.block "body" [.text "X" .origin] .origin], some "layout", none, ["layout"]⟩,
      Context.empty.addTemplate "layout" (.ofNodes [.text "L" .origin, .block "body" [] .origin]), none⟩
    e.context.hook = none ∧ e.context.templates.keys.Nodup
      ∧ ((e.after .empty [.null]).render .empty .null).1 = (e.render .empty .null).1 := by
  intro e
  have sheltered (c : Context) (ready : e.prepared .empty = .ok c) :
      Setting.Sheltered ⟨c.templates, e.template, fun _ => False⟩ := by
    cases ready
    refine Setting.sheltered_of_alone ?_ ?_
    · rintro u (⟨name, found⟩ | held)
      · change (Registry.add .empty "layout" _).template? name = some u at found
        rw [Registry.template?_add] at found
        split at found
        · cases found
          rfl
        · cases found
      · cases held
    · rintro base extending
      cases extending
      decide
  refine ⟨rfl, by decide, render_after rfl nofun (by decide) sheltered ?_ (.inl ?_)⟩
  · simp [Value.holds_null]
  · exact Value.isTemplateFree_null

end Engine

end Stencil
