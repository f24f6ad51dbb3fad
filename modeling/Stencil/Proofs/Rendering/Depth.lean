import Stencil.Proofs.Rendering.Termination

/-!
# The depth of a render

Templates are followed down to a depth, and a render that uses it up is cut off with an error. One that is not cut off
does the same at every greater depth (`Render.deepens_renderTemplate`), and so the depth that a context gives does not
matter to it (`Context.Settles`).
-/

namespace Stencil

/-- Whether what a render ends with says that its depth was used up. -/
def IsCut {α : Type} (x : Except Error α) : Prop := ∃ e, x = .error e ∧ e.cause = .nestingLimit

namespace Render

/-- The second render does what the first does if that is not cut off. -/
def Deepens {α : Type} (r r' : Render α) : Prop := ∀ s, ¬IsCut (outcome r s).1 → outcome r' s = outcome r s

section Rules

variable {α β : Type}

theorem Deepens.refl (r : Render α) : Deepens r r := fun _ _ => rfl

/-- The second steps need only deepen for the values that the first ones end with. -/
theorem Deepens.bind {Q : α → Prop} {r r' : Render α} {f f' : α → Render β} (first : Deepens r r')
    (ends : ∀ s a, (outcome r s).1 = .ok a → Q a) (rest : ∀ a, Q a → Deepens (f a) (f' a)) :
    Deepens (r >>= f) (r' >>= f') := by
  intro s uncut
  rw [outcome_bind] at uncut
  have uncut' : ¬IsCut (outcome r s).1 := by
    rintro ⟨e, failed, cut⟩
    rw [show outcome r s = (.error e, (outcome r s).2) from Prod.ext failed rfl] at uncut
    exact uncut ⟨e, rfl, cut⟩
  rw [outcome_bind, outcome_bind, first s uncut']
  have value := ends s
  generalize outcome r s = o at uncut value ⊢
  rcases o with ⟨_ | a, t⟩
  · rfl
  · exact rest a (value a rfl) t uncut

theorem Deepens.within {r r' : Render α} (path : Option String) (h : Deepens r r') :
    Deepens (within path r) (within path r') := by
  intro s uncut
  rw [outcome_within] at uncut ⊢
  have uncut' : ¬IsCut (outcome r s).1 := by
    rintro ⟨e, failed, cut⟩
    refine uncut ⟨marked path e, ?_, ?_⟩
    · rw [failed]
      rfl
    · rw [cause_marked, cut]
  rw [outcome_within, h s uncut']

end Rules

theorem deepens_renderNamed {nest nest' : List String → Template → Render Unit} {active : List String}
    (inside : ∀ active t, Deepens (nest active t) (nest' active t)) (name : String) (use : TemplateUse) :
    Deepens (renderNamed nest active name use) (renderNamed nest' active name use) := by
  unfold renderNamed
  refine (Deepens.refl context).bind (fun _ _ _ => trivial) fun c _ => ?_
  cases c.templates.template? name with
  | none => exact .refl _
  | some t =>
    simp only
    split
    · exact .refl _
    · exact inside (fold name :: active) t

/-- Where nothing is asked of templates, nothing is known of the values of steps. -/
theorem Primitive.ends {α : Type} {Q : α → Prop} {r : Render α} {model : Value} {calls : Call → Prop}
    (step : Primitive model (fun _ => True) calls Q r) {s : RenderState} {a : α} (ended : (outcome r s).1 = .ok a) :
    Q a := by
  cases step with
  | pure h =>
    cases ended
    exact h
  | resolve p => exact fun _ _ => trivial
  | _ => trivial

/-- Renders deepen step by step. Nothing is asked of templates and calls. -/
def deepening (model : Value) : Simulation model where
  held _ := True
  calls _ := True
  Rel Q r r' := Deepens r r' ∧ ∀ s a, (outcome r s).1 = .ok a → Q a
  primitive step := ⟨.refl _, fun _ _ => step.ends⟩
  bind := by
    rintro α β Q R r r' f f' ⟨first, ends⟩ rest
    refine ⟨first.bind ends fun a h => (rest a h).1, fun s b ended => ?_⟩
    rw [outcome_bind] at ended
    have value := ends s
    generalize outcome r s = o at ended value
    rcases o with ⟨_ | a, t⟩
    · cases ended
    · exact (rest a (value a rfl)).2 t b ended

/-- A render that is not cut off does the same at every greater depth. -/
theorem deepens_renderTemplate (model : Value) {depth depth' : Nat} (le : depth ≤ depth') (active : List String)
    (t : Template) : Deepens (renderTemplate model depth active t) (renderTemplate model depth' active t) := by
  induction depth generalizing depth' active t with
  | zero =>
    intro s uncut
    exact absurd ⟨.nestingLimit, rfl, rfl⟩ uncut
  | succ depth ih =>
    obtain ⟨depth', rfl⟩ : ∃ n, depth' = n + 1 := ⟨depth' - 1, by omega⟩
    have inside (active : List String) (t : Template) :
        Deepens (renderTemplate model depth active t) (renderTemplate model depth' active t) := ih (by omega) active t
    have nodes (ns : List Node) :
        Deepens (renderNodes model (renderTemplate model depth) active ns)
          (renderNodes model (renderTemplate model depth') active ns) :=
      ((deepening model).renderNodes (fun t _ => ⟨inside active t, fun _ _ _ => trivial⟩) ns
        (fun name use _ => ⟨deepens_renderNamed inside name use, fun _ _ _ => trivial⟩) fun _ _ _ _ => trivial).1
    unfold renderTemplate
    exact ((Deepens.refl (compose t)).bind (fun _ _ _ => trivial) fun ns _ => nodes ns).within t.sourcePath

end Render

namespace Context

variable {c : Context} {t : Template} {model : Value}

/-- Whether a render does the same at all depths from that of the context on. -/
def Settles (c : Context) (t : Template) (model : Value) : Prop :=
  ∀ depth, c.depth t ≤ depth → Render.outcome (Render.renderTemplate model depth [] t) ⟨c.fresh, []⟩
    = Render.outcome (Render.renderTemplate model (c.depth t) [] t) ⟨c.fresh, []⟩

theorem settles_of_uncut (uncut : ¬IsCut (c.render t model).1) : c.Settles t model := by
  intro depth le
  refine Render.deepens_renderTemplate model le [] t ⟨c.fresh, []⟩ fun ⟨e, failed, cut⟩ => uncut ⟨e, ?_, cut⟩
  rw [render_eq]
  generalize Render.outcome (Render.renderTemplate model (c.depth t) [] t) ⟨c.fresh, []⟩ = o at failed ⊢
  obtain ⟨x, s⟩ := o
  cases failed
  rfl

/-- A render of values without templates comes to its end within the depth of the context. -/
theorem settles_of_free (hook : c.hook = none) (free : model.isTemplateFree = true) : c.Settles t model := by
  intro depth le
  have bound : (c.knownNames t).dedup.length < c.depth t := c.length_knownNames_lt t
  exact (c.outcome_renderWatched t model hook free .nestingLimit bound (by omega)).symm.trans
    (c.outcome_renderWatched t model hook free .nestingLimit bound bound)

end Context

end Stencil
