import Mathlib
import Stencil.Proofs.Loading.Pending
import Stencil.Proofs.Rendering.Depth

/-!
# Renders after renders

A render starts with nothing written and nothing bound, but over the registry that the renders before it have left. They
may have registered blocks, under names that had other templates before or none.

A later render does not see the difference if it asks for such a name only inside of a template that registers it anew
(`Setting.Sheltered`). Then it ends as it would have ended at first.

* `Setting.coupled_sheltered`: a render over both registries, the first and the one that is left.
* `Context.render_follows`, `Context.follows_render`: the same for the renders from contexts.
-/

namespace Stencil

/-! ## Functions that do not look at templates -/

/-- Whether a function does not depend on the registered templates that it could see. -/
def Function.IsBlind (f : Function) : Prop :=
  ∀ name args (s : Surroundings) (r : Registry),
    f.invoke ⟨name, args, some { s with templates := r }⟩ = f.invoke ⟨name, args, some s⟩

theorem Builtin.isBlind {name : String} {f : Function} (h : function? name = some f) : f.IsBlind := by
  rcases function?_cases h with ⟨ps, g, rfl⟩ | rfl <;> exact fun _ _ _ _ => rfl

namespace Evaluation

/-- Calls of blind functions do not depend on the registered templates. -/
theorem call_of_blind {functions : NameMap Function} (blind : ∀ name f, functions.get? name = some f → f.IsBlind)
    (scope : Scope) (s : Surroundings) (r : Registry) (name : String) (texts : List String) :
    call ⟨scope, functions, { s with templates := r }⟩ name texts = call ⟨scope, functions, s⟩ name texts := by
  refine call_of_seen scope texts fun f found _ args => ?_
  rcases Option.or_eq_some_iff.1 found with found | ⟨-, found⟩
  · exact blind name f found name args s r
  · exact Builtin.isBlind found name args s r

end Evaluation

/-! ## Registered blocks -/

namespace Registry

variable {r r' : Registry} {name : String} {blocks : List (String × List Node)}

theorem template?_addBlocks_of_not_mem (h : fold name ∉ blocks.map fun block => fold block.1) :
    (r.addBlocks blocks).template? name = r.template? name := by
  induction blocks generalizing r with
  | nil => rfl
  | cons block blocks ih =>
    rw [List.map_cons, List.mem_cons, not_or] at h
    rw [addBlocks, List.foldl_cons, ← addBlocks, ih h.2, template?_add, if_neg h.1]

/-- After blocks are registered, registries agree on the names of the blocks and where they agreed before. -/
theorem template?_addBlocks_congr
    (h : fold name ∈ (blocks.map fun block => fold block.1) ∨ r'.template? name = r.template? name) :
    (r'.addBlocks blocks).template? name = (r.addBlocks blocks).template? name := by
  induction blocks generalizing r r' with
  | nil =>
    rcases h with h | h
    · cases h
    · exact h
  | cons block blocks ih =>
    refine ih ?_
    rw [template?_add, template?_add]
    by_cases same : fold name = fold block.1
    · right
      rw [if_pos same, if_pos same]
    · rw [if_neg same, if_neg same]
      exact h.imp_left fun h => (List.mem_cons.1 h).resolve_left same

end Registry

/-! ## What renders can register -/

/-- What renders start from: a registry, the template that is rendered, and the templates that models may hold. -/
structure Setting where
  registry : Registry
  template : Template
  held : Template → Prop

namespace Setting

variable (g : Setting)

/-- The templates there are before all renders. -/
def Known (u : Template) : Prop := u = g.template ∨ (∃ name, g.registry.template? name = some u) ∨ g.held u

/-- Whether a folded name can be registered in a render. -/
def Gained (key : String) : Prop := ∃ u, g.Known u ∧ key ∈ u.gains

/-- The templates that a name can have in the course of renders: its first one, and the blocks of the name. -/
def Provides (name : String) (u : Template) : Prop :=
  g.registry.template? name = some u
    ∨ ∃ v, g.Known v ∧ ∃ block ∈ v.blocks, fold name = fold block.1 ∧ u = .ofNodes block.2

/-- The nodes that a template can be rendered by: its own, or those of what its base can be. -/
inductive Composes (u : Template) : List Node → Prop where
  | own (alone : u.base = none) : Composes u u.nodes
  | base {base : String} {v : Template} (extending : u.base = some base) (provided : g.Provides base v) :
    Composes u v.nodes

/-- The templates that can be rendered, with the names that the templates around them have registered. -/
inductive Reaches : List String → Template → Prop where
  | start : Reaches [] g.template
  | named {names : List String} {u v : Template} {ns : List Node} {name : String} {use : TemplateUse}
    (outer : Reaches names u) (composed : g.Composes u ns) (asked : (name, use) ∈ sitesAll ns)
    (provided : g.Provides name v) : Reaches (u.gains ++ names) v
  | held {names : List String} {u v : Template} (outer : Reaches names u) (held : g.held v) :
    Reaches (u.gains ++ names) v

/-- Whether a name has the same template in all renders where others have been registered just before. -/
def Stable (names : List String) (name : String) : Prop := fold name ∈ names ∨ ¬g.Gained (fold name)

/-- Wherever a render asks for a name that renders can register, a template around has registered it. -/
structure Sheltered : Prop where
  base : ∀ {names u base}, g.Reaches names u → u.base = some base → g.Stable names base
  site : ∀ {names u ns name use}, g.Reaches names u → g.Composes u ns → (name, use) ∈ sitesAll ns →
    g.Stable (u.gains ++ names) name

variable {g} {names : List String} {name base : String} {u v : Template} {r r' : Registry}

theorem Provides.known_or_alone (h : g.Provides name u) : g.Known u ∨ u.base = none := by
  rcases h with found | ⟨_, -, _, -, -, rfl⟩
  · exact .inl (.inr (.inl ⟨name, found⟩))
  · exact .inr rfl

/-- Blocks extend nothing, so that what extends another template was there before all renders. -/
theorem Reaches.known (h : g.Reaches names u) (extending : u.base = some base) : g.Known u := by
  cases h with
  | start => exact .inl rfl
  | named outer composed asked provided =>
    refine provided.known_or_alone.resolve_right fun alone => ?_
    rw [extending] at alone
    cases alone
  | held outer held => exact .inr (.inr held)

theorem gains_of_base (extending : u.base = some base) : u.gains = u.blocks.map fun block => fold block.1 := by
  unfold Template.gains
  rw [extending]

theorem gains_of_alone (alone : u.base = none) : u.gains = [] := by
  unfold Template.gains
  rw [alone]

/-- Where only the template that is rendered extends another, its base must not be one of its blocks. -/
theorem sheltered_of_alone (others : ∀ u, (∃ name, g.registry.template? name = some u) ∨ g.held u → u.gains = [])
    (own : ∀ base, g.template.base = some base → fold base ∉ g.template.gains) : g.Sheltered := by
  have gained {key : String} (h : g.Gained key) : key ∈ g.template.gains := by
    obtain ⟨u, rfl | other, hk⟩ := h
    · exact hk
    · rw [others u other] at hk
      cases hk
  have inside {names : List String} {u : Template} (h : g.Reaches names u) :
      (u = g.template ∧ names = []) ∨ ∀ key ∈ g.template.gains, key ∈ names := by
    induction h with
    | start => exact .inl ⟨rfl, rfl⟩
    | named outer _ _ _ ih | held outer _ ih =>
      refine .inr fun key hk => List.mem_append.2 ?_
      rcases ih with ⟨rfl, -⟩ | all
      · exact .inl hk
      · exact .inr (all key hk)
  refine ⟨fun {names u base} reached extending => ?_, fun {names u ns name use} reached _ _ => ?_⟩
  · rcases inside reached with ⟨rfl, -⟩ | all
    · exact .inr fun h => own base extending (gained h)
    · exact or_iff_not_imp_right.2 fun h => all _ (gained (not_not.1 h))
  · refine or_iff_not_imp_right.2 fun h => List.mem_append.2 ?_
    rcases inside reached with ⟨rfl, -⟩ | all
    · exact .inl (gained (not_not.1 h))
    · exact .inr (all _ (gained (not_not.1 h)))

/-! ## Registries that renders leave -/

variable (g) in
/-- A registry as renders may have left it. -/
structure Varied (r : Registry) : Prop where
  fixed : ∀ name, ¬g.Gained (fold name) → r.template? name = g.registry.template? name
  provided : ∀ {name u}, r.template? name = some u → g.Provides name u
  nodup : r.keys.Nodup
  filled : g.registry.pending = [] → r.pending = []

theorem varied_start (nodup : g.registry.keys.Nodup) : g.Varied g.registry := ⟨fun _ _ => rfl, .inl, nodup, id⟩

/-- A template that was there before all renders may register its blocks. -/
theorem Varied.addBlocks (h : g.Varied r) (known : g.Known u) (extending : u.base = some base) :
    g.Varied (r.addBlocks u.blocks) where
  fixed name fixed := by
    rw [Registry.template?_addBlocks_of_not_mem, h.fixed name fixed]
    rw [← gains_of_base extending]
    exact fun hk => fixed ⟨u, known, hk⟩
  provided {name v} found := by
    rcases Registry.template?_addBlocks found with found | block
    · exact h.provided found
    · exact .inr ⟨u, known, block⟩
  nodup := Registry.nodup_addBlocks h.nodup u.blocks
  filled complete := Registry.pending_addBlocks h.nodup (h.filled complete) u.blocks

variable (g) in
/-- Registries that renders leave, and that agree on the names that have the same template in all renders. -/
structure Agree (names : List String) (r r' : Registry) : Prop where
  left : g.Varied r
  right : g.Varied r'
  stable : ∀ name, g.Stable names name → r'.template? name = r.template? name

theorem Agree.narrow {names wider : List String} (h : g.Agree wider r r') (sub : ∀ key ∈ names, key ∈ wider) :
    g.Agree names r r' := ⟨h.left, h.right, fun name stable => h.stable name (stable.imp_left (sub _))⟩

/-- Where blocks are registered, their names have the same template. -/
theorem Agree.addBlocks (h : g.Agree names r r') (known : g.Known u) (extending : u.base = some base) :
    g.Agree (u.gains ++ names) (r.addBlocks u.blocks) (r'.addBlocks u.blocks) := by
  refine ⟨h.left.addBlocks known extending, h.right.addBlocks known extending, fun name stable => ?_⟩
  rw [Stable, List.mem_append, or_assoc, gains_of_base extending] at stable
  exact Registry.template?_addBlocks_congr (stable.imp_right (h.stable name))

/-! ## Coupled renders -/

section Coupled

open Render

variable (g) in
/-- Renders under some names end alike over registries that agree on them. -/
def sheltering (names : List String) (locale : Locale) (functions : NameMap Function) : Likeness :=
  .equal (fun l f => (l = locale ∧ f = functions) ∧ ∀ name h, f.get? name = some h → h.IsBlind) (g.Agree names) g.held
    fun scope _ s r name texts host _ => Evaluation.call_of_blind host.2 scope s r name texts

variable {locale : Locale} {functions : NameMap Function} {model : Value}

/-- The names that a template has registered do not matter behind it. -/
theorem CoupledAt.leave {wider : List String} {x x' : Render Unit} {s s' : RenderState}
    (sub : ∀ key ∈ names, key ∈ wider)
    (h : CoupledAt (g.sheltering wider locale functions) (fun _ => True) x x' s s') :
    CoupledAt (g.sheltering names locale functions) (fun _ => True) x x' s s' := by
  obtain ⟨results, ⟨same, hook, host, scratch, agree⟩, events⟩ := h
  exact ⟨results, ⟨same, hook, host, scratch, agree.narrow sub⟩, events⟩

theorem coupled_sheltered (sheltered : g.Sheltered) (held : model.Holds g.held) (depth : Nat) (active : List String)
    (reached : g.Reaches names u) :
    CoupledSteps (g.sheltering names locale functions) (renderTemplate model depth active u)
      (renderTemplate model depth active u) := by
  induction depth generalizing names active u with
  | zero =>
    unfold renderTemplate
    exact coupled_throw rfl
  | succ depth ih =>
    have nodes {ns : List Node} (composed : g.Composes u ns) :
        CoupledSteps (g.sheltering (u.gains ++ names) locale functions)
          (renderNodes model (renderTemplate model depth) active ns)
          (renderNodes model (renderTemplate model depth) active ns) := by
      refine coupled_renderNodes held (fun v hv => ih active (reached.held hv)) ns fun name use asked => ?_
      refine coupled_renderNamed rfl
        (fun c c' alike => alike.registries.stable name (sheltered.site reached composed asked))
        (fun s s' states _ => congrArg _ states.events) fun s s' v states found _ => ?_
      have provided : g.Provides name v := states.contexts.registries.left.provided found
      exact ih (fold name :: active) (reached.named composed asked provided) s s' states
    refine coupled_renderTemplate (T := Eq) (f := id) (fun e e' same => congrArg _ same) Option.map_id_apply.symm
      ?_ ?_ ?_ ?_
    · intro alone
      have own := nodes (.own alone)
      rw [gains_of_alone alone, List.nil_append] at own
      exact own
    · intro b s s' extending states
      rw [id, states.contexts.registries.stable b (sheltered.base reached extending)]
      exact rel_refl (fun _ => rfl) _
    · exact fun b s s' _ _ _ => rfl
    · rintro b v _ s s' extending ⟨⟨same, hook, host, scratch, agree⟩, events⟩ found rfl
      -- The nodes of the base are rendered under the names of the blocks as well.
      have provided : g.Provides b v := agree.left.provided found
      have known : g.Known u := reached.known extending
      refine CoupledAt.leave (fun key hk => List.mem_append_right _ hk)
        (nodes (.base extending provided) _ _ ⟨?_, events⟩)
      exact ⟨same.withTemplates _ _, hook, host, scratch, agree.addBlocks known extending⟩

end Coupled

end Setting

/-! ## Renders from contexts -/

namespace Context

open Render

/-- A context as renders leave it: only what is written and bound may be different, and the registry. -/
structure Follows (g : Setting) (c c' : Context) : Prop where
  locale : c'.locale = c.locale
  functions : c'.functions = c.functions
  hook : c'.hook = c.hook
  varied : g.Varied c'.templates

variable {g : Setting} {c c' c'' : Context} {model : Value} {x : Except Error String} {events : List Event}

theorem follows_refl (nodup : c.templates.keys.Nodup) (start : g.registry = c.templates) : c.Follows g c :=
  ⟨rfl, rfl, rfl, start ▸ Setting.varied_start (start ▸ nodup)⟩

variable (hook : c.hook = none) (blind : ∀ name f, c.functions.get? name = some f → f.IsBlind)

include hook blind

/-- Contexts that follow another one are alike where their registries agree. -/
theorem Follows.states (h : c.Follows g c') (h' : c.Follows g c'') (agree : g.Agree [] c'.templates c''.templates) :
    (g.sheltering [] c.locale c.functions).States ⟨c'.fresh, []⟩ ⟨c''.fresh, []⟩ := by
  obtain ⟨⟨_, _, _⟩, _, _, _⟩ := c'
  obtain ⟨⟨_, _, _⟩, _, _, _⟩ := c''
  obtain ⟨rfl, rfl, rfl, -⟩ := h
  obtain ⟨rfl, rfl, rfl, -⟩ := h'
  exact ⟨⟨Spelling.exact_same _ _, hook, ⟨⟨rfl, rfl⟩, blind⟩, NameMap.holds_empty, agree⟩, rfl⟩

/-- A render leaves a context that follows. -/
theorem follows_render (sheltered : g.Sheltered) (held : model.Holds g.held) (h : c.Follows g c')
    (rendered : c'.render g.template model = (x, c'', events)) : c.Follows g c'' := by
  have agree : g.Agree [] c'.templates c'.templates := ⟨h.varied, h.varied, fun _ _ => rfl⟩
  obtain ⟨-, after⟩ := Setting.coupled_sheltered sheltered held (c'.depth g.template) [] .start _ _
    (h.states hook blind h agree)
  rw [render_eq] at rendered
  generalize outcome (renderTemplate model (c'.depth g.template) [] g.template) ⟨c'.fresh, []⟩ = o at after rendered
  obtain ⟨y, s⟩ := o
  obtain ⟨⟨-, none', ⟨⟨locale, functions⟩, -⟩, -, agree'⟩, -⟩ := after
  have follows : c.Follows g s.context := ⟨locale, functions, none'.trans hook.symm, agree'.left⟩
  rcases y with _ | _ <;> cases rendered
  · exact follows
  · exact ⟨follows.locale, follows.functions, follows.hook, follows.varied⟩

/-- **Renders after renders end as they would have ended at first.** -/
theorem render_follows (sheltered : g.Sheltered) (held : model.Holds g.held) (nodup : c.templates.keys.Nodup)
    (start : g.registry = c.templates) (h : c.Follows g c') (settles : c.Settles g.template model)
    (settles' : c'.Settles g.template model) : (c'.render g.template model).1 = (c.render g.template model).1 := by
  have first := follows_refl nodup start
  have agree : g.Agree [] c.templates c'.templates := by
    refine ⟨first.varied, h.varied, fun name stable => ?_⟩
    have fixed : ¬g.Gained (fold name) := stable.resolve_left List.not_mem_nil
    rw [h.varied.fixed name fixed, start]
  obtain ⟨depth, le, le'⟩ : ∃ depth, c.depth g.template ≤ depth ∧ c'.depth g.template ≤ depth :=
    ⟨max _ _, Nat.le_max_left _ _, Nat.le_max_right _ _⟩
  obtain ⟨results, after⟩ := Setting.coupled_sheltered sheltered held depth [] .start _ _
    (first.states hook blind h agree)
  rw [settles depth le, settles' depth le'] at results after
  rw [render_eq, render_eq]
  exact concluded_congr results after.contexts.same.output

end Context

end Stencil
