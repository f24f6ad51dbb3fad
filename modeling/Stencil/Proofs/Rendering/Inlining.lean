import Mathlib.Logic.Relation
import Stencil.Proofs.Rendering.Coupling
import Stencil.Proofs.Rendering.Registration

/-!
# Composition is substitution

Inlining replaces the inclusions and blocks among nodes by the inlined nodes of what is registered under their names
(`Registry.inline`). It is defined down to a depth, which does not show where no template refers to itself, through
others or not (`Registry.inline_eq`).

* `Context.render_inline`: over such a registry, a render of a template is a render of its inlined nodes, up to the
  marks of errors. If the template extends another, these are the nodes of its base, with its blocks registered.
-/

namespace Stencil

/-! ## References -/

mutual

/-- The folded names of the inclusions and blocks of a node. The body of a block is not rendered in its place, so that
the names in it do not count. -/
def Node.uses : Node → List String
  | .branch _ body alternative _ => usesAll body ++ usesOption alternative
  | .loop _ _ _ body _ => usesAll body
  | .inclusion name _ => [fold name]
  | .block name _ _ => [fold name]
  | .text _ _ | .value _ _ | .call _ => []

def usesAll : List Node → List String
  | [] => []
  | n :: ns => n.uses ++ usesAll ns

def usesOption : Option (List Node) → List String
  | none => []
  | some ns => usesAll ns

end

namespace Registry

/-- The template of a name includes another name, or has a block of this name. -/
def Refers (r : Registry) (name other : String) : Prop :=
  ∃ t, r.template? name = some t ∧ fold other ∈ usesAll t.nodes

/-- No name leads to itself. -/
def Acyclic (r : Registry) : Prop := ∀ name, ¬ Relation.TransGen r.Refers name name

variable {r : Registry} {name other : String} {active : List String} {t : Template}

/-- How a name that is referred to is spelled does not matter. -/
theorem Refers.congr_right {third : String} (h : r.Refers name other) (same : fold other = fold third) :
    r.Refers name third := by
  obtain ⟨t, found, used⟩ := h
  exact ⟨t, found, same ▸ used⟩

theorem transGen_congr_right {third : String} (h : Relation.TransGen r.Refers name other)
    (same : fold other = fold third) : Relation.TransGen r.Refers name third := by
  cases h with
  | single h => exact .single (h.congr_right same)
  | tail before h => exact .tail before (h.congr_right same)

/-- A registry whose templates lead to no further references. -/
theorem acyclic_of_flat (flat : ∀ name other third, r.Refers name other → ¬ r.Refers other third) : r.Acyclic := by
  intro name cycle
  obtain ⟨other, first, _⟩ := Relation.TransGen.head'_iff.1 cycle
  obtain ⟨last, _, back⟩ := Relation.TransGen.tail'_iff.1 cycle
  exact flat last name other back first

/-- The active names around a name: distinct and registered, and each of them leads to it. -/
structure Around (r : Registry) (active : List String) (name : String) : Prop where
  distinct : active.Nodup
  registered : ∀ key ∈ active, key ∈ r.keys
  leads : ∀ key ∈ active, ∃ outer, fold outer = key ∧ Relation.TransGen r.Refers outer name

theorem around_nil (r : Registry) (name : String) : Around r [] name :=
  ⟨List.nodup_nil, by simp, by simp⟩

namespace Around

/-- A name that leads to itself would be on a cycle. -/
theorem not_active (h : Around r active name) (acyclic : r.Acyclic) : fold name ∉ active := by
  intro circular
  obtain ⟨outer, same, leads⟩ := h.leads _ circular
  exact acyclic outer (transGen_congr_right leads same.symm)

theorem distinct_cons (h : Around r active name) (acyclic : r.Acyclic) : (fold name :: active).Nodup :=
  List.nodup_cons.2 ⟨h.not_active acyclic, h.distinct⟩

theorem registered_cons (h : Around r active name) (found : r.template? name = some t) :
    ∀ key ∈ fold name :: active, key ∈ r.keys := by
  intro key hk
  rcases List.mem_cons.1 hk with rfl | hk
  · exact mem_keys_of_template? found
  · exact h.registered key hk

/-- The names in the template of a name are inside it. -/
theorem enter (h : Around r active name) (acyclic : r.Acyclic) (found : r.template? name = some t)
    (used : fold other ∈ usesAll t.nodes) : Around r (fold name :: active) other := by
  have refers : r.Refers name other := ⟨t, found, used⟩
  refine ⟨h.distinct_cons acyclic, h.registered_cons found, ?_⟩
  intro key hk
  rcases List.mem_cons.1 hk with rfl | hk
  · exact ⟨name, rfl, .single refers⟩
  · obtain ⟨outer, same, leads⟩ := h.leads key hk
    exact ⟨outer, same, leads.tail refers⟩

/-- Where a name has a template, not all names are active yet. -/
theorem length_lt (h : Around r active name) (acyclic : r.Acyclic) (found : r.template? name = some t) :
    active.length < r.keys.dedup.length :=
  length_le_dedup (h.distinct_cons acyclic) (h.registered_cons found)

end Around

end Registry

/-! ## Substitution -/

mutual

/-- Puts nodes in the place of the inclusions and blocks of a node, at any depth. -/
def Node.substitute (f : String → List Node) : Node → List Node
  | .branch condition body alternative location =>
    [.branch condition (substituteAll f body) (substituteOption f alternative) location]
  | .loop item index collection body location => [.loop item index collection (substituteAll f body) location]
  | .inclusion name _ => f name
  | .block name _ _ => f name
  | .text content location => [.text content location]
  | .value p location => [.value p location]
  | .call c => [.call c]

def substituteAll (f : String → List Node) : List Node → List Node
  | [] => []
  | n :: ns => n.substitute f ++ substituteAll f ns

def substituteOption (f : String → List Node) : Option (List Node) → Option (List Node)
  | none => none
  | some ns => some (substituteAll f ns)

end

section Congruence

variable {f g : String → List Node}

mutual

theorem Node.substitute_congr : ∀ n : Node, (∀ name, fold name ∈ n.uses → f name = g name) →
    n.substitute f = n.substitute g
  | .text _ _, _ | .value _ _, _ | .call _, _ => rfl
  | .inclusion name _, h => h name (List.mem_singleton.2 rfl)
  | .block name _ _, h => h name (List.mem_singleton.2 rfl)
  | .loop item index collection body location, h => by
    rw [Node.substitute, Node.substitute, substituteAll_congr body h]
  | .branch condition body alternative location, h => by
    have hb : substituteAll f body = substituteAll g body :=
      substituteAll_congr body fun name hn => h name (List.mem_append_left _ hn)
    have ha : substituteOption f alternative = substituteOption g alternative :=
      substituteOption_congr alternative fun name hn => h name (List.mem_append_right _ hn)
    rw [Node.substitute, Node.substitute, hb, ha]

/-- Only what is put in the place of names that occur matters. -/
theorem substituteAll_congr : ∀ ns : List Node, (∀ name, fold name ∈ usesAll ns → f name = g name) →
    substituteAll f ns = substituteAll g ns
  | [], _ => rfl
  | n :: ns, h => by
    have first : n.substitute f = n.substitute g :=
      n.substitute_congr fun name hn => h name (List.mem_append_left _ hn)
    have rest : substituteAll f ns = substituteAll g ns :=
      substituteAll_congr ns fun name hn => h name (List.mem_append_right _ hn)
    rw [substituteAll, substituteAll, first, rest]

theorem substituteOption_congr : ∀ o : Option (List Node), (∀ name, fold name ∈ usesOption o → f name = g name) →
    substituteOption f o = substituteOption g o
  | none, _ => rfl
  | some ns, h => congrArg some (substituteAll_congr ns h)

end

end Congruence

/-! ## Inlining -/

namespace Registry

/-- The inlined nodes of what is registered under a name, down to a depth. -/
def contents (r : Registry) : Nat → String → List Node
  | 0, _ => []
  | depth + 1, name =>
    match r.template? name with
    | none => []
    | some t => substituteAll (r.contents depth) t.nodes

/-- Replaces inclusions and blocks by the inlined nodes of the templates of their names, or by nothing. Without cycles
no chain of names is longer than the registry. -/
def inline (r : Registry) (ns : List Node) : List Node := substituteAll (r.contents r.size) ns

variable {r : Registry} {name : String} {active : List String} {t : Template}

theorem contents_of_none (h : r.template? name = none) (depth : Nat) : r.contents depth name = [] := by
  cases depth with
  | zero => rfl
  | succ depth => rw [contents, h]

theorem contents_succ (h : r.template? name = some t) (depth : Nat) :
    r.contents (depth + 1) name = substituteAll (r.contents depth) t.nodes := by
  rw [contents, h]

/-- Depths that allow for all names that are not active give the same. -/
theorem contents_congr (acyclic : r.Acyclic) {depth depth' : Nat} (around : r.Around active name)
    (enough : r.keys.dedup.length ≤ active.length + depth) (enough' : r.keys.dedup.length ≤ active.length + depth') :
    r.contents depth name = r.contents depth' name := by
  induction depth generalizing depth' active name with
  | zero =>
    cases found : r.template? name with
    | none => rw [contents_of_none found, contents_of_none found]
    | some t =>
      have := around.length_lt acyclic found
      omega
  | succ depth ih =>
    cases found : r.template? name with
    | none => rw [contents_of_none found, contents_of_none found]
    | some t =>
      have := around.length_lt acyclic found
      obtain ⟨depth', rfl⟩ : ∃ d, depth' = d + 1 := ⟨depth' - 1, by omega⟩
      have more : (fold name :: active).length = active.length + 1 := List.length_cons
      rw [contents_succ found, contents_succ found]
      apply substituteAll_congr
      intro other used
      exact ih (around.enter acyclic found used) (by omega) (by omega)

theorem length_keys_le (r : Registry) : r.keys.dedup.length ≤ r.size := by
  have : r.keys.length = r.size := List.length_map _
  have := (List.dedup_sublist r.keys).length_le
  omega

/-- **Inlining goes on inside what it puts in.** -/
theorem inline_eq (acyclic : r.Acyclic) (ns : List Node) :
    r.inline ns = substituteAll
      (fun name => match r.template? name with
        | none => []
        | some t => r.inline t.nodes) ns := by
  apply substituteAll_congr
  intro name _
  have bound := r.length_keys_le
  have deeper : r.contents r.size name = r.contents (r.size + 1) name :=
    contents_congr acyclic (around_nil r name) (by simpa using bound) (by simp only [List.length_nil]; omega)
  rw [deeper, contents]
  rfl

end Registry

/-! ## Renders of substituted nodes -/

namespace Render

section Substitution

variable {L : Likeness} {model : Value} {nest nest' : List String → Template → Render Unit}
  {active active' : List String} {f : String → List Node}

theorem renderNodes_singleton (n : Node) : renderNodes model nest active [n] = renderNode model nest active n := by
  simp only [renderNodes]
  exact bind_pure_unit

theorem renderNodes_append (ns ms : List Node) : renderNodes model nest active (ns ++ ms)
    = (do renderNodes model nest active ns; renderNodes model nest active ms) := by
  induction ns with
  | nil => simp only [List.nil_append, renderNodes, pure_bind]
  | cons n ns ih => simp only [List.cons_append, renderNodes, ih, bind_assoc]

theorem coupled_singleton {n m : Node}
    (h : CoupledSteps L (renderNode model nest active n) (renderNode model nest' active' m)) :
    CoupledSteps L (renderNode model nest active n) (renderNodes model nest' active' [m]) := by
  rw [renderNodes_singleton]
  exact h

mutual

theorem coupled_substitute (held : model.Holds L.held)
    (inside : ∀ t, L.held t → CoupledSteps L (nest active t) (nest' active' t)) : ∀ n : Node,
    (∀ name use, fold name ∈ n.uses →
      CoupledSteps L (renderNamed nest active name use) (renderNodes model nest' active' (f name))) →
    CoupledSteps L (renderNode model nest active n) (renderNodes model nest' active' (n.substitute f))
  | .text content location, _ => by
    apply coupled_singleton
    unfold renderNode
    exact coupled_write content
  | .value p location, _ => by
    apply coupled_singleton
    unfold renderNode
    exact coupled_renderValue held inside p
  | .call c, _ => by
    apply coupled_singleton
    unfold renderNode
    exact coupled_renderCall (.refl _ c)
  | .branch condition body alternative location, named => by
    apply coupled_singleton
    apply coupled_branch held (.refl _ condition) location
    · exact coupled_substituteAll held inside body fun name use hn => named name use (List.mem_append_left _ hn)
    · exact coupled_substituteOption held inside alternative fun name use hn =>
        named name use (List.mem_append_right _ hn)
  | .loop item index collection body location, named => by
    apply coupled_singleton
    exact coupled_loop held (L.spelling.names_refl item) (L.spelling.indexes_refl index) collection location
      (coupled_substituteAll held inside body named)
  | .inclusion name _, named => by
    unfold renderNode
    exact named name .inclusion (List.mem_singleton.2 rfl)
  | .block name _ _, named => by
    unfold renderNode
    exact named name .block (List.mem_singleton.2 rfl)

/-- Renders of nodes are coupled with renders of what is put in their place if this is so for names. -/
theorem coupled_substituteAll (held : model.Holds L.held)
    (inside : ∀ t, L.held t → CoupledSteps L (nest active t) (nest' active' t)) : ∀ ns : List Node,
    (∀ name use, fold name ∈ usesAll ns →
      CoupledSteps L (renderNamed nest active name use) (renderNodes model nest' active' (f name))) →
    CoupledSteps L (renderNodes model nest active ns) (renderNodes model nest' active' (substituteAll f ns))
  | [], _ => by
    unfold substituteAll renderNodes
    exact coupled_pure trivial
  | n :: ns, named => by
    have first := coupled_substitute held inside n fun name use hn => named name use (List.mem_append_left _ hn)
    have rest := coupled_substituteAll held inside ns fun name use hn => named name use (List.mem_append_right _ hn)
    rw [substituteAll, renderNodes_append, renderNodes]
    exact first.bind fun _ _ => rest

theorem coupled_substituteOption (held : model.Holds L.held)
    (inside : ∀ t, L.held t → CoupledSteps L (nest active t) (nest' active' t)) : ∀ o : Option (List Node),
    (∀ name use, fold name ∈ usesOption o →
      CoupledSteps L (renderNamed nest active name use) (renderNodes model nest' active' (f name))) →
    CoupledSteps L (renderAlternative model nest active o)
      (renderAlternative model nest' active' (substituteOption f o))
  | none, _ => by
    unfold substituteOption renderAlternative
    exact coupled_pure trivial
  | some ns, named => by
    unfold substituteOption renderAlternative
    exact coupled_substituteAll held inside ns named

end

end Substitution

/-! ## Renders of inlined nodes -/

/-- Renders over one registry; errors have the same cause. -/
def overRegistry (r : Registry) : Likeness where
  host _ _ := True
  registries other other' := other = r ∧ other' = r
  held _ := False
  events _ _ := True
  errors e e' := e'.cause = e.cause
  events_notIterable _ _ _ _ _ := trivial
  errors_evaluation _ _ := rfl
  calls := by
    rintro scope functions s _ name _ texts rfl - ⟨rfl, rfl⟩
    exact .refl (fun e => show e.cause = e.cause from rfl) _

/-- Contexts that are alike over one registry are the same. -/
theorem eq_of_overRegistry {r : Registry} {c c' : Context} (h : (overRegistry r).Contexts c c') : c' = c := by
  obtain ⟨equal, equal'⟩ := h.registries
  rw [Spelling.eq_of_exact h.same, equal', ← equal]
  rfl

variable {r : Registry} {model : Value} {name : String} {active active' : List String} {t : Template}

/-- A mark does not change the cause. -/
theorem coupled_marked {r' r'' : Render Unit} (h : CoupledSteps (overRegistry r) r' r'') (path : Option String) :
    CoupledSteps (overRegistry r) (within path r') r'' := by
  have unmarked : r'' = within none r'' := rfl
  rw [unmarked]
  apply h.within
  intro e e' same
  show (marked none e').cause = (marked path e).cause
  rw [cause_marked, cause_marked]
  exact same

/-- A name without a template stands for nothing. -/
theorem coupled_missing {nest nest' : List String → Template → Render Unit} (missing : r.template? name = none)
    (depth : Nat) (use : TemplateUse) : CoupledSteps (overRegistry r) (renderNamed nest active name use)
      (renderNodes model nest' active' (r.contents depth name)) := by
  intro s s' states
  have templates : s.context.templates = r := states.contexts.registries.1
  unfold renderNamed
  rw [CoupledAt, Registry.contents_of_none missing, renderNodes, outcome_bind, outcome_context]
  simp only [templates, missing]
  rw [outcome_record, outcome_pure]
  exact ⟨.ok trivial, states.contexts, trivial⟩

/-- A name that is not active stands for a render of its template. -/
theorem coupled_present {nest : List String → Template → Render Unit} (found : r.template? name = some t)
    (fresh : fold name ∉ active) (use : TemplateUse) {q : Render Unit}
    (inside : CoupledSteps (overRegistry r) (nest (fold name :: active) t) q) :
    CoupledSteps (overRegistry r) (renderNamed nest active name use) q := by
  intro s s' states
  have templates : s.context.templates = r := states.contexts.registries.1
  have notCircular : active.contains (fold name) = false := by simpa using fresh
  unfold renderNamed
  rw [CoupledAt, outcome_bind, outcome_context]
  simp only [templates, found, notCircular, if_false, Bool.false_eq_true]
  exact inside s s' states

/-- The depth counts the names that are not active yet; none of them is met twice. -/
theorem coupled_contents (free : model.isTemplateFree = true) (acyclic : r.Acyclic)
    (bases : ∀ name t, r.template? name = some t → t.base = none) {nest' : List String → Template → Render Unit}
    {depth depth' : Nat} (around : r.Around active name) (enough : r.keys.dedup.length ≤ active.length + depth)
    (enough' : r.keys.dedup.length ≤ active.length + depth') (use : TemplateUse) :
    CoupledSteps (overRegistry r) (renderNamed (renderTemplate model depth) active name use)
      (renderNodes model nest' active' (r.contents depth' name)) := by
  induction depth generalizing depth' active name use with
  | zero =>
    cases found : r.template? name with
    | none => exact coupled_missing found depth' use
    | some t =>
      have := around.length_lt acyclic found
      omega
  | succ depth ih =>
    cases found : r.template? name with
    | none => exact coupled_missing found depth' use
    | some t =>
      have := around.length_lt acyclic found
      obtain ⟨depth', rfl⟩ : ∃ d, depth' = d + 1 := ⟨depth' - 1, by omega⟩
      have more : (fold name :: active).length = active.length + 1 := List.length_cons
      have inside : CoupledSteps (overRegistry r)
          (renderNodes model (renderTemplate model depth) (fold name :: active) t.nodes)
          (renderNodes model nest' active' (substituteAll (r.contents depth') t.nodes)) :=
        coupled_substituteAll (Value.holds_of_free free) (fun _ => False.elim) t.nodes fun other use used =>
          ih (around.enter acyclic found used) (by omega) (by omega) use
      rw [Registry.contents_succ found]
      apply coupled_present found (around.not_active acyclic)
      unfold renderTemplate
      rw [compose_of_none (bases name t found), pure_bind]
      exact coupled_marked inside t.sourcePath

/-- Nodes under no active name and their inlined nodes. -/
theorem coupled_inline (free : model.isTemplateFree = true) (acyclic : r.Acyclic)
    (bases : ∀ name t, r.template? name = some t → t.base = none) {nest' : List String → Template → Render Unit}
    {depth : Nat} (enough : r.keys.dedup.length ≤ depth) (ns : List Node) :
    CoupledSteps (overRegistry r) (renderNodes model (renderTemplate model depth) [] ns)
      (renderNodes model nest' active' (r.inline ns)) := by
  have bound := r.length_keys_le
  refine coupled_substituteAll (Value.holds_of_free free) (fun _ => False.elim) ns fun name use _ => ?_
  exact coupled_contents free acyclic bases (Registry.around_nil r name) (by simpa using enough) (by simpa using bound)
    use

end Render

namespace Context

/-- The output of a render, or the innermost error. -/
def outputOrCause (c : Context) (t : Template) (model : Value) : Except Error String :=
  (c.render t model).1.mapError Error.cause

variable {c : Context} {t : Template} {model : Value} {r : Registry}

/-- A template that is composed of nodes over a registry renders as these nodes do, inlined. -/
theorem outputOrCause_of_compose (hook : c.hook = none) (free : model.isTemplateFree = true) {ns : List Node}
    (acyclic : r.Acyclic) (bases : ∀ name t, r.template? name = some t → t.base = none)
    (enough : r.keys.dedup.length < c.depth t)
    (composed : Render.outcome (Render.compose t) ⟨c.fresh, []⟩ = (.ok ns, ⟨(c.withTemplates r).fresh, []⟩)) :
    c.outputOrCause t model = (c.withTemplates r).outputOrCause (.ofNodes (r.inline ns)) model := by
  obtain ⟨depth, hd⟩ : ∃ depth, c.depth t = depth + 1 := ⟨_, rfl⟩
  obtain ⟨depth', hd'⟩ : ∃ depth', (c.withTemplates r).depth (.ofNodes (r.inline ns)) = depth' + 1 := ⟨_, rfl⟩
  let marked := Render.within t.sourcePath (Render.renderNodes model (Render.renderTemplate model depth) [] ns)
  have left : Render.outcome (Render.renderTemplate model (depth + 1) [] t) ⟨c.fresh, []⟩
      = Render.outcome marked ⟨(c.withTemplates r).fresh, []⟩ := by
    rw [Render.renderTemplate, Render.outcome_within, Render.outcome_within, Render.outcome_bind, composed]
  have right : Render.renderTemplate model (depth' + 1) [] (.ofNodes (r.inline ns))
      = Render.renderNodes model (Render.renderTemplate model depth') [] (r.inline ns) := by
    rw [Render.renderTemplate, Render.compose_of_none rfl, pure_bind]
    rfl
  have coupled : Render.CoupledSteps (Render.overRegistry r) marked
      (Render.renderTemplate model (depth' + 1) [] (.ofNodes (r.inline ns))) := by
    rw [right]
    exact Render.coupled_marked (Render.coupled_inline free acyclic bases (by omega) ns) t.sourcePath
  obtain ⟨results, states⟩ := coupled ⟨(c.withTemplates r).fresh, []⟩ ⟨(c.withTemplates r).fresh, []⟩
    ⟨⟨Render.Spelling.exact_same _ r, hook, trivial, NameMap.holds_empty, rfl, rfl⟩, trivial⟩
  rw [← left] at results states
  unfold outputOrCause render
  rw [hd, hd']
  have same := Render.eq_of_overRegistry states.contexts
  exact (mapError_concluded results (congrArg (·.output) same)).symm

/-- A template without a base is composed of its own nodes. -/
theorem outputOrCause_inline (hook : c.hook = none) (free : model.isTemplateFree = true)
    (bases : ∀ name t, c.templates.template? name = some t → t.base = none) (base : t.base = none)
    (acyclic : c.templates.Acyclic) :
    c.outputOrCause t model = c.outputOrCause (.ofNodes (c.templates.inline t.nodes)) model := by
  have enough : c.templates.keys.dedup.length < c.depth t := by
    have := c.templates.length_keys_le
    unfold depth
    omega
  refine outputOrCause_of_compose (r := c.templates) hook free acyclic bases enough ?_
  rw [Render.compose_of_none base]
  rfl

/-- A template that extends another is composed of the nodes of its base, over the registry with its blocks. -/
theorem outputOrCause_inline_base (hook : c.hook = none) (free : model.isTemplateFree = true)
    (bases : ∀ name t, c.templates.template? name = some t → t.base = none) {base : String} {b : Template}
    (extending : t.base = some base) (found : c.templates.template? base = some b)
    (acyclic : (c.templates.addBlocks t.blocks).Acyclic) :
    c.outputOrCause t model = (c.withTemplates (c.templates.addBlocks t.blocks)).outputOrCause
      (.ofNodes ((c.templates.addBlocks t.blocks).inline b.nodes)) model := by
  have bases' : ∀ name u, (c.templates.addBlocks t.blocks).template? name = some u → u.base = none := by
    intro name u hu
    rcases Registry.template?_addBlocks hu with hu | ⟨block, _, -, rfl⟩
    · exact bases name u hu
    · rfl
  have known : ∀ key ∈ (c.templates.addBlocks t.blocks).keys.dedup, key ∈ c.knownNames t :=
    fun _ hk => mem_knownNames_of_addBlocks extending (List.mem_dedup.1 hk)
  have enough : (c.templates.addBlocks t.blocks).keys.dedup.length < c.depth t :=
    Nat.lt_of_le_of_lt (length_le_dedup (List.nodup_dedup _) known) (c.length_knownNames_lt t)
  exact outputOrCause_of_compose hook free acyclic bases' enough (Render.outcome_compose_of_some extending found)

/-- **Composition is substitution.** -/
theorem render_inline (hook : c.hook = none) (free : model.isTemplateFree = true)
    (bases : ∀ name t, c.templates.template? name = some t → t.base = none) :
    (c.templates.Acyclic → ∀ t : Template, t.base = none →
      c.outputOrCause t model = c.outputOrCause (.ofNodes (c.templates.inline t.nodes)) model)
    ∧ ∀ (t : Template) (base : String) (b : Template), t.base = some base → c.templates.template? base = some b →
      (c.templates.addBlocks t.blocks).Acyclic →
        c.outputOrCause t model = (c.withTemplates (c.templates.addBlocks t.blocks)).outputOrCause
          (.ofNodes ((c.templates.addBlocks t.blocks).inline b.nodes)) model := by
  constructor
  · intro acyclic t base
    exact outputOrCause_inline hook free bases base acyclic
  · intro t base b extending found acyclic
    exact outputOrCause_inline_base hook free bases extending found acyclic

theorem render_inline_page :
    let page := Template.ofNodes [.block "main" [] .origin, .text "!" .origin]
    let t : Template := ⟨[.block "main" [.text "x" .origin] .origin], some "page", none, []⟩
    let r := Registry.add .empty "page" page
    let c : Context := Context.empty.withTemplates r
    c.hook = none ∧ Value.isTemplateFree .null = true ∧ (∀ name u, r.template? name = some u → u.base = none)
      ∧ r.Acyclic ∧ (r.addBlocks t.blocks).Acyclic
      ∧ c.outputOrCause page .null = c.outputOrCause (.ofNodes (r.inline page.nodes)) .null
      ∧ c.outputOrCause t .null
        = (c.withTemplates (r.addBlocks t.blocks)).outputOrCause (.ofNodes ((r.addBlocks t.blocks).inline page.nodes))
          .null := by
  intro page t r c
  have onPage (name : String) (u : Template) (h : r.template? name = some u) : fold name = fold "page" ∧ u = page := by
    rw [Registry.template?_add] at h
    split at h
    · next same => exact ⟨same, (Option.some.inj h).symm⟩
    · cases h
  have inMain (name : String) (u : Template) (h : (r.addBlocks t.blocks).template? name = some u) :
      u = .ofNodes [.text "x" .origin] ∨ fold name = fold "page" ∧ u = page := by
    have added : r.addBlocks t.blocks = r.add "main" (.ofNodes [.text "x" .origin]) := rfl
    rw [added, Registry.template?_add] at h
    split at h
    · exact .inl (Option.some.inj h).symm
    · exact .inr (onPage name u h)
  have bases (name : String) (u : Template) (h : r.template? name = some u) : u.base = none := by
    rw [(onPage name u h).2]
    rfl
  have distinct : fold "main" ≠ fold "page" := by decide
  have acyclic : r.Acyclic := by
    apply Registry.acyclic_of_flat
    rintro name other third ⟨u, hu, used⟩ ⟨v, hv, _⟩
    obtain ⟨-, rfl⟩ := onPage name u hu
    obtain ⟨same, -⟩ := onPage other v hv
    exact distinct ((List.mem_singleton.1 used).symm.trans same)
  have acyclic' : (r.addBlocks t.blocks).Acyclic := by
    apply Registry.acyclic_of_flat
    rintro name other third ⟨u, hu, used⟩ ⟨v, hv, used'⟩
    rcases inMain name u hu with rfl | ⟨-, rfl⟩
    · cases used
    · rcases inMain other v hv with rfl | ⟨same, -⟩
      · cases used'
      · exact distinct ((List.mem_singleton.1 used).symm.trans same)
  have found : r.template? "page" = some page := by
    rw [Registry.template?_add, if_pos rfl]
  obtain ⟨own, extended⟩ := render_inline (c := c) rfl Value.isTemplateFree_null bases
  exact ⟨rfl, Value.isTemplateFree_null, bases, acyclic, acyclic', own acyclic page rfl,
    extended t "page" page rfl found acyclic'⟩

end Context

end Stencil
