import Stencil.Proofs.Loading.Pending
import Stencil.Proofs.Rendering.Coupling
import Stencil.Proofs.Syntax.References

/-!
# Renders over closed registries

A registry is closed if it knows all names that its templates mention. A render keeps it closed: what it registers are
the bodies of blocks, and what they mention is mentioned by the template around them. If no name is pending, each known
name has a template, so that a render finds every base and every included template.

* `Context.render_linked`: both, for a render of a template whose mentions are known.
-/

namespace Stencil

/-! ## Closed registries -/

namespace Registry

/-- All that the registered templates mention is known. -/
def Closed (r : Registry) : Prop :=
  ∀ name t, r.template? name = some t → ∀ other ∈ t.mentions, fold other ∈ r.keys

variable {r : Registry} {name : String} {names : List String} {t : Template} {blocks : List (String × List Node)}

theorem Closed.declareAll (closed : r.Closed) (names : List String) : Closed (r.declareAll names) := by
  intro name t found other mentioned
  rw [template?_declareAll] at found
  exact mem_keys_declareAll.2 (.inr (closed name t found other mentioned))

/-- A template whose mentions are known can be registered. -/
theorem Closed.add (closed : r.Closed) (name : String)
    (known : ∀ other ∈ t.mentions, fold other ∈ (r.add name t).keys) : Closed (r.add name t) := by
  intro key u found other mentioned
  rw [template?_add] at found
  split at found
  · cases found
    exact known other mentioned
  · exact mem_keys_add.2 (.inr (.inr (closed key u found other mentioned)))

/-- A template that has been read declares what it mentions. -/
theorem Closed.add_covered (closed : r.Closed) (name : String) (covered : t.Covered) : Closed (r.add name t) :=
  closed.add name fun other mentioned => mem_keys_add.2 (.inr (.inl (covered other mentioned)))

/-- What the blocks of a template mention is mentioned by the template. -/
theorem mem_mentions_of_blocks {block : String × List Node} (hb : block ∈ t.blocks)
    (mentioned : name ∈ inclusionsAll block.2) : name ∈ t.mentions := by
  refine List.mem_append_right _ ?_
  rw [inclusionsAll_eq, List.mem_filterMap] at mentioned ⊢
  obtain ⟨s, hs, named⟩ := mentioned
  exact ⟨s, t.mem_writtenAll_of_blocks hb hs, named⟩

theorem Closed.addBlocks (closed : r.Closed)
    (known : ∀ block ∈ blocks, ∀ other ∈ inclusionsAll block.2, fold other ∈ r.keys) : Closed (r.addBlocks blocks) := by
  intro key u found other mentioned
  refine mem_keys_addBlocks.2 (.inl ?_)
  rcases template?_addBlocks found with found | ⟨block, hb, -, rfl⟩
  · exact closed key u found other mentioned
  · exact known block hb other mentioned

end Registry

/-! ## Inclusions among the names that a render asks for -/

mutual

theorem Node.mem_inclusions : ∀ {n : Node} {name : String}, (name, .inclusion) ∈ n.sites → name ∈ n.inclusions
  | .text .., _, h | .value .., _, h | .call .., _, h => nomatch h
  | .branch _ body alternative _, name, h => by
    rw [Node.inclusions, List.mem_append]
    exact (List.mem_append.1 h).imp mem_inclusionsAll mem_inclusionsOption
  | .loop _ _ _ body _, name, h => mem_inclusionsAll (show (name, .inclusion) ∈ sitesAll body from h)
  | .inclusion _ _, name, h => by simpa [Node.sites, Node.inclusions] using h
  | .block _ _ _, name, h => by simp [Node.sites] at h

theorem mem_inclusionsAll : ∀ {ns : List Node} {name : String}, (name, .inclusion) ∈ sitesAll ns →
    name ∈ inclusionsAll ns
  | [], _, h => nomatch h
  | n :: ns, name, h => by
    rw [inclusionsAll, List.mem_append]
    exact (List.mem_append.1 h).imp Node.mem_inclusions mem_inclusionsAll

theorem mem_inclusionsOption : ∀ {o : Option (List Node)} {name : String}, (name, .inclusion) ∈ sitesOption o →
    name ∈ inclusionsOption o
  | none, _, h => nomatch h
  | some ns, name, h => mem_inclusionsAll (show (name, .inclusion) ∈ sitesAll ns from h)

end

/-! ## Harmless errors -/

/-- An error that a function of the host returns. -/
def ReturnedByHost (functions : NameMap Function) (cause : Error) : Prop :=
  ∃ name f i e, functions.get? name = some f ∧ f.invoke i = .error e ∧ e.cause = cause

/-- An error is no missing base, unless a function of the host has returned it. -/
def Harmless (functions : NameMap Function) (e : Error) : Prop :=
  ∀ name, e.cause = .baseTemplateNotFound name → ReturnedByHost functions e.cause

theorem harmless_of_isOfEvaluation {functions : NameMap Function} {e : Error} (h : e.isOfEvaluation = true) :
    Harmless functions e := by
  intro name missing
  cases e <;> simp [Error.isOfEvaluation, Error.cause] at h missing

theorem Evaluation.harmless_call {e : Evaluation} {name : String} {texts : List String} {err : Error}
    (h : e.call name texts = .error err) : Harmless e.functions err := by
  rcases call_error h with rfl | h | ⟨f, i, found, returned⟩
  · exact harmless_of_isOfEvaluation rfl
  · exact harmless_of_isOfEvaluation (Error.isOfEvaluation_of_isOfValues h)
  · exact fun _ _ => ⟨name, f, i, err, found, returned, rfl⟩

namespace Render

/-! ## The registry in the course of a render -/

/-- What holds of the registry in a render under known names. Nothing is pending if nothing was. -/
structure Linked (complete : Prop) (known : List String) (r : Registry) : Prop where
  nodup : r.keys.Nodup
  closed : r.Closed
  kept : ∀ key ∈ known, key ∈ r.keys
  filled : complete → r.pending = []

variable {complete : Prop} {known : List String} {functions : NameMap Function} {r : Registry} {t : Template}

theorem Linked.widen (h : Linked complete known r) : Linked complete r.keys r :=
  ⟨h.nodup, h.closed, fun _ h => h, h.filled⟩

theorem Linked.narrow {wider : List String} (h : Linked complete wider r) (sub : ∀ key ∈ known, key ∈ wider) :
    Linked complete known r := ⟨h.nodup, h.closed, fun key hk => h.kept key (sub key hk), h.filled⟩

theorem Linked.addBlocks (h : Linked complete known r) (mentions : ∀ name ∈ t.mentions, fold name ∈ known) :
    Linked complete known (r.addBlocks t.blocks) where
  nodup := Registry.nodup_addBlocks h.nodup _
  closed := h.closed.addBlocks fun _ hb name mentioned =>
    h.kept _ (mentions name (Registry.mem_mentions_of_blocks hb mentioned))
  kept key hk := Registry.mem_keys_addBlocks.2 (.inl (h.kept key hk))
  filled all := Registry.pending_addBlocks h.nodup (h.filled all) _

/-- If no name is pending, no inclusion is missed and no base is. -/
def linked (complete : Prop) (known : List String) (functions : NameMap Function) : Likeness where
  host _ host := host = functions
  registries r r' := r' = r ∧ Linked complete known r
  held _ := False
  events l l' := l' = l ∧ (complete → ∀ name, .missingTemplate name .inclusion ∉ l)
  errors e e' := e' = e ∧ (complete → Harmless functions e)
  events_notIterable := by
    rintro collection kind l _ ⟨rfl, present⟩
    exact ⟨rfl, fun all name => by simpa using present all name⟩
  errors_evaluation e h := ⟨rfl, fun _ => harmless_of_isOfEvaluation h⟩
  calls := by
    rintro scope _ s _ name _ texts rfl rfl ⟨rfl, -⟩
    generalize hx : Evaluation.call _ name texts = x
    cases x with
    | ok v => exact .ok trivial
    | error e => exact .error ⟨rfl, fun _ => Evaluation.harmless_call hx⟩

/-- States that are alike in this way are the same. -/
theorem eq_of_linked {s s' : RenderState} (h : (linked complete known functions).States s s') : s' = s := by
  obtain ⟨c, l⟩ := s
  obtain ⟨c', l'⟩ := s'
  have same : c' = c.withTemplates c'.templates := Spelling.eq_of_exact h.contexts.same
  have equal : c'.templates = c.templates := h.contexts.registries.1
  have events : l' = l := h.events.1
  rw [same, equal, events]
  rfl

/-- To keep to some names it is enough to keep to more. -/
theorem CoupledAt.narrow {wider : List String} {r r' : Render Unit} {s s' : RenderState}
    (sub : ∀ key ∈ known, key ∈ wider) (h : CoupledAt (linked complete wider functions) (fun _ => True) r r' s s') :
    CoupledAt (linked complete known functions) (fun _ => True) r r' s s' := by
  obtain ⟨results, ⟨same, hook, host, scratch, equal, inside⟩, events⟩ := h
  exact ⟨results, ⟨same, hook, host, scratch, equal, inside.narrow sub⟩, events⟩

theorem harmless_marked (path : Option String) {e : Error} (h : Harmless functions e) :
    Harmless functions (marked path e) := by
  unfold Harmless
  rw [cause_marked]
  exact h

variable {model : Value} {nest : List String → Template → Render Unit} {active : List String}

/-- Nodes whose inclusions are known find a template for each of them if no name is pending. -/
theorem coupled_linkedNodes (free : model.isTemplateFree = true)
    (inside : ∀ active known t, (∀ name ∈ t.mentions, fold name ∈ known) →
      CoupledSteps (linked complete known functions) (nest active t) (nest active t))
    {ns : List Node} (mentions : ∀ name ∈ inclusionsAll ns, fold name ∈ known) :
    CoupledSteps (linked complete known functions) (renderNodes model nest active ns)
      (renderNodes model nest active ns) := by
  refine coupled_renderNodes (Value.holds_of_free free) (fun _ => False.elim) ns fun name use asked => ?_
  refine coupled_renderNamed ⟨rfl, fun _ _ missing => by simp [Error.cause] at missing⟩
    (fun c c' alike => by rw [alike.registries.1]) (fun s s' states missing => ?_) fun s s' t states found fresh => ?_
  · obtain ⟨same, present⟩ := states.events
    refine ⟨congrArg _ same, fun all other => ?_⟩
    rw [List.mem_cons, not_or]
    refine ⟨fun equal => ?_, present all other⟩
    -- An inclusion is known, so that it has a template.
    obtain ⟨rfl, rfl⟩ := Event.missingTemplate.inj equal
    obtain ⟨-, link⟩ := states.contexts.registries
    obtain ⟨t, found⟩ := Registry.exists_template?_of_pending link.nodup (link.filled all)
      (link.kept _ (mentions other (mem_inclusionsAll asked)))
    rw [missing] at found
    cases found
  · -- What a registered template mentions is known now, if not before.
    obtain ⟨⟨same, hook, host, scratch, equal, link⟩, events⟩ := states
    exact (inside (fold name :: active) _ t (link.closed name t found) s s'
      ⟨⟨same, hook, host, scratch, equal, link.widen⟩, events⟩).narrow link.kept

theorem coupled_linked (free : model.isTemplateFree = true) (depth : Nat) (active : List String)
    (mentions : ∀ name ∈ t.mentions, fold name ∈ known) :
    CoupledSteps (linked complete known functions) (renderTemplate model depth active t)
      (renderTemplate model depth active t) := by
  induction depth generalizing active known t with
  | zero =>
    unfold renderTemplate
    exact coupled_throw ⟨rfl, fun _ _ missing => by simp [Error.cause] at missing⟩
  | succ depth ih =>
    have nodes (known : List String) (ns : List Node) (mentions : ∀ name ∈ inclusionsAll ns, fold name ∈ known) :
        CoupledSteps (linked complete known functions) (renderNodes model (renderTemplate model depth) active ns)
          (renderNodes model (renderTemplate model depth) active ns) :=
      coupled_linkedNodes free (fun active known t mentions => ih active mentions) mentions
    refine coupled_renderTemplate (T := Eq) (f := id)
      (fun e e' alike => ⟨congrArg _ alike.1, fun all => harmless_marked _ (alike.2 all)⟩) Option.map_id_apply.symm
      ?_ ?_ ?_ ?_
    · exact fun _ => nodes known t.nodes fun name hn => mentions name (List.mem_append_right _ hn)
    · intro b s s' _ states
      rw [states.contexts.registries.1]
      exact rel_refl (fun _ => rfl) _
    · intro b s s' extending states missing
      refine ⟨rfl, fun all => ?_⟩
      -- The base is known, so that it has a template.
      have link := states.contexts.registries.2
      obtain ⟨u, present⟩ := Registry.exists_template?_of_pending link.nodup (link.filled all)
        (link.kept _ (mentions b (by simp [Template.mentions, extending])))
      rw [missing] at present
      cases present
    · rintro b u _ s s' extending states found rfl
      obtain rfl := eq_of_linked states
      obtain ⟨⟨same, hook, host, scratch, equal, link⟩, events⟩ := states
      have registered : Linked complete known (s'.context.templates.addBlocks t.blocks) := link.addBlocks mentions
      have known' : ∀ name ∈ inclusionsAll u.nodes, fold name ∈ (s'.context.templates.addBlocks t.blocks).keys :=
        fun name hn => Registry.mem_keys_addBlocks.2 (.inl (link.closed b u found name (List.mem_append_right _ hn)))
      let s : RenderState :=
        { s' with context := s'.context.withTemplates (s'.context.templates.addBlocks t.blocks) }
      have states : (linked complete (s'.context.templates.addBlocks t.blocks).keys functions).States s s :=
        ⟨⟨Spelling.exact_same _ _, hook, host, scratch, rfl, registered.widen⟩, events⟩
      exact (nodes _ u.nodes known' s s states).narrow registered.kept

end Render

/-! ## Renders from a context -/

namespace Context

variable {c : Context} {t : Template} {model : Value}

/-- **Renders keep registries closed, and over a filled one find what they ask for.** -/
theorem render_linked {c' : Context} {x : Except Error String} {events : List Event}
    (rendered : c.render t model = (x, c', events)) (hook : c.hook = none) (free : model.isTemplateFree = true)
    (nodup : c.templates.keys.Nodup) (closed : c.templates.Closed)
    (mentions : ∀ name ∈ t.mentions, fold name ∈ c.templates.keys) :
    c'.hook = none ∧ c'.functions = c.functions
      ∧ Render.Linked (c.templates.pending = []) c.templates.keys c'.templates
      ∧ (c.templates.pending = [] →
        (∀ name, .missingTemplate name .inclusion ∉ events) ∧ ∀ e, x = .error e → Harmless c.functions e) := by
  have start : (Render.linked (c.templates.pending = []) c.templates.keys c.functions).States
      ⟨c.fresh, []⟩ ⟨c.fresh, []⟩ :=
    ⟨⟨Render.Spelling.exact_same _ _, hook, rfl, NameMap.holds_empty, rfl, nodup, closed, fun _ h => h, id⟩, rfl,
      fun _ _ => List.not_mem_nil⟩
  obtain ⟨results, after⟩ := Render.coupled_linked free (c.depth t) [] mentions _ _ start
  rw [render_eq] at rendered
  generalize Render.outcome (Render.renderTemplate model (c.depth t) [] t) ⟨c.fresh, []⟩ = o
    at results after rendered
  obtain ⟨y, s⟩ := o
  obtain ⟨⟨-, hook', functions, -, -, link⟩, -, present⟩ := after
  have reversed (all : c.templates.pending = []) : ∀ name, .missingTemplate name .inclusion ∉ s.events.reverse :=
    fun name => by rw [List.mem_reverse]; exact present all name
  cases y with
  | ok _ =>
    cases rendered
    exact ⟨hook', functions, link, fun all => ⟨reversed all, nofun⟩⟩
  | error e =>
    cases rendered
    refine ⟨hook', functions, link, fun all => ⟨reversed all, fun e' failed => ?_⟩⟩
    cases failed
    cases results with
    | error alike => exact alike.2 all

end Context

end Stencil
