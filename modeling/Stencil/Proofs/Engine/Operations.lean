import Mathlib
import Stencil.Engine
import Stencil.Proofs.Loading.Filling
import Stencil.Proofs.Rendering.Linking

/-!
# What can be done with an engine

An engine is made by reading a source. Later on templates, names and functions are added, pending names are loaded, and
models are rendered, in any order. All of this keeps the registry closed: it knows all that the template of the engine
and the registered ones mention (`Engine.Linked`). Once the pending names have been loaded, no render asks for a
template that is not there, as long as nothing is added that refers to names not known by then.

* `Engine.references_closed`: both, for all sequences of operations.
-/

namespace Stencil

/-! ## Events of reading -/

/-- Whether an event is recorded while a source is read. -/
def Event.isOfReading : Event → Bool
  | .token .. | .lexError .. | .node .. => true
  | .missingTemplate .. | .notIterable .. | .loaded .. => false

namespace Builder

variable {b b' : Builder} {s : Statement} {ss : List Statement}

theorem events_push (h : ∀ e ∈ b.events, e.isOfReading = true) (n : Node) :
    ∀ e ∈ (b.push n).events, e.isOfReading = true := by
  rintro e (_ | ⟨_, member⟩)
  · rfl
  · exact h e member

theorem events_step (h : ∀ e ∈ b.events, e.isOfReading = true) (step : b.step s = .ok b') :
    ∀ e ∈ b'.events, e.isOfReading = true := by
  cases takes_of_step step with
  | text | value | call | base | inclusion => exact events_push h _
  | openBranch | openLoop | openBlock | alternative => exact h
  | close l o before frames inside => exact events_push (b := { b with nodes := before, frames := frames }) h _

theorem events_run (h : ∀ e ∈ b.events, e.isOfReading = true) (ss : List Statement) :
    ∀ e ∈ (b.run ss).1.events, e.isOfReading = true := by
  induction ss generalizing b with
  | nil => exact h
  | cons s ss ih =>
    rw [run]
    cases hs : b.step s with
    | error e => exact h
    | ok b₁ => exact ih (events_step h hs)

end Builder

theorem Template.events_parseTraced (source : String) (options : ParseOptions) :
    ∀ e ∈ (parseTraced source options).2, e.isOfReading = true := by
  intro e member
  simp only [parseTraced, ofTokens] at member
  split at member
  · rcases List.mem_append.1 member with member | member
    · simp only [Event.ofTokens, List.mem_mapIdx] at member
      obtain ⟨i, _, rfl⟩ := member
      split <;> rfl
    · exact Builder.events_run (by simp [Builder.empty]) _ e (List.mem_reverse.1 member)
  · cases member

/-! ## Loading -/

namespace Loader

variable {l : Loader} {fs : FileSystem} {c : Context} {name : String} {e : Error}

/-- An error of loading is no missing base. -/
theorem cause_of_load (h : (l.load fs name).1 = .error e) (base : String) : e.cause ≠ .baseTemplateNotFound base := by
  have source (e : Error) (failed : l.source fs name = .error e) : e.cause ≠ .baseTemplateNotFound base := by
    rw [source_eq] at failed
    split at failed
    · next check =>
      cases failed
      unfold Loader.check at check
      split at check
      · cases check
        simp [Error.cause]
      · split at check
        · cases check
        · cases check
          simp [Error.cause]
    · split at failed
      · cases found : fs.read (l.path name) with
        | error fault =>
          rw [found] at failed
          cases failed
          simp [Error.cause]
        | ok text => rw [found] at failed; cases failed
      · cases failed
        simp [Error.cause]
  rcases load_cases l fs name with ⟨_, load⟩ | ⟨_, -, load⟩ | ⟨_, _, -, load⟩ | ⟨e', _, read, load⟩ <;> rw [load] at h
  · cases h
    simp [Error.cause]
  · cases h
  · cases h
  · cases h
    rcases read_cases l fs name with ⟨e', failed, read'⟩ | ⟨text, options, -, read'⟩ <;> rw [read] at read'
    · cases read'
      exact source _ failed
    · cases hr : (Template.parseTraced text options).1 with
      | error fault =>
        rw [hr] at read'
        cases read'
        simp [Error.cause]
      | ok t => rw [hr] at read'; cases read'

theorem events_load (l : Loader) (fs : FileSystem) (name : String) :
    ∀ e ∈ (l.load fs name).2.2, e.isOfReading = true := by
  have ofRead : ∀ e ∈ (l.read fs name).2, e.isOfReading = true := by
    rcases read_cases l fs name with ⟨_, -, read⟩ | ⟨text, options, -, read⟩ <;> rw [read]
    · nofun
    · exact Template.events_parseTraced text options
  rcases load_cases l fs name with ⟨_, load⟩ | ⟨_, -, load⟩ | ⟨_, _, read, load⟩ | ⟨_, _, read, load⟩ <;> rw [load]
  · nofun
  · nofun
  · rwa [read] at ofRead
  · rwa [read] at ofRead

/-- What holds while a context is filled: its registry stays closed and keeps its names. -/
structure Filled (c : Context) (s : FillState) : Prop where
  closed : s.context.templates.Closed
  kept : ∀ key ∈ c.templates.keys, key ∈ s.context.templates.keys
  cached : s.loader.Cached Template.IsRead
  events : ∀ name use, .missingTemplate name use ∉ s.events

theorem Filled.fill {s : FillState} (h : Filled c s) (name : String) : Filled c ((fill fs name).run s).2 := by
  have readable : Readable Template.IsRead fs := fun text _ options t read => ⟨text, options, read⟩
  obtain ⟨cached, given⟩ := load_holds h.cached readable name
  have events := events_load s.loader fs name
  rw [run_fill]
  generalize s.loader.load fs name = r at cached given events ⊢
  have silent (l : List Event) (reading : ∀ e ∈ l, e.isOfReading = true) :
      ∀ name use, .missingTemplate name use ∉ s.events ++ l := by
    intro name use member
    rcases List.mem_append.1 member with member | member
    · exact h.events name use member
    · cases reading _ member
  rcases r with ⟨_ | t, l, events'⟩
  · exact ⟨h.closed, h.kept, cached, silent events' events⟩
  · refine ⟨h.closed.add_covered name (given t rfl).covered,
      fun key hk => Registry.mem_keys_add.2 (.inr (.inr (h.kept key hk))), cached, fun other use member => ?_⟩
    rcases List.mem_append.1 member with member | member
    · exact silent events' events other use member
    · simp at member

theorem filled_loadPending (closed : c.templates.Closed) (cached : l.Cached Template.IsRead) (fs : FileSystem) :
    Filled c (l.loadPending fs c).2 :=
  loadPending_induction (fun _ name h => h.fill name) ⟨closed, fun _ h => h, cached, nofun⟩

/-- An error of filling is an error of loading. -/
theorem harmless_of_loadPending {functions : NameMap Function} (nodup : c.templates.keys.Nodup)
    (h : (l.loadPending fs c).1 = .error e) : Harmless functions e := by
  obtain ⟨name, rest, -, failed⟩ := rounds_error nodup h
  exact fun base missing => absurd missing (cause_of_load failed base)

end Loader

/-! ## Operations -/

namespace Engine

inductive Operation where
  | addSource (name source : String)
  | addTemplate (name : String) (t : Template)
  /-- Makes the name of a template known. -/
  | declare (name : String)
  | addFunction (name : String) (f : Function)
  | loadPending (l : Loader) (fs : FileSystem)
  | render (fs : FileSystem) (model : Value)

namespace Operation

/-- Templates are read from sources, and values hold none. -/
def Admitted : Operation → Prop
  | addTemplate _ t => t.IsRead
  | loadPending l _ => l.Cached Template.IsRead
  | render _ model => model.isTemplateFree = true
  | addSource .. | declare _ | addFunction .. => True

/-- The names of templates that an operation makes known, apart from what is loaded. -/
def declares : Operation → List String
  | addSource _ source => match Template.parse source with
    | .ok t => t.references
    | .error _ => []
  | addTemplate _ t => t.references
  | declare name => [name]
  | addFunction .. | loadPending .. | render .. => []

end Operation

/-- The engine after an operation, which may have failed. -/
def perform (e : Engine) : Operation → Engine
  | .addSource name source => match e.addSource name source with
    | .ok e => e
    | .error _ => e
  | .addTemplate name t => { e with context := e.context.addTemplate name t }
  | .declare name => { e with context := e.context.declareAll [name] }
  | .addFunction name f => { e with context := e.context.addFunction name f }
  | .loadPending l fs => { e with context := (l.loadPending fs e.context).2.context }
  | .render fs model => (e.render fs model).2.1

def run (e : Engine) (ops : List Operation) : Engine := ops.foldl perform e

/-- An engine as it comes from reading a source, with or without a loader. -/
def IsFresh (e : Engine) : Prop :=
  ∃ source options e₀, (parseTraced source options).1 = .ok e₀ ∧ e = { e₀ with loader := e.loader }
    ∧ ∀ l, e.loader = some l → l.Cached Template.IsRead

/-- What holds of an engine at all times. -/
structure Linked (e : Engine) : Prop where
  hook : e.context.hook = none
  nodup : e.context.templates.keys.Nodup
  closed : e.context.templates.Closed
  mentions : ∀ name ∈ e.template.mentions, fold name ∈ e.context.templates.keys
  cached : ∀ l, e.loader = some l → l.Cached Template.IsRead

variable {e : Engine} {op : Operation} {ops : List Operation} {fs : FileSystem} {model : Value}

theorem IsFresh.linked (h : e.IsFresh) : e.Linked := by
  obtain ⟨source, options, e₀, read, same, cached⟩ := h
  simp only [parseTraced] at read
  cases hr : (Template.parseTraced source options).1 with
  | error fault => rw [hr] at read; cases read
  | ok t =>
    rw [hr] at read
    cases read
    have nodup : (NameMap.empty : Registry).keys.Nodup := List.nodup_nil
    have closed : Registry.Closed .empty := nofun
    rw [same]
    have covered : t.Covered := Template.IsRead.covered ⟨source, options, hr⟩
    exact ⟨rfl, Registry.nodup_declareAll nodup _, closed.declareAll _,
      fun name hn => Registry.mem_keys_declareAll.2 (.inl (covered name hn)), cached⟩

/-- An engine comes to know more, and goes on being linked. -/
structure Grows (e e' : Engine) : Prop where
  template : e'.template = e.template
  kept : ∀ key ∈ e.context.templates.keys, key ∈ e'.context.templates.keys
  linked : e'.Linked

theorem Linked.refl (h : e.Linked) : e.Grows e := ⟨rfl, fun _ hk => hk, h⟩

theorem Grows.trans {e₁ e₂ e₃ : Engine} (h : e₁.Grows e₂) (h' : e₂.Grows e₃) : e₁.Grows e₃ :=
  ⟨h'.template.trans h.template, fun key hk => h'.kept key (h.kept key hk), h'.linked⟩

namespace Linked

/-- The registry may grow, as long as it stays closed. -/
theorem withContext (h : e.Linked) {c : Context} (hook : c.hook = none) (nodup : c.templates.keys.Nodup)
    (closed : c.templates.Closed) (kept : ∀ key ∈ e.context.templates.keys, key ∈ c.templates.keys) :
    e.Grows { e with context := c } :=
  ⟨rfl, kept, hook, nodup, closed, fun name hn => kept _ (h.mentions name hn), h.cached⟩

theorem addTemplate (h : e.Linked) (name : String) {t : Template} (covered : t.Covered) :
    e.Grows { e with context := e.context.addTemplate name t } :=
  h.withContext h.hook (Registry.nodup_add h.nodup name t) (h.closed.add_covered name covered)
    fun _ hk => Registry.mem_keys_add.2 (.inr (.inr hk))

theorem renderContext (h : e.Linked) {x : Except Error String} {c : Context} {events : List Event}
    (rendered : e.context.render e.template model = (x, c, events)) (free : model.isTemplateFree = true) :
    e.Grows { e with context := c } := by
  obtain ⟨hook, -, link, -⟩ := Context.render_linked rendered h.hook free h.nodup h.closed h.mentions
  exact h.withContext hook link.nodup link.closed link.kept

theorem loadPending (h : e.Linked) {l : Loader} (cached : l.Cached Template.IsRead) (fs : FileSystem) :
    e.Grows { e with context := (l.loadPending fs e.context).2.context } := by
  have filled := Loader.filled_loadPending h.closed cached fs
  refine h.withContext ?_ (Loader.nodup_loadPending h.nodup l fs) filled.closed filled.kept
  rw [Loader.loadPending_same]
  exact h.hook

theorem fill (h : e.Linked) {l : Loader} (own : e.loader = some l) (fs : FileSystem) :
    e.Grows { e with context := (l.loadPending fs e.context).2.context,
                     loader := some (l.loadPending fs e.context).2.loader } := by
  have filled := Loader.filled_loadPending h.closed (h.cached l own) fs
  obtain ⟨-, kept, hook, nodup, closed, mentions, -⟩ := h.loadPending (h.cached l own) fs
  exact ⟨rfl, kept, hook, nodup, closed, mentions, fun _ same => Option.some.inj same ▸ filled.cached⟩

end Linked

/-! ## Renders of an engine -/

section Renders

variable {l : Loader} {c : Context} {s : FillState} {x : Except Error String} {events : List Event}

theorem render_of_none (own : e.loader = none) (rendered : e.context.render e.template model = (x, c, events))
    (fs : FileSystem) : e.render fs model = (x, { e with context := c }, events) := by
  unfold Engine.render
  -- What rendering is does not matter here, and as a variable it is not evaluated.
  obtain ⟨render, any⟩ : ∃ f, f = Context.render := ⟨_, rfl⟩
  rw [← any] at rendered ⊢
  rw [own]
  simp only [rendered]

theorem render_of_error {fault : Error} (own : e.loader = some l)
    (failed : l.loadPending fs e.context = (.error fault, s)) (model : Value) :
    e.render fs model = (.error fault, { e with context := s.context, loader := some s.loader }, s.events) := by
  unfold Engine.render
  obtain ⟨render, any⟩ : ∃ f, f = Context.render := ⟨_, rfl⟩
  rw [← any, own]
  simp only [failed]

theorem render_of_ok {k : Nat} (own : e.loader = some l) (filled : l.loadPending fs e.context = (.ok k, s))
    (rendered : s.context.render e.template model = (x, c, events)) :
    e.render fs model = (x, { e with context := c, loader := some s.loader }, s.events ++ events) := by
  unfold Engine.render
  obtain ⟨render, any⟩ : ∃ f, f = Context.render := ⟨_, rfl⟩
  rw [← any] at rendered ⊢
  rw [own]
  simp only [filled, rendered]

end Renders

theorem Linked.render (h : e.Linked) (free : model.isTemplateFree = true) (fs : FileSystem) :
    e.Grows (e.render fs model).2.1 := by
  cases own : e.loader with
  | none =>
    rcases rendered : e.context.render e.template model with ⟨x, c, events⟩
    rw [render_of_none own rendered]
    exact h.renderContext rendered free
  | some l =>
    have filled := h.fill own fs
    rcases outcome : l.loadPending fs e.context with ⟨_ | k, s⟩
    · rw [outcome] at filled
      rw [render_of_error own outcome]
      exact filled
    · rcases rendered : s.context.render e.template model with ⟨x, c, events⟩
      rw [outcome] at filled
      rw [render_of_ok own outcome rendered]
      exact filled.trans (filled.linked.renderContext rendered free)

theorem perform_addSource (e : Engine) (name source : String) : e.perform (.addSource name source)
    = match Template.parse source with
      | .ok t => { e with context := e.context.addTemplate name (t.withPath name) }
      | .error _ => e := by
  simp only [perform, Engine.addSource, Context.addSource]
  cases Template.parse source <;> rfl

/-- Every operation keeps the registry closed, whether it fails or not. -/
theorem Linked.perform (h : e.Linked) (admitted : op.Admitted) : e.Grows (e.perform op) := by
  cases op with
  | addSource name source =>
    rw [perform_addSource]
    cases read : Template.parse source with
    | error fault => exact h.refl
    | ok t =>
      have covered : t.Covered := Template.IsRead.covered ⟨source, {}, read⟩
      exact h.addTemplate name (t := t.withPath name) covered
  | addTemplate name t => exact h.addTemplate name admitted.covered
  | declare name =>
    exact h.withContext h.hook (Registry.nodup_declareAll h.nodup _) (h.closed.declareAll _)
      fun _ hk => Registry.mem_keys_declareAll.2 (.inr hk)
  | addFunction name f => exact h.withContext h.hook h.nodup h.closed fun _ hk => hk
  | loadPending l fs => exact h.loadPending admitted fs
  | render fs model => exact h.render admitted fs

theorem Linked.run (h : e.Linked) (admitted : ∀ op ∈ ops, op.Admitted) : e.Grows (e.run ops) := by
  induction ops generalizing e with
  | nil => exact h.refl
  | cons op ops ih =>
    have first := h.perform (admitted op List.mem_cons_self)
    exact first.trans (ih first.linked fun other ho => admitted other (List.mem_cons_of_mem op ho))

/-! ## Names that stay provided for -/

theorem Linked.complete_render (h : e.Linked) (free : model.isTemplateFree = true)
    (complete : e.context.templates.pending = []) (fs : FileSystem) :
    (e.render fs model).2.1.context.templates.pending = [] := by
  rcases rendered : e.context.render e.template model with ⟨x, c, events⟩
  have link := (Context.render_linked rendered h.hook free h.nodup h.closed h.mentions).2.2.1
  cases own : e.loader with
  | none =>
    rw [render_of_none own rendered]
    exact link.filled complete
  | some l =>
    rw [render_of_ok own (Loader.loadPending_of_complete complete l fs) rendered]
    exact link.filled complete

/-- An operation that refers to known names leaves none pending where none was. -/
theorem Linked.complete_perform (h : e.Linked) (admitted : op.Admitted) (complete : e.context.templates.pending = [])
    (known : ∀ name ∈ op.declares, fold name ∈ e.context.templates.keys) :
    (e.perform op).context.templates.pending = [] := by
  cases op with
  | addSource name source =>
    rw [perform_addSource]
    simp only [Operation.declares] at known
    cases read : Template.parse source with
    | error fault => exact complete
    | ok t =>
      rw [read] at known
      exact Registry.pending_add_of_known h.nodup complete name (t := t.withPath name) known
  | addTemplate name t => exact Registry.pending_add_of_known h.nodup complete name known
  | declare name => exact Registry.pending_declareAll_of_known complete known
  | addFunction name f => exact complete
  | loadPending l fs =>
    show (l.loadPending fs e.context).2.context.templates.pending = []
    rw [Loader.loadPending_of_complete complete]
    exact complete
  | render fs model => exact h.complete_render admitted complete fs

theorem Linked.complete_run (h : e.Linked) (admitted : ∀ op ∈ ops, op.Admitted)
    (complete : e.context.templates.pending = [])
    (known : ∀ op ∈ ops, ∀ name ∈ op.declares, fold name ∈ e.context.templates.keys) :
    (e.run ops).context.templates.pending = [] := by
  induction ops generalizing e with
  | nil => exact complete
  | cons op ops ih =>
    have first := h.perform (admitted op List.mem_cons_self)
    refine ih first.linked (fun other ho => admitted other (List.mem_cons_of_mem op ho))
      (h.complete_perform (admitted op List.mem_cons_self) complete (known op List.mem_cons_self)) ?_
    exact fun other ho name hn => first.kept _ (known other (List.mem_cons_of_mem op ho) name hn)

/-! ## Nothing is asked for that is not there -/

/-- No render of the engine misses an inclusion or a base. -/
def IsSafe (e : Engine) : Prop :=
  ∀ fs model, model.isTemplateFree = true →
    (∀ name, .missingTemplate name .inclusion ∉ (e.render fs model).2.2)
      ∧ ∀ error name, (e.render fs model).1 = .error error → error.cause = .baseTemplateNotFound name →
        ReturnedByHost e.context.functions error.cause

/-- Where no name is pending, no render misses what it asks for. -/
theorem Linked.safe_of_complete (h : e.Linked) (complete : e.context.templates.pending = []) : e.IsSafe := by
  intro fs model free
  rcases rendered : e.context.render e.template model with ⟨x, c, events⟩
  obtain ⟨present, harmless⟩ :=
    (Context.render_linked rendered h.hook free h.nodup h.closed h.mentions).2.2.2 complete
  cases own : e.loader with
  | none =>
    rw [render_of_none own rendered]
    exact ⟨present, fun error name failed missing => harmless error failed name missing⟩
  | some l =>
    rw [render_of_ok own (Loader.loadPending_of_complete complete l fs) rendered]
    exact ⟨present, fun error name failed missing => harmless error failed name missing⟩

/-- An engine with a loader loads what is pending before each render. -/
theorem Linked.safe_of_loader (h : e.Linked) {l : Loader} (own : e.loader = some l) : e.IsSafe := by
  intro fs model free
  have filled := Loader.filled_loadPending h.closed (h.cached l own) fs
  have link := (h.fill own fs).linked
  have functions : (l.loadPending fs e.context).2.context.functions = e.context.functions := by
    rw [Loader.loadPending_same]
    rfl
  rcases outcome : l.loadPending fs e.context with ⟨fault | k, s⟩
  · rw [outcome] at filled
    rw [render_of_error own outcome]
    refine ⟨fun name => filled.events name .inclusion, fun error name failed missing => ?_⟩
    cases failed
    exact Loader.harmless_of_loadPending h.nodup (by rw [outcome]) name missing
  · rcases rendered : s.context.render e.template model with ⟨x, c, events⟩
    have complete := Loader.loadPending_ok h.nodup (show (l.loadPending fs e.context).1 = .ok k by rw [outcome])
    rw [outcome] at filled link complete functions
    obtain ⟨present, harmless⟩ :=
      (Context.render_linked rendered link.hook free link.nodup link.closed link.mentions).2.2.2 complete
    rw [render_of_ok own outcome rendered]
    refine ⟨fun name member => ?_, fun error name failed missing => functions ▸ harmless error failed name missing⟩
    rcases List.mem_append.1 member with member | member
    · exact filled.events name .inclusion member
    · exact present name member

/-- **An engine knows all that its templates mention, and renders find it once it is loaded.** -/
theorem references_closed (fresh : e.IsFresh) (admitted : ∀ op ∈ ops, op.Admitted) :
    (e.run ops).template = e.template
      ∧ (∀ name ∈ e.template.mentions, fold name ∈ (e.run ops).context.templates.keys)
      ∧ (e.run ops).context.templates.Closed
      ∧ (∀ l fs k later, l.Cached Template.IsRead → (l.loadPending fs (e.run ops).context).1 = .ok k →
        (∀ op ∈ later, op.Admitted) →
        (∀ op ∈ later, ∀ name ∈ op.declares,
          fold name ∈ ((e.run ops).perform (.loadPending l fs)).context.templates.keys) →
        (((e.run ops).perform (.loadPending l fs)).run later).IsSafe)
      ∧ ∀ l, (e.run ops).loader = some l → (e.run ops).IsSafe := by
  obtain ⟨template, -, link⟩ := fresh.linked.run admitted
  refine ⟨template, template ▸ link.mentions, link.closed, ?_, fun _ own => link.safe_of_loader own⟩
  intro l fs k later cached filled admitted' known
  have loaded := (link.perform (show (Operation.loadPending l fs).Admitted from cached)).linked
  have complete := Loader.loadPending_ok link.nodup filled
  exact (loaded.run admitted').linked.safe_of_complete (loaded.complete_run admitted' complete known)

/-- An included template that is registered under another spelling stays found. -/
theorem references_closed_include :
    ((((ofTemplate ⟨[.inclusion "a" ⟨1, 3, 2⟩], none, none, ["a"]⟩).run [.addSource "A" "x"]).perform
      (.loadPending ⟨⟨[]⟩, "tmpl", false, []⟩ .empty)).run [.render .empty .null, .declare "a"]).IsSafe := by
  have fresh : (ofTemplate ⟨[.inclusion "a" ⟨1, 3, 2⟩], none, none, ["a"]⟩).IsFresh :=
    ⟨"{{include a}}", {}, _, by cbv, rfl, fun _ own => by cases own⟩
  have run : (ofTemplate ⟨[.inclusion "a" ⟨1, 3, 2⟩], none, none, ["a"]⟩).run [.addSource "A" "x"]
      = ⟨⟨[.inclusion "a" ⟨1, 3, 2⟩], none, none, ["a"]⟩,
        Context.empty.withTemplates ⟨[⟨"a", some ⟨[.text "x" ⟨1, 1, 0⟩], none, some "A", []⟩, "a", rfl⟩]⟩, none⟩ := by
    cbv
  have loaded := Loader.loadPending_of_complete
    (c := Context.empty.withTemplates ⟨[⟨"a", some ⟨[.text "x" ⟨1, 1, 0⟩], none, some "A", []⟩, "a", rfl⟩]⟩) rfl
  have admitted : ∀ op ∈ [Operation.addSource "A" "x"], op.Admitted := by simp [Operation.Admitted]
  refine (references_closed fresh admitted).2.2.2.1 _ _ 0 _ (by simp [Loader.Cached])
    (by rw [run, loaded]) (by simp [Operation.Admitted, Value.isTemplateFree]) ?_
  rw [run, perform, loaded]
  simp [Operation.declares, NameMap.keys, Context.withTemplates]
  rfl

end Engine

end Stencil
