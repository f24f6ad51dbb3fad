import Stencil.Proofs.Rendering.Repetition

/-!
# Values attached to calls

A call with literal arguments of a function that takes no context has one value in all renders (`Context.fixedValue?`),
whose text can be attached to it ahead of rendering (`Context.valueFor`). The text is written as the value would be, and
where it is tested instead of a truth value or a text, it comes out the same.

With the calls of a template, those in its blocks get such texts, and a template that extends another registers its
blocks. So two renders are compared over registries that have the same names, whose templates are the same but for
texts attached to their calls (`Context.Attached`).

* `NameMap.Related.insert`: maps whose entries are related one by one.
* `Render.outcome_call_of_fixed`: evaluating a call with a fixed value.
* `Render.coupled_attached`: renders of templates with and without attached texts.
* `Context.render_withValues`: attaching texts does not change what a render ends with.
-/

namespace Stencil

/-! ## Maps whose entries are related -/

namespace NameMap

variable {α : Type} {R S : α → α → Prop} {m m' : NameMap α} {name : String} {a a' : α}

/-- Maps with the same names, spelled the same and in one order, whose values are related. -/
def Related (R : α → α → Prop) (m m' : NameMap α) : Prop :=
  List.Forall₂ (fun e e' => e'.name = e.name ∧ R e.value e'.value) m.entries m'.entries

theorem Related.refl (reflexive : ∀ a, R a a) (m : NameMap α) : Related R m m :=
  List.forall₂_same.2 fun e _ => ⟨rfl, reflexive e.value⟩

theorem Related.imp (h : Related R m m') (weaker : ∀ a a', R a a' → S a a') : Related S m m' :=
  List.Forall₂.imp (fun _ _ entry => ⟨entry.1, weaker _ _ entry.2⟩) h

theorem answers_of_name {e e' : NameEntry α} (h : e'.name = e.name) (key : String) :
    answers key e' = answers key e := by
  rw [answers, answers, e.key_eq, e'.key_eq, h]

/-- A name has related values in both maps, or a value in none. -/
theorem Related.get? (h : Related R m m') (name : String) : Option.Rel R (m.get? name) (m'.get? name) := by
  obtain ⟨entries⟩ := m
  obtain ⟨entries'⟩ := m'
  simp only [Related, NameMap.get?] at h ⊢
  induction h with
  | nil => exact .none
  | cons entry _ ih =>
    have same := answers_of_name entry.1 (fold name)
    rw [List.find?_cons, List.find?_cons, same]
    split
    · exact .some entry.2
    · exact ih

theorem forall₂_replaceFirst {entries entries' : List (NameEntry α)}
    (h : List.Forall₂ (fun e e' => e'.name = e.name ∧ R e.value e'.value) entries entries') (related : R a a')
    (key : String) : List.Forall₂ (fun e e' => e'.name = e.name ∧ R e.value e'.value) (replaceFirst key a entries)
      (replaceFirst key a' entries') := by
  induction h with
  | nil => exact .nil
  | cons entry rest ih =>
    rw [replaceFirst, replaceFirst, answers_of_name entry.1]
    split
    · exact .cons ⟨entry.1, related⟩ rest
    · exact .cons entry ih

/-- Maps stay related if one name gets related values. -/
theorem Related.insert (h : Related R m m') (related : R a a') (name : String) :
    Related R (m.insert name a) (m'.insert name a') := by
  have known : m'.contains name = m.contains name := by
    rw [contains_eq_isSome, contains_eq_isSome]
    have alike := h.get? name
    generalize m.get? name = x at alike ⊢
    generalize m'.get? name = x' at alike ⊢
    cases alike <;> rfl
  unfold NameMap.insert
  rw [known]
  split
  · exact forall₂_replaceFirst h related (fold name)
  · exact List.rel_append h (.cons ⟨rfl, related⟩ .nil)

end NameMap

namespace Registry

/-- Registries with the same names, spelled the same and in one order, of which the same have templates. -/
abbrev SameNames (r r' : Registry) : Prop := NameMap.Related (Option.Rel fun _ _ => True) r r'

variable {T : Template → Template → Prop} {r r' : Registry} {blocks blocks' : List (String × List Node)}

theorem rel_template? (h : NameMap.Related (Option.Rel T) r r') (name : String) :
    Option.Rel T (r.template? name) (r'.template? name) := by
  have alike := h.get? name
  rw [template?, template?]
  generalize r.get? name = x at alike ⊢
  generalize r'.get? name = x' at alike ⊢
  cases alike with
  | none => exact .none
  | some related => exact related

/-- Registries stay related when blocks are registered whose bodies are related. -/
theorem related_addBlocks (h : NameMap.Related (Option.Rel T) r r')
    (related : List.Forall₂ (fun b b' => b'.1 = b.1 ∧ T (.ofNodes b.2) (.ofNodes b'.2)) blocks blocks') :
    NameMap.Related (Option.Rel T) (r.addBlocks blocks) (r'.addBlocks blocks') := by
  induction related generalizing r r' with
  | nil => exact h
  | @cons b b' _ _ body _ ih =>
    have first : NameMap.Related (Option.Rel T) (r.add b.1 (.ofNodes b.2)) (r'.add b'.1 (.ofNodes b'.2)) := by
      rw [body.1]
      exact h.insert (.some body.2) b.1
    exact ih first

end Registry

/-- Whether a function, if it takes a context, sees no more of the registered templates than their names. -/
def Function.SeesNames (f : Function) : Prop :=
  .context ∈ f.params → ∀ name args (s : Surroundings) (r : Registry), s.templates.SameNames r →
    f.invoke ⟨name, args, some { s with templates := r }⟩ = f.invoke ⟨name, args, some s⟩

/-! ## Fixed values -/

/-- Whether the arguments of a call stand for themselves. -/
def Call.isLiteral (k : Call) : Bool := k.arguments.all fun text => text.toList.head? != some '.'

namespace Evaluation

variable {functions : NameMap Function} {scope scope' : Scope} {s s' : Surroundings} {k : Call} {f : Function}

/-- Literal arguments of a function without a context are all that its value depends on. -/
theorem call_of_literal (literal : k.isLiteral = true) (found : function? ⟨scope, functions, s⟩ k.name = some f)
    (alone : .context ∉ f.params) :
    call ⟨scope', functions, s'⟩ k.name k.arguments = call ⟨scope, functions, s⟩ k.name k.arguments := by
  have found' : function? ⟨scope', functions, s'⟩ k.name = some f := found
  have same (text : String) (ht : text ∈ k.arguments) : scope'.argument text = scope.argument text := by
    have plain : ¬text.toList.head? = some '.' := by simpa using List.all_eq_true.1 literal text ht
    rw [Scope.argument, Scope.argument, if_neg plain, if_neg plain]
  have adapted : arguments ⟨scope', functions, s'⟩ k.name f.params k.arguments
      = arguments ⟨scope, functions, s⟩ k.name f.params k.arguments := by
    apply arguments_congr
    exact same
  have last : ¬f.params.getLast? = some .context := fun h => alone (List.mem_of_getLast? h)
  rw [call, call, found, found']
  simp only [adapted, if_neg last]

end Evaluation

namespace Context

/-- The value that a call has in all renders: its arguments are literal, its function takes no context, and it does not
fail. -/
def fixedValue? (c : Context) (k : Call) : Option Value :=
  let e : Evaluation := ⟨⟨.null, .empty⟩, c.functions, c.toSurroundings⟩
  match e.function? k.name with
  | none => none
  | some f => if k.isLiteral ∧ .context ∉ f.params then (e.call k.name k.arguments).toOption else none

/-- The text of the fixed value of a call, in the locale. -/
def valueFor (c : Context) (k : Call) : Option String := (c.fixedValue? k).map c.locale.display

variable {c : Context} {k : Call} {v : Value}

theorem call_of_fixed (h : c.fixedValue? k = some v) (scope : Scope) (s : Surroundings) :
    Evaluation.call ⟨scope, c.functions, s⟩ k.name k.arguments = .ok v := by
  unfold fixedValue? at h
  simp only at h
  split at h
  · cases h
  next f found =>
  split at h
  · next fixed =>
    rw [Evaluation.call_of_literal fixed.1 found fixed.2]
    generalize Evaluation.call _ k.name k.arguments = x at h ⊢
    cases x with
    | error e => cases h
    | ok w => exact congrArg Except.ok (Option.some.inj h)
  · cases h

end Context

/-! ## Attached texts -/

/-- Truth values and texts. -/
inductive Value.IsTruthOrText : Value → Prop
  | bool (b : Bool) : IsTruthOrText (.bool b)
  | string (s : String) : IsTruthOrText (.string s)

/-- The call that a statement tests. -/
def Statement.tested? : Statement → Option Call
  | openBranch condition _ => condition.call?
  | _ => none

/-- What texts can be attached to: calls to which nothing is attached, of which those that are tested have truth values
or texts as fixed values. -/
structure Statement.IsAttachable (c : Context) (s : Statement) : Prop where
  bare : ∀ k ∈ s.call?, k.value = none
  tests : ∀ k ∈ s.tested?, ∀ v ∈ c.fixedValue? k, v.IsTruthOrText

namespace Context

/-- A template and itself, or the template with the texts of the fixed values attached to its calls. -/
inductive Attached (c : Context) (t : Template) : Template → Prop
  | same : Attached c t t
  | values (attachable : ∀ s ∈ writtenAll t.nodes, s.IsAttachable c) : Attached c t (t.withValues c.valueFor)

end Context

theorem Template.blocks_withValues (t : Template) (valueFor : Call → Option String) :
    (t.withValues valueFor).blocks = t.blocks.map fun block => (block.1, attachAll valueFor block.2) := by
  simp only [blocks, withValues, attachAll_eq_map valueFor t.nodes, List.filterMap_map, List.map_filterMap]
  refine List.filterMap_congr fun n _ => ?_
  cases n <;> rfl

theorem Context.Attached.blocks {c : Context} {t t' : Template} (h : c.Attached t t') :
    List.Forall₂ (fun b b' => b'.1 = b.1 ∧ c.Attached (.ofNodes b.2) (.ofNodes b'.2)) t.blocks t'.blocks := by
  cases h with
  | same => exact List.forall₂_same.2 fun b _ => ⟨rfl, .same⟩
  | values attachable =>
    rw [Template.blocks_withValues, List.forall₂_map_right_iff, List.forall₂_same]
    exact fun b hb => ⟨rfl, .values fun s hs => attachable s (t.mem_writtenAll_of_blocks hb hs)⟩

namespace Render

/-- Renders over registries with the same names, whose templates are the same but for attached texts. -/
def attached (c : Context) : Likeness :=
  .equal (fun l functions => l = c.locale ∧ functions = c.functions
      ∧ ∀ name f, functions.get? name = some f → f.SeesNames)
    (NameMap.Related (Option.Rel c.Attached)) (fun _ => False) <| by
      rintro scope functions s r name texts ⟨-, -, sees⟩ alike
      refine Evaluation.call_of_seen scope texts fun f found last args => ?_
      have names : s.templates.SameNames r := alike.imp fun a a' related => by
        cases related with
        | none => exact .none
        | some _ => exact .some trivial
      rcases Option.or_eq_some_iff.1 found with found | ⟨-, found⟩
      · exact sees name f found (List.mem_of_getLast? last) name args s r names
      · exact Builtin.isBlind found name args s r

section Calls

variable {c : Context} {k : Call} {v : Value} {model : Value}

/-- A call with a fixed value has this value in every render. -/
theorem outcome_call_of_fixed (h : c.fixedValue? k = some v) (bare : k.value = none) {s : RenderState}
    (host : s.context.functions = c.functions) : outcome (call model k) s = (.ok v, s) := by
  unfold call
  rw [bare]
  simp only
  rw [outcome_bind, outcome_context]
  simp only [outcome_lift, host, Context.call_of_fixed h]

theorem attach_of_none (h : c.fixedValue? k = none) (bare : k.value = none) : k.attach c.valueFor = k := by
  rcases k with ⟨name, arguments, value, location⟩
  cases bare
  simp [Call.attach, Context.valueFor, h]

theorem call_attach_of_some (h : c.fixedValue? k = some v) :
    call model (k.attach c.valueFor) = pure (.string (c.locale.display v)) := by
  simp [call, Call.attach, Context.valueFor, h]

/-- The text that is attached to a call is written as the value would be. -/
theorem coupled_renderCall_attach (bare : k.value = none) :
    CoupledSteps (attached c) (renderCall model k) (renderCall model (k.attach c.valueFor)) := by
  cases h : c.fixedValue? k with
  | none =>
    rw [attach_of_none h bare]
    exact coupled_renderCall (.refl _ k)
  | some v =>
    intro s s' states
    obtain ⟨locale, functions, -⟩ := states.contexts.host
    have evaluated : outcome (renderCall model k) s = outcome (write (c.locale.display v)) s := by
      rw [renderCall, outcome_bind, outcome_call_of_fixed h bare functions]
      simp only
      rw [outcome_bind, outcome_context]
      simp only [locale]
    have copied : outcome (renderCall model (k.attach c.valueFor)) s' = outcome (write (c.locale.display v)) s' := by
      rw [renderCall, call_attach_of_some h, pure_bind]
      rfl
    rw [CoupledAt, evaluated, copied]
    exact coupled_write _ s s' states

/-- A truth value is read back from its text. -/
theorem asBool_text (b : Bool) : (Value.string (Value.bool b).text).asBool = .ok b := by
  have isTrue : Text.sameIgnoringCase (Text.trim "true") "true" = true := by decide +kernel
  have isNotTrue : Text.sameIgnoringCase (Text.trim "false") "true" = false := by decide +kernel
  have isFalse : Text.sameIgnoringCase (Text.trim "false") "false" = true := by decide +kernel
  cases b <;> simp [Value.asBool, Value.text, isTrue, isNotTrue, isFalse]

/-- A truth value or a text is tested as its text is. -/
theorem holds_display (l : Locale) (location : Location) (h : v.IsTruthOrText) :
    holds location (.string (l.display v)) = holds location v := by
  cases h with
  | string s => rfl
  | bool b =>
    have same : (Value.string (Value.bool b).text).coerce .bool = (Value.bool b).coerce .bool := by
      simp only [Value.coerce, Value.isNull, asBool_text]
      rfl
    show holds location (.string (Value.bool b).text) = _
    rw [holds, same, holds]

theorem coupled_test_attach (held : model.Holds (attached c).held) {condition : Condition} (location : Location)
    (bare : ∀ k ∈ condition.call?, k.value = none)
    (tests : ∀ k ∈ condition.call?, ∀ v ∈ c.fixedValue? k, v.IsTruthOrText) :
    Coupled (attached c) (fun _ => True) (test model condition location)
      (test model (condition.attach c.valueFor) location) := by
  cases condition with
  | path p => exact coupled_test held (.path p) location
  | call k =>
    cases h : c.fixedValue? k with
    | none =>
      rw [Condition.attach, attach_of_none h (bare k rfl)]
      exact coupled_test held (.refl _ _) location
    | some v =>
      intro s s' states
      obtain ⟨-, functions, -⟩ := states.contexts.host
      have evaluated : outcome (test model (.call k) location) s = outcome (holds location v) s := by
        rw [test, outcome_bind, outcome_call_of_fixed h (bare k rfl) functions]
      have copied : outcome (test model (.call (k.attach c.valueFor)) location) s' = outcome (holds location v) s' := by
        rw [test, call_attach_of_some h, pure_bind, holds_display _ _ (tests k rfl v h)]
      rw [Condition.attach, CoupledAt, evaluated, copied]
      exact coupled_holds location v s s' states

end Calls

/-- Templates that are the same but for attached texts are rendered alike. -/
def AttachedAlike (c : Context) (nest nest' : List String → Template → Render Unit) : Prop :=
  ∀ active t t', c.Attached t t' → CoupledSteps (attached c) (nest active t) (nest' active t')

section Nodes

variable {c : Context} {model : Value} {nest nest' : List String → Template → Render Unit} {active : List String}

/-- Under one name both registries have templates that are the same but for attached texts, or none. -/
theorem coupled_attachedNamed (inside : AttachedAlike c nest nest') (name : String) (use : TemplateUse) :
    CoupledSteps (attached c) (renderNamed nest active name use) (renderNamed nest' active name use) := by
  refine coupled_renderNamed_of (T := c.Attached) rfl rfl ?_ ?_ ?_
  · exact fun _ _ alike => Registry.rel_template? alike.registries name
  · exact fun _ _ states _ => congrArg _ states.events
  · exact fun s s' t t' states _ related _ => inside (fold name :: active) t t' related s s' states

mutual

theorem coupled_attachedNode (held : model.Holds (attached c).held) (inside : AttachedAlike c nest nest') :
    ∀ n : Node, (∀ s ∈ n.written, s.IsAttachable c) →
    CoupledSteps (attached c) (renderNode model nest active n) (renderNode model nest' active (n.attach c.valueFor))
  | .text content _, _ => by
    unfold Node.attach renderNode
    exact coupled_write content
  | .value p _, _ => by
    unfold Node.attach renderNode
    exact coupled_renderValue held (fun _ => False.elim) p
  | .call k, attachable => by
    unfold Node.attach renderNode
    exact coupled_renderCall_attach ((attachable (.call k) List.mem_cons_self).bare k rfl)
  | .branch condition body alternative location, attachable => by
    simp only [Node.written, List.forall_mem_cons, List.forall_mem_append] at attachable
    obtain ⟨test, whenTrue, whenFalse, -⟩ := attachable
    have inBody := coupled_attachedNodes held inside body whenTrue
    have inAlternative := coupled_attachedAlternative held inside alternative whenFalse
    unfold Node.attach renderNode
    refine (coupled_test_attach held location test.bare test.tests).bind fun holds _ => ?_
    cases holds with
    | true => exact inBody
    | false => exact inAlternative
  | .loop item index collection body location, attachable => by
    simp only [Node.written, List.forall_mem_cons, List.forall_mem_append] at attachable
    unfold Node.attach
    exact coupled_loop held rfl ((attached c).spelling.indexes_refl index) collection location
      (coupled_attachedNodes held inside body attachable.2.1)
  | .inclusion name _, _ => by
    unfold Node.attach renderNode
    exact coupled_attachedNamed inside name .inclusion
  | .block name _ _, _ => by
    unfold Node.attach renderNode
    exact coupled_attachedNamed inside name .block

/-- Nodes are rendered alike with texts attached to their calls, if the templates inside them are. -/
theorem coupled_attachedNodes (held : model.Holds (attached c).held) (inside : AttachedAlike c nest nest') :
    ∀ ns : List Node, (∀ s ∈ writtenAll ns, s.IsAttachable c) →
    CoupledSteps (attached c) (renderNodes model nest active ns)
      (renderNodes model nest' active (attachAll c.valueFor ns))
  | [], _ => by
    unfold attachAll renderNodes
    exact coupled_pure trivial
  | n :: ns, attachable => by
    rw [writtenAll, List.forall_mem_append] at attachable
    unfold attachAll renderNodes
    exact (coupled_attachedNode held inside n attachable.1).bind fun _ _ =>
      coupled_attachedNodes held inside ns attachable.2

theorem coupled_attachedAlternative (held : model.Holds (attached c).held) (inside : AttachedAlike c nest nest') :
    ∀ alternative : Option (List Node), (∀ s ∈ writtenOption alternative, s.IsAttachable c) →
    CoupledSteps (attached c) (renderAlternative model nest active alternative)
      (renderAlternative model nest' active (attachOption c.valueFor alternative))
  | none, _ => by
    unfold attachOption renderAlternative
    exact coupled_pure trivial
  | some ns, attachable => by
    unfold attachOption renderAlternative
    exact coupled_attachedNodes held inside ns (List.forall_mem_cons.1 attachable).2

end

end Nodes

/-- Templates with and without attached texts are rendered alike, to any depth. -/
theorem coupled_attached {c : Context} {model : Value} (free : model.isTemplateFree = true) (depth : Nat) :
    AttachedAlike c (renderTemplate model depth) (renderTemplate model depth) := by
  induction depth with
  | zero =>
    intro active t t' _
    unfold renderTemplate
    exact coupled_throw rfl
  | succ depth ih =>
    intro active t t' related
    have held : model.Holds (attached c).held := Value.holds_of_free free
    have nodes {u u' : Template} (h : c.Attached u u') :
        CoupledSteps (attached c) (renderNodes model (renderTemplate model depth) active u.nodes)
          (renderNodes model (renderTemplate model depth) active u'.nodes) := by
      cases h with
      | same =>
        exact coupled_renderNodes held (fun _ => False.elim) u.nodes fun name use _ =>
          coupled_attachedNamed ih name use
      | values attachable => exact coupled_attachedNodes held ih u.nodes attachable
    have base : t'.base = t.base := by cases related <;> rfl
    have path : t'.sourcePath = t.sourcePath := by cases related <;> rfl
    refine coupled_renderTemplate (T := c.Attached) (f := id) ?_ (by simpa using base) (fun _ => nodes related) ?_ ?_ ?_
    · rw [path]
      exact fun e e' same => congrArg _ same
    · exact fun b s s' _ states => Registry.rel_template? states.contexts.registries b
    · exact fun b s s' _ _ _ => rfl
    · intro b u u' s s' _ states _ alike
      apply nodes alike
      exact ⟨states.contexts.withTemplates (Registry.related_addBlocks states.contexts.registries related.blocks),
        states.events⟩

end Render

/-! ## Renders from contexts -/

namespace Context

variable {c : Context} {t : Template} {model : Value}

/-- **Attached texts do not change what comes out.** -/
theorem render_withValues (hook : c.hook = none) (sees : ∀ name f, c.functions.get? name = some f → f.SeesNames)
    (free : model.isTemplateFree = true) (bare : EachCall (fun k => k.value = none) (writtenAll t.nodes))
    (tests : ∀ s ∈ writtenAll t.nodes, ∀ k ∈ s.tested?, ∀ v ∈ c.fixedValue? k, v.IsTruthOrText) :
    (c.render (t.withValues c.valueFor) model).1 = (c.render t model).1 := by
  have start : (Render.attached c).States ⟨c.fresh, []⟩ ⟨c.fresh, []⟩ := by
    exact ⟨⟨Render.Spelling.exact_same _ _, hook, ⟨rfl, rfl, sees⟩, NameMap.holds_empty,
      .refl (Render.rel_refl fun _ => .same) c.templates⟩, rfl⟩
  have depth : c.depth (t.withValues c.valueFor) = c.depth t := by
    rw [Context.depth, Context.depth, t.blocks_withValues, List.length_map]
  have attachable : c.Attached t (t.withValues c.valueFor) := .values fun s hs => ⟨bare s hs, tests s hs⟩
  obtain ⟨results, after⟩ := Render.coupled_attached free (c.depth t) [] t _ attachable _ _ start
  rw [render_eq, render_eq, depth]
  exact concluded_congr results after.contexts.same.output

/-- A page with a layout, on whose block both a test and a text are fixed. -/
theorem render_withValues_page :
    let echo := Function.typed [.string] fun text : String => .string text
    let isHome := Function.typed [.string] fun text : String => .bool (text == "home")
    let layout : Template := ⟨[.block "body" [] .origin], none, none, []⟩
    let c := ((empty.addFunction "echo" echo).addFunction "isHome" isHome).addTemplate "layout" layout
    let page : Template := ⟨[.call ⟨"extends", ["layout"], none, .origin⟩,
      .block "body" [.branch (.call ⟨"isHome", ["home"], none, .origin⟩)
        [.call ⟨"echo", ["welcome"], none, .origin⟩] none .origin] .origin], some "layout", none, ["layout"]⟩
    c.hook = none ∧ (∀ name f, c.functions.get? name = some f → f.SeesNames) ∧ Value.isTemplateFree .null = true
      ∧ EachCall (fun k => k.value = none) (writtenAll page.nodes)
      ∧ (∀ s ∈ writtenAll page.nodes, ∀ k ∈ s.tested?, ∀ v ∈ c.fixedValue? k, v.IsTruthOrText)
      ∧ c.valueFor ⟨"isHome", ["home"], none, .origin⟩ = some "true"
      ∧ (c.render (page.withValues c.valueFor) .null).1 = .ok "welcome" := by
  intro echo isHome layout c page
  have sees (name : String) (f : Function) (found : c.functions.get? name = some f) : f.SeesNames := by
    have functions : c.functions = (NameMap.empty.insert "echo" echo).insert "isHome" isHome := rfl
    rw [functions, NameMap.get?_insert, NameMap.get?_insert] at found
    split at found
    · cases found
      exact fun context => absurd context (by decide)
    split at found
    · cases found
      exact fun context => absurd context (by decide)
    · cases found
  have fixed : c.fixedValue? ⟨"isHome", ["home"], none, .origin⟩ = some (.bool true) := by rfl
  have bare : EachCall (fun k => k.value = none) (writtenAll page.nodes) := by
    simp [EachCall, page, writtenAll, Node.written, writtenOption, Statement.call?, Condition.call?]
  have tests : ∀ s ∈ writtenAll page.nodes, ∀ k ∈ s.tested?, ∀ v ∈ c.fixedValue? k, v.IsTruthOrText := by
    intro s hs k hk v hv
    have only : k = ⟨"isHome", ["home"], none, .origin⟩ := by
      simp only [page, writtenAll, Node.written, writtenOption, List.mem_append, List.mem_cons, List.not_mem_nil,
        or_false, false_or] at hs
      rcases hs with rfl | rfl | (rfl | rfl | rfl) | rfl <;> cases hk
      rfl
    rw [only, fixed] at hv
    cases hv
    exact .bool true
  have rendered : (c.render page .null).1 = .ok "welcome" := by rfl
  exact ⟨rfl, sees, Value.isTemplateFree_null, bare, tests, congrArg (Option.map c.locale.display) fixed,
    (render_withValues rfl sees Value.isTemplateFree_null bare tests).trans rendered⟩

end Context

end Stencil
