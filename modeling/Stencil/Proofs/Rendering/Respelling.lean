import Stencil.Proofs.Rendering.Coupling
import Stencil.Proofs.Text.Folding

/-!
# Renders under other spellings

Templates, registries and functions whose names differ in the case of the letters A to Z only are rendered alike. To
say so, the names are put into lower case (`Template.lowered`, `Registry.lowered`): what differs in spelling only is
then the same.

A render and the render in lower case are coupled (`Render.coupled_lowered`). Texts, paths and argument texts are the
same in both; a name that is looked up, bound or made active is folded first.

* `Context.render_lowered`: the same output, or errors that differ in the spelling of names only.
* `Context.render_respelled`: so for any two spellings.
-/

namespace Stencil

/-! ## Names in lower case -/

namespace Text

/-- A text with its letters A to Z in lower case. -/
def lowerLetters (s : String) : String := String.ofList (s.toList.map Char.toLower)

@[simp] theorem lowerLetters_lowerLetters (s : String) : lowerLetters (lowerLetters s) = lowerLetters s := by
  have again (c : Char) : c.toLower.toLower = c.toLower :=
    toLower_induction (P := fun c d => d.toLower = c.toLower) (by decide) (fun _ => rfl) c
  simp [lowerLetters, Function.comp_def, again]

theorem sameIgnoringCase_iff {a b : String} : sameIgnoringCase a b = true ↔ lowerLetters a = lowerLetters b := by
  simp [sameIgnoringCase, lowerLetters, String.ofList_inj]

end Text

open Text

theorem fold_eq_of_lowerLetters {name name' : String} (same : lowerLetters name' = lowerLetters name) :
    fold name' = fold name := fold_eq_of_sameIgnoringCase (sameIgnoringCase_iff.2 same)

@[simp] theorem fold_lowerLetters (name : String) : fold (lowerLetters name) = fold name :=
  fold_eq_of_lowerLetters (lowerLetters_lowerLetters name)

/-! ### Nodes and templates -/

def Call.lowered (c : Call) : Call := { c with name := lowerLetters c.name }

def Condition.lowered : Condition → Condition
  | .path p => .path p
  | .call c => .call c.lowered

mutual

/-- The node with the names of functions, loop variables, inclusions and blocks in lower case. -/
def Node.lowered : Node → Node
  | .text content location => .text content location
  | .value p location => .value p location
  | .call c => .call c.lowered
  | .branch condition body alternative location =>
    .branch condition.lowered (loweredAll body) (loweredOption alternative) location
  | .loop item index collection body location =>
    .loop (lowerLetters item) (index.map lowerLetters) collection (loweredAll body) location
  | .inclusion name location => .inclusion (lowerLetters name) location
  | .block name body location => .block (lowerLetters name) (loweredAll body) location

def loweredAll : List Node → List Node
  | [] => []
  | n :: ns => n.lowered :: loweredAll ns

def loweredOption : Option (List Node) → Option (List Node)
  | none => none
  | some ns => some (loweredAll ns)

end

/-- The template with all names in lower case. A source can have the name it is registered under as its path. -/
def Template.lowered (t : Template) : Template :=
  ⟨loweredAll t.nodes, t.base.map lowerLetters, t.sourcePath.map lowerLetters, t.references.map lowerLetters⟩

theorem Call.lowered_lowered (c : Call) : c.lowered.lowered = c.lowered := by
  simp [lowered]

theorem Condition.lowered_lowered : ∀ condition : Condition, condition.lowered.lowered = condition.lowered
  | .path _ => rfl
  | .call c => congrArg Condition.call c.lowered_lowered

theorem map_lowerLetters (name : Option String) : (name.map lowerLetters).map lowerLetters = name.map lowerLetters := by
  simp [Function.comp_def]

mutual

theorem Node.lowered_lowered : ∀ n : Node, n.lowered.lowered = n.lowered
  | .text _ _ | .value _ _ => by simp only [Node.lowered]
  | .call c => by simp only [Node.lowered, c.lowered_lowered]
  | .branch condition body alternative _ => by
    simp only [Node.lowered, condition.lowered_lowered, loweredAll_loweredAll body,
      loweredOption_loweredOption alternative]
  | .loop _ index _ body _ => by
    simp only [Node.lowered, lowerLetters_lowerLetters, map_lowerLetters index, loweredAll_loweredAll body]
  | .inclusion _ _ => by simp only [Node.lowered, lowerLetters_lowerLetters]
  | .block _ body _ => by simp only [Node.lowered, lowerLetters_lowerLetters, loweredAll_loweredAll body]

theorem loweredAll_loweredAll : ∀ ns : List Node, loweredAll (loweredAll ns) = loweredAll ns
  | [] => rfl
  | n :: ns => by simp only [loweredAll, n.lowered_lowered, loweredAll_loweredAll ns]

theorem loweredOption_loweredOption : ∀ o : Option (List Node), loweredOption (loweredOption o) = loweredOption o
  | none => rfl
  | some ns => congrArg some (loweredAll_loweredAll ns)

end

theorem Template.lowered_lowered (t : Template) : t.lowered.lowered = t.lowered := by
  simp [lowered, loweredAll_loweredAll, Function.comp_def]

theorem Template.blocks_lowered (t : Template) :
    t.lowered.blocks = t.blocks.map fun block => (lowerLetters block.1, loweredAll block.2) := by
  obtain ⟨ns, base, path, references⟩ := t
  simp only [blocks, lowered]
  induction ns with
  | nil => rfl
  | cons n ns ih =>
    rw [loweredAll]
    cases n with
    | block name body location => simp [Node.lowered, ih]
    | _ => simpa [Node.lowered] using ih

/-! ### Maps and registries -/

namespace NameMap

variable {α β : Type} (f : α → β) (m : NameMap α)

/-- The map under names in lower case. -/
def lowered : NameMap β := ⟨m.entries.map fun e => { name := lowerLetters e.name, value := f e.value }⟩

@[simp] theorem get?_lowered (name : String) : (m.lowered f).get? name = (m.get? name).map f := by
  have keys : answers (fold name) ∘ (fun e : NameEntry α => { name := lowerLetters e.name, value := f e.value })
      = answers (fold name) := by
    funext e
    simp [answers_fold]
  simp only [get?, lowered, List.find?_map, keys, Option.map_map]
  rfl

theorem insert_lowered (name : String) (a : α) :
    (m.insert name a).lowered f = (m.lowered f).insert (lowerLetters name) (f a) := by
  have known : (m.lowered f).contains (lowerLetters name) = m.contains name := by
    rw [contains_eq_isSome, contains_eq_isSome, get?_lowered, Option.isSome_map, get?_congr m (fold_lowerLetters name)]
  unfold insert
  rw [known]
  split
  · have replaced (es : List (NameEntry α)) :
        (replaceFirst (fold name) a es).map (fun e => { name := lowerLetters e.name, value := f e.value : NameEntry β })
          = replaceFirst (fold name) (f a) (es.map fun e => { name := lowerLetters e.name, value := f e.value }) := by
      induction es with
      | nil => rfl
      | cons e es ih =>
        have key : answers (fold name) { name := lowerLetters e.name, value := f e.value : NameEntry β }
            = answers (fold name) e := by
          simp [answers_fold]
        rw [List.map_cons, replaceFirst, replaceFirst, key]
        split
        · rfl
        · rw [List.map_cons, ih]
    rw [fold_lowerLetters, lowered, replaced]
    rfl
  · simp [lowered]

end NameMap

namespace Registry

variable (r : Registry)

/-- The registry with all names in lower case, in the templates as well. -/
def lowered : Registry := NameMap.lowered (Option.map Template.lowered) r

theorem lowered_lowered : r.lowered.lowered = r.lowered := by
  have again (e : Option Template) : (e.map Template.lowered).map Template.lowered = e.map Template.lowered := by
    simp [Function.comp_def, Template.lowered_lowered]
  simp [lowered, NameMap.lowered, again]

theorem template?_lowered (name : String) :
    r.lowered.template? (lowerLetters name) = (r.template? name).map Template.lowered := by
  rw [template?, template?, lowered, NameMap.get?_lowered, NameMap.get?_congr r (fold_lowerLetters name)]
  rcases r.get? name with _ | _ | t <;> rfl

theorem addBlocks_lowered (blocks : List (String × List Node)) :
    (r.addBlocks blocks).lowered
      = r.lowered.addBlocks (blocks.map fun block => (lowerLetters block.1, loweredAll block.2)) := by
  induction blocks generalizing r with
  | nil => rfl
  | cons block blocks ih =>
    have first : (r.add block.1 (.ofNodes block.2)).lowered
        = r.lowered.add (lowerLetters block.1) (.ofNodes (loweredAll block.2)) :=
      NameMap.insert_lowered (Option.map Template.lowered) r block.1 (some (.ofNodes block.2))
    rw [addBlocks, List.foldl_cons, ← addBlocks, ih, first]
    rfl

theorem blockCount_lowered : r.lowered.blockCount = r.blockCount := by
  simp only [blockCount, lowered, NameMap.lowered, List.map_map]
  congr 1
  apply List.map_congr_left
  intro e _
  rcases h : e.value with _ | t
  · simp [h]
  · simp [h, Template.blocks_lowered]

end Registry

/-! ## What is told of names -/

/-- The error with its names in a form in which case does not count. -/
def Error.folded : Error → Error
  | .unknownFunction name => .unknownFunction (fold name)
  | .argumentCount name expected received => .argumentCount (fold name) expected received
  | .parameterConversion name index fault => .parameterConversion (fold name) index fault
  | .invalidSignature name index => .invalidSignature (fold name) index
  | .function name message => .function (fold name) message
  | .baseTemplateNotFound name => .baseTemplateNotFound (fold name)
  | .circularReference name => .circularReference (fold name)
  | .within path e => .within (fold path) e.folded
  | e => e

/-- The same for events. -/
def Event.folded : Event → Event
  | .missingTemplate name use => .missingTemplate (fold name) use
  | .loaded name => .loaded (fold name)
  | e => e

/-- What can be wrong with a name that a render looks up. -/
inductive LookupFault where
  | circularReference
  | baseTemplateNotFound
  | unknownFunction
  deriving DecidableEq, Repr

/-- What is wrong with a name, if that is the cause of an error. -/
def Error.lookupFault? (e : Error) : Option LookupFault :=
  match e.cause with
  | .circularReference _ => some .circularReference
  | .baseTemplateNotFound _ => some .baseTemplateNotFound
  | .unknownFunction _ => some .unknownFunction
  | _ => none

theorem Error.lookupFault?_folded (e : Error) : e.folded.lookupFault? = e.lookupFault? := by
  induction e with
  | within path e ih => exact ih
  | _ => rfl

/-! ## Functions that do not look at the spelling of names -/

def Surroundings.lowered (s : Surroundings) : Surroundings := { s with templates := s.templates.lowered }

def Invocation.lowered (i : Invocation) : Invocation :=
  ⟨lowerLetters i.name, i.args, i.context.map Surroundings.lowered⟩

/-- Whether a function does the same in invocations that differ in the spelling of names only. Its errors may tell the
name that is called. -/
def Function.IgnoresSpelling (f : Function) : Prop :=
  ∀ i i' : Invocation, i'.lowered = i.lowered → (f.invoke i').mapError Error.folded = (f.invoke i).mapError Error.folded

theorem mapError_error_congr {α : Type} {g : Error → Error} {e e' : Error} (h : g e' = g e) :
    (Except.error e' : Except Error α).mapError g = (Except.error e).mapError g := congrArg Except.error h

/-- Two steps are the same but for names in errors if each of them is. -/
theorem mapError_bind_congr {α β : Type} {g : Error → Error} {x x' : Except Error α} {f f' : α → Except Error β}
    (first : x'.mapError g = x.mapError g) (rest : ∀ a, (f' a).mapError g = (f a).mapError g) :
    (x' >>= f').mapError g = (x >>= f).mapError g := by
  cases x with
  | error e =>
    cases x' with
    | error e' => exact congrArg Except.error (Except.error.inj first)
    | ok a => cases first
  | ok a =>
    cases x' with
    | error e' => cases first
    | ok a' =>
      cases first
      exact rest a

theorem applyArgs_folded {name name' : String} (same : fold name' = fold name) {α : Type} (position : Nat)
    (ps : List ParamType) (f : Curried α ps) (args : List Arg) :
    (applyArgs name' position ps f args).mapError Error.folded
      = (applyArgs name position ps f args).mapError Error.folded := by
  induction ps generalizing position args with
  | nil => rfl
  | cons p ps ih =>
    cases args with
    | nil =>
      simp only [applyArgs]
      split
      · exact ih _ _ _
      · simp [Except.mapError, Error.folded, same]
    | cons arg rest =>
      simp only [applyArgs]
      split
      · exact ih _ _ _
      · simp [Except.mapError, Error.folded, same]

theorem Function.ignoresSpelling_typed (ps : List ParamType) (f : Curried Value ps) :
    (Function.typed ps f).IgnoresSpelling := by
  rintro ⟨name, args, context⟩ ⟨name', args', context'⟩ same
  obtain ⟨names, rfl, -⟩ := Invocation.mk.inj same
  exact applyArgs_folded (fold_eq_of_lowerLetters names) 0 ps f args'

/-- A built-in function sees the locale of a render at most. -/
theorem Builtin.ignoresSpelling {name : String} {f : Function} (h : function? name = some f) : f.IgnoresSpelling := by
  rcases function?_cases h with ⟨ps, g, rfl⟩ | rfl
  · exact Function.ignoresSpelling_typed ps g
  · rintro ⟨name, args, context⟩ ⟨name', args', context'⟩ same
    obtain ⟨names, rfl, contexts⟩ := Invocation.mk.inj same
    simp only [format, Invocation.value?]
    split
    · cases context with
      | none =>
        cases context' with
        | none =>
          simp [Except.mapError, Error.folded, Invocation.contextMissing, fold_eq_of_lowerLetters names]
        | some s' => cases contexts
      | some s =>
        cases context' with
        | none => cases contexts
        | some s' =>
          have locale : s'.locale = s.locale := (Surroundings.mk.inj (Option.some.inj contexts)).2.1
          simp only [locale]
    · rfl

namespace Evaluation

variable {e e' : Evaluation} {name name' : String} (scope : e'.scope = e.scope) (same : fold name' = fold name)

include scope same

theorem adaptAll_folded (index : Nat) (kinds : List ParamKind) (texts : List String) :
    (e'.adaptAll name' index kinds texts).mapError Error.folded
      = (e.adaptAll name index kinds texts).mapError Error.folded := by
  have adapted (index : Nat) (kind : ParamKind) (text : String) :
      (e'.adapt name' index kind text).mapError Error.folded
        = (e.adapt name index kind text).mapError Error.folded := by
    unfold adapt
    rw [scope]
    apply mapError_bind_congr rfl
    intro v
    cases kind with
    | value type =>
      simp only
      cases v.coerce type with
      | ok w => rfl
      | error fault => exact mapError_error_congr (by simp [Error.folded, same])
    | _ => rfl
  induction kinds generalizing index texts with
  | nil => rfl
  | cons kind kinds ih =>
    cases texts with
    | nil => rfl
    | cons text texts =>
      unfold adaptAll
      apply mapError_bind_congr (adapted index kind text)
      intro arg
      exact mapError_bind_congr (ih (index + 1) texts) fun _ => rfl

theorem arguments_folded (params : List ParamKind) (texts : List String) :
    (e'.arguments name' params texts).mapError Error.folded
      = (e.arguments name params texts).mapError Error.folded := by
  have rest : e'.restTexts = e.restTexts := funext fun _ => restTexts_congr fun text _ => by rw [scope]
  unfold arguments
  simp only
  split
  · exact mapError_error_congr (by simp [Error.folded, same])
  · split
    · exact mapError_error_congr (by simp [Error.folded, same])
    · apply mapError_bind_congr (adaptAll_folded scope same 0 _ texts)
      intro single
      rw [rest]

end Evaluation

/-- A call in lower case does the same. -/
theorem Evaluation.call_lowered {functions : NameMap Function}
    (ignores : ∀ name f, functions.get? name = some f → f.IgnoresSpelling) (scope : Scope) (s : Surroundings)
    {name name' : String} (same : lowerLetters name' = lowerLetters name) (texts : List String) :
    (call ⟨scope, functions, s.lowered⟩ name' texts).mapError Error.folded
      = (call ⟨scope, functions, s⟩ name texts).mapError Error.folded := by
  have folds : fold name' = fold name := fold_eq_of_lowerLetters same
  have found : function? ⟨scope, functions, s.lowered⟩ name' = function? ⟨scope, functions, s⟩ name := by
    simp only [function?, Builtin.function?, NameMap.get?_congr _ folds]
  unfold call
  rw [found]
  cases here : function? ⟨scope, functions, s⟩ name with
  | none => exact mapError_error_congr (by simp [Error.folded, folds])
  | some f =>
    have ignored : f.IgnoresSpelling := by
      rcases Option.or_eq_some_iff.1 here with here | ⟨-, here⟩
      · exact ignores name f here
      · exact Builtin.ignoresSpelling here
    simp only
    apply mapError_bind_congr
    · apply arguments_folded
      · rfl
      · exact folds
    intro args
    apply ignored
    split <;> simp [Invocation.lowered, same, Surroundings.lowered, Registry.lowered_lowered]

/-! ## The render in lower case -/

namespace Render

/-- Names are spelled in any way, in maps as well. -/
def Spelling.insensitive : Spelling where
  names name name' := lowerLetters name' = lowerLetters name
  maps m m' := ∀ name, m'.get? name = m.get? name
  names_refl _ := rfl
  fold_eq := fold_eq_of_lowerLetters
  get?_eq same := same
  insert := by
    intro α m m' name name' a same names other
    rw [NameMap.get?_insert, NameMap.get?_insert, fold_eq_of_lowerLetters names, same]

/-- A render and the one in lower case: names may be told in different spellings. -/
def lowering : Likeness where
  spelling := .insensitive
  host _ functions := ∀ name f, functions.get? name = some f → f.IgnoresSpelling
  registries r r' := r' = r.lowered
  held _ := False
  events l l' := l'.map Event.folded = l.map Event.folded
  errors e e' := e'.folded = e.folded
  events_notIterable collection kind _ _ same := congrArg (Event.notIterable collection kind :: ·) same
  errors_evaluation _ _ := rfl
  calls := by
    rintro scope functions s _ name name' texts names ignores rfl
    exact .of_mapError (Evaluation.call_lowered ignores scope s names texts)

theorem lowered_calls (c : Call) : lowering.spelling.Calls c c.lowered :=
  ⟨lowerLetters_lowerLetters c.name, rfl, rfl⟩

theorem lowered_conditions : ∀ condition : Condition, lowering.spelling.Conditions condition condition.lowered
  | .path p => .path p
  | .call c => .call (lowered_calls c)

theorem lowered_indexes : ∀ index : Option String, Option.Rel lowering.spelling.names index (index.map lowerLetters)
  | none => .none
  | some name => .some (lowerLetters_lowerLetters name)

section Nodes

variable {model : Value} {nest nest' : List String → Template → Render Unit} {active : List String}

theorem coupled_loweredNamed (inside : ∀ active t, CoupledSteps lowering (nest active t) (nest' active t.lowered))
    (name : String) (use : TemplateUse) :
    CoupledSteps lowering (renderNamed nest active name use) (renderNamed nest' active (lowerLetters name) use) := by
  have folds := fold_lowerLetters name
  refine coupled_renderNamed_of (T := fun t t' => t' = t.lowered) folds ?_ ?_ ?_ ?_
  · exact congrArg Error.circularReference folds
  · intro c c' alike
    rw [alike.registries, Registry.template?_lowered]
    cases c.templates.template? name with
    | none => exact .none
    | some t => exact .some rfl
  · intro s s' states _
    have event : Event.folded (.missingTemplate (lowerLetters name) use)
        = Event.folded (.missingTemplate name use) := by
      simp [Event.folded]
    exact congrArg₂ List.cons event states.events
  · rintro s s' t _ states - rfl -
    exact inside (fold name :: active) t s s' states

mutual

theorem coupled_loweredNode (held : model.Holds lowering.held)
    (inside : ∀ active t, CoupledSteps lowering (nest active t) (nest' active t.lowered)) : ∀ n : Node,
    CoupledSteps lowering (renderNode model nest active n) (renderNode model nest' active n.lowered)
  | .text content _ => by
    unfold Node.lowered renderNode
    exact coupled_write content
  | .value p _ => by
    unfold Node.lowered renderNode
    exact coupled_renderValue held (fun _ => False.elim) p
  | .call c => by
    unfold Node.lowered renderNode
    exact coupled_renderCall (lowered_calls c)
  | .branch condition body alternative location => by
    unfold Node.lowered
    exact coupled_branch held (lowered_conditions condition) location (coupled_loweredNodes held inside body)
      (coupled_loweredAlternative held inside alternative)
  | .loop item index collection body location => by
    unfold Node.lowered
    exact coupled_loop held (lowerLetters_lowerLetters item) (lowered_indexes index) collection location
      (coupled_loweredNodes held inside body)
  | .inclusion name _ => by
    unfold Node.lowered renderNode
    exact coupled_loweredNamed inside name .inclusion
  | .block name _ _ => by
    unfold Node.lowered renderNode
    exact coupled_loweredNamed inside name .block

/-- Nodes are rendered as in lower case if the templates inside them are. -/
theorem coupled_loweredNodes (held : model.Holds lowering.held)
    (inside : ∀ active t, CoupledSteps lowering (nest active t) (nest' active t.lowered)) : ∀ ns : List Node,
    CoupledSteps lowering (renderNodes model nest active ns) (renderNodes model nest' active (loweredAll ns))
  | [] => by
    unfold loweredAll renderNodes
    exact coupled_pure trivial
  | n :: ns => by
    unfold loweredAll renderNodes
    exact (coupled_loweredNode held inside n).bind fun _ _ => coupled_loweredNodes held inside ns

theorem coupled_loweredAlternative (held : model.Holds lowering.held)
    (inside : ∀ active t, CoupledSteps lowering (nest active t) (nest' active t.lowered)) :
    ∀ alternative : Option (List Node),
    CoupledSteps lowering (renderAlternative model nest active alternative)
      (renderAlternative model nest' active (loweredOption alternative))
  | none => by
    unfold loweredOption renderAlternative
    exact coupled_pure trivial
  | some ns => by
    unfold loweredOption renderAlternative
    exact coupled_loweredNodes held inside ns

end

end Nodes

/-- Templates are rendered as in lower case, to any depth. -/
theorem coupled_lowered {model : Value} (free : model.isTemplateFree = true) (depth : Nat) (active : List String)
    (t : Template) :
    CoupledSteps lowering (renderTemplate model depth active t) (renderTemplate model depth active t.lowered) := by
  induction depth generalizing active t with
  | zero =>
    unfold renderTemplate
    exact coupled_throw rfl
  | succ depth ih =>
    have nodes (ns : List Node) : CoupledSteps lowering (renderNodes model (renderTemplate model depth) active ns)
        (renderNodes model (renderTemplate model depth) active (loweredAll ns)) :=
      coupled_loweredNodes (Value.holds_of_free free) ih ns
    have registries {s s' : RenderState} (states : lowering.States s s') :
        s'.context.templates = s.context.templates.lowered := states.contexts.registries
    refine coupled_renderTemplate (T := fun u u' => u' = u.lowered) (f := lowerLetters) ?_ rfl (fun _ => nodes t.nodes)
      ?_ ?_ ?_
    · intro e e' alike
      cases path : t.sourcePath with
      | none => simpa [Template.lowered, path, marked] using alike
      | some p =>
        have inner : e'.folded = e.folded := alike
        have path' : t.lowered.sourcePath = some (lowerLetters p) := by simp [Template.lowered, path]
        rw [path']
        show Error.within (fold (lowerLetters p)) e'.folded = .within (fold p) e.folded
        rw [fold_lowerLetters, inner]
    · intro b s s' _ states
      rw [registries states, Registry.template?_lowered]
      cases s.context.templates.template? b with
      | none => exact .none
      | some u => exact .some rfl
    · exact fun b s s' _ _ _ => congrArg Error.baseTemplateNotFound (fold_lowerLetters b)
    · rintro b u _ s s' _ states _ rfl
      apply nodes u.nodes
      refine ⟨states.contexts.withTemplates ?_, states.events⟩
      rw [registries states, t.blocks_lowered]
      exact (Registry.addBlocks_lowered _ _).symm

end Render

/-! ## Renders from contexts -/

namespace Context

/-- The context with the names of templates and functions in lower case. -/
def lowered (c : Context) : Context :=
  { c with templates := c.templates.lowered, functions := c.functions.lowered id }

/-- Whether contexts have one locale, and templates and functions whose names differ in spelling only. -/
structure IsRespelling (c c' : Context) : Prop where
  locale : c'.locale = c.locale
  templates : c'.templates.lowered = c.templates.lowered
  functions : c'.functions.lowered id = c.functions.lowered id

variable {c c' : Context} {t t' : Template} {model : Value}

theorem depth_lowered (c : Context) (t : Template) : c.lowered.depth t.lowered = c.depth t := by
  have size : c.lowered.templates.size = c.templates.size := List.length_map _
  have count : c.lowered.templates.blockCount = c.templates.blockCount := c.templates.blockCount_lowered
  have own : t.lowered.blocks.length = t.blocks.length := by rw [t.blocks_lowered, List.length_map]
  unfold depth
  omega

/-- A render ends as the one in lower case does. Errors and events may tell names in another spelling. -/
theorem render_lowered (hook : c.hook = none) (ignores : ∀ name f, c.functions.get? name = some f → f.IgnoresSpelling)
    (free : model.isTemplateFree = true) (t : Template) :
    (c.lowered.render t.lowered model).1.mapError Error.folded = (c.render t model).1.mapError Error.folded
      ∧ (c.lowered.render t.lowered model).2.2.map Event.folded = (c.render t model).2.2.map Event.folded := by
  have start : Render.lowering.States ⟨c.fresh, []⟩ ⟨c.lowered.fresh, []⟩ := by
    have functions (name : String) : c.lowered.functions.get? name = c.functions.get? name := by
      rw [lowered, NameMap.get?_lowered, Option.map_id_fun, id]
    exact ⟨⟨⟨rfl, rfl, rfl, functions, fun _ => rfl⟩, hook, ignores, NameMap.holds_empty, rfl⟩, rfl⟩
  obtain ⟨results, after⟩ := Render.coupled_lowered free (c.depth t) [] t _ _ start
  rw [render_eq, render_eq, depth_lowered]
  refine ⟨mapError_concluded results after.contexts.same.output, ?_⟩
  have events (o : Except Error Unit × RenderState) : (concluded o).2.2 = o.2.events.reverse := by
    rcases o with ⟨_ | _, s⟩ <;> rfl
  rw [events, events, List.map_reverse, List.map_reverse]
  exact congrArg List.reverse after.events

/-- Respelled templates end alike over respelled contexts, down to the names that errors and events tell. -/
theorem render_of_respelling (respelling : c.IsRespelling c') (tree : t'.lowered = t.lowered) (hook : c.hook = none)
    (hook' : c'.hook = none) (ignores : ∀ name f, c.functions.get? name = some f → f.IgnoresSpelling)
    (free : model.isTemplateFree = true) :
    (c'.render t' model).1.mapError Error.folded = (c.render t model).1.mapError Error.folded
      ∧ (c'.render t' model).2.2.map Event.folded = (c.render t model).2.2.map Event.folded := by
  have functions (name : String) : c'.functions.get? name = c.functions.get? name := by
    have same := congrArg (NameMap.get? · name) respelling.functions
    simpa only [NameMap.get?_lowered, Option.map_id_fun, id] using same
  have middle : c'.lowered.render t'.lowered model = c.lowered.render t.lowered model := by
    have fresh : c'.lowered.fresh = c.lowered.fresh := by
      simp only [lowered, fresh, respelling.locale, respelling.templates, respelling.functions, hook, hook']
    have depth : c'.lowered.depth t'.lowered = c.lowered.depth t.lowered := by
      have templates : c'.lowered.templates = c.lowered.templates := respelling.templates
      rw [depth, depth, templates, tree]
    rw [render_eq, render_eq, fresh, depth, tree]
  obtain ⟨result, events⟩ := render_lowered hook ignores free t
  obtain ⟨result', events'⟩ :=
    render_lowered hook' (fun name f found => ignores name f (functions name ▸ found)) free t'
  rw [← result', ← events', middle]
  exact ⟨result, events⟩

/-- **Names are case-insensitive throughout.** Respelled templates have the same output, or both lack it and the same is
wrong with a name, if anything is. -/
theorem render_respelled (respelling : c.IsRespelling c') (tree : t'.lowered = t.lowered) (hook : c.hook = none)
    (hook' : c'.hook = none) (ignores : ∀ name f, c.functions.get? name = some f → f.IgnoresSpelling)
    (free : model.isTemplateFree = true) :
    (∀ output, (c'.render t' model).1 = .ok output ↔ (c.render t model).1 = .ok output)
      ∧ ∀ fault, (∃ e, (c'.render t' model).1 = .error e ∧ e.lookupFault? = some fault)
        ↔ ∃ e, (c.render t model).1 = .error e ∧ e.lookupFault? = some fault := by
  obtain ⟨same, -⟩ := render_of_respelling respelling tree hook hook' ignores free
  generalize (c'.render t' model).1 = x' at same ⊢
  generalize (c.render t model).1 = x at same ⊢
  cases x with
  | ok o =>
    cases x' with
    | ok o' =>
      cases same
      exact ⟨fun _ => Iff.rfl, fun _ => Iff.rfl⟩
    | error e' => cases same
  | error e =>
    cases x' with
    | ok o' => cases same
    | error e' =>
      have faults : e'.lookupFault? = e.lookupFault? := by
        rw [← e'.lookupFault?_folded, Except.error.inj same, e.lookupFault?_folded]
      simp [faults]

theorem render_respelled_row :
    let echo := Function.typed [.string] fun text : String => .string text
    let c := (empty.addFunction "Echo" echo).addTemplate "Row" (.ofNodes [.inclusion "row" .origin])
    let c' := (empty.addFunction "ECHO" echo).addTemplate "ROW" (.ofNodes [.inclusion "Row" .origin])
    let t := Template.ofNodes [.call ⟨"echo", ["x"], none, .origin⟩, .inclusion "rOW" .origin]
    let t' := Template.ofNodes [.call ⟨"eCHO", ["x"], none, .origin⟩, .inclusion "row" .origin]
    c.IsRespelling c' ∧ t'.lowered = t.lowered ∧ c.hook = none ∧ c'.hook = none
      ∧ (∀ name f, c.functions.get? name = some f → f.IgnoresSpelling) ∧ Value.isTemplateFree .null = true
      ∧ (∀ output, (c'.render t' .null).1 = .ok output ↔ (c.render t .null).1 = .ok output)
      ∧ ∀ fault, (∃ e, (c'.render t' .null).1 = .error e ∧ e.lookupFault? = some fault)
        ↔ ∃ e, (c.render t .null).1 = .error e ∧ e.lookupFault? = some fault := by
  intro echo c c' t t'
  have echoes : lowerLetters "ECHO" = lowerLetters "Echo" := by simp [lowerLetters]
  have rows : lowerLetters "ROW" = lowerLetters "Row" := by simp [lowerLetters]
  have inside : (Template.ofNodes [.inclusion "Row" .origin]).lowered
      = (Template.ofNodes [.inclusion "row" .origin]).lowered := by
    simp [Template.lowered, Template.ofNodes, loweredAll, Node.lowered, lowerLetters]
  have tree : t'.lowered = t.lowered := by
    simp [t, t', Template.lowered, Template.ofNodes, loweredAll, Node.lowered, Call.lowered, lowerLetters]
  have respelling : c.IsRespelling c' := by
    constructor
    · rfl
    · show Registry.lowered (NameMap.empty.insert "ROW" (some _))
        = Registry.lowered (NameMap.empty.insert "Row" (some _))
      rw [Registry.lowered, Registry.lowered, NameMap.insert_lowered, NameMap.insert_lowered, rows]
      exact congrArg (fun u => NameMap.insert _ _ (some u)) inside
    · show (NameMap.empty.insert "ECHO" echo).lowered id = (NameMap.empty.insert "Echo" echo).lowered id
      rw [NameMap.insert_lowered, NameMap.insert_lowered, echoes]
  have ignores (name : String) (f : Function) (found : c.functions.get? name = some f) : f.IgnoresSpelling := by
    have one : c.functions = NameMap.empty.insert "Echo" echo := rfl
    rw [one, NameMap.get?_insert] at found
    split at found
    · cases found
      exact Function.ignoresSpelling_typed _ _
    · cases found
  exact ⟨respelling, tree, rfl, rfl, ignores, Value.isTemplateFree_null,
    render_respelled respelling tree rfl rfl ignores Value.isTemplateFree_null⟩

end Context

end Stencil
