import Stencil.Proofs.Rendering.Coupling

/-!
# Loop variables

All loops of a render bind their variables in one table, those of templates inside it as well. The item of a loop is set
to null after it, while its index keeps its last value.

The loops that a render reaches are collected along the render itself (`loopsOfNodes`, `loopsOfTemplate`). What may
become of the binding of a name is then a `Watch`: it is kept by every step, and by the loops it does not exempt
(`Watch.keeps_renderNodes`).

* `Render.loop_variables`: what is bound to a name after nodes, and to an index after its loop.
-/

namespace Stencil

/-- The variables of a loop. -/
structure LoopHead where
  item : String
  index : Option String

namespace LoopHead

variable (l : LoopHead) (name : String)

/-- Whether a name is the index of a loop, in any case. -/
def Counts : Prop := ∃ index ∈ l.index, fold index = fold name

/-- Whether a name is the item or the index of a loop, in any case. -/
def Binds : Prop := fold l.item = fold name ∨ l.Counts name

instance : Decidable (l.Counts name) := inferInstanceAs (Decidable (∃ index ∈ l.index, fold index = fold name))

instance : Decidable (l.Binds name) := inferInstanceAs (Decidable (_ ∨ _))

end LoopHead

namespace Context

/-- The context at the start of a pass of a loop. -/
def enter (c : Context) (l : LoopHead) (position : Nat) (v : Value) : Context :=
  match l.index with
  | none => c.bind l.item v
  | some index => (c.bind l.item v).bind index (.ofInt position)

variable {c : Context} {l : LoopHead} {position : Nat} {v : Value} {name : String}

theorem hook_enter : (c.enter l position v).hook = c.hook := by
  unfold enter
  split <;> rfl

theorem get?_enter_of_not_binds (h : ¬l.Binds name) :
    (c.enter l position v).scratch.get? name = c.scratch.get? name := by
  have item : ¬fold name = fold l.item := fun same => h (.inl same.symm)
  unfold enter
  split
  · rw [Context.bind, NameMap.get?_insert, if_neg item]
  · next index some =>
    have counted : ¬fold name = fold index := fun same => h (.inr ⟨index, some, same.symm⟩)
    rw [Context.bind, NameMap.get?_insert, if_neg counted, Context.bind, NameMap.get?_insert, if_neg item]

theorem get?_enter_index {index : String} (h : index ∈ l.index) :
    (c.enter l position v).scratch.get? index = some (.ofInt position) := by
  have index' : l.index = some index := h
  simp only [enter, index']
  rw [Context.bind, NameMap.get?_insert, if_pos rfl]

end Context

/-- The state at the start of a pass of a loop. -/
def RenderState.enter (s : RenderState) (l : LoopHead) (position : Nat) (v : Value) : RenderState :=
  { s with context := s.context.enter l position v }

namespace Value

/-- The items of an array; other values have none. -/
def items : Value → List Value
  | .array items => items
  | _ => []

end Value

namespace Render

/-- A pass of a loop starts with its variables bound. -/
theorem outcome_eachItem_cons (l : LoopHead) (body : Render Unit) (position : Nat) (v : Value) (rest : List Value)
    (s : RenderState) : outcome (eachItem l.item l.index body position (v :: rest)) s
      = outcome (do body; eachItem l.item l.index body (position + 1) rest) (s.enter l position v) := by
  obtain ⟨item, index⟩ := l
  cases index with
  | none => rfl
  | some index => rfl

/-! ## Loops that are reached -/

/-- Loops that are reached from a state. -/
abbrev Reached := RenderState → List LoopHead

/-- What is reached after a step that succeeds. -/
def behind {α : Type} (r : Render α) (next : α → Reached) : Reached := fun s =>
  match outcome r s with
  | (.ok a, t) => next a t
  | (.error _, _) => []

theorem behind_nil {α : Type} (r : Render α) : behind r (fun _ _ => []) = fun _ => [] := by
  funext s
  unfold behind
  split <;> rfl

/-- The loops reached in the passes of a loop. -/
def loopsOfPasses (l : LoopHead) (body : Render Unit) (inBody : Reached) (position : Nat) : List Value → Reached
  | [] => fun _ => []
  | v :: rest => fun s =>
    inBody (s.enter l position v)
      ++ behind body (fun _ => loopsOfPasses l body inBody (position + 1) rest) (s.enter l position v)

/-- The loops of a pass that succeeds come before those of the later passes. -/
theorem loopsOfPasses_cons {l : LoopHead} {body : Render Unit} {position : Nat} {v : Value} {s t : RenderState}
    (inBody : Reached) (rest : List Value) (pass : outcome body (s.enter l position v) = (.ok (), t)) :
    loopsOfPasses l body inBody position (v :: rest) s
      = inBody (s.enter l position v) ++ loopsOfPasses l body inBody (position + 1) rest t := by
  simp only [loopsOfPasses, behind, pass]

section Collecting

variable (model : Value) (nest : List String → Template → Render Unit) (inside : List String → Template → Reached)
  (active : List String)

/-- The loops reached in a template value. -/
def loopsOfValue (p : Path) : Reached :=
  behind (resolve model p) fun v => behind (offer p v) fun handled =>
    match handled, v with
    | false, .template _ t => inside active t
    | _, _ => fun _ => []

/-- The loops reached in what is registered under a name. -/
def loopsOfNamed (name : String) : Reached := fun s =>
  match s.context.templates.template? name with
  | none => []
  | some t => if active.contains (fold name) then [] else inside (fold name :: active) t s

mutual

/-- The loops that are reached when a node is rendered; `inside` are those of a template inside it. -/
def loopsOfNode : Node → Reached
  | .text _ _ | .call _ => fun _ => []
  | .value p _ => loopsOfValue model inside active p
  | .branch condition body alternative location =>
    behind (test model condition location) fun holds =>
      if holds then loopsOfNodes body else loopsOfAlternative alternative
  | .loop item index collection body _ =>
    behind (resolve model collection) fun v s => ⟨item, index⟩
      :: loopsOfPasses ⟨item, index⟩ (renderNodes model nest active body) (loopsOfNodes body) 0 v.items s
  | .inclusion name _ | .block name _ _ => loopsOfNamed inside active name

def loopsOfNodes : List Node → Reached
  | [] => fun _ => []
  | n :: ns => fun s => loopsOfNode n s ++ behind (renderNode model nest active n) (fun _ => loopsOfNodes ns) s

def loopsOfAlternative : Option (List Node) → Reached
  | none => fun _ => []
  | some ns => loopsOfNodes ns

end

end Collecting

/-- The loops that are reached when a template is rendered. -/
def loopsOfTemplate (model : Value) : Nat → List String → Template → Reached
  | 0, _, _ => fun _ => []
  | depth + 1, active, t =>
    behind (compose t) fun ns => loopsOfNodes model (renderTemplate model depth) (loopsOfTemplate model depth) active ns

/-! ## Watching a name -/

/-- Not bound, or bound to null. -/
def Idle (bound : Option Value) : Prop := bound = none ∨ bound = some .null

/-- What may become of the binding of a name. Some loops are exempt: nothing is said of renders that reach them. -/
structure Watch where
  name : String
  Rel : Option Value → Option Value → Prop
  Exempt : LoopHead → Prop
  refl : ∀ a, Rel a a
  trans : ∀ {a b c}, Rel a b → Rel b c → Rel a c
  counting : ∀ {l}, l.Counts name → Exempt l
  cleared : ∀ {l}, ¬Exempt l → fold l.item = fold name → ∀ a, Rel a (some .null)

namespace Watch

/-- Names that no loop binds stay as they are. -/
def unchanged (name : String) : Watch where
  name := name
  Rel := Eq
  Exempt l := l.Binds name
  refl _ := rfl
  trans := Eq.trans
  counting := .inr
  cleared free same := absurd (.inl same) free

/-- Names that are no index stay idle. -/
def idle (name : String) : Watch where
  name := name
  Rel a b := Idle a → Idle b
  Exempt l := l.Counts name
  refl _ := id
  trans first second := second ∘ first
  counting := id
  cleared _ _ _ _ := .inr rfl

variable (W : Watch)

/-- The binding of the watched name. -/
def bound (s : RenderState) : Option Value := s.context.scratch.get? W.name

/-- A render that has no hook has none afterwards, and if it reaches no exempt loop, then its binding of the name is
related to the one before. -/
def Keeps {α : Type} (loops : Reached) (r : Render α) : Prop :=
  ∀ s a t, s.context.hook = none → outcome r s = (.ok a, t) →
    t.context.hook = none ∧ ((∀ l ∈ loops s, ¬W.Exempt l) → W.Rel (W.bound s) (W.bound t))

/-- Steps that reach no loop at all. -/
abbrev Plain {α : Type} (r : Render α) : Prop := W.Keeps (fun _ => []) r

variable {W}

section Rules

variable {α β : Type}

/-- Steps that leave the bindings and the hook alone. -/
theorem keeps_of_frame {r : Render α} (h : ∀ s a t, s.context.hook = none → outcome r s = (.ok a, t) →
    t.context.hook = s.context.hook ∧ t.context.scratch = s.context.scratch) : W.Plain r := by
  intro s a t hook ended
  obtain ⟨hooks, scratch⟩ := h s a t hook ended
  refine ⟨hooks.trans hook, fun _ => ?_⟩
  rw [bound, bound, scratch]
  exact W.refl _

theorem Keeps.bind {loops : Reached} {r : Render α} {more : α → Reached} {f : α → Render β} (first : W.Keeps loops r)
    (rest : ∀ a, W.Keeps (more a) (f a)) : W.Keeps (fun s => loops s ++ behind r more s) (r >>= f) := by
  intro s b u hook ended
  obtain ⟨a, t, ended, ended'⟩ := outcome_bind_ok ended
  obtain ⟨hook', related⟩ := first s a t hook ended
  obtain ⟨hook'', related'⟩ := rest a t b u hook' ended'
  refine ⟨hook'', fun free => ?_⟩
  simp only [behind, ended, List.forall_mem_append] at free
  exact W.trans (related free.1) (related' free.2)

/-- No loop is reached in the first step. -/
theorem Keeps.after {r : Render α} {more : α → Reached} {f : α → Render β} (first : W.Plain r)
    (rest : ∀ a, W.Keeps (more a) (f a)) : W.Keeps (behind r more) (r >>= f) :=
  first.bind rest

theorem Plain.bind {r : Render α} {f : α → Render β} (first : W.Plain r) (rest : ∀ a, W.Plain (f a)) :
    W.Plain (r >>= f) := by
  have steps := first.after rest
  rwa [behind_nil] at steps

theorem keeps_pure (a : α) : W.Plain (pure a) := by
  apply keeps_of_frame
  rintro s _ _ - ⟨⟩
  exact ⟨rfl, rfl⟩

theorem keeps_throw (e : Error) {loops : Reached} : W.Keeps loops (throw e : Render α) := by
  rintro s a t - ⟨⟩

theorem keeps_lift (x : Except Error α) : W.Plain (liftM x) := by
  apply keeps_of_frame
  intro s a t _ ended
  rw [outcome_lift] at ended
  cases ended
  exact ⟨rfl, rfl⟩

theorem keeps_update {f : Context → Context} (h : ∀ c, (f c).hook = c.hook ∧ (f c).scratch = c.scratch) :
    W.Plain (update f) := by
  apply keeps_of_frame
  rintro s _ _ - ⟨⟩
  exact h s.context

theorem keeps_write (text : String) : W.Plain (write text) := keeps_update fun _ => ⟨rfl, rfl⟩

theorem keeps_record (e : Event) : W.Plain (record e) := by
  apply keeps_of_frame
  rintro s _ _ - ⟨⟩
  exact ⟨rfl, rfl⟩

theorem keeps_context {loops : Reached} {f : Context → Render α} (h : ∀ c, c.hook = none → W.Keeps loops (f c)) :
    W.Keeps loops (context >>= f) :=
  fun s a t hook ended => h s.context hook s a t hook ended

theorem Keeps.within {loops : Reached} {r : Render α} (h : W.Keeps loops r) (path : Option String) :
    W.Keeps loops (within path r) :=
  fun s a t hook ended => h s a t hook (outcome_within_ok ended)

end Rules

section Model

variable (model : Value)

theorem keeps_resolve (p : Path) : W.Plain (resolve model p) := keeps_context fun _ _ => keeps_lift _

theorem keeps_call (c : Call) : W.Plain (call model c) := by
  unfold call
  cases c.value with
  | some text => exact keeps_pure _
  | none => exact keeps_context fun _ _ => keeps_lift _

theorem keeps_renderCall (c : Call) : W.Plain (renderCall model c) :=
  (keeps_call model c).bind fun _ => keeps_context fun _ _ => keeps_write _

theorem keeps_holds (location : Location) (v : Value) : W.Plain (holds location v) := by
  unfold holds
  split
  · exact keeps_pure _
  · exact keeps_pure _
  · exact keeps_throw _

theorem keeps_test (condition : Condition) (location : Location) : W.Plain (test model condition location) := by
  cases condition with
  | path p => exact (keeps_resolve model p).bind fun v => keeps_holds location v
  | call c => exact (keeps_call model c).bind fun v => keeps_holds location v

theorem keeps_offer (p : Path) (v : Value) : W.Plain (offer p v) := by
  apply keeps_context
  intro c hook
  simp only [hook]
  exact keeps_pure _

theorem keeps_compose (t : Template) : W.Plain (compose t) := by
  unfold compose
  cases t.base with
  | none => exact keeps_pure _
  | some base =>
    apply keeps_context
    intro c _
    cases c.templates.template? base with
    | none => exact keeps_throw _
    | some b =>
      have registers : W.Plain
          (update fun c => t.blocks.foldl (fun c block => c.addTemplate block.1 (.ofNodes block.2)) c) := by
        apply keeps_update
        intro c
        rw [Context.foldl_addTemplate]
        exact ⟨rfl, rfl⟩
      exact registers.bind fun _ => keeps_pure _

/-! ## Loops -/

section Passes

variable {body : Render Unit} {inBody : Reached} {l : LoopHead}

/-- What is kept of names that a loop does not bind. -/
def KeepsApart (W : Watch) (l : LoopHead) (loops : Reached) (r : Render Unit) : Prop :=
  ∀ s t, s.context.hook = none → outcome r s = (.ok (), t) →
    t.context.hook = none
      ∧ (¬l.Binds W.name → (∀ l' ∈ loops s, ¬W.Exempt l') → W.Rel (W.bound s) (W.bound t))

theorem Keeps.apart {loops : Reached} {r : Render Unit} (h : W.Keeps loops r) : W.KeepsApart l loops r :=
  fun s t hook ended => (h s () t hook ended).imp_right fun related _ => related

theorem keepsApart_eachItem (h : W.Keeps inBody body) (position : Nat) (items : List Value) :
    W.KeepsApart l (loopsOfPasses l body inBody position items) (eachItem l.item l.index body position items) := by
  induction items generalizing position with
  | nil =>
    rintro s _ hook ⟨⟩
    exact ⟨hook, fun _ _ => W.refl _⟩
  | cons v rest ih =>
    intro s t hook ended
    rw [outcome_eachItem_cons] at ended
    obtain ⟨_, u, pass, later⟩ := outcome_bind_ok ended
    obtain ⟨hook', related⟩ := h (s.enter l position v) () u (Context.hook_enter.trans hook) pass
    obtain ⟨hook'', related'⟩ := ih (position + 1) u t hook' later
    refine ⟨hook'', fun unbound free => ?_⟩
    rw [loopsOfPasses_cons inBody rest pass, List.forall_mem_append] at free
    have entered : W.bound (s.enter l position v) = W.bound s := Context.get?_enter_of_not_binds unbound
    rw [← entered]
    exact W.trans (related free.1) (related' unbound free.2)

/-- The item is null after a loop, so that the loop keeps what its passes keep of other names. -/
theorem KeepsApart.clear {loops : Reached} {r : Render Unit} (h : W.KeepsApart l loops r) :
    W.Keeps (fun s => l :: loops s) (do r; bind l.item .null) := by
  intro s _ u hook ended
  obtain ⟨_, t, repeated, last⟩ := outcome_bind_ok ended
  obtain ⟨hook', related⟩ := h s t hook repeated
  obtain rfl : { t with context := t.context.bind l.item .null } = u := congrArg Prod.snd last
  refine ⟨hook', fun free => ?_⟩
  obtain ⟨head, inner⟩ := List.forall_mem_cons.1 free
  rw [bound, bound, Context.bind, NameMap.get?_insert]
  by_cases same : fold l.item = fold W.name
  · rw [if_pos same.symm]
    exact W.cleared head same _
  · rw [if_neg fun h => same h.symm]
    exact related (fun binds => binds.elim same fun counts => head (W.counting counts)) inner

end Passes

/-! ## Nodes -/

section Nodes

variable {model} {nest : List String → Template → Render Unit} {inside : List String → Template → Reached}
  {active : List String}

theorem keeps_renderValue (h : ∀ active t, W.Keeps (inside active t) (nest active t)) (p : Path) :
    W.Keeps (loopsOfValue model inside active p) (renderValue model nest active p) := by
  refine (keeps_resolve model p).after fun v => (keeps_offer p v).after fun handled => ?_
  cases handled with
  | true => exact keeps_pure _
  | false =>
    cases v with
    | template identity t => exact h active t
    | null => exact keeps_pure _
    | _ => exact keeps_write _

theorem keeps_renderNamed (h : ∀ active t, W.Keeps (inside active t) (nest active t)) (name : String)
    (use : TemplateUse) : W.Keeps (loopsOfNamed inside active name) (renderNamed nest active name use) := by
  intro s a t hook ended
  unfold renderNamed at ended
  rw [outcome_bind, outcome_context] at ended
  unfold loopsOfNamed
  cases found : s.context.templates.template? name with
  | none =>
    simp only [found] at ended
    exact keeps_record _ s a t hook ended
  | some u =>
    simp only [found] at ended ⊢
    split at ended
    · cases ended
    · next fresh =>
      rw [if_neg fresh]
      exact h _ u s a t hook ended

mutual

theorem keeps_renderNode (h : ∀ active t, W.Keeps (inside active t) (nest active t)) : ∀ n : Node,
    W.Keeps (loopsOfNode model nest inside active n) (renderNode model nest active n)
  | .text content _ => by
    unfold renderNode loopsOfNode
    exact keeps_write content
  | .value p _ => by
    unfold renderNode loopsOfNode
    exact keeps_renderValue h p
  | .call c => by
    unfold renderNode loopsOfNode
    exact keeps_renderCall model c
  | .branch condition body alternative location => by
    unfold renderNode loopsOfNode
    refine (keeps_test model condition location).after fun holds => ?_
    cases holds with
    | true => exact keeps_renderNodes h body
    | false => exact keeps_renderAlternative h alternative
  | .loop item index collection body _ => by
    have once := keeps_renderNodes h body
    unfold renderNode loopsOfNode
    refine (keeps_resolve model collection).after fun v => ?_
    cases v with
    | array items => exact (keepsApart_eachItem (l := ⟨item, index⟩) once 0 items).clear
    | _ => exact ((keeps_record _).apart (l := ⟨item, index⟩)).clear
  | .inclusion name _ => by
    unfold renderNode loopsOfNode
    exact keeps_renderNamed h name .inclusion
  | .block name _ _ => by
    unfold renderNode loopsOfNode
    exact keeps_renderNamed h name .block

theorem keeps_renderNodes (h : ∀ active t, W.Keeps (inside active t) (nest active t)) : ∀ ns : List Node,
    W.Keeps (loopsOfNodes model nest inside active ns) (renderNodes model nest active ns)
  | [] => by
    unfold renderNodes loopsOfNodes
    exact keeps_pure _
  | n :: ns => by
    unfold renderNodes loopsOfNodes
    exact (keeps_renderNode h n).bind fun _ => keeps_renderNodes h ns

theorem keeps_renderAlternative (h : ∀ active t, W.Keeps (inside active t) (nest active t)) :
    ∀ alternative : Option (List Node),
    W.Keeps (loopsOfAlternative model nest inside active alternative) (renderAlternative model nest active alternative)
  | none => by
    unfold renderAlternative loopsOfAlternative
    exact keeps_pure _
  | some ns => by
    unfold renderAlternative loopsOfAlternative
    exact keeps_renderNodes h ns

end

end Nodes

theorem keeps_renderTemplate (depth : Nat) : ∀ active t,
    W.Keeps (loopsOfTemplate model depth active t) (renderTemplate model depth active t) := by
  induction depth with
  | zero => exact fun _ _ => keeps_throw _
  | succ depth ih =>
    intro active t
    exact ((keeps_compose t).after fun ns => keeps_renderNodes ih ns).within t.sourcePath

end Model

end Watch

/-! ## The index of a loop -/

section Index

variable {s t : RenderState} {index : String}

/-- The index keeps the position of the last pass. -/
theorem get?_eachItem {body : Render Unit} {inBody : Reached} {l : LoopHead}
    (h : (Watch.unchanged index).Keeps inBody body) (counted : index ∈ l.index) (position : Nat) (v : Value)
    (rest : List Value) (hook : s.context.hook = none)
    (ended : outcome (eachItem l.item l.index body position (v :: rest)) s = (.ok (), t))
    (free : ∀ l' ∈ loopsOfPasses l body inBody position (v :: rest) s, ¬l'.Binds index) :
    t.context.scratch.get? index = some (.ofInt (position + rest.length : Nat)) := by
  induction rest generalizing position v s with
  | nil =>
    rw [outcome_eachItem_cons] at ended
    obtain ⟨_, u, pass, last⟩ := outcome_bind_ok ended
    cases last
    obtain ⟨-, same⟩ := h (s.enter l position v) () t (Context.hook_enter.trans hook) pass
    have inPass : ∀ l' ∈ inBody (s.enter l position v), ¬l'.Binds index :=
      fun l' hl => free l' (List.mem_append_left _ hl)
    exact (same inPass).symm.trans (Context.get?_enter_index counted)
  | cons w rest ih =>
    rw [outcome_eachItem_cons] at ended
    obtain ⟨_, u, pass, later⟩ := outcome_bind_ok ended
    obtain ⟨hook', -⟩ := h (s.enter l position v) () u (Context.hook_enter.trans hook) pass
    rw [loopsOfPasses_cons inBody (w :: rest) pass, List.forall_mem_append] at free
    rw [ih (position + 1) w hook' later free.2, List.length_cons]
    congr 3
    omega

variable {model : Value} {nest : List String → Template → Render Unit} {inside : List String → Template → Reached}
  {active : List String}

/-- Without items, the index is left alone. -/
theorem get?_loop (h : ∀ active t, (Watch.unchanged index).Keeps (inside active t) (nest active t)) {item : String}
    (differ : fold index ≠ fold item) {collection : Path} {body : List Node} {location : Location}
    (hook : s.context.hook = none)
    (ended : outcome (renderNode model nest active (.loop item (some index) collection body location)) s
      = (.ok (), t)) :
    ∃ v, Scope.resolve ⟨model, s.context.scratch⟩ collection = .ok v
      ∧ (v.items = [] → t.context.scratch.get? index = s.context.scratch.get? index)
      ∧ (v.items ≠ [] →
        (∀ l ∈ loopsOfPasses ⟨item, some index⟩ (renderNodes model nest active body)
          (loopsOfNodes model nest inside active body) 0 v.items s, ¬l.Binds index) →
        t.context.scratch.get? index = some (.ofInt (v.items.length - 1))) := by
  unfold renderNode at ended
  obtain ⟨v, u, resolved, ended⟩ := outcome_bind_ok ended
  rw [outcome_resolve] at resolved
  obtain ⟨found, same⟩ := Prod.mk.inj resolved
  subst same
  refine ⟨v, found, ?_⟩
  -- The item is not the index, so that it does not matter for the index that the item is cleared.
  have cleared (c : Context) : (c.bind item .null).scratch.get? index = c.scratch.get? index := by
    rw [Context.bind, NameMap.get?_insert, if_neg differ]
  cases v with
  | array items =>
    obtain ⟨_, u, passes, last⟩ := outcome_bind_ok ended
    cases last
    cases items with
    | nil =>
      cases passes
      exact ⟨fun _ => cleared _, fun some => absurd rfl some⟩
    | cons w rest =>
      refine ⟨fun none => absurd none (List.cons_ne_nil w rest), fun _ free => ?_⟩
      have inBody : (Watch.unchanged index).Keeps (loopsOfNodes model nest inside active body)
          (renderNodes model nest active body) := Watch.keeps_renderNodes h body
      rw [cleared, get?_eachItem (l := ⟨item, some index⟩) inBody rfl 0 w rest hook passes free]
      simp [Value.items]
  | _ =>
    obtain ⟨_, u, recorded, last⟩ := outcome_bind_ok ended
    cases recorded
    cases last
    exact ⟨fun _ => cleared _, fun some => absurd rfl some⟩

end Index

/-- **Items do not outlive their loops.** After nodes, a name that is the index of no loop is idle if it was, and a name
that no loop binds is as it was. After a loop, its index has the position of the last item, if the loop has items and
its body reaches no loop that binds the index again. -/
theorem loop_variables (model : Value) (depth : Nat) (active : List String) :
    (∀ (ns : List Node) (s t : RenderState), s.context.hook = none →
      outcome (renderNodes model (renderTemplate model depth) active ns) s = (.ok (), t) →
      let reached := loopsOfNodes model (renderTemplate model depth) (loopsOfTemplate model depth) active ns s
      ∀ name,
        ((∀ l ∈ reached, ¬l.Counts name) → Idle (s.context.scratch.get? name) → Idle (t.context.scratch.get? name))
          ∧ ((∀ l ∈ reached, ¬l.Binds name) → t.context.scratch.get? name = s.context.scratch.get? name))
    ∧ ∀ (item index : String) (collection : Path) (body : List Node) (location : Location) (s t : RenderState),
      fold index ≠ fold item → s.context.hook = none →
      outcome (renderNode model (renderTemplate model depth) active
        (.loop item (some index) collection body location)) s = (.ok (), t) →
      ∃ v, Scope.resolve ⟨model, s.context.scratch⟩ collection = .ok v
        ∧ (v.items = [] → t.context.scratch.get? index = s.context.scratch.get? index)
        ∧ (v.items ≠ [] →
          (∀ l ∈ loopsOfPasses ⟨item, some index⟩ (renderNodes model (renderTemplate model depth) active body)
            (loopsOfNodes model (renderTemplate model depth) (loopsOfTemplate model depth) active body) 0 v.items s,
            ¬l.Binds index) →
          t.context.scratch.get? index = some (.ofInt (v.items.length - 1))) := by
  have templates (W : Watch) : ∀ active t,
      W.Keeps (loopsOfTemplate model depth active t) (renderTemplate model depth active t) :=
    Watch.keeps_renderTemplate model depth
  constructor
  · intro ns s t hook ended reached name
    obtain ⟨-, idle⟩ := Watch.keeps_renderNodes (templates (.idle name)) ns s () t hook ended
    obtain ⟨-, same⟩ := Watch.keeps_renderNodes (templates (.unchanged name)) ns s () t hook ended
    exact ⟨idle, fun free => (same free).symm⟩
  · intro item index collection body location s t differ hook ended
    exact get?_loop (templates (.unchanged index)) differ hook ended

/-- A loop whose body includes another loop with an item of the same name. -/
theorem loop_variables_nested :
    let row := Template.ofNodes [.loop "X" (some "j") (Path.parse ".ys") [] .origin]
    let rows : Node := .loop "x" (some "i") (Path.parse ".xs") [.inclusion "row" .origin] .origin
    let model : Value := .map [("xs", .array [.string "a", .string "b"]), ("ys", .array [.string "c"])]
    let s : RenderState := ⟨Context.empty.addTemplate "row" row, []⟩
    s.context.hook = none ∧ fold "i" ≠ fold "x" ∧ ∃ t,
      outcome (renderNode model (renderTemplate model 1) [] rows) s = (.ok (), t)
      ∧ outcome (renderNodes model (renderTemplate model 1) [] [rows]) s = (.ok (), t)
      ∧ Idle (t.context.scratch.get? "x") ∧ t.context.scratch.get? "k" = none
      ∧ t.context.scratch.get? "i" = some (.ofInt 1) := by
  intro row rows model s
  obtain ⟨nodes, loop⟩ := loop_variables model 1 []
  have node : outcome (renderNode model (renderTemplate model 1) [] rows) s
    = (.ok (), (outcome (renderNode model (renderTemplate model 1) [] rows) s).2) := rfl
  have ended : outcome (renderNodes model (renderTemplate model 1) [] [rows]) s
    = (.ok (), (outcome (renderNode model (renderTemplate model 1) [] rows) s).2) := rfl
  generalize (outcome (renderNode model (renderTemplate model 1) [] rows) s).2 = t at node ended
  have differ : fold "i" ≠ fold "x" := by decide
  have reached : loopsOfNodes model (renderTemplate model 1) (loopsOfTemplate model 1) [] [rows] s
    = [⟨"x", some "i"⟩, ⟨"X", some "j"⟩, ⟨"X", some "j"⟩] := rfl
  have inBody : loopsOfPasses ⟨"x", some "i"⟩ (renderNodes model (renderTemplate model 1) [] [.inclusion "row" .origin])
      (loopsOfNodes model (renderTemplate model 1) (loopsOfTemplate model 1) [] [.inclusion "row" .origin]) 0
      [.string "a", .string "b"] s = [⟨"X", some "j"⟩, ⟨"X", some "j"⟩] := rfl
  have resolved : Scope.resolve ⟨model, s.context.scratch⟩ (Path.parse ".xs")
    = .ok (.array [.string "a", .string "b"]) := rfl
  obtain ⟨v, resolved', -, last⟩ := loop "x" "i" (Path.parse ".xs") _ .origin s t differ rfl node
  obtain rfl := Except.ok.inj (resolved'.symm.trans resolved)
  refine ⟨rfl, differ, t, node, ended, ?_, ?_, ?_⟩
  · refine (nodes [rows] s t rfl ended "x").1 ?_ (.inl rfl)
    rw [reached]
    decide
  · refine (nodes [rows] s t rfl ended "k").2 ?_
    rw [reached]
    decide
  · apply last (List.cons_ne_nil _ _)
    rw [Value.items, inBody]
    decide

end Render

end Stencil
