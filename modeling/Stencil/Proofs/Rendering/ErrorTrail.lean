import Mathlib.Logic.Relation
import Stencil.Proofs.Rendering.Coupling

/-!
# Trails of errors

A machine renders with a stack: the templates that are being rendered, the innermost one first, each with the tasks that
are left in it (`Config.step`). It marks no error with a path; where it fails, the stack tells which templates are being
rendered at that moment.

* `Activation.perform_bind`: to perform a task, and to render what it comes to, is to render the task.
* `runs_start`: the machine gets through a template as it is rendered, and fails where the render does.
* `Context.render_error_trail`: the marks of an error are the paths of the templates on the stack, from the outside in.
-/

namespace Stencil

/-- The copy of a base that is rendered in place of a template that extends it. Nothing is known of its source. -/
def Template.composed (b : Template) : Template := { b with base := none, sourcePath := none }

/-! ## Marks -/

namespace Error

/-- Whether an error has no mark. -/
def IsBare (e : Error) : Prop := ∀ path cause, e ≠ .within path cause

theorem isBare_of_isOfEvaluation {e : Error} (h : e.isOfEvaluation = true) : e.IsBare := by
  rintro path cause rfl
  cases h

theorem IsBare.cause_eq {e : Error} (h : e.IsBare) : e.cause = e := by
  cases e with
  | within path cause => exact absurd rfl (h path cause)
  | _ => rfl

theorem IsBare.trail_eq {e : Error} (h : e.IsBare) : e.trail = [] := by
  cases e with
  | within path cause => exact absurd rfl (h path cause)
  | _ => rfl

/-- An error with marks, given from the outside in. -/
def markedBy (paths : List String) (e : Error) : Error := paths.foldr within e

theorem cause_markedBy (paths : List String) (e : Error) : (e.markedBy paths).cause = e.cause := by
  induction paths with
  | nil => rfl
  | cons path paths ih => exact ih

theorem trail_markedBy (paths : List String) (e : Error) : (e.markedBy paths).trail = paths ++ e.trail := by
  induction paths with
  | nil => rfl
  | cons path paths ih => exact congrArg (path :: ·) ih

end Error

namespace Render

/-! ## The machine -/

/-- A template that is being rendered: the depth to which templates inside it are followed, and the names that are
active. -/
structure Activation where
  template : Template
  depth : Nat
  active : List String

/-- What is left to do in a template. -/
inductive Task where
  /-- To compose the template and to render its nodes. -/
  | start
  | node (n : Node)
  /-- The passes of a loop from a position on. -/
  | passes (item : String) (index : Option String) (body : List Node) (position : Nat) (items : List Value)
  /-- To set the item of a loop to null. -/
  | clear (item : String)

/-- What a task comes to. -/
inductive Next where
  /-- Tasks of the same template, in place of the task. -/
  | tasks (ts : List Task)
  /-- Another template, to be rendered first. -/
  | enter (a : Activation)

namespace Activation

variable (model : Value) (a : Activation)

/-- Comes to a template inside the activation, unless it is nested too deeply. -/
def nest (active : List String) (t : Template) : Render Next :=
  match a.depth with
  | 0 => throw .nestingLimit
  | depth + 1 => return .enter ⟨t, depth, active⟩

def performNamed (name : String) (use : TemplateUse) : Render Next := do
  match (← context).templates.template? name with
  | none => do
    record (.missingTemplate name use)
    return .tasks []
  | some t =>
    if a.active.contains (fold name) then throw (.circularReference name)
    else a.nest (fold name :: a.active) t

def performValue (p : Path) : Render Next := do
  let v ← resolve model p
  if ← offer p v then return .tasks []
  match v with
  | .null => return .tasks []
  | .template _ t => a.nest a.active t
  | v => do
    write v.text
    return .tasks []

def performNode : Node → Render Next
  | .text content _ => do
    write content
    return .tasks []
  | .value p _ => a.performValue model p
  | .call c => do
    renderCall model c
    return .tasks []
  | .branch condition body alternative location => do
    if ← test model condition location then return .tasks (body.map .node)
    else return .tasks ((alternative.getD []).map .node)
  | .loop item index collection body _ => do
    match ← resolve model collection with
    | .array items => return .tasks [.passes item index body 0 items, .clear item]
    | v => do
      record (.notIterable collection.text v.typeName)
      return .tasks [.clear item]
  | .inclusion name _ => a.performNamed name .inclusion
  | .block name _ _ => a.performNamed name .block

/-- Comes to the nodes of the template, or to the copy of its base once the blocks are registered. -/
def performStart : Render Next :=
  match a.template.base with
  | none => return .tasks (a.template.nodes.map .node)
  | some base => do
    let some b := (← context).templates.template? base | throw (.baseTemplateNotFound base)
    update fun c => a.template.blocks.foldl (fun c block => c.addTemplate block.1 (.ofNodes block.2)) c
    return .enter ⟨b.composed, a.depth, a.active⟩

def perform : Task → Render Next
  | .start => a.performStart
  | .node n => a.performNode model n
  | .passes _ _ _ _ [] => return .tasks []
  | .passes item index body position (v :: rest) => do
    bind item v
    match index with
    | none => pure ()
    | some name => bind name (.ofInt position)
    return .tasks (body.map .node ++ [.passes item index body (position + 1) rest])
  | .clear item => do
    bind item .null
    return .tasks []

end Activation

/-- The templates that are being rendered, the innermost one first, and what is left to do in each. -/
abbrev Stack := List (Activation × List Task)

/-- The paths of the templates on a stack, from the outside in. Some templates have none. -/
def Stack.paths (stack : Stack) : List String := stack.reverse.filterMap fun f => f.1.template.sourcePath

structure Config where
  stack : Stack
  state : RenderState

/-- What a machine does next. -/
inductive Progress where
  | next (k : Config)
  | failed (e : Error) (s : RenderState)
  | ended

/-- What follows a task that has been performed in a template with other tasks left. -/
def Progress.behind (a : Activation) (left : List Task) (outer : Stack) : Except Error Next × RenderState → Progress
  | (.ok (.tasks ts), s) => .next ⟨(a, ts ++ left) :: outer, s⟩
  | (.ok (.enter b), s) => .next ⟨(b, [.start]) :: (a, left) :: outer, s⟩
  | (.error e, s) => .failed e s

/-- A machine performs the first task of the innermost template; a template without tasks is done. -/
def Config.step (model : Value) (k : Config) : Progress :=
  match k.stack with
  | [] => .ended
  | (_, []) :: outer => .next ⟨outer, k.state⟩
  | (a, task :: left) :: outer => .behind a left outer (outcome (a.perform model task) k.state)

/-- Machines reach what they come to in some steps. -/
abbrev Config.Reaches (model : Value) : Config → Config → Prop :=
  Relation.ReflTransGen fun k l => k.step model = .next l

/-! ## Tasks as renders -/

section Tasks

variable (model : Value)

namespace Activation

variable (a : Activation)

/-- The render that a task stands for. -/
def renderTask : Task → Render Unit
  | .start => do renderNodes model (renderTemplate model a.depth) a.active (← compose a.template)
  | .node n => renderNode model (renderTemplate model a.depth) a.active n
  | .passes item index body position items =>
    eachItem item index (renderNodes model (renderTemplate model a.depth) a.active body) position items
  | .clear item => bind item .null

def renderTasks : List Task → Render Unit
  | [] => pure ()
  | t :: ts => do
    a.renderTask model t
    renderTasks ts

def renderNext : Next → Render Unit
  | .tasks ts => a.renderTasks model ts
  | .enter b => within b.template.sourcePath (b.renderTask model .start)

variable {model a}

theorem renderTasks_nodes (ns : List Node) :
    a.renderTasks model (ns.map .node) = renderNodes model (renderTemplate model a.depth) a.active ns := by
  induction ns with
  | nil => rw [renderNodes]; rfl
  | cons n ns ih => rw [List.map_cons, renderTasks, ih, renderNodes]; rfl

theorem renderTasks_append (ts us : List Task) :
    a.renderTasks model (ts ++ us) = (a.renderTasks model ts >>= fun _ => a.renderTasks model us) := by
  induction ts with
  | nil => rfl
  | cons t ts ih => rw [List.cons_append, renderTasks, ih, renderTasks, bind_assoc]

theorem renderTasks_singleton (t : Task) : a.renderTasks model [t] = a.renderTask model t :=
  bind_pure (a.renderTask model t)

theorem nest_bind (active : List String) (t : Template) :
    a.nest active t >>= a.renderNext model = renderTemplate model a.depth active t := by
  cases h : a.depth with
  | zero => rw [nest, h]; rfl
  | succ depth => rw [nest, h]; rfl

theorem performNamed_bind (name : String) (use : TemplateUse) :
    a.performNamed name use >>= a.renderNext model
      = renderNamed (renderTemplate model a.depth) a.active name use := by
  rw [performNamed, renderNamed, bind_assoc]
  congr 1
  funext c
  cases c.templates.template? name with
  | none => rfl
  | some t =>
    simp only
    split
    · rfl
    · exact nest_bind _ t

theorem performValue_bind (p : Path) :
    a.performValue model p >>= a.renderNext model = renderValue model (renderTemplate model a.depth) a.active p := by
  rw [performValue, renderValue, bind_assoc]
  congr 1
  funext v
  rw [bind_assoc]
  congr 1
  funext handled
  cases handled with
  | true => rfl
  | false =>
    cases v with
    | template identity t => exact nest_bind _ t
    | _ => rfl

theorem performNode_bind (n : Node) : a.performNode model n >>= a.renderNext model
    = renderNode model (renderTemplate model a.depth) a.active n := by
  cases n with
  | text => rw [renderNode]; rfl
  | call c =>
    rw [renderNode, performNode, bind_assoc]
    exact bind_pure (renderCall model c)
  | value p => rw [renderNode]; exact performValue_bind p
  | inclusion name => rw [renderNode]; exact performNamed_bind name .inclusion
  | block name => rw [renderNode]; exact performNamed_bind name .block
  | branch condition body alternative location =>
    rw [renderNode, performNode, bind_assoc]
    congr 1
    funext holds
    cases holds with
    | true => exact renderTasks_nodes body
    | false =>
      cases alternative with
      | none => rw [renderAlternative]; rfl
      | some ns => rw [renderAlternative]; exact renderTasks_nodes ns
  | loop item index collection body location =>
    rw [renderNode, performNode, bind_assoc]
    congr 1
    funext v
    cases v <;> rfl

/-- To perform a task, and to render what it comes to, is to render the task. -/
theorem perform_bind (task : Task) : a.perform model task >>= a.renderNext model = a.renderTask model task := by
  cases task with
  | start =>
    show a.performStart >>= a.renderNext model = compose a.template >>= renderNodes model _ a.active
    cases base : a.template.base with
    | none =>
      rw [compose_of_none base, performStart, base, pure_bind]
      exact renderTasks_nodes a.template.nodes
    | some name =>
      rw [performStart, compose, base]
      simp only [bind_assoc]
      congr 1
      funext c
      cases c.templates.template? name <;> rfl
  | node n => exact performNode_bind n
  | clear item => rfl
  | passes item index body position items =>
    cases items with
    | nil => rfl
    | cons v rest =>
      have passed : a.renderNext model (.tasks (body.map .node ++ [.passes item index body (position + 1) rest]))
          = (renderNodes model (renderTemplate model a.depth) a.active body >>= fun _ =>
            a.renderTask model (.passes item index body (position + 1) rest)) := by
        rw [renderNext, renderTasks_append, renderTasks_nodes, renderTasks_singleton]
      rw [renderTask, eachItem, perform]
      cases index with
      | none =>
        simp only [bind_assoc, pure_bind, passed]
        rfl
      | some name =>
        simp only [bind_assoc, pure_bind, passed]
        rfl

end Activation

end Tasks

/-! ## Runs -/

/-- An error as it leaves the templates on a stack. -/
def Stack.marks (stack : Stack) (e : Error) : Error := stack.foldl (fun e f => marked f.1.template.sourcePath e) e

/-- The mark of the outermost template is put on last. -/
theorem Stack.marks_concat (stack : Stack) (f : Activation × List Task) (e : Error) :
    Stack.marks (stack ++ [f]) e = marked f.1.template.sourcePath (stack.marks e) := by
  simp [marks]

theorem Stack.marks_eq (stack : Stack) (e : Error) : stack.marks e = e.markedBy stack.paths := by
  induction stack generalizing e with
  | nil => rfl
  | cons f stack ih =>
    have outermost : Stack.paths (f :: stack) = Stack.paths stack ++ f.1.template.sourcePath.toList := by
      cases h : f.1.template.sourcePath <;> simp [Stack.paths, h]
    have first : marked f.1.template.sourcePath e = e.markedBy f.1.template.sourcePath.toList := by
      cases f.1.template.sourcePath <;> rfl
    rw [outermost, Error.markedBy, List.foldr_append, ← Error.markedBy, ← Error.markedBy, ← first]
    exact ih _

section Runs

variable {model : Value} {a b : Activation} {left : List Task} {outer : Stack} {k l : Config}

/-- How a machine goes on in a template when the tasks in front of `left` are rendered with an outcome: it gets to what
is left, or it fails while templates on top of the outer ones are rendered. -/
inductive Follows (model : Value) (a : Activation) (left : List Task) (outer : Stack) (k : Config) :
    Except Error Unit × RenderState → Prop
  | done {s : RenderState} (reached : k.Reaches model ⟨(a, left) :: outer, s⟩) :
    Follows model a left outer k (.ok (), s)
  | failed {inner : Stack} {tasks : List Task} {cause : Error} {s t : RenderState}
      (reached : k.Reaches model ⟨inner ++ (a, tasks) :: outer, s⟩)
      (fails : Config.step model ⟨inner ++ (a, tasks) :: outer, s⟩ = .failed cause t) :
    Follows model a left outer k (.error (inner.marks cause), t)

/-- Steps can be put in front. -/
theorem Follows.after {o : Except Error Unit × RenderState} (first : k.Reaches model l)
    (h : Follows model a left outer l o) : Follows model a left outer k o := by
  cases h with
  | done reached => exact .done (first.trans reached)
  | failed reached fails => exact .failed (first.trans reached) fails

/-- The machine gets through tasks as they are rendered. -/
def Runs (model : Value) (a : Activation) (ts : List Task) : Prop :=
  ∀ (left : List Task) (outer : Stack) (s : RenderState),
    Follows model a left outer ⟨(a, ts ++ left) :: outer, s⟩ (outcome (a.renderTasks model ts) s)

theorem runs_nil : Runs model a [] := fun _ _ _ => .done .refl

theorem Runs.append {ts us : List Task} (first : Runs model a ts) (second : Runs model a us) :
    Runs model a (ts ++ us) := by
  intro left outer s
  have start := first (us ++ left) outer s
  rw [Activation.renderTasks_append, outcome_bind, List.append_assoc]
  generalize outcome (a.renderTasks model ts) s = o at start ⊢
  cases start with
  | done reached => exact (second left outer _).after reached
  | failed reached fails => exact .failed reached fails

/-- A property of the values that a render can end with. -/
def Gives {α : Type} (P : α → Prop) (r : Render α) : Prop := ∀ s a t, outcome r s = (.ok a, t) → P a

theorem gives_pure {α : Type} {P : α → Prop} {x : α} (h : P x) : Gives P (pure x) := by
  rintro s a t same
  cases same
  exact h

theorem gives_throw {α : Type} {P : α → Prop} (e : Error) : Gives P (throw e) := by
  rintro s a t same
  cases same

theorem Gives.bind {α β : Type} {P : β → Prop} {r : Render α} {f : α → Render β} (h : ∀ x, Gives P (f x)) :
    Gives P (r >>= f) := by
  intro s a t ends
  obtain ⟨x, u, -, ends⟩ := outcome_bind_ok ends
  exact h x u a t ends

/-- What a task comes to is got through. -/
def Next.Runs (model : Value) (a : Activation) : Next → Prop
  | .tasks ts => Render.Runs model a ts
  | .enter b => Render.Runs model b [.start]

/-- A task is got through if everything is that it can come to. -/
theorem runs_task {task : Task} (h : Gives (Next.Runs model a) (a.perform model task)) : Runs model a [task] := by
  intro left outer s
  have performed : Config.step model ⟨(a, task :: left) :: outer, s⟩
      = .behind a left outer (outcome (a.perform model task) s) := rfl
  rw [Activation.renderTasks_singleton, ← Activation.perform_bind, outcome_bind, List.singleton_append]
  generalize ho : outcome (a.perform model task) s = o at performed ⊢
  rcases o with ⟨e | ts | b, t⟩
  · have here : Follows model a left outer ⟨(a, task :: left) :: outer, s⟩ (.error (Stack.marks [] e), t) :=
      .failed .refl performed
    exact here
  · exact (h s _ t ho left outer t).after (.single performed)
  · have entered : Config.Reaches model ⟨(a, task :: left) :: outer, s⟩ ⟨(b, [.start]) :: (a, left) :: outer, t⟩ :=
      .single performed
    have inside : Follows model b [] ((a, left) :: outer) _ _ := h s _ t ho [] ((a, left) :: outer) t
    simp only [Activation.renderNext, outcome_within]
    rw [Activation.renderTasks_singleton] at inside
    generalize outcome (b.renderTask model .start) t = o at inside ⊢
    cases inside with
    | done reached =>
      -- The template that is done is taken from the stack.
      exact .done ((entered.trans reached).tail rfl)
    | @failed inner tasks cause _ _ reached fails =>
      have deeper : inner ++ (b, tasks) :: (a, left) :: outer = (inner ++ [(b, tasks)]) ++ (a, left) :: outer := by simp
      rw [deeper] at reached fails
      show Follows model a left outer _ (.error (marked b.template.sourcePath (inner.marks cause)), _)
      rw [← Stack.marks_concat inner (b, tasks)]
      exact .failed (entered.trans reached) fails

/-! ## Everything is got through -/

/-- Templates to which less depth is left than in an activation are got through. -/
def RunsBelow (model : Value) (a : Activation) : Prop := ∀ b : Activation, b.depth < a.depth → Runs model b [.start]

theorem gives_nest (inside : RunsBelow model a) (active : List String) (t : Template) :
    Gives (Next.Runs model a) (a.nest active t) := by
  cases h : a.depth with
  | zero =>
    rw [Activation.nest, h]
    exact gives_throw _
  | succ depth =>
    rw [Activation.nest, h]
    exact gives_pure (inside ⟨t, depth, active⟩ (h ▸ Nat.lt_succ_self depth))

theorem gives_performNamed (inside : RunsBelow model a) (name : String) (use : TemplateUse) :
    Gives (Next.Runs model a) (a.performNamed name use) := by
  rw [Activation.performNamed]
  refine .bind fun c => ?_
  cases c.templates.template? name with
  | none => exact .bind fun _ => gives_pure runs_nil
  | some t =>
    simp only
    split
    · exact gives_throw _
    · exact gives_nest inside _ t

theorem gives_performValue (inside : RunsBelow model a) (p : Path) :
    Gives (Next.Runs model a) (a.performValue model p) := by
  rw [Activation.performValue]
  refine .bind fun v => .bind fun handled => ?_
  cases handled with
  | true => exact gives_pure runs_nil
  | false =>
    cases v with
    | null => exact gives_pure runs_nil
    | template _ t => exact gives_nest inside _ t
    | _ => exact .bind fun _ => gives_pure runs_nil

/-- The passes of a loop are got through if its body is. -/
theorem runs_passes {item : String} {index : Option String} {body : List Node} {position : Nat} {items : List Value}
    (h : Runs model a (body.map .node)) : Runs model a [.passes item index body position items] := by
  induction items generalizing position with
  | nil => exact runs_task (gives_pure runs_nil)
  | cons v rest ih =>
    refine runs_task (Gives.bind fun _ => ?_)
    have pass : (Next.tasks (body.map .node ++ [.passes item index body (position + 1) rest])).Runs model a :=
      h.append ih
    cases index with
    | none => exact gives_pure pass
    | some name => exact Gives.bind fun _ => gives_pure pass

mutual

theorem runs_node (inside : RunsBelow model a) : ∀ n : Node, Runs model a [.node n]
  | .text .. | .call _ => runs_task (Gives.bind fun _ => gives_pure runs_nil)
  | .value p _ => runs_task (gives_performValue inside p)
  | .inclusion name _ => runs_task (gives_performNamed inside name .inclusion)
  | .block name _ _ => runs_task (gives_performNamed inside name .block)
  | .branch condition body alternative location => by
    have whenTrue := runs_nodes inside body
    have whenFalse := runs_alternative inside alternative
    refine runs_task (Gives.bind fun holds => ?_)
    cases holds with
    | true => exact gives_pure whenTrue
    | false => exact gives_pure whenFalse
  | .loop item index collection body location => by
    have once := runs_nodes inside body
    have cleared : Runs model a [.clear item] := runs_task (Gives.bind fun _ => gives_pure runs_nil)
    refine runs_task (Gives.bind fun v => ?_)
    cases v with
    | array items => exact gives_pure ((runs_passes once).append cleared)
    | _ => exact Gives.bind fun _ => gives_pure cleared

theorem runs_nodes (inside : RunsBelow model a) : ∀ ns : List Node, Runs model a (ns.map .node)
  | [] => runs_nil
  | n :: ns => (runs_node inside n).append (runs_nodes inside ns)

theorem runs_alternative (inside : RunsBelow model a) : ∀ alternative : Option (List Node),
    Runs model a ((alternative.getD []).map .node)
  | none => runs_nil
  | some ns => runs_nodes inside ns

end

theorem gives_performStart_of_none (base : a.template.base = none)
    (nodes : Runs model a (a.template.nodes.map .node)) : Gives (Next.Runs model a) a.performStart := by
  rw [Activation.performStart, base]
  exact gives_pure nodes

/-- The machine gets through a template as it is rendered. -/
theorem runs_start (model : Value) (a : Activation) : Runs model a [.start] := by
  induction h : a.depth using Nat.strongRecOn generalizing a with
  | _ depth ih =>
    have nodes (b : Activation) (same : b.depth = depth) : Runs model b (b.template.nodes.map .node) :=
      runs_nodes (fun d shallower => ih d.depth (same ▸ shallower) d rfl) b.template.nodes
    refine runs_task ?_
    cases base : a.template.base with
    | none => exact gives_performStart_of_none base (nodes a h)
    | some name =>
      show Gives _ a.performStart
      rw [Activation.performStart, base]
      refine .bind fun c => ?_
      cases c.templates.template? name with
      | none => exact gives_throw _
      | some b =>
        -- The copy of the base is entered at the same depth, and has no base itself.
        have copied : Runs model ⟨b.composed, a.depth, a.active⟩ [.start] :=
          runs_task (gives_performStart_of_none rfl (nodes ⟨b.composed, a.depth, a.active⟩ h))
        exact Gives.bind fun _ => gives_pure copied

end Runs

/-! ## Causes -/

/-- The functions of the host return no error with a mark. -/
def Unmarking (functions : NameMap Function) : Prop :=
  ∀ name f i e, functions.get? name = some f → f.invoke i = .error e → e.IsBare

/-- A render keeps the functions of the host and has only errors without a mark, if these functions return no others. -/
def Unmarked {α : Type} (r : Render α) : Prop :=
  ∀ s, Unmarking s.context.functions →
    (outcome r s).2.context.functions = s.context.functions ∧ ∀ e, (outcome r s).1 = .error e → e.IsBare

section Causes

variable {α β : Type} {model : Value}

theorem unmarked_pure (x : α) : Unmarked (pure x : Render α) := fun _ _ => ⟨rfl, nofun⟩

theorem unmarked_throw {e : Error} (bare : e.IsBare) : Unmarked (throw e : Render α) := by
  refine fun _ _ => ⟨rfl, fun e' same => ?_⟩
  cases same
  exact bare

theorem Unmarked.bind {r : Render α} {f : α → Render β} (first : Unmarked r) (rest : ∀ x, Unmarked (f x)) :
    Unmarked (r >>= f) := by
  intro s host
  obtain ⟨kept, bare⟩ := first s host
  rw [outcome_bind]
  generalize outcome r s = o at kept bare ⊢
  rcases o with ⟨e | x, t⟩
  · exact ⟨kept, fun e' same => bare e' (by cases same; rfl)⟩
  · obtain ⟨later, bare'⟩ := rest x t (kept ▸ host)
    exact ⟨later.trans kept, bare'⟩

theorem unmarked_context : Unmarked context := fun _ _ => ⟨rfl, nofun⟩

theorem unmarked_update {f : Context → Context} (kept : ∀ c, (f c).functions = c.functions) : Unmarked (update f) :=
  fun s _ => ⟨kept s.context, nofun⟩

theorem unmarked_record (e : Event) : Unmarked (record e) := fun _ _ => ⟨rfl, nofun⟩

theorem unmarked_write (text : String) : Unmarked (write text) := unmarked_update fun _ => rfl

theorem unmarked_bind (name : String) (v : Value) : Unmarked (Render.bind name v) := unmarked_update fun _ => rfl

theorem unmarked_resolve (p : Path) : Unmarked (resolve model p) := by
  intro s _
  rw [outcome_resolve]
  refine ⟨rfl, fun e failed => Error.isBare_of_isOfEvaluation ?_⟩
  exact Error.isOfEvaluation_of_isOfValues (Error.isOfValues_of_isOfIndex (Scope.resolve_error failed))

theorem unmarked_call (c : Call) : Unmarked (call model c) := by
  unfold call
  cases c.value with
  | some text => exact unmarked_pure _
  | none =>
    intro s host
    simp only
    rw [outcome_bind, outcome_context]
    simp only [outcome_lift]
    refine ⟨trivial, fun e failed => ?_⟩
    rcases Evaluation.call_error failed with rfl | h | ⟨f, i, found, returned⟩
    · exact Error.isBare_of_isOfEvaluation rfl
    · exact Error.isBare_of_isOfEvaluation (Error.isOfEvaluation_of_isOfValues h)
    · exact host c.name f i e found returned

theorem unmarked_renderCall (c : Call) : Unmarked (renderCall model c) :=
  (unmarked_call c).bind fun _ => unmarked_context.bind fun _ => unmarked_write _

theorem unmarked_holds (location : Location) (v : Value) : Unmarked (holds location v) := by
  unfold holds
  split
  · exact unmarked_pure _
  · exact unmarked_pure _
  · exact unmarked_throw (Error.isBare_of_isOfEvaluation rfl)

theorem unmarked_test (condition : Condition) (location : Location) : Unmarked (test model condition location) := by
  cases condition with
  | path p => exact (unmarked_resolve p).bind fun v => unmarked_holds location v
  | call c => exact (unmarked_call c).bind fun v => unmarked_holds location v

theorem functions_foldl_perform (effects : List Effect) (c : Context) :
    (effects.foldl Context.perform c).functions = c.functions := by
  induction effects generalizing c with
  | nil => rfl
  | cons effect effects ih =>
    rw [List.foldl_cons, ih]
    cases effect <;> rfl

theorem unmarked_offer (p : Path) (v : Value) : Unmarked (offer p v) := by
  unfold offer
  refine unmarked_context.bind fun c => ?_
  cases c.hook with
  | none => exact unmarked_pure _
  | some hook =>
    exact (unmarked_update (functions_foldl_perform _)).bind fun _ => unmarked_pure _

variable {a : Activation}

theorem unmarked_nest (active : List String) (t : Template) : Unmarked (a.nest active t) := by
  unfold Activation.nest
  split
  · exact unmarked_throw (by simp [Error.IsBare])
  · exact unmarked_pure _

theorem unmarked_performNamed (name : String) (use : TemplateUse) : Unmarked (a.performNamed name use) := by
  unfold Activation.performNamed
  refine unmarked_context.bind fun c => ?_
  split
  · exact (unmarked_record _).bind fun _ => unmarked_pure _
  · split
    · exact unmarked_throw (by simp [Error.IsBare])
    · exact unmarked_nest _ _

theorem unmarked_performValue (p : Path) : Unmarked (a.performValue model p) := by
  unfold Activation.performValue
  refine (unmarked_resolve p).bind fun v => (unmarked_offer p v).bind fun handled => ?_
  cases handled with
  | true => exact unmarked_pure _
  | false =>
    cases v with
    | null => exact unmarked_pure _
    | template _ t => exact unmarked_nest _ _
    | _ => exact (unmarked_write _).bind fun _ => unmarked_pure _

theorem unmarked_performNode (n : Node) : Unmarked (a.performNode model n) := by
  cases n with
  | text content => exact (unmarked_write content).bind fun _ => unmarked_pure _
  | value p => exact unmarked_performValue p
  | call c => exact (unmarked_renderCall c).bind fun _ => unmarked_pure _
  | inclusion name => exact unmarked_performNamed name .inclusion
  | block name => exact unmarked_performNamed name .block
  | branch condition _ _ location =>
    refine (unmarked_test condition location).bind fun holds => ?_
    cases holds <;> exact unmarked_pure _
  | loop _ _ collection =>
    refine (unmarked_resolve collection).bind fun v => ?_
    cases v with
    | array => exact unmarked_pure _
    | _ => exact (unmarked_record _).bind fun _ => unmarked_pure _

theorem unmarked_performStart : Unmarked a.performStart := by
  unfold Activation.performStart
  split
  · exact unmarked_pure _
  · refine unmarked_context.bind fun c => ?_
    split
    · refine (unmarked_update fun c => ?_).bind fun _ => unmarked_pure _
      rw [Context.foldl_addTemplate]
      rfl
    · exact unmarked_throw (by simp [Error.IsBare])

theorem unmarked_perform (task : Task) : Unmarked (a.perform model task) := by
  cases task with
  | start => exact unmarked_performStart
  | node n => exact unmarked_performNode n
  | clear item => exact (unmarked_bind item .null).bind fun _ => unmarked_pure _
  | passes item index _ position items =>
    cases items with
    | nil => exact unmarked_pure _
    | cons v rest =>
      refine (unmarked_bind item v).bind fun _ => ?_
      cases index with
      | none => exact unmarked_pure _
      | some name => exact (unmarked_bind name _).bind fun _ => unmarked_pure _

/-- A machine keeps the functions of the host, and fails with an error without a mark. -/
theorem unmarked_step {k : Config} (host : Unmarking k.state.context.functions) :
    (∀ l, k.step model = .next l → l.state.context.functions = k.state.context.functions)
      ∧ ∀ e s, k.step model = .failed e s → e.IsBare := by
  obtain ⟨_ | ⟨⟨a, _ | ⟨task, left⟩⟩, outer⟩, s⟩ := k
  · exact ⟨nofun, nofun⟩
  · refine ⟨fun l same => ?_, nofun⟩
    cases same
    rfl
  · have performed : Unmarked (a.perform model task) := unmarked_perform task
    obtain ⟨kept, bare⟩ := performed s host
    simp only [Config.step]
    generalize outcome (a.perform model task) s = o at kept bare ⊢
    rcases o with ⟨e | ts | b, t⟩
    · refine ⟨nofun, fun e' _ same => bare e' ?_⟩
      cases same
      rfl
    · refine ⟨fun l same => ?_, nofun⟩
      cases same
      exact kept
    · refine ⟨fun l same => ?_, nofun⟩
      cases same
      exact kept

theorem functions_of_reaches {k l : Config} (host : Unmarking k.state.context.functions) (h : k.Reaches model l) :
    l.state.context.functions = k.state.context.functions := by
  induction h with
  | refl => rfl
  | tail _ next ih => exact ((unmarked_step (ih ▸ host)).1 _ next).trans ih

end Causes

end Render

/-! ## Renders from a context -/

namespace Context

open Render (Config Stack)

/-- The machine at the start of a render. -/
def machine (c : Context) (t : Template) : Config := ⟨[(⟨t, c.depth t - 1, []⟩, [.start])], ⟨c.fresh, []⟩⟩

/-- **An error tells the templates that were being rendered.** A render that fails does so where its machine fails. The
marks of the error are the paths of the templates that are on the stack there, from the outside in, around the error of
the machine, which has no mark and is the cause. -/
theorem render_error_trail {c c' : Context} {t : Template} {model : Value} {e : Error} {events : List Event}
    (host : Render.Unmarking c.functions) (failed : c.render t model = (.error e, c', events)) :
    ∃ (k : Config) (cause : Error) (s : RenderState),
      (c.machine t).Reaches model k ∧ k.step model = .failed cause s ∧ s.context = c' ∧ s.events.reverse = events
        ∧ cause.IsBare ∧ e = cause.markedBy k.stack.paths ∧ e.trail = k.stack.paths ∧ e.cause = cause := by
  let a : Render.Activation := ⟨t, c.depth t - 1, []⟩
  have run := Render.runs_start model a [] [] ⟨c.fresh, []⟩
  have deep : c.depth t = a.depth + 1 := (Nat.sub_add_cancel (Nat.le_add_left 1 _)).symm
  have rendered : Render.renderTemplate model (c.depth t) [] t
      = Render.within t.sourcePath (a.renderTask model .start) := by
    rw [deep, Render.renderTemplate]
    rfl
  rw [render_eq, rendered, Render.outcome_within] at failed
  rw [Render.Activation.renderTasks_singleton] at run
  generalize Render.outcome (a.renderTask model .start) ⟨c.fresh, []⟩ = o at run failed
  cases run with
  | done => cases failed
  | @failed inner tasks cause s s' reached fails =>
    have marks := Stack.marks_eq (inner ++ [(a, tasks)]) cause
    have started : (c.machine t).Reaches model _ := reached
    have kept := Render.functions_of_reaches host started
    have bare := (Render.unmarked_step (kept ▸ host)).2 cause s' fails
    rw [Stack.marks_concat] at marks
    cases failed
    refine ⟨_, cause, s', reached, fails, rfl, rfl, bare, marks, ?_, ?_⟩
    · rw [marks, Error.trail_markedBy, bare.trail_eq, List.append_nil]
    · rw [marks, Error.cause_markedBy, bare.cause_eq]

/-- A page that is included extends a layout, and the body that it has for the layout includes the page again. -/
theorem render_error_trail_page :
    let main : Template := ⟨[.inclusion "page" .origin], none, some "main", ["page"]⟩
    let page : Template := ⟨[.block "body" [.inclusion "page" .origin] .origin], some "layout", some "page", ["layout"]⟩
    let layout : Template := ⟨[.block "body" [] .origin], none, some "layout", []⟩
    let c := (Context.empty.addTemplate "page" page).addTemplate "layout" layout
    Render.Unmarking c.functions
      ∧ (c.render main .null).1 = .error (.within "main" (.within "page" (.circularReference "page")))
      ∧ ∃ (k : Config) (s : RenderState), (c.machine main).Reaches .null k
        ∧ k.step .null = .failed (.circularReference "page") s ∧ k.stack.paths = ["main", "page"] := by
  intro main page layout c
  have host : Render.Unmarking c.functions := nofun
  have failed : (c.render main .null).1 = .error (.within "main" (.within "page" (.circularReference "page"))) := by
    rfl
  generalize hr : c.render main .null = r at failed
  obtain ⟨_, c', events⟩ := r
  cases failed
  obtain ⟨k, cause, s, reached, fails, -, -, -, -, trail, same⟩ := render_error_trail host hr
  cases same
  exact ⟨host, rfl, k, s, reached, fails, trail.symm⟩

end Context

end Stencil
