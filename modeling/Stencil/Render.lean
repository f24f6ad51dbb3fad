import Stencil.Context
import Stencil.Evaluation

/-!
# Rendering

Templates are rendered into the output of a context. Text is copied; a value is offered to the hook and then written, a
template value in place; a call is evaluated and written in the locale; branches choose, loops repeat; and inclusions
and blocks render what is registered under their name, or nothing.

A template that extends another registers its blocks and renders the nodes of its base, whose own base does not count.

The names of the inclusions and blocks around a node are active. A name that is active is not rendered again, so that
the nesting of registered templates is bounded by the number of names; templates in values are followed to a fixed
depth.
-/

namespace Stencil

/-- A render under way: its context and the events so far, the latest first. -/
structure RenderState where
  context : Context
  events : List Event

/-- A step of a render. What was written before an error stays written. -/
abbrev Render := ExceptT Error (StateM RenderState)

namespace Render

def context : Render Context := return (← get).context

def update (f : Context → Context) : Render Unit := modify fun s => { s with context := f s.context }

def write (text : String) : Render Unit := update fun c => c.write text

def bind (name : String) (v : Value) : Render Unit := update fun c => c.bind name v

def record (e : Event) : Render Unit := modify fun s => { s with events := e :: s.events }

/-- Marks errors with the path of a source, if it is known. -/
def within {α : Type} (path : Option String) (r : Render α) : Render α :=
  match path with
  | none => r
  | some p => tryCatch r fun e => throw (.within p e)

/-! ## Values and calls -/

section Model

variable (model : Value)

def resolve (p : Path) : Render Value := do
  let c ← context
  liftM (Scope.resolve ⟨model, c.scratch⟩ p)

/-- The value of a call, or the output attached to it. -/
def call (c : Call) : Render Value := do
  match c.value with
  | some text => return .string text
  | none =>
    let ctx ← context
    liftM (Evaluation.call ⟨⟨model, ctx.scratch⟩, ctx.functions, ctx.toSurroundings⟩ c.name c.arguments)

/-- Evaluates a call and writes its value in the locale. -/
def renderCall (c : Call) : Render Unit := do
  let v ← call model c
  write ((← context).locale.display v)

/-- Whether a value is true. Null is false. -/
def holds (location : Location) (v : Value) : Render Bool :=
  match v.coerce .bool with
  | .ok (.bool b) => return b
  | .ok _ => return false
  | .error fault => throw (.conditionType location fault)

/-- Whether the value of a condition is true. -/
def test (condition : Condition) (location : Location) : Render Bool := do
  match condition with
  | .path p => holds location (← resolve model p)
  | .call c => holds location (← call model c)

/-- Offers a value to the hook, and tells whether the hook has dealt with it. -/
def offer (p : Path) (v : Value) : Render Bool := do
  let c ← context
  match c.hook with
  | none => return false
  | some hook =>
    let reply := hook.offer p.text v c.toSurroundings
    update fun c => reply.effects.foldl Context.perform c
    return reply.handled

/-- Renders the body of a loop for each item, counted from a position. -/
def eachItem (item : String) (index : Option String) (body : Render Unit) (position : Nat) : List Value → Render Unit
  | [] => pure ()
  | v :: rest => do
    bind item v
    match index with
    | none => pure ()
    | some name => bind name (.ofInt position)
    body
    eachItem item index body (position + 1) rest

/-! ## Nodes -/

section Nodes

variable (nest : List String → Template → Render Unit) (active : List String)

/-- Renders the value of a path. -/
def renderValue (p : Path) : Render Unit := do
  let v ← resolve model p
  if ← offer p v then return
  match v with
  | .null => pure ()
  | .template _ t => nest active t
  | v => write v.text

/-- Renders what is registered under a name. -/
def renderNamed (name : String) (use : TemplateUse) : Render Unit := do
  match (← context).templates.template? name with
  | none => record (.missingTemplate name use)
  | some t =>
    if active.contains (fold name) then throw (.circularReference name)
    else nest (fold name :: active) t

mutual

/-- Renders a node; `nest` renders a template inside it, under the names that are active then. -/
def renderNode : Node → Render Unit
  | .text content _ => write content
  | .value p _ => renderValue model nest active p
  | .call c => renderCall model c
  | .branch condition body alternative location => do
    if ← test model condition location then renderNodes body else renderAlternative alternative
  | .loop item index collection body _ => do
    match ← resolve model collection with
    | .array items => eachItem item index (renderNodes body) 0 items
    | v => record (.notIterable collection.text v.typeName)
    bind item .null
  | .inclusion name _ => renderNamed nest active name .inclusion
  | .block name _ _ => renderNamed nest active name .block

def renderNodes : List Node → Render Unit
  | [] => pure ()
  | n :: ns => do
    renderNode n
    renderNodes ns

def renderAlternative : Option (List Node) → Render Unit
  | none => pure ()
  | some ns => renderNodes ns

end

end Nodes

/-! ## Templates -/

/-- The nodes that a template is rendered by. A template that extends another registers its blocks first. -/
def compose (t : Template) : Render (List Node) :=
  match t.base with
  | none => return t.nodes
  | some base => do
    let some b := (← context).templates.template? base | throw (.baseTemplateNotFound base)
    update fun c => t.blocks.foldl (fun c block => c.addTemplate block.1 (.ofNodes block.2)) c
    return b.nodes

/-- Renders a template and the templates inside it down to a depth. -/
def renderTemplate : Nat → List String → Template → Render Unit
  | 0, _, _ => throw .nestingLimit
  | depth + 1, active, t =>
    within t.sourcePath do renderNodes model (renderTemplate depth) active (← compose t)

end Model

end Render

namespace Registry

/-- The number of blocks at the top level of the registered templates. -/
def blockCount (r : Registry) : Nat :=
  (r.entries.map fun e => match e.value with
    | some t => t.blocks.length
    | none => 0).sum

end Registry

namespace Context

/-- How deep templates in values, and templates that a hook registers, are followed: deeper than a render that ends can
get in practice. -/
def valueDepth : Nat := 1000000000

/-- A depth that no nesting of registered templates reaches: an inclusion or a block takes a name that was registered or
is that of a block, and takes it once. -/
def depth (c : Context) (t : Template) : Nat :=
  c.templates.size + c.templates.blockCount + t.blocks.length + valueDepth + 1

/-- What comes out of a render: the output or an error, the context afterwards, and the events. The output is taken out
of the context if there is no error; otherwise it stays there. -/
def concluded : Except Error Unit × RenderState → Except Error String × Context × List Event
  | (.ok (), s) => (.ok s.context.output, s.context.clearOutput, s.events.reverse)
  | (.error e, s) => (.error e, s.context, s.events.reverse)

/-- Renders a template against a model. -/
def render (c : Context) (t : Template) (model : Value) : Except Error String × Context × List Event :=
  concluded ((Render.renderTemplate model (c.depth t) [] t).run ⟨c.fresh, []⟩)

end Context

end Stencil
