import Stencil.Proofs.Rendering.HeldTemplates
import Stencil.Proofs.Syntax.Nesting
import Stencil.Render

/-!
# Simulations

Nodes are rendered in primitive steps, one after the other, but for the templates inside them. A relation between
renders that holds of every primitive step and itself, and is kept when steps are put together, therefore relates two
renders of the same nodes if it relates what they do with templates (`Simulation.renderNodes`).
-/

namespace Stencil

mutual

/-- The names that a render of a node can ask for, with how they are used there. The body of a block is not rendered in
its place. -/
def Node.sites : Node → List (String × TemplateUse)
  | .branch _ body alternative _ => sitesAll body ++ sitesOption alternative
  | .loop _ _ _ body _ => sitesAll body
  | .inclusion name _ => [(name, .inclusion)]
  | .block name _ _ => [(name, .block)]
  | .text _ _ | .value _ _ | .call _ => []

def sitesAll : List Node → List (String × TemplateUse)
  | [] => []
  | n :: ns => n.sites ++ sitesAll ns

def sitesOption : Option (List Node) → List (String × TemplateUse)
  | none => []
  | some ns => sitesAll ns

end

namespace Render

/-- The steps of rendering nodes, with what is known of their values. The templates in values are `held`, and the calls
are among those given. -/
inductive Primitive (model : Value) (held : Template → Prop) (calls : Call → Prop) :
    {α : Type} → (α → Prop) → Render α → Prop
  | pure {α : Type} {Q : α → Prop} {a : α} (h : Q a) : Primitive model held calls Q (pure a)
  | write (text : String) : Primitive model held calls (fun _ => True) (write text)
  | bind (name : String) {v : Value} (h : v.Holds held) : Primitive model held calls (fun _ => True) (bind name v)
  | notIterable (collection kind : String) :
    Primitive model held calls (fun _ => True) (record (.notIterable collection kind))
  | resolve (p : Path) : Primitive model held calls (fun v => v.Holds held) (resolve model p)
  | renderCall {c : Call} (h : calls c) : Primitive model held calls (fun _ => True) (renderCall model c)
  | test {condition : Condition} {location : Location} (h : ∀ c ∈ condition.call?, calls c) :
    Primitive model held calls (fun _ => True) (test model condition location)
  | offer (p : Path) (v : Value) : Primitive model held calls (fun _ => True) (offer p v)

/-- A relation between renders that goes through all steps. It can come with a property of the values of both. -/
structure Simulation (model : Value) where
  held : Template → Prop
  calls : Call → Prop
  Rel : {α : Type} → (α → Prop) → Render α → Render α → Prop
  primitive : ∀ {α : Type} {Q : α → Prop} {r : Render α}, Primitive model held calls Q r → Rel Q r r
  bind : ∀ {α β : Type} {Q : α → Prop} {R : β → Prop} {r r' : Render α} {f f' : α → Render β}, Rel Q r r' →
    (∀ a, Q a → Rel R (f a) (f' a)) → Rel R (r >>= f) (r' >>= f')

namespace Simulation

variable {model : Value} (S : Simulation model)

/-- Renders without a value. -/
abbrev Steps (r r' : Render Unit) : Prop := S.Rel (fun _ => True) r r'

theorem eachItem {body body' : Render Unit} (h : S.Steps body body') (item : String) (index : Option String)
    {items : List Value} (hi : ∀ v ∈ items, v.Holds S.held) (position : Nat) :
    S.Steps (eachItem item index body position items) (eachItem item index body' position items) := by
  induction items generalizing position with
  | nil => exact S.primitive (.pure trivial)
  | cons v rest ih =>
    have later := ih (fun w hw => hi w (List.mem_cons_of_mem v hw)) (position + 1)
    refine S.bind (S.primitive (.bind item (hi v List.mem_cons_self))) fun _ _ => ?_
    cases index with
    | none => exact S.bind h fun _ _ => later
    | some name =>
      refine S.bind (S.primitive (.bind name (Value.holds_ofInt position))) fun _ _ => ?_
      exact S.bind h fun _ _ => later

section Nodes

variable {S} {nest nest' : List String → Template → Render Unit} {active active' : List String}

theorem renderValue (inside : ∀ t, S.held t → S.Steps (nest active t) (nest' active' t)) (p : Path) :
    S.Steps (renderValue model nest active p) (renderValue model nest' active' p) := by
  refine S.bind (S.primitive (.resolve p)) fun v hv => S.bind (S.primitive (.offer p v)) fun handled _ => ?_
  cases handled with
  | true => exact S.primitive (.pure trivial)
  | false =>
    cases v with
    | template identity t => exact inside t (Value.holds_template hv)
    | null => exact S.primitive (.pure trivial)
    | _ => exact S.primitive (.write _)

mutual

theorem renderNode (inside : ∀ t, S.held t → S.Steps (nest active t) (nest' active' t)) : ∀ n : Node,
    (∀ name use, (name, use) ∈ n.sites →
      S.Steps (renderNamed nest active name use) (renderNamed nest' active' name use)) →
    EachCall S.calls n.written → S.Steps (renderNode model nest active n) (renderNode model nest' active' n)
  | .text content _, _, _ => by
    unfold Render.renderNode
    exact S.primitive (.write content)
  | .value p _, _, _ => by
    unfold Render.renderNode
    exact renderValue inside p
  | .call c, _, calls => by
    unfold Render.renderNode
    exact S.primitive (.renderCall (calls.head c rfl))
  | .branch condition body alternative location, named, calls => by
    have whenTrue := renderNodes inside body (fun name use h => named name use (List.mem_append_left _ h))
      calls.tail.left
    have whenFalse := renderAlternative inside alternative
      (fun name use h => named name use (List.mem_append_right _ h)) calls.tail.right.left
    unfold Render.renderNode
    refine S.bind (S.primitive (.test calls.head)) fun holds _ => ?_
    cases holds with
    | true => exact whenTrue
    | false => exact whenFalse
  | .loop item index collection body _, named, calls => by
    have once := renderNodes inside body named calls.tail.left
    unfold Render.renderNode
    refine S.bind (S.primitive (.resolve collection)) fun v hv => ?_
    have cleared : S.Steps (Render.bind item .null) (Render.bind item .null) :=
      S.primitive (.bind item Value.holds_null)
    cases v with
    | array items => exact S.bind (S.eachItem once item index (Value.holds_items hv) 0) fun _ _ => cleared
    | _ => exact S.bind (S.primitive (.notIterable _ _)) fun _ _ => cleared
  | .inclusion name _, named, _ => by
    unfold Render.renderNode
    exact named name .inclusion (List.mem_singleton.2 rfl)
  | .block name _ _, named, _ => by
    unfold Render.renderNode
    exact named name .block (List.mem_singleton.2 rfl)

/-- Renders of the same nodes are related if their inclusions and blocks are, and the templates in values. -/
theorem renderNodes (inside : ∀ t, S.held t → S.Steps (nest active t) (nest' active' t)) : ∀ ns : List Node,
    (∀ name use, (name, use) ∈ sitesAll ns →
      S.Steps (renderNamed nest active name use) (renderNamed nest' active' name use)) →
    EachCall S.calls (writtenAll ns) → S.Steps (renderNodes model nest active ns) (renderNodes model nest' active' ns)
  | [], _, _ => by
    unfold Render.renderNodes
    exact S.primitive (.pure trivial)
  | n :: ns, named, calls => by
    have first := renderNode inside n (fun name use h => named name use (List.mem_append_left _ h)) calls.left
    have rest := renderNodes inside ns (fun name use h => named name use (List.mem_append_right _ h)) calls.right
    unfold Render.renderNodes
    exact S.bind first fun _ _ => rest

theorem renderAlternative (inside : ∀ t, S.held t → S.Steps (nest active t) (nest' active' t)) :
    ∀ alternative : Option (List Node),
    (∀ name use, (name, use) ∈ sitesOption alternative →
      S.Steps (renderNamed nest active name use) (renderNamed nest' active' name use)) →
    EachCall S.calls (writtenOption alternative) →
    S.Steps (renderAlternative model nest active alternative) (renderAlternative model nest' active' alternative)
  | none, _, _ => by
    unfold Render.renderAlternative
    exact S.primitive (.pure trivial)
  | some ns, named, calls => by
    unfold Render.renderAlternative
    exact renderNodes inside ns named calls.tail

end

end Nodes

end Simulation

end Render

end Stencil
