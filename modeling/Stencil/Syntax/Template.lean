import Stencil.Syntax.Location
import Stencil.Syntax.Path

/-!
# Templates

A template is a list of nodes with the name of its base, if it extends one, the path of its source, if known, and the
names of the templates it refers to. The body of a block is a template of its own once it is registered.
-/

namespace Stencil

/-- A call of a function. `value` is output attached ahead of rendering, which then replaces the evaluation. -/
structure Call where
  name : String
  arguments : List String
  value : Option String
  location : Location
  deriving DecidableEq, Repr

/-- The test of a branch. -/
inductive Condition where
  | path (path : Path)
  | call (call : Call)
  deriving DecidableEq, Repr

inductive Node where
  | text (content : String) (location : Location)
  | value (path : Path) (location : Location)
  | call (call : Call)
  | branch (condition : Condition) (body : List Node) (alternative : Option (List Node)) (location : Location)
  | loop (item : String) (index : Option String) (collection : Path) (body : List Node) (location : Location)
  | inclusion (name : String) (location : Location)
  | block (name : String) (body : List Node) (location : Location)
  deriving Repr

inductive NodeKind where
  | text
  | value
  | function
  | branch
  | loop
  | inclusion
  | block
  deriving DecidableEq, Repr

def NodeKind.name : NodeKind → String
  | .text => "text"
  | .value => "value"
  | .function => "function"
  | .branch => "if"
  | .loop => "foreach"
  | .inclusion => "include"
  | .block => "block"

namespace Node

def kind : Node → NodeKind
  | .text .. => .text
  | .value .. => .value
  | .call .. => .function
  | .branch .. => .branch
  | .loop .. => .loop
  | .inclusion .. => .inclusion
  | .block .. => .block

def location : Node → Location
  | .text _ l => l
  | .value _ l => l
  | .call c => c.location
  | .branch _ _ _ l => l
  | .loop _ _ _ _ l => l
  | .inclusion _ l => l
  | .block _ _ l => l

/-- Whether the node is text of blanks only. -/
def isBlank : Node → Bool
  | .text content _ => content.toList.all Text.isBlank
  | _ => false

/-- Whether the node names the base of its template. -/
def isExtends : Node → Bool
  | .call c => c.name == "extends"
  | _ => false

def isBlock : Node → Bool
  | .block .. => true
  | _ => false

end Node

structure Template where
  nodes : List Node
  base : Option String
  sourcePath : Option String
  references : List String
  deriving Repr

namespace Template

/-- A template of nodes alone. -/
def ofNodes (nodes : List Node) : Template := ⟨nodes, none, none, []⟩

def withPath (t : Template) (path : String) : Template := { t with sourcePath := some path }

/-- Names and bodies of the blocks at the top level. -/
def blocks (t : Template) : List (String × List Node) :=
  t.nodes.filterMap fun
    | .block name body _ => some (name, body)
    | _ => none

end Template

/-! ## Values attached to calls -/

/-- The call with the value that `valueFor` has for it, or else the one it has already. -/
def Call.attach (valueFor : Call → Option String) (c : Call) : Call :=
  { c with value := (valueFor c).or c.value }

def Condition.attach (valueFor : Call → Option String) : Condition → Condition
  | .path p => .path p
  | .call c => .call (c.attach valueFor)

mutual

/-- Attaches values to the calls of a node, at any depth. -/
def Node.attach (valueFor : Call → Option String) : Node → Node
  | .call c => .call (c.attach valueFor)
  | .branch condition body alternative location =>
    .branch (condition.attach valueFor) (attachAll valueFor body) (attachOption valueFor alternative) location
  | .loop item index collection body location => .loop item index collection (attachAll valueFor body) location
  | .block name body location => .block name (attachAll valueFor body) location
  | .text content location => .text content location
  | .value path location => .value path location
  | .inclusion name location => .inclusion name location

def attachAll (valueFor : Call → Option String) : List Node → List Node
  | [] => []
  | n :: ns => n.attach valueFor :: attachAll valueFor ns

def attachOption (valueFor : Call → Option String) : Option (List Node) → Option (List Node)
  | none => none
  | some ns => some (attachAll valueFor ns)

end

theorem attachAll_eq_map (valueFor : Call → Option String) (ns : List Node) :
    attachAll valueFor ns = ns.map (Node.attach valueFor) := by
  induction ns with
  | nil => rfl
  | cons n ns ih => simp [attachAll, ih]

/-- The template whose calls carry the values of `valueFor`. -/
def Template.withValues (t : Template) (valueFor : Call → Option String) : Template :=
  { t with nodes := attachAll valueFor t.nodes }

end Stencil
