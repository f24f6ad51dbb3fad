import Stencil.Event
import Stencil.Syntax.Scanner
import Stencil.Syntax.Statement
import Stencil.Text.Ascii

/-!
# Building templates from statements

Statements are taken one by one. Openers put a frame on a stack, `end` takes one off and makes a node of it, and `else`
turns an open branch into its alternative. What is left open at the end is a fault.

A template that extends another names its base first, blanks apart, and then has blocks only.
-/

namespace Stencil

/-- An opener whose `end` has not been met. -/
inductive Opener where
  | branch (condition : Condition) (location : Location)
  /-- A branch behind its `else`. -/
  | alternative (condition : Condition) (body : List Node) (location : Location)
  | loop (item : String) (index : Option String) (collection : Path) (location : Location)
  | block (name : String) (location : Location)

namespace Opener

def directive : Opener → Directive
  | branch .. | alternative .. => .branch
  | loop .. => .loop
  | block .. => .block

def location : Opener → Location
  | branch _ l => l
  | alternative _ _ l => l
  | loop _ _ _ l => l
  | block _ l => l

/-- The node of an opener, given the nodes up to its `end`. -/
def close (o : Opener) (nodes : List Node) : Node :=
  match o with
  | branch condition l => .branch condition nodes none l
  | alternative condition body l => .branch condition body (some nodes) l
  | loop item index collection l => .loop item index collection nodes l
  | block name l => .block name nodes l

end Opener

/-- An opener and the nodes in front of it, the last one first. -/
structure Frame where
  opener : Opener
  before : List Node

/-- A tree under construction: the nodes behind the innermost opener, the openers around them from the inside out, the
base, the references, and the events of the nodes that are complete. Nodes, references and events are added in front, so
that the last one is first. -/
structure Builder where
  nodes : List Node
  frames : List Frame
  base : Option String
  references : List String
  events : List Event

namespace Builder

def empty : Builder := ⟨[], [], none, [], []⟩

/-- Adds a complete node. -/
def push (b : Builder) (n : Node) : Builder :=
  { b with
    nodes := n :: b.nodes
    events := .node b.frames.length n.location n.kind :: b.events }

def openWith (b : Builder) (o : Opener) : Builder := { b with nodes := [], frames := ⟨o, b.nodes⟩ :: b.frames }

/-- Records a name that the template refers to, once. -/
def refer (b : Builder) (name : String) : Builder :=
  if b.references.any (Text.sameIgnoringCase · name) then b else { b with references := name :: b.references }

/-- Records the base, which is named once and outside all other directives. -/
def extend (b : Builder) (c : Call) : Except ParseError Builder :=
  if !b.frames.isEmpty || b.base.isSome then .error (.extendsNotFirst c.location)
  else
    match c.arguments with
    | [] => .error (.invalid .base .baseMissing c.location)
    | name :: _ =>
      if name = "" then .error (.invalid .base .baseMissing c.location)
      else .ok { b.refer name with base := some name }

def step (b : Builder) : Statement → Except ParseError Builder
  | .text content l => .ok (b.push (.text content l))
  | .value path l => .ok (b.push (.value path l))
  | .call c =>
    if c.name = "extends" then (b.extend c).map fun b => b.push (.call c) else .ok (b.push (.call c))
  | .inclusion name l => .ok ((b.refer name).push (.inclusion name l))
  | .openBranch condition l => .ok (b.openWith (.branch condition l))
  | .openLoop item index collection l => .ok (b.openWith (.loop item index collection l))
  | .openBlock name l => .ok (b.openWith (.block name l))
  | .alternative l =>
    match b.frames with
    | ⟨.branch condition opened, before⟩ :: frames =>
      .ok { b with nodes := [], frames := ⟨.alternative condition b.nodes.reverse opened, before⟩ :: frames }
    | _ => .error (.unboundEnd .alternative l)
  | .close l =>
    match b.frames with
    | ⟨o, before⟩ :: frames => .ok ({ b with nodes := before, frames := frames }.push (o.close b.nodes.reverse))
    | [] => .error (.unboundEnd .close l)
  | .fault e => .error e

/-- Takes statements up to the first fault, if there is one. -/
def run (b : Builder) : List Statement → Builder × Option ParseError
  | [] => (b, none)
  | s :: rest =>
    match b.step s with
    | .ok b => b.run rest
    | .error e => (b, some e)

end Builder

/-- Checks where the base is named and what stands beside it; `nodes` has no blank text. -/
def checkLayout (nodes : List Node) : Except ParseError Unit :=
  match nodes with
  | [] => .ok ()
  | first :: rest =>
    match rest.find? fun n => n.isExtends || (first.isExtends && !n.isBlock) with
    | none => .ok ()
    | some n => .error (if n.isExtends then .extendsNotFirst n.location else .contentOutsideBlock n.location)

namespace Builder

/-- The template of a builder that has taken all statements. -/
def finish (b : Builder) : Except ParseError Template :=
  match b.frames with
  | f :: _ => .error (.unclosed f.opener.directive f.opener.location)
  | [] =>
    let nodes := b.nodes.reverse
    (checkLayout (nodes.filter (!·.isBlank))).map fun _ => ⟨nodes, b.base, none, b.references.reverse⟩

end Builder

/-- How a source is read. -/
structure ParseOptions where
  /-- Record the events of tokens and nodes. -/
  trace : Bool := false
  sourcePath : Option String := none

namespace Template

/-- The template of a list of tokens, with the events of its nodes. -/
def ofTokens (tokens : List Token) : Except ParseError Template × List Event :=
  let (b, fault) := Builder.empty.run (statements tokens)
  (match fault with
    | some e => .error e
    | none => b.finish, b.events.reverse)

/-- Reads a source, with the events of its tokens and nodes if they are wanted. -/
def parseTraced (source : String) (options : ParseOptions) : Except ParseError Template × List Event :=
  let tokens := scan source
  let (result, events) := ofTokens tokens
  (result.map fun t => { t with sourcePath := options.sourcePath },
    if options.trace then Event.ofTokens tokens ++ events else [])

/-- Reads a source. -/
def parse (source : String) : Except ParseError Template := (parseTraced source {}).1

end Template

end Stencil
