import Stencil.Syntax.Template
import Stencil.Syntax.Token

/-!
# Trace events

What happens while a template is read, rendered or loaded is recorded as a list of events. Events of reading are
recorded on demand only.
-/

namespace Stencil

/-- How a name that has no template was used. -/
inductive TemplateUse where
  | inclusion
  | block
  deriving DecidableEq, Repr

def TemplateUse.name : TemplateUse → String
  | .inclusion => "include"
  | .block => "block"

inductive Event where
  /-- A token with the number of tokens before it. -/
  | token (index : Nat) (token : Token)
  /-- The error token that ends a scan. -/
  | lexError (token : Token)
  /-- A node that is complete, with the number of nodes around it. -/
  | node (depth : Nat) (location : Location) (kind : NodeKind)
  | missingTemplate (name : String) (use : TemplateUse)
  /-- A loop over something else than a list. -/
  | notIterable (collection : String) (kind : String)
  | loaded (name : String)
  deriving DecidableEq, Repr

inductive EventLevel where
  | debug
  | trace
  deriving DecidableEq, Repr

def EventLevel.name : EventLevel → String
  | .debug => "DEBUG"
  | .trace => "TRACE"

namespace Event

/-- Silent omissions of a render are less important than the rest. -/
def level : Event → EventLevel
  | .missingTemplate .. | .notIterable .. => .trace
  | _ => .debug

/-- Names and texts of the parts of an event, its message first. -/
def fields : Event → List (String × String)
  | .token index t =>
    [("message", "token"), ("index", toString index), ("kind", t.kind.name), ("value", t.text),
      ("location", t.location.text)]
  | .lexError t => [("message", "lex error"), ("location", t.location.text), ("message", t.text)]
  | .node depth l kind =>
    [("message", "node"), ("depth", toString depth), ("location", l.text), ("node", kind.name)]
  | .missingTemplate name use =>
    [("message", "no template registered, rendering nothing"), ("name", name), ("kind", use.name)]
  | .notIterable collection kind =>
    [("message", "foreach over a non-list value renders nothing"), ("collection", collection), ("kind", kind)]
  | .loaded name => [("message", "loaded template"), ("name", name)]

/-- The events of a scan: one for each token in order. -/
def ofTokens (tokens : List Token) : List Event :=
  tokens.mapIdx fun index t => if t.kind = .error then .lexError t else .token index t

end Event

end Stencil
