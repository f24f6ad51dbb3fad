import Stencil.Coercion
import Stencil.Locale
import Stencil.Registry

/-!
# Functions

A function declares its parameters and is invoked with adapted arguments: single values, and for a variadic tail one
list of texts. A function that declares a context gets a view of the render it is called from.
-/

namespace Stencil

/-- The kind of a declared parameter. -/
inductive ParamKind where
  | value (type : ArgType)
  /-- The context of the render; the last parameter only. -/
  | context
  /-- All remaining arguments as texts; the last parameter but for a context. -/
  | rest
  deriving DecidableEq, Repr

/-- An argument as a function gets it. -/
inductive Arg where
  | value (v : Value)
  | strings (texts : List String)

/-- What can be seen of a render: its output so far, its locale and the templates. -/
structure Surroundings where
  output : String
  locale : Locale
  templates : Registry

/-- One call: the name that was called, the arguments without the context, and the context if it is handed over. -/
structure Invocation where
  name : String
  args : List Arg
  context : Option Surroundings

namespace Invocation

/-- The single value of an argument. -/
def value? (i : Invocation) (index : Nat) : Option Value :=
  match i.args[index]? with
  | some (.value v) => some v
  | _ => none

/-- The error of a call that lacks the context. -/
def contextMissing (i : Invocation) : Error := .function i.name "render context not supplied"

end Invocation

structure Function where
  params : List ParamKind
  invoke : Invocation → Except Error Value

end Stencil
