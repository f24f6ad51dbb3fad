import Stencil.Event
import Stencil.Function
import Stencil.Syntax.Parser

/-!
# Contexts

A context is what outlives a render: its locale, the functions of the host, the registry of templates and a hook that
is offered every value before it is written; and what belongs to one render, its output and the bindings of its loops.

A hook sees the surroundings of a value, and answers whether it has dealt with the value and what is to be done.
-/

namespace Stencil

/-- What a hook can have done. -/
inductive Effect where
  | write (text : String)
  | register (name : String) (template : Template)
  /-- Values are not offered any more. -/
  | dropHook

/-- The answer of a hook. A value that is handled is not written. -/
structure Reply where
  handled : Bool
  effects : List Effect

/-- A hook gets the text of a path and the value that the path refers to. -/
structure Hook where
  offer : String → Value → Surroundings → Reply

structure Context extends Surroundings where
  functions : NameMap Function
  scratch : NameMap Value
  hook : Option Hook

namespace Context

def empty : Context := ⟨⟨"", .invariant, .empty⟩, .empty, .empty, none⟩

instance : Inhabited Context := ⟨empty⟩

def withLocale (c : Context) (l : Locale) : Context := { c with locale := l }

def withHook (c : Context) (hook : Option Hook) : Context := { c with hook := hook }

/-- Registers a function of the host; one under the same name is replaced. -/
def addFunction (c : Context) (name : String) (f : Function) : Context :=
  { c with functions := c.functions.insert name f }

/-- Registers a template and makes the names it refers to known. -/
def addTemplate (c : Context) (name : String) (t : Template) : Context :=
  { c with templates := c.templates.add name t }

/-- Reads a source and registers it. The name is the path of the source as well. -/
def addSource (c : Context) (name source : String) : Except Error Context :=
  match Template.parse source with
  | .ok t => .ok (c.addTemplate name (t.withPath name))
  | .error e => .error (.parse e)

/-- Makes names of templates known. -/
def declareAll (c : Context) (names : List String) : Context :=
  { c with templates := c.templates.declareAll names }

def write (c : Context) (text : String) : Context := { c with output := c.output ++ text }

/-- The context with nothing written. -/
def clearOutput (c : Context) : Context := { c with output := "" }

/-- Gives a loop variable a value. -/
def bind (c : Context) (name : String) (v : Value) : Context := { c with scratch := c.scratch.insert name v }

/-- The context before a render: nothing written, nothing bound. -/
def fresh (c : Context) : Context := { c with output := "", scratch := .empty }

/-- Does what a hook answered. -/
def perform (c : Context) : Effect → Context
  | .write text => c.write text
  | .register name t => c.addTemplate name t
  | .dropHook => c.withHook none

end Context

end Stencil
