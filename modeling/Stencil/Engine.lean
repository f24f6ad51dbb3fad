import Stencil.Loader
import Stencil.Render

/-!
# Engines

An engine is a template with the context it is rendered in. It is read once and rendered many times. An engine with a
loader loads what is missing before each render.
-/

namespace Stencil

structure Engine where
  template : Template
  context : Context
  loader : Option Loader

namespace Engine

/-- A template in a context that knows the names it refers to. -/
def ofTemplate (t : Template) : Engine := ⟨t, Context.empty.declareAll t.references, none⟩

/-- Reads a source, with the events of reading if they are wanted. -/
def parseTraced (source : String) (options : ParseOptions) : Except Error Engine × List Event :=
  let (result, events) := Template.parseTraced source options
  ((result.map ofTemplate).mapError .parse, events)

def parse (source : String) : Except Error Engine := (parseTraced source {}).1

/-- Reads a file, whose path is the path of the source. -/
def parseFile (fs : FileSystem) (path : String) : Except Error Engine :=
  match fs.readAt path with
  | .error fault => .error (.file fault)
  | .ok source => (parseTraced source { sourcePath := some path }).1

/-- Reads a source whose references are loaded from below a root. -/
def parseWithIncludes (fs : FileSystem) (source : String) (root : AbsolutePath) : Except Error Engine := do
  let e ← parse source
  return { e with loader := some (← Loader.of? fs root) }

/-- Reads a source and registers it under a name. -/
def addSource (e : Engine) (name source : String) : Except Error Engine :=
  (e.context.addSource name source).map fun c => { e with context := c }

/-- Renders against a model, after loading what is missing if there is a loader. -/
def render (e : Engine) (fs : FileSystem) (model : Value) : Except Error String × Engine × List Event :=
  match e.loader with
  | none =>
    let (result, c, events) := e.context.render e.template model
    (result, { e with context := c }, events)
  | some l =>
    match l.loadPending fs e.context with
    | (.error fault, s) => (.error fault, { e with context := s.context, loader := some s.loader }, s.events)
    | (.ok _, s) =>
      let (result, c, events) := s.context.render e.template model
      (result, { e with context := c, loader := some s.loader }, s.events ++ events)

end Engine

/-- Reads a source and renders it against a model. -/
def render (source : String) (model : Value) : Except Error String := do
  let e ← Engine.parse source
  (e.render .empty model).1

/-- Reads a source and renders it against a model, with references loaded from below a root. -/
def renderWithIncludes (fs : FileSystem) (source : String) (model : Value) (root : AbsolutePath) :
    Except Error String := do
  let e ← Engine.parseWithIncludes fs source root
  (e.render fs model).1

end Stencil
