import Stencil.Context
import Stencil.Files.FileSystem
import Stencil.Text.Numeric

/-!
# Loading templates by name

A loader finds the template of a name in a file below its root: `header` in `header.tmpl`, `partials/nav` in
`partials/nav.tmpl`. Names are checked before anything is looked up, and a file that a link leads to outside the root is
refused. What was loaded once is not read again.

* `Loader.rounds`: loading goes on until no name is pending. A round fills at least one name, and new names come from
  the references of what can be read, so that the number of rounds is bounded by them.
-/

namespace Stencil

/-! ## Names of templates -/

/-- Whether a character may start a part of a name. -/
def isNameStart (c : Char) : Bool := Text.isAlphanumeric c || c == '_'

/-- A part of a name starts with a letter, a digit or `_`, and goes on with these or `-`. -/
def isNamePart (part : List Char) : Bool :=
  match part with
  | [] => false
  | c :: cs => isNameStart c && cs.all fun d => isNameStart d || d == '-'

/-- Whether a character occurs twice in a row. -/
def isDoubled (c : Char) : List Char → Bool
  | a :: b :: rest => (a == c && b == c) || isDoubled c (b :: rest)
  | _ => false

/-- The parts of the name of a template. -/
def nameParts (name : String) : List String := Text.names '/' name

/-- What is wrong with the name of a template. -/
def nameFault? (name : String) : Option NameFault :=
  let cs := name.toList
  if isDoubled '.' cs || isDoubled '/' cs || cs.contains '\\' || cs.contains ':' then some .traversal
  else if nameParts name = [] then some .empty
  else ((nameParts name).find? fun part => !isNamePart part.toList).map .badSegment

/-! ## Single templates -/

structure Loader where
  root : AbsolutePath
  /-- Put behind the last part of a name, unless it is empty. -/
  extension : String
  /-- Record the events of reading. -/
  trace : Bool
  /-- What was loaded, by the exact name. -/
  cache : List (String × Template)

namespace Loader

def defaultExtension : String := "tmpl"

/-- The loader of a root, which has to be there. -/
def of? (fs : FileSystem) (root : AbsolutePath) : Except Error Loader :=
  match fs.canonicalize root with
  | .ok root => .ok ⟨root, defaultExtension, false, []⟩
  | .error fault => .error (.load (.invalidRoot fault))

/-- Puts an extension behind the last of some names. -/
def extend (extension : String) : List String → List String
  | [] => []
  | [name] => [if extension = "" then name else name ++ "." ++ extension]
  | name :: rest => name :: extend extension rest

/-- The path of the file of a name. -/
def path (l : Loader) (name : String) : AbsolutePath := ⟨l.root.names ++ extend l.extension (nameParts name)⟩

/-- Checks that a path stays below the root when links are followed. -/
def check (l : Loader) (fs : FileSystem) (p : AbsolutePath) : Except Error Unit :=
  match fs.settle p with
  | .error fault => .error (.load (.unresolved fault))
  | .ok place => if place.isWithin l.root then .ok () else .error (.load (.outsideRoot p.text))

/-- The source of a name. -/
def source (l : Loader) (fs : FileSystem) (name : String) : Except Error String := do
  let p := l.path name
  l.check fs p
  if !fs.isFile p then throw (.load (.noFile name p.text))
  match fs.read p with
  | .ok text => return text
  | .error fault => throw (.file fault)

/-- Reads the template of a name, with the events of reading. -/
def read (l : Loader) (fs : FileSystem) (name : String) : Except Error Template × List Event :=
  match l.source fs name with
  | .error e => (.error e, [])
  | .ok text =>
    let (result, events) := Template.parseTraced text { trace := l.trace, sourcePath := some (l.path name).text }
    (result.mapError .parse, events)

/-- The template of a name, which is read unless it was loaded before. -/
def load (l : Loader) (fs : FileSystem) (name : String) : Except Error Template × Loader × List Event :=
  match nameFault? name with
  | some fault => (.error (.load (.invalidName name fault)), l, [])
  | none =>
    match l.cache.lookup name with
    | some t => (.ok t, l, [])
    | none =>
      match l.read fs name with
      | (.ok t, events) => (.ok t, { l with cache := (name, t) :: l.cache }, events)
      | (.error e, events) => (.error e, l, events)

end Loader

/-! ## Filling a context -/

/-- A context that is being filled by a loader, and the events so far. -/
structure FillState where
  loader : Loader
  context : Context
  events : List Event

/-- A step of filling. What was loaded before an error stays. -/
abbrev Fill := ExceptT Error (StateM FillState)

namespace Loader

/-- Loads one name and registers its template. -/
def fill (fs : FileSystem) (name : String) : Fill Unit := do
  let s ← get
  let (result, loader, events) := s.loader.load fs name
  set { s with loader := loader, events := s.events ++ events }
  let t ← liftM result
  modify fun s => { s with context := s.context.addTemplate name t, events := s.events ++ [.loaded name] }

/-- Loads all pending names, then those that have become pending, and so on; at most so many rounds. Gives the number
of names that were loaded. -/
def rounds (fs : FileSystem) : Nat → Fill Nat
  | 0 => return 0
  | n + 1 => do
    let pending := (← get).context.templates.pending
    if pending.isEmpty then return 0
    else
      pending.forM (fill fs)
      return pending.length + (← rounds fs n)

/-- The number of references in a source, if it can be read. -/
def referenceCount (source : String) : Nat :=
  match Template.parse source with
  | .ok t => t.references.length
  | .error _ => 0

/-- A number of rounds after which no name is pending: every round but the last fills a name that was pending at the
start or is referred to by a template that can be loaded. -/
def roundBound (l : Loader) (fs : FileSystem) (c : Context) : Nat :=
  c.templates.pending.length + (l.cache.map fun t => t.2.references.length).sum
    + (fs.texts.map referenceCount).sum + 1

/-- Loads what a context refers to and does not have, with all that is referred to by what is loaded. -/
def loadPending (l : Loader) (fs : FileSystem) (c : Context) : Except Error Nat × FillState :=
  (rounds fs (l.roundBound fs c)).run ⟨l, c, []⟩

end Loader

end Stencil
