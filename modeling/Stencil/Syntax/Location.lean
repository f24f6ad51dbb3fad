/-!
# Locations in a template source

A location counts lines and columns in characters from 1 and the bytes of the UTF-8 text from 0. `Location.advance`
moves a location behind a piece of text; `advance_append` says that pieces add up, so the location of a token depends
only on the text before it.
-/

namespace Stencil

structure Location where
  line : Nat
  column : Nat
  offset : Nat
  deriving DecidableEq, Repr

namespace Location

/-- The start of a text. -/
def origin : Location := ⟨1, 1, 0⟩

/-- The location behind one character. -/
def step (l : Location) (c : Char) : Location :=
  if c = '\n' then ⟨l.line + 1, 1, l.offset + c.utf8Size⟩ else ⟨l.line, l.column + 1, l.offset + c.utf8Size⟩

/-- The location behind a piece of text. -/
def advance (l : Location) (cs : List Char) : Location := cs.foldl step l

@[simp] theorem advance_nil (l : Location) : l.advance [] = l := rfl

@[simp] theorem advance_cons (l : Location) (c : Char) (cs : List Char) :
    l.advance (c :: cs) = (l.step c).advance cs := rfl

theorem advance_append (l : Location) (cs ds : List Char) : l.advance (cs ++ ds) = (l.advance cs).advance ds :=
  List.foldl_append

/-- The form in which messages name a location. -/
def text (l : Location) : String := s!"line {l.line}, column {l.column}"

end Location

end Stencil
