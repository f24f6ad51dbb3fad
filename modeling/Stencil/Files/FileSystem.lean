import Stencil.Error
import Stencil.Instances
import Stencil.Text.Pieces

/-!
# File systems

A file system is seen through its directories and files at their canonical paths, and through the function that makes a
path canonical. How links are followed is known to that function alone.
-/

namespace Stencil

/-- A path from the root of a file system. -/
structure AbsolutePath where
  names : List String
  deriving DecidableEq, Repr

namespace AbsolutePath

def text (p : AbsolutePath) : String := "/" ++ String.intercalate "/" p.names

/-- The names in the text of a path. A separator at the end asks for a directory, as the name `.` does. -/
def namesOf (text : String) : List String :=
  let names := Text.names '/' text
  if text.toList.getLast? = some '/' ∧ names ≠ [] then names ++ ["."] else names

def ofText (text : String) : AbsolutePath := ⟨namesOf text⟩

/-- Whether a path leads to or below another one. -/
def isWithin (p root : AbsolutePath) : Bool := root.names.isPrefixOf p.names

/-- Whether a name holds the character with code 0. -/
def hasNul (p : AbsolutePath) : Bool := p.names.any fun name => name.toList.contains '\x00'

end AbsolutePath

inductive FileNode where
  | directory
  | file (bytes : ByteArray)
  deriving DecidableEq

/-- Directories and files by their canonical paths, and the canonical path of every path that leads to one of them. -/
structure FileSystem where
  nodes : List (AbsolutePath × FileNode)
  canonicalize : AbsolutePath → Except FileFault AbsolutePath

namespace FileSystem

/-- The file system with nothing in it. -/
def empty : FileSystem := ⟨[], fun _ => .error .notFound⟩

def node (fs : FileSystem) (p : AbsolutePath) : Except FileFault FileNode := do
  match fs.nodes.lookup (← fs.canonicalize p) with
  | some n => return n
  | none => throw .notFound

/-- Whether a path leads to something. -/
def has (fs : FileSystem) (p : AbsolutePath) : Bool := (fs.canonicalize p).isOk

def isFile (fs : FileSystem) (p : AbsolutePath) : Bool :=
  match fs.node p with
  | .ok (.file _) => true
  | _ => false

/-- The text of bytes. -/
def decode (bytes : ByteArray) : Except FileFault String :=
  match String.fromUTF8? bytes with
  | some text => .ok text
  | none => .error .notText

/-- The text of a file. -/
def read (fs : FileSystem) (p : AbsolutePath) : Except FileFault String := do
  match ← fs.node p with
  | .directory => throw .isADirectory
  | .file bytes => decode bytes

/-- How many bytes the text of a path may have. -/
def maxPathBytes : Nat := 4095

/-- The text of the file at a path that is given as a text, whose length is checked before it is followed. -/
def readAt (fs : FileSystem) (path : String) : Except FileFault String :=
  let p := AbsolutePath.ofText path
  if maxPathBytes < path.utf8ByteSize ∧ !p.hasNul then .error .nameTooLong else fs.read p

/-- All texts that can be read. -/
def texts (fs : FileSystem) : List String :=
  fs.nodes.filterMap fun n => match n.2 with
    | .directory => none
    | .file bytes => (decode bytes).toOption

/-- The longest part of a path, from its front on, that is there, and the names after it. -/
def splitExisting (fs : FileSystem) (p : AbsolutePath) : AbsolutePath × List String :=
  let lengths := (List.range (p.names.length + 1)).reverse
  let n := (lengths.find? fun n => fs.has ⟨p.names.take n⟩).getD 0
  (⟨p.names.take n⟩, p.names.drop n)

/-- The path with the part that is there made canonical. -/
def settle (fs : FileSystem) (p : AbsolutePath) : Except FileFault AbsolutePath := do
  let (existing, missing) := fs.splitExisting p
  return ⟨(← fs.canonicalize existing).names ++ missing⟩

/-- A text that can be read is among the texts. -/
theorem mem_texts_of_read {fs : FileSystem} {p : AbsolutePath} {text : String} (h : fs.read p = .ok text) :
    text ∈ fs.texts := by
  simp only [read, node, bind, Except.bind] at h
  split at h
  · cases h
  · next n hn =>
    split at hn
    · cases hn
    · next q _ =>
      split at hn
      · next found =>
        simp only [pure, Except.pure, Except.ok.injEq] at hn
        subst hn
        split at h
        · cases h
        · next bytes =>
          refine List.mem_filterMap.2 ⟨(q, .file bytes), ?_, by simp [h, Except.toOption]⟩
          obtain ⟨before, after, same, -⟩ := List.lookup_eq_some_iff.1 found
          simp [same]
      · cases hn

end FileSystem

end Stencil
