import Stencil.Files.FileSystem

/-!
# File trees with links

A tree of directories, files and symbolic links. Links are followed wherever they stand in a path, a bounded number of
times; the target of a link counts from the directory of the link, or from the root.
-/

namespace Stencil

/-- What stands at a place of a tree. -/
inductive TreeEntry where
  | directory
  | file (bytes : ByteArray)
  | link (target : String)
  deriving DecidableEq

/-- Places, named from the root, and what stands there. The root is a directory. -/
structure FileTree where
  entries : List (List String × TreeEntry)

namespace FileTree

def empty : FileTree := ⟨[]⟩

def entry? (t : FileTree) (place : List String) : Option TreeEntry :=
  if place = [] then some .directory else t.entries.lookup place

/-- How many links are followed on the way to one place. -/
def maxLinks : Nat := 40

/-- How many bytes a name may have. -/
def maxNameBytes : Nat := 255

/-- The place that names lead to from a directory. With `create` the last name need not be there. -/
def follow (t : FileTree) (create : Bool) (links : Nat) (place : List String) (names : List String) :
    Except FileFault (List String) :=
  match names with
  | [] => .ok place
  | name :: rest =>
    if t.entry? place ≠ some .directory then .error .notADirectory
    else if name = "." then t.follow create links place rest
    else if name = ".." then t.follow create links place.dropLast rest
    else if maxNameBytes < name.utf8ByteSize then .error .nameTooLong
    else
      match t.entry? (place ++ [name]) with
      | none => if create ∧ rest = [] then .ok (place ++ [name]) else .error .notFound
      | some (.link target) =>
        match links with
        | 0 => .error .tooManyLinks
        | links + 1 =>
          t.follow create links (if target.toList.head? = some '/' then [] else place)
            (AbsolutePath.namesOf target ++ rest)
      | some _ => t.follow create links (place ++ [name]) rest
termination_by (links, names.length)

/-- The file system of a tree. -/
def toFileSystem (t : FileTree) : FileSystem where
  nodes := (⟨[]⟩, .directory) :: t.entries.filterMap fun (place, entry) =>
    match entry with
    | .directory => some (⟨place⟩, .directory)
    | .file bytes => some (⟨place⟩, .file bytes)
    | .link _ => none
  canonicalize p :=
    if p.hasNul then .error .nulInPath else (t.follow false maxLinks [] p.names).map AbsolutePath.mk

/-! ## Changes -/

/-- Sets what stands at a place. -/
def put (t : FileTree) (place : List String) (entry : TreeEntry) : FileTree :=
  ⟨(place, entry) :: t.entries.filter fun e => e.1 ≠ place⟩

/-- Removes what stands at a place and below it. -/
def erase (t : FileTree) (place : List String) : FileTree :=
  ⟨t.entries.filter fun e => !place.isPrefixOf e.1⟩

/-- Makes the directories that names lead to from a place, and gives the place they lead to. -/
def makeDirectories (t : FileTree) (place : List String) : List String → Except FileFault (FileTree × List String)
  | [] => .ok (t, place)
  | name :: rest => do
    let next ← t.follow true maxLinks place [name]
    let t := if (t.entry? next).isNone then t.put next .directory else t
    t.makeDirectories next rest

/-- Puts an entry under the last of some names, making the directories in front of it. -/
def write (t : FileTree) (names : List String) (entry : TreeEntry) : Except FileFault FileTree := do
  match names.getLast? with
  | none => return t
  | some name =>
    let (t, directory) ← t.makeDirectories [] names.dropLast
    match entry with
    | .file _ => return t.put (← t.follow true maxLinks directory [name]) entry
    | _ => return t.put (directory ++ [name]) entry

end FileTree

end Stencil
