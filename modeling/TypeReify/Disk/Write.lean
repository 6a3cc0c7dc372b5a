import TypeReify.Disk.Basic

/-!
# Writing to a disk

Files, directories and links are created at absolute paths, missing directories on the way
included. What stands in the way is kept: a directory is not made in place of a file or a link, nor
a file in place of a directory, nor a link in place of anything.

Writing to a link writes what it points at. If that is again a link the write goes on to its end,
where the file need not exist yet (`landing?`).

These are the operations by which a file system is set up for a run. The program itself only reads.
-/

namespace TypeReify

namespace FileTree

open Disk (Place linkLimit)

/-- The entries with one name set. -/
def setEntry (name : String) (new : FileTree) : List (String × FileTree) → List (String × FileTree)
  | [] => [(name, new)]
  | e :: es => if e.1 == name then (name, new) :: es else e :: setEntry name new es

/-- Puts something at a place, in directories made as needed. -/
def put : FileTree → Place → FileTree → FileTree
  | _, [], new => new
  | .directory entries, name :: place, new =>
    .directory (setEntry name (put ((entries.lookup name).getD (.directory [])) place new) entries)
  | d, _ :: _, _ => d

/-- Puts something at a place where nothing stands. -/
def putNew (d : FileTree) (place : Place) (new : FileTree) : FileTree :=
  if (d.at? place).isSome then d else d.put place new

/-- The directory that pieces of a path lead to, made as needed. -/
def makeDirectories : FileTree → Place → List String → FileTree × Place
  | d, place, [] => (d, place)
  | d, place, piece :: rest =>
    if piece = "" ∨ piece = "." then makeDirectories d place rest
    else if piece = ".." then makeDirectories d place.dropLast rest
    else
      match d.follow linkLimit place [piece] with
      | some next => makeDirectories d next rest
      | none =>
        makeDirectories (d.putNew (place ++ [piece]) (.directory [])) (place ++ [piece]) rest

/-- The directory at an absolute path, made as needed. -/
def ensureDirectory (d : FileTree) (p : String) : FileTree × Place :=
  d.makeDirectories [] (Path.pieces p)

/-- Where a write to a path lands, the path taken from the directory `base` unless it is absolute.
Only the last name may be missing, and fewer than `links` links may follow each other there. -/
def landing? (d : FileTree) : (links : Nat) → (base : Place) → (p : String) → Option Place
  | 0, _, _ => none
  | links + 1, base, p => do
    let start := if Path.isAbsolute p then [] else base
    let above ← d.follow linkLimit start (Path.pieces (Path.directory p))
    let name ← Path.fileName? p
    match (d.at? above).bind (·.child? name) with
    | some (.link target) => d.landing? links above target
    | _ => some (above ++ [name])

end FileTree

namespace Disk

/-- Creates a file, or replaces its content. -/
def writeFile (d : Disk) (p : String) (content : ByteArray) : Disk :=
  let tree := (d.tree.ensureDirectory (Path.directory p)).1
  let written :=
    match tree.landing? (linkLimit + 1) [] p with
    | none => tree
    | some place =>
      match tree.at? place with
      | some (.directory _) => tree
      | _ => tree.put place (.file content)
  { d with tree := written }

def makeDirectory (d : Disk) (p : String) : Disk := { d with tree := (d.tree.ensureDirectory p).1 }

/-- Creates a link; the target is kept as it is spelled. -/
def makeLink (d : Disk) (p target : String) : Disk :=
  let (tree, base) := d.tree.ensureDirectory (Path.directory p)
  match Path.fileName? p with
  | some name => { d with tree := tree.putNew (base ++ [name]) (.link target) }
  | none => { d with tree }

end Disk

end TypeReify
