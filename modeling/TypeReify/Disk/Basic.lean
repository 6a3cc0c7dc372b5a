import TypeReify.Path.Basic

/-!
# Disks

A disk is a tree of directories, files and symbolic links. A path is looked up piece by piece from
the root: links are followed wherever they stand, `..` leads to the directory above the one reached
so far, and every piece asks that a directory has been reached, so nothing may follow the name of a
file, not even a slash. After `linkLimit` links a lookup gives up. A path that does not begin at the
root is taken from the current directory.

The place a lookup reaches is a list of names from the root, none of them a link.

Model of what a loader asks of a file system: `is_file` and `is_dir` of a path, `canonicalize`, and
the reading of a whole file.

Results:
* `follow_nil`: the empty rest of a path stays where it is.

Out of scope: permissions, errors of devices, and changes while a program runs. Names are texts, so
a name that is no text cannot be written down.
-/

namespace TypeReify

/-- What stands somewhere on a disk. -/
inductive FileTree
  | file (content : ByteArray)
  | link (target : String)
  | directory (entries : List (String × FileTree))

/-- A file system tree, as it is seen from a directory. -/
structure Disk where
  tree : FileTree
  /-- The absolute path of the current directory; there is none if it is empty. -/
  current : String

/-- Names from the root. -/
abbrev Disk.Place := List String

/-- How many links one lookup follows. -/
def Disk.linkLimit : Nat := 40

namespace FileTree

open Disk (Place)

def child? : FileTree → String → Option FileTree
  | .directory entries, name => entries.lookup name
  | _, _ => none

/-- What stands at a place, links not followed. -/
def at? : FileTree → Place → Option FileTree
  | d, [] => some d
  | d, name :: place =>
    match d.child? name with
    | some below => below.at? place
    | none => none

/-- How far pieces of a path lead without following a link. -/
inductive Stop
  | reached (place : Place)
  /-- A link in a directory, and the pieces behind it. -/
  | link (base : Place) (target : String) (rest : List String)
  | missing

def descend (d : FileTree) (place : Place) : List String → Stop
  | [] => .reached place
  | piece :: rest =>
    match d.at? place with
    | some (.directory entries) =>
      if piece = "" ∨ piece = "." then descend d place rest
      else if piece = ".." then descend d place.dropLast rest
      else
        match entries.lookup piece with
        | some (.link target) => .link place target rest
        | some _ => descend d (place ++ [piece]) rest
        | none => .missing
    | _ => .missing

/-- The place that pieces of a path lead to, through at most `links` links. -/
def follow (d : FileTree) : (links : Nat) → Place → List String → Option Place
  | links, place, pieces =>
    match d.descend place pieces, links with
    | .reached place, _ => some place
    | .missing, _ => none
    | .link .., 0 => none
    | .link base target rest, links + 1 =>
      follow d links (if Path.isAbsolute target then [] else base) (Path.pieces target ++ rest)

theorem follow_nil (d : FileTree) (links : Nat) (place : Place) :
    d.follow links place [] = some place := by
  cases links <;> simp [follow, descend]

end FileTree

namespace Disk

/-- An empty root, seen from nowhere. -/
def empty : Disk := ⟨.directory [], ""⟩

/-- The place a path leads to. The empty path leads nowhere. -/
def find? (d : Disk) (p : String) : Option Place :=
  let full := Path.join d.current p
  if p ≠ "" ∧ Path.isAbsolute full then d.tree.follow linkLimit [] (Path.pieces full) else none

/-- What a path leads to. -/
def open? (d : Disk) (p : String) : Option FileTree := (d.find? p).bind d.tree.at?

def isFile (d : Disk) (p : String) : Bool :=
  match d.open? p with
  | some (.file _) => true
  | _ => false

def isDirectory (d : Disk) (p : String) : Bool :=
  match d.open? p with
  | some (.directory _) => true
  | _ => false

/-- A place as an absolute path. -/
def pathOf (place : Place) : String := "/" ++ "/".intercalate place

/-- The path without links, dots and climbs to what `p` leads to. -/
def canonical? (d : Disk) (p : String) : Option String :=
  (d.open? p).bind fun _ => (d.find? p).map pathOf

/-- The text of a file; there is none if its bytes are no text. -/
def readText? (d : Disk) (p : String) : Option String :=
  match d.open? p with
  | some (.file content) => String.fromUTF8? content
  | _ => none

end Disk

end TypeReify
