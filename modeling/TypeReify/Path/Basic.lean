/-!
# Paths

Slash-separated paths as texts. A path is read as a list of components: the root, a leading `.`,
climbs (`..`) and names. Repeated slashes and every other `.` mean nothing. All operations here are
lexical: none looks at a disk.

* `join` puts a path after another, an absolute one in its place.
* `parent?` drops the last component and keeps the text before it as it was spelled.
* `same` compares paths by their components.

These are the documented operations of the path type of the standard library, as far as the program
calls them, on systems where a slash separates.

Results:
* `components_root`: only an absolute path begins with the root.
* `join_of_isAbsolute`: joining an absolute path answers that path.

Out of scope: drive letters and other prefixes, and paths that are no texts.
-/

namespace TypeReify.Path

/-- The pieces of a text between slashes, empty ones included. -/
def splitSlash : List Char → List (List Char)
  | [] => [[]]
  | c :: cs =>
    if c = '/' then [] :: splitSlash cs
    else
      match splitSlash cs with
      | [] => [[c]]
      | piece :: pieces => (c :: piece) :: pieces

def pieces (p : String) : List String := (splitSlash p.toList).map String.ofList

def isAbsolute (p : String) : Bool := p.toList.head? == some '/'

/-- One step of a path. -/
inductive Component
  | root
  /-- A leading `.`. -/
  | here
  /-- The step `..`. -/
  | up
  | name (text : String)
  deriving DecidableEq, Repr

/-- A piece as a step; empty pieces and dots are none. -/
def component? (piece : String) : Option Component :=
  if piece = "" ∨ piece = "." then none
  else if piece = ".." then some .up
  else some (.name piece)

def components (p : String) : List Component :=
  let start :=
    if isAbsolute p then [.root]
    else if (pieces p).head? = some "." then [.here]
    else []
  start ++ (pieces p).filterMap component?

/-- Equal up to repeated slashes and dots that mean nothing. -/
def same (p q : String) : Bool := components p == components q

/-- The last component, if it is a name. -/
def fileName? (p : String) : Option String :=
  match (components p).getLast? with
  | some (.name text) => some text
  | _ => none

def join (base p : String) : String :=
  if isAbsolute p then p
  else if base = "" then p
  else if base.toList.getLast? = some '/' then base ++ p
  else base ++ "/" ++ p

/-- Pieces without the meaningless ones at the end. -/
def trimPieces (ps : List String) : List String :=
  (ps.reverse.dropWhile fun piece => piece = "" ∨ piece = ".").reverse

/-- The path without its last component, spelled as before; the root and the empty path have
none. -/
def parent? (p : String) : Option String :=
  match pieces p with
  | [] => none
  | first :: rest =>
    if isAbsolute p then
      match trimPieces rest with
      | [] => none
      | ps => some ("/" ++ "/".intercalate (trimPieces ps.dropLast))
    else if first = "." then
      match trimPieces rest with
      | [] => some ""
      | ps => some ("/".intercalate ("." :: trimPieces ps.dropLast))
    else
      match trimPieces (first :: rest) with
      | [] => none
      | ps => some ("/".intercalate (trimPieces ps.dropLast))

/-- The directory a file is in; the empty path where it names none. -/
def directory (p : String) : String := (parent? p).getD ""

/-- The path and what lies above it, at most `limit` paths in all. -/
def ancestors : (limit : Nat) → String → List String
  | 0, _ => []
  | limit + 1, p =>
    p :: match parent? p with
    | some q => ancestors limit q
    | none => []

theorem components_root (p : String) :
    (components p).head? = some .root ↔ isAbsolute p = true := by
  have hc : ∀ piece, component? piece ≠ some .root := by
    intro piece; unfold component?; repeat' split <;> simp
  have hf : ∀ ps : List String, (ps.filterMap component?).head? ≠ some .root := by
    intro ps h
    have hm := List.mem_of_mem_head? h
    obtain ⟨piece, -, hp⟩ := List.mem_filterMap.1 hm
    exact hc piece hp
  unfold components
  by_cases h : isAbsolute p = true
  · simp [h]
  · by_cases h' : (pieces p).head? = some "."
    · simp [h, h']
    · have := hf (pieces p)
      simp only [h, h', if_false, List.nil_append, Bool.false_eq_true, iff_false]
      exact this

theorem join_of_isAbsolute {p : String} (h : isAbsolute p = true) (base : String) :
    join base p = p := by
  simp [join, h]

end TypeReify.Path
