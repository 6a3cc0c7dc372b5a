import TypeReify.Marker.Settings
import TypeReify.Oracle
import TypeReify.Syntax.SourceFile

/-!
# Marker functions

The two functions that a rewrite replaces by what the type argument says: `keys<T>()` by the names
of the properties of `T`, `typeMembers<T>()` by their names and types.

A call counts as a call of a marker only if its declaration stands in the file that declares the
markers. Neither the name at the call nor the way it was imported matters, and a function of the
same name elsewhere is left alone.

Model of `MarkerKind` with `ALL` and `function_name`, and of `is_marker_call` (`isCall`).

Results:
* `function_injective`: no two markers share a name.
-/

namespace TypeReify

open Syntax
open TypeReify.Types

inductive Marker
  /-- Property names. -/
  | keys
  /-- Property names and types. -/
  | typeMembers
  deriving DecidableEq, Repr

namespace Marker

/-- In the order they are tried. -/
def all : List Marker := [keys, typeMembers]

/-- The name the marker is declared under. -/
def function : Marker → String
  | keys => "keys"
  | typeMembers => "typeMembers"

/-- The declaration is the one of this marker, in the file at `path`. -/
def isDeclaredBy (disk : Disk) (path : String) (m : Marker) (d : Declaration) : Bool :=
  d.kind != .comment && d.name == some m.function &&
    match Modules.Loader.resolveFile disk d.fileName with
    | .ok canonical => Path.same canonical path
    | .error _ => false

/-- The declaration that the call at a node resolves to. -/
def callee? (o : Oracle) (a : Arena) (fileName : String) (r : Ref) : Option Declaration := do
  let node ← r
  guard (a.kind? r == some (.form .call))
  o.declaration? (← (← o.signature? fileName node).declaration)

/-- `is_marker_call`: the node is a call of this marker as it is declared in the file at `path`. -/
def isCall (o : Oracle) (disk : Disk) (path : String) (m : Marker) (a : Arena) (fileName : String)
    (r : Ref) : Bool :=
  (callee? o a fileName r).any (m.isDeclaredBy disk path)

theorem function_injective {m n : Marker} (h : m.function = n.function) : m = n := by
  cases m <;> cases n <;> first | rfl | exact absurd h (by decide)

end Marker

end TypeReify
