import TypeReify.Marker.Reified
import TypeReify.Scope.Bind
import TypeReify.Syntax.Walk

/-!
# Reifying the types of a program

A reifier erases every import of the markers and puts a literal in the place of every call of a
marker. An import is one of the markers if its specifier loads their implementation, whatever it
imports and however that is named. The checks run in a fixed order: imports, `keys`, `typeMembers`.

Model of `NodeRewriter` (`rewrite`, `is_marker_import`, `first_type_argument`) and of
`transform_source_file` (`transform`).

Results:
* `rewrite_of_import`: an import of the markers is erased.
* `rewrite_of_call`: a marker call is replaced by the literal of its value.
-/

namespace TypeReify

open Modules (LoaderOptions)
open Syntax

/-- What a `NodeRewriter` is given: an oracle, a disk, and where the markers are. -/
structure Reifier where
  oracle : Oracle
  disk : Disk
  /-- Canonical paths. -/
  marker : MarkerModule
  loader : LoaderOptions

namespace Reifier

/-- The markers are looked for under canonical paths. -/
def ofSettings (oracle : Oracle) (disk : Disk) (settings : Settings) : Reifier :=
  ⟨oracle, disk, settings.marker.canonical disk, settings.loader⟩

/-- The node imports the markers. -/
def importsMarkers (r : Reifier) (a : Arena) (fileName : String) (n : Ref) : Bool :=
  match Scope.specifier? a n with
  | none => false
  | some specifier =>
    match Modules.Loader.resolveImport r.disk r.loader specifier fileName with
    | .ok path => Path.same path r.marker.implementation
    | .error _ => false

/-- The marker that a call calls. -/
def markerOf? (r : Reifier) (a : Arena) (fileName : String) (n : Ref) : Option Marker :=
  Marker.all.find? fun m => m.isCall r.oracle r.disk r.marker.declaration a fileName n

/-- The first type argument of a call. -/
def typeArgument? (a : Arena) (n : Ref) : Option Ref :=
  match a.content? n with
  | some (_, .call _ types _) => types.bind (·.head?)
  | _ => none

/-- What becomes of a node of the file `fileName`. -/
def rewrite (r : Reifier) (fileName : String) (n : Ref) : Build Rewrite := do
  let a ← get
  if r.importsMarkers a fileName n then
    return .erase
  else
    match r.markerOf? a fileName n with
    | some m =>
      let value := m.value r.oracle fileName (typeArgument? a n)
      return .replace (some (← value.build))
    | none => return .keep

/-- The file with its types reified. -/
def transform (r : Reifier) (f : SourceFile) : SourceFile :=
  let (root, arena) := walkRoot (m := Build) (r.rewrite f.fileName) f.arena.levels f.root f.arena
  { f with arena, root }

theorem rewrite_of_import {r : Reifier} {a : Arena} {fileName : String} {n : Ref}
    (h : r.importsMarkers a fileName n = true) : r.rewrite fileName n a = (.erase, a) := by
  simp only [rewrite, get, getThe, MonadStateOf.get, StateT.get, bind, StateT.bind,
    pure, h, if_true]
  rfl

theorem rewrite_of_call {r : Reifier} {a : Arena} {fileName : String} {n : Ref} {m : Marker}
    (hi : r.importsMarkers a fileName n = false) (hm : r.markerOf? a fileName n = some m) :
    r.rewrite fileName n a =
      let out := (m.value r.oracle fileName (typeArgument? a n)).build a
      (.replace (some out.1), out.2) := by
  simp only [rewrite, get, getThe, MonadStateOf.get, StateT.get, bind, StateT.bind, pure, hi, hm,
    Bool.false_eq_true, if_false]
  rfl

end Reifier

end TypeReify
