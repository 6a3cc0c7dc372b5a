import TypeReify.Modules.Lookup
import TypeReify.Scope.Bind

/-!
# The files of a program

Files are kept under their normal names. Of two files with one name the later counts, in the place
of the first. Each file is bound against the others, so an import names another file or nothing.

An imported name is followed from export to import and on, at most `importHops` times, to the
declaration behind it.

Model of `sources`, `file_order` and `file_scopes` as `CheckerState::new` fills them, and of the
steps from import to export that `instantiate_symbol` (`followType`) and `signature_for_value`
(`followValue`) make, `MAX_IMPORT_HOPS` at most.

Results:
* `followValue_of_declared`: what is no import is the end of the chain.
-/

namespace TypeReify.Check

open Syntax Scope

/-- How many imports a name is followed through. -/
def importHops : Nat := 8

/-- A file of the program. -/
structure Module where
  key : String
  file : SourceFile
  names : FileNames

/-- The files of a program in order. -/
structure Sources where
  modules : List Module

/-- Enters a file under its name, in place of one that has the name already. -/
def enter (files : List (String × SourceFile)) (file : SourceFile) : List (String × SourceFile) :=
  let key := Modules.Lookup.key file.fileName
  if files.any (·.1 == key) then files.map fun f => if f.1 == key then (key, file) else f
  else files ++ [(key, file)]

namespace Sources

/-- The files of a program, each bound against the others. -/
def ofFiles (files : List SourceFile) : Sources where
  modules :=
    let keyed := files.foldl enter []
    let isFile (name : String) := keyed.any (·.1 == name)
    keyed.map fun (key, file) =>
      let resolve specifier := Modules.Lookup.resolve isFile specifier key
      { key, file, names := bindFile file.arena resolve file.statements }

/-- The file of a key. -/
def find? (s : Sources) (key : String) : Option Module := s.modules.find? (·.key == key)

/-- `instantiate_symbol`, as far as it follows imports: the declaration behind a type name of a
module, and the name that it is declared under. -/
def followType (s : Sources) : (hops : Nat) → Module → String → TypeName →
    Option (Module × String × TypeName)
  | 0, _, _, .imported .. => none
  | hops + 1, _, _, .imported module name => do
    let target ← s.find? (← module)
    s.followType hops target name (← target.names.exported.types[name]?)
  | _, m, name, symbol => some (m, name, symbol)

/-- The declaration behind a value of a module. -/
def followValue (s : Sources) : (hops : Nat) → Module → Value → Option (Module × Value)
  | 0, _, .imported .. => none
  | hops + 1, _, .imported module name => do
    let target ← s.find? (← module)
    s.followValue hops target (← target.names.exported.values[name]?)
  | _, m, value => some (m, value)

/-- The export `name` of a module of the program. -/
def exportedValue? (s : Sources) (module : Option String) (name : String) :
    Option (Module × Value) := do
  let target ← s.find? (← module)
  return (target, ← target.names.exported.values[name]?)

theorem followValue_of_declared (s : Sources) (hops : Nat) (m : Module) (first : NodeId)
    (overloads : List NodeId) :
    s.followValue hops m (.function first overloads) = some (m, .function first overloads) := by
  cases hops <;> rfl

end Sources

end TypeReify.Check
