import TypeReify.Path.Normal

/-!
# Import specifiers

A specifier names a module by a path, or it names a package. Paths begin at the importing file's
directory (`./x`, `../x`, `.`, `..`) or at the root.

Model of `is_relative_specifier`, which looks among the files of a program, and of
`is_path_specifier`, which looks on a disk.
-/

namespace TypeReify.Modules

/-- How many directories upwards a package is looked for. -/
def ancestorLimit : Nat := 128

namespace Specifier

/-- `is_relative_specifier`. -/
def isRelative (s : String) : Bool :=
  s == "." || s == ".." || s.startsWith "./" || s.startsWith "../"

/-- `is_path_specifier`. -/
def isPath (s : String) : Bool := isRelative s || Path.isAbsolute s

end Specifier

end TypeReify.Modules
