import TypeReify.Syntax.Build

/-!
# Source files

One file: its name, its arena and the root of its tree. A pass that rebuilds the tree moves the
root; what the root was before stays readable in the arena.

Model of `SourceFile` (`new`, `from_statements`, `statements`, `is_declaration_file`).
-/

namespace TypeReify.Syntax

/-- A file is known by its name and by the root of its tree. -/
structure SourceFile where
  fileName : String
  arena : Arena
  root : Ref

namespace SourceFile

/-- The file whose tree hangs below `root`, named as the root says. -/
def ofRoot (arena : Arena) (root : Ref) : SourceFile where
  fileName :=
    match arena.content? root with
    | some (_, .sourceFile name _) => name
    | _ => ""
  arena := arena
  root := root

/-- Puts a root over the statements built so far. -/
def ofStatements (fileName : String) (arena : Arena) (statements : List Ref) : SourceFile :=
  let (root, arena) := Build.sourceFile fileName statements arena
  { fileName, arena, root := some root }

/-- Top-level statements; a root that is no source file has none. -/
def statements (f : SourceFile) : List Ref :=
  match f.arena.content? f.root with
  | some (_, .sourceFile _ statements) => statements
  | _ => []

/-- Files of ambient declarations only. -/
def isDeclarationFile (f : SourceFile) : Bool :=
  f.fileName.endsWith ".d.ts" || f.fileName.endsWith ".d.mts" || f.fileName.endsWith ".d.cts"

end SourceFile

end TypeReify.Syntax
