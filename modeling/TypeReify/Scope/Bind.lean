import TypeReify.Scope.Basic
import TypeReify.Syntax.SourceFile

/-!
# Binding names

The scopes that a file, a block and a parameter list declare. A file binds its imports and its
top-level declarations, and lists apart what it exports. Import specifiers are turned into modules
of the program by `resolve`, in the order of the imports.

Model of `bind_file`, `bind_block`, `bind_parameters`, `bind_declaration`, `bind_import` and
`bind_import_alias`.
-/

namespace TypeReify.Scope

open Syntax

/-- The names of a file, and those of them that other files may import. -/
structure FileNames where
  locals : Names
  exported : Names

/-- The declarations of one variable statement. -/
def bindVariables (a : Arena) (declarations : List Ref) (s : Names) : Names :=
  declarations.foldl (fun s r =>
    match r, a.content? r with
    | some node, some (_, .variableDeclaration name _ _) =>
      match a.identifierText? name with
      | some text => s.addValue text (.variableDeclaration node)
      | none => s
    | _, _ => s) s

/-- What one statement declares. Only function declarations name a function: the name of an arrow
function, if it had one, would bind nothing. -/
def bindStatement (a : Arena) (s : Names) (statement : Ref) : Names :=
  match statement, a.content? statement with
  | some node, some (h, .function name _ _ _ _) =>
    match h.kind, a.identifierText? name with
    | .form .functionDeclaration, some text => s.addValue text (.function node [])
    | _, _ => s
  | some _, some (_, .variableStatement declarations) => bindVariables a declarations s
  | some node, some (_, .interface name _ _ _) =>
    match a.identifierText? name with
    | some text => s.addType text (.interface node [])
    | none => s
  | some node, some (_, .typeAlias name _ _) =>
    match a.identifierText? name with
    | some text => s.addType text (.typeAlias node)
    | none => s
  | _, _ => s

/-- The declarations of a block. -/
def bindBlock (a : Arena) (statements : List Ref) : Names :=
  statements.foldl (bindStatement a) .empty

/-- `bind_parameters`: all parameters of a function, none of which hides another. -/
def bindParameters (a : Arena) (parameters : List Ref) : Names :=
  parameters.foldl (fun s r =>
    match r, a.content? r with
    | some node, some (_, .parameter name _ _) =>
      match a.identifierText? name with
      | some text => s.addValue text (.parameter node)
      | none => s
    | _, _ => s) .empty

/-! ## Imports -/

/-- The specifier of an import declaration. -/
def specifier? (a : Arena) (r : Ref) : Option String :=
  match a.content? r with
  | some (_, .importDeclaration _ specifier) => a.literalText? specifier
  | _ => none

/-- One element of an import list, bound under its own name or renamed. -/
def bindSpecifier (a : Arena) (module : Option String) (s : Names) (r : Ref) : Names :=
  match a.content? r with
  | some (_, .importSpecifier source name) =>
    match a.identifierText? name with
    | some text => s.addImport module text ((a.identifierText? source).getD text)
    | none => s
  | _ => s

/-- `* as name`, or the elements of a list. -/
def bindBindings (a : Arena) (module : Option String) (s : Names) (r : Ref) : Names :=
  match a.content? r with
  | some (h, .importBindings name items) =>
    if h.kind = .form .namespaceImport then
      match a.identifierText? name with
      | some text => s.addValue text (.namespaceImport module)
      | none => s
    else items.foldl (bindSpecifier a module) s
  | _ => s

/-- What an import clause binds to the exports of `module`. -/
def bindClause (a : Arena) (module : Option String) (s : Names) (r : Ref) : Names :=
  match a.content? r with
  | some (_, .importClause name bindings) =>
    let s :=
      match a.identifierText? name with
      | some text => s.addImport module text "default"
      | none => s
    bindBindings a module s bindings
  | _ => s

/-- An import declaration, its specifier resolved; without specifier it binds nothing. -/
def bindImport (a : Arena) (resolve : String → Option String) (s : Names) (r : Ref) : Names :=
  match a.content? r, specifier? a r with
  | some (_, .importDeclaration clause _), some specifier =>
    bindClause a (resolve specifier) s clause
  | _, _ => s

/-! ## Files -/

def isImport (a : Arena) (r : Ref) : Bool := a.kind? r == some (.form .importDeclaration)

def isExported (a : Arena) (r : Ref) : Bool := (a.header? r).any (·.has .exported)

/-- The names of a file by its top-level statements. -/
def bindFile (a : Arena) (resolve : String → Option String) (statements : List Ref) :
    FileNames where
  locals := statements.foldl (fun s r =>
    if isImport a r then bindImport a resolve s r else bindStatement a s r) .empty
  exported :=
    (statements.filter fun r => isExported a r && !isImport a r).foldl (bindStatement a) .empty

/-- The specifiers a file asks for, in order. -/
def specifiers (a : Arena) (statements : List Ref) : List String :=
  statements.filterMap (specifier? a)

end TypeReify.Scope
