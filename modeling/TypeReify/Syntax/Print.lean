import TypeReify.Syntax.SourceFile
import TypeReify.Syntax.Walk
import TypeReify.Text.Quoted

/-!
# Trees as source text

`Arena.print levels indent r` writes the tree below `r`: four blanks an indentation, strings
between double quotes, one statement a line. Statements carry their own terminator, expressions and
types are written inline. A node that has no text of its own (an import clause by itself, an unknown
kind) is written as nothing.

Each clause of `nodeText` writes one node and leaves the nodes beneath to `inner`, which is told how
far they are indented.

Model of `Printer` and `print_source_file`: `emit_node_kind` is `nodeText`, and beside it are
`emit_statement`, `emit_statement_body`, `emit_block`, `emit_variable_declaration`, `emit_import`,
`emit_import_specifier`, `emit_type_annotation` and `emit_bracketed`.

Results:
* `print_none`: an empty slot is written as nothing.
* `print_token`: a keyword or operator is written as itself.

Out of scope: the buffer of the printer and its count of indentation, which are here the text that
is answered and an argument.
-/

namespace TypeReify.Syntax

/-- The blanks in front of a line. -/
def indentation (indent : Nat) : String := String.join (List.replicate indent "    ")

namespace Arena

section

variable (a : Arena) (inner : (indent : Nat) → Ref → String) (indent : Nat)

def identifierText (r : Ref) : String := (a.identifierText? r).getD ""

/-- A literal: strings between quotes, numbers as they are spelled. -/
def literalText (h : Header) (text : String) : String :=
  if h.kind = .token .stringLiteral then Text.Quoted.literal text else text

/-- The name of a property or member. -/
def propertyName (r : Ref) : String :=
  match a.content? r with
  | some (_, .identifier text) => text
  | some (h, .literal text) => literalText h text
  | _ => ""

def commaList (rs : List Ref) : String := ", ".intercalate (rs.map (inner indent))

/-- Type parameters or arguments between angle brackets. -/
def typeList (rs : Option (List Ref)) : String :=
  match rs with
  | some rs => "<" ++ commaList inner indent rs ++ ">"
  | none => ""

def parameterList (rs : List Ref) : String := "(" ++ commaList inner indent rs ++ ")"

/-- A slot with the text that goes before it, or nothing where it is empty. -/
def slot (before : String) (r : Ref) : String :=
  match r with
  | some _ => before ++ inner indent r
  | none => ""

def typeAscription (r : Ref) : String := slot inner indent ": " r

def flagText (h : Header) (f : Flags) (text : String) : String := if h.has f then text else ""

/-- `export` and `declare` before a declaration. -/
def modifiers (h : Header) : String :=
  flagText h .exported "export " ++ flagText h .ambient "declare "

/-- Each node on a line of its own, one step further in. -/
def lines (terminator : String) (rs : List Ref) : String :=
  String.join <| rs.map fun r =>
    indentation (indent + 1) ++ inner (indent + 1) r ++ terminator ++ "\n"

/-- Elements on lines of their own, with commas between them. -/
def elementLines : List Ref → String
  | [] => ""
  | [r] => indentation (indent + 1) ++ inner (indent + 1) r ++ "\n"
  | r :: rs => indentation (indent + 1) ++ inner (indent + 1) r ++ ",\n" ++ elementLines rs

/-- Elements between brackets, on one line or on several. -/
def bracketed (left right padding : String) (h : Header) (items : List Ref) : String :=
  if items.isEmpty then left ++ right
  else if h.has .multiLine then
    left ++ "\n" ++ elementLines inner indent items ++ indentation indent ++ right
  else left ++ padding ++ commaList inner indent items ++ padding ++ right

/-- A block; anything else is written as nothing where a block is due. -/
def blockText (r : Ref) : String :=
  match a.content? r with
  | some (_, .block _) => inner indent r
  | _ => ""

/-- The body of an arrow function: a block, or an expression without its statement. -/
def arrowBody (r : Ref) : String :=
  match a.content? r with
  | some (_, .expressionStatement e) => inner indent e
  | _ => inner indent r

/-- `emit_variable_declaration`. -/
def declarationText (r : Ref) : String :=
  match a.content? r with
  | some (_, .variableDeclaration name ascription value) =>
    a.identifierText name ++ typeAscription inner indent ascription ++ slot inner indent " = " value
  | _ => ""

def declarationKeyword (h : Header) : String :=
  if h.has .constant then "const " else if h.has .letBound then "let " else "var "

/-- One name of an import list. -/
def specifierText (r : Ref) : String :=
  match a.content? r with
  | some (_, .importSpecifier source name) =>
    (if source.isSome then a.identifierText source ++ " as " else "") ++ a.identifierText name
  | _ => ""

def bindingsText (h : Header) (name : Ref) (items : List Ref) : String :=
  if h.kind = .form .namespaceImport then "* as " ++ a.identifierText name
  else if items.isEmpty then "\x7b\x7d"
  else "\x7b " ++ ", ".intercalate (items.map a.specifierText) ++ " \x7d"

/-- What an import binds, up to the word `from`. -/
def clauseText (r : Ref) : String :=
  match a.content? r with
  | some (_, .importClause name bindings) =>
    let bound :=
      match a.content? bindings with
      | some (h, .importBindings name items) => some (a.bindingsText h name items)
      | _ => none
    let parts := (if name.isSome then [a.identifierText name] else []) ++ bound.toList
    ", ".intercalate parts ++ " from "
  | _ => ""

/-- The key of a mapped type. -/
def mappedKey (r : Ref) : String :=
  match a.content? r with
  | some (_, .typeParameter name bound _) => a.identifierText name ++ " in " ++ inner indent bound
  | _ => ""

/-- Unions and functions are put in parentheses before the brackets of an array. -/
def elementText (r : Ref) : String :=
  match a.kind? r with
  | some (.form .unionType) | some (.form .functionType) => "(" ++ inner indent r ++ ")"
  | _ => inner indent r

/-- `emit_node_kind`: the text of one node. -/
def nodeText (h : Header) : Payload Ref → String
  | .identifier text => text
  | .literal text => literalText h text
  | .call callee types arguments =>
    inner indent callee ++ typeList inner indent types ++ parameterList inner indent arguments
  | .access object name => inner indent object ++ "." ++ a.identifierText name
  | .elements items =>
    if h.kind = .form .objectLiteral then bracketed inner indent "\x7b" "\x7d" " " h items
    else bracketed inner indent "[" "]" "" h items
  | .assignment name value =>
    if h.kind = .form .shorthandAssignment then a.identifierText name
    else a.propertyName name ++ ": " ++ inner indent value
  | .parenthesized e => "(" ++ inner indent e ++ ")"
  | .binary left operator right =>
    inner indent left ++ " " ++ operator.text?.getD "?" ++ " " ++ inner indent right
  | .function name types parameters result body =>
    if h.kind = .form .arrowFunction then
      parameterList inner indent parameters ++ typeAscription inner indent result ++ " => " ++
        a.arrowBody inner indent body
    else
      modifiers h ++ "function " ++ a.identifierText name ++ typeList inner indent types ++
        parameterList inner indent parameters ++ typeAscription inner indent result ++
        (if body.isSome then " " ++ a.blockText inner indent body else ";")
  | .parameter name ascription value =>
    a.identifierText name ++ flagText h .optional "?" ++ typeAscription inner indent ascription ++
      slot inner indent " = " value
  | .typeParameter name bound fallback =>
    a.identifierText name ++ slot inner indent " extends " bound ++ slot inner indent " = " fallback
  | .block statements =>
    if statements.isEmpty then "\x7b\x7d"
    else "\x7b\n" ++ lines inner indent "" statements ++ indentation indent ++ "\x7d"
  | .expressionStatement e =>
    if h.kind = .form .returnStatement then "return" ++ slot inner indent " " e ++ ";"
    else inner indent e ++ ";"
  | .ifStatement condition yes no =>
    "if (" ++ inner indent condition ++ ") " ++ inner indent yes ++ slot inner indent " else " no
  | .variableStatement declarations =>
    modifiers h ++ declarationKeyword h ++
      ", ".intercalate (declarations.map (a.declarationText inner indent)) ++ ";"
  | .variableDeclaration .. | .importClause .. | .importBindings .. | .importSpecifier .. => ""
  | .importDeclaration clause specifier =>
    "import " ++ flagText h .typeOnly "type " ++ a.clauseText clause ++ inner indent specifier ++
      ";"
  | .typeReference name arguments => a.identifierText name ++ typeList inner indent arguments
  | .union members => " | ".intercalate (members.map (inner indent))
  | .arrayType element => a.elementText inner indent element ++ "[]"
  | .literalType literal => inner indent literal
  | .typeLiteral members =>
    if members.isEmpty then "\x7b\x7d"
    else "\x7b " ++ String.join (members.map (inner indent · ++ "; ")) ++ "\x7d"
  | .signature name types parameters ascription =>
    flagText h .readonly "readonly " ++ a.propertyName name ++ flagText h .optional "?" ++
      (match parameters with
      | some ps => typeList inner indent types ++ parameterList inner indent ps
      | none => "") ++
      typeAscription inner indent ascription
  | .indexSignature parameters ascription =>
    "[" ++ commaList inner indent parameters ++ "]" ++ typeAscription inner indent ascription
  | .mappedType key template =>
    "\x7b [" ++ a.mappedKey inner indent key ++ "]" ++ typeAscription inner indent template ++
      "; \x7d"
  | .functionType types parameters result =>
    typeList inner indent types ++ parameterList inner indent parameters ++ " => " ++
      inner indent result
  | .interface name types heritage members =>
    modifiers h ++ "interface " ++ a.identifierText name ++ typeList inner indent types ++
      (match heritage with
      | some bases => " extends " ++ commaList inner indent bases
      | none => "") ++
      " \x7b\n" ++ lines inner indent ";" members ++ indentation indent ++ "\x7d"
  | .typeAlias name types body =>
    modifiers h ++ "type " ++ a.identifierText name ++ typeList inner indent types ++ " = " ++
      inner indent body ++ ";"
  | .sourceFile _ statements =>
    String.join (statements.map fun r => indentation indent ++ inner indent r ++ "\n")

/-- The text of a node without payload. A declaration still shows its modifiers. -/
def bareText (h : Header) : String :=
  match h.kind with
  | .token t => t.text?.getD ""
  | .form .variableStatement | .form .functionDeclaration | .form .interfaceDeclaration
  | .form .typeAliasDeclaration => modifiers h
  | .form _ | .unassigned _ => ""

end

def print (a : Arena) : (levels indent : Nat) → Ref → String
  | 0, _, _ => ""
  | levels + 1, indent, r =>
    match a.header? r with
    | none => ""
    | some h =>
      match a.payload? h with
      | some p => a.nodeText (a.print levels) indent h p
      | none => bareText h

/-- The text of the tree below a node. -/
def textOf (a : Arena) (r : Ref) : String := a.print a.levels 0 r

theorem print_none (a : Arena) (levels indent : Nat) : a.print levels indent none = "" := by
  cases levels <;> rfl

theorem print_token {a : Arena} {r : Ref} {h : Header} {t : Token} (hr : a.header? r = some h)
    (hk : h.kind = .token t) (hp : a.payload? h = none) (levels indent : Nat) :
    a.print (levels + 1) indent r = t.text?.getD "" := by
  simp [print, hr, hp, hk, bareText]

end Arena

/-- The text of a file. -/
def SourceFile.text (f : SourceFile) : String := f.arena.textOf f.root

end TypeReify.Syntax
