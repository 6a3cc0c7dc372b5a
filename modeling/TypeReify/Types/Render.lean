import TypeReify.Text.Identifier
import TypeReify.Text.Numeral
import TypeReify.Text.Quoted
import TypeReify.Types.Interner

/-!
# Types as text

`Interner.render levels id` writes a type in TypeScript syntax: keywords by name, object types as
`\x7b a: string; b?: number; \x7d`, named types by their name with their arguments. Functions are
put in parentheses where they stand in an array or a union, unions where they stand in an array.
Structure deeper than `levels` is written as three dots, and an id that stands for nothing as
`any`.

Model of `TypePrinter`: `print_type`, `write_type`, `write_literal`, `write_type_arguments`,
`write_object`, `write_function` and `write_params`, `MAX_TYPE_PRINT_DEPTH` levels deep.
-/

namespace TypeReify.Types

/-- How deep a type is written unless told otherwise. -/
def renderDepth : Nat := 16

/-- The name of a property as it stands in an object type. -/
def renderKey (name : String) : String :=
  if Text.isIdentifierText name || Text.isNumeral name then name else Text.Quoted.plain name

def Literal.render : Literal → String
  | .string text => Text.Quoted.plain text
  | .number text => text
  | .boolean value => if value then "true" else "false"

def parenthesize (needed : Bool) (s : String) : String := if needed then "(" ++ s ++ ")" else s

def commas (parts : List String) : String := ", ".intercalate parts

def optionalMark (optional : Bool) : String := if optional then "?" else ""

namespace Interner

def isFunction (t : Interner) (id : TypeId) : Bool :=
  match t.get? id with
  | some (.function _) => true
  | _ => false

def isUnion (t : Interner) (id : TypeId) : Bool :=
  match t.get? id with
  | some (.union _) => true
  | _ => false

section

variable (inner : TypeId → String)

def renderParameters (ps : List Parameter) : String :=
  let one (p : Parameter) := p.name ++ optionalMark p.optional ++ ": " ++ inner p.type
  "(" ++ commas (ps.map one) ++ ")"

/-- `write_function`, and the part of a method behind its name. -/
def renderFunction (f : FunctionShape) (arrow : String) : String :=
  renderParameters inner f.parameters ++ arrow ++ inner f.result

/-- A member; methods are written with their parameters where their type is a function. -/
def renderProperty (t : Interner) (p : Property) : String :=
  let head :=
    (if p.readonly then "readonly " else "") ++ renderKey p.name ++ optionalMark p.optional
  match t.get? p.type, p.method with
  | some (.function f), true => head ++ renderFunction inner f ": "
  | _, _ => head ++ ": " ++ inner p.type

def renderNamed (name : String) (arguments : List TypeId) : String :=
  if arguments.isEmpty then name else name ++ "<" ++ commas (arguments.map inner) ++ ">"

/-- One level of a type, its parts written by `inner`. -/
def renderStructure (t : Interner) : Structure → String
  | .intrinsic name => name
  | .literal value => value.render
  | .array element =>
    parenthesize (t.isUnion element || t.isFunction element) (inner element) ++ "[]"
  | .union members =>
    " | ".intercalate (members.map fun m => parenthesize (t.isFunction m) (inner m))
  | .object [] => "\x7b\x7d"
  | .object shape => "\x7b " ++ String.join (shape.map (renderProperty inner t · ++ "; ")) ++ "\x7d"
  | .function f => renderFunction inner f " => "
  | .interface name _ arguments => renderNamed inner name arguments
  | .synonym name _ arguments => renderNamed inner name arguments
  | .parameter name => name

end

/-- `write_type`, `levels` levels deep. -/
def render (t : Interner) : (levels : Nat) → TypeId → String
  | 0, _ => "..."
  | levels + 1, id =>
    match t.lookup id with
    | none => "any"
    | some s => renderStructure (t.render levels) t s

/-- The text of a type, structure nested deeper than `depth` left out. -/
def typeText (t : Interner) (depth : Nat) (id : TypeId) : String := t.render (depth + 1) id

end Interner

end TypeReify.Types
