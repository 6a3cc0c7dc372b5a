import TypeReify.Marker.Basic
import TypeReify.Syntax.Build
import TypeReify.Text.Identifier

/-!
# What a marker call stands for

`Marker.value` reads the properties of the type argument off an oracle; `Reified.build` writes them
as a literal. Properties that are declared nowhere have a name but no type text, so only `keys`
lists them. A call without type argument stands for the empty literal.

Every node built is new and marked as synthesized.

Model of `lower_keys`, `lower_type_members` and `property_key`, with the helper `synthesized`. The
source reads and builds in one go; `value` and `build` are the two halves, and building needs no
oracle.
-/

namespace TypeReify

open Syntax
open TypeReify.Types

/-- The value of a marker call. -/
inductive Reified
  /-- Property names in order. -/
  | names (names : List String)
  /-- Property names with the text of their types. -/
  | members (members : List (String × String))
  deriving DecidableEq, Repr

namespace Marker

/-- `properties_of_type` of the type that a type argument denotes, if there is one. -/
def argumentProperties (o : Oracle) (fileName : String) (argument : Option Ref) : List Property :=
  let type :=
    match argument with
    | some (some node) => o.typeAt? fileName node
    | some none => o.typeAtNone? fileName
    | none => none
  (type.map o.properties).getD []

/-- A declared property with its type at the first declaration. -/
def member? (o : Oracle) (p : Property) : Option (String × String) :=
  p.declarations.head?.map fun d => (p.name, o.typeText (o.propertyType p d))

/-- What a call of the marker stands for: what `lower_keys` and `lower_type_members` read off the
oracle. -/
def value (m : Marker) (o : Oracle) (fileName : String) (argument : Option Ref) : Reified :=
  let properties := argumentProperties o fileName argument
  match m with
  | keys => .names (properties.map (·.name))
  | typeMembers => .members (properties.filterMap (member? o))

end Marker

namespace Reified

/-- Marks the node that is built. -/
def synthesized (act : Build NodeId) : Build NodeId := do
  let node ← act
  Build.addFlags node .synthesized
  return node

def text (s : String) : Build NodeId := synthesized (Build.stringLiteral s)

/-- `property_key`: a property name, quoted where it has to be. -/
def key (name : String) : Build NodeId :=
  if Text.isIdentifierText name then synthesized (Build.identifier name) else text name

/-- One property of an object literal. -/
def assignment (name type : String) : Build NodeId := do
  let key ← key name
  let value ← text type
  synthesized (Build.propertyAssignment key value)

/-- Writes the value as a literal: what `lower_keys` and `lower_type_members` build. -/
def build : Reified → Build NodeId
  | .names texts => do
    let items ← texts.mapM text
    synthesized (Build.arrayLiteral (items.map some))
  | .members pairs => do
    let items ← pairs.mapM fun p => assignment p.1 p.2
    synthesized (Build.objectLiteral (items.map some))

end Reified

end TypeReify
