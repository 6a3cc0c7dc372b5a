import TypeReify.Check.Walk
import TypeReify.Oracle
import TypeReify.Types.Render

/-!
# Checked programs

A program is what is known about a set of files once all of them are checked. It holds no tree, so
the trees may be rewritten while it is asked.

Model of `Program`: `with_options`, and the answers that it gives as a `TypeOracle`
(`resolved_signature`, `type_from_type_node`, `properties_of_type`, `type_of_symbol_at_location`,
`type_to_string`, `declaration`).

Results:
* `propertyType_of_required`: a property that is not optional has the type it is declared with.
-/

namespace TypeReify

open Check
open TypeReify.Types
open Syntax (SourceFile NodeId)

structure CheckOptions where
  /-- Optional properties read as their type or `undefined`. -/
  strictNullChecks : Bool
  deriving DecidableEq, Repr

def CheckOptions.default : CheckOptions := ⟨false⟩

/-- What is left when all files are checked. -/
structure Program where
  options : CheckOptions
  state : Check.State
  /-- The facts of every file under its normal name, in order. -/
  files : List (String × Facts)

namespace Program

/-- Checks the files one after the other. -/
def checkFiles (strict : Bool) (sources : Sources) :
    List Module → Checking (List (String × Facts)) :=
  factsOf (fileFacts strict sources)

/-- `with_options`: checks the files in order. -/
def ofFiles (options : CheckOptions) (files : List SourceFile) : Program :=
  let sources := Sources.ofFiles files
  let (files, state) := checkFiles options.strictNullChecks sources sources.modules .empty
  { options, state, files }

def fileNames (p : Program) : List String := p.files.map (·.1)

def interner (p : Program) : Interner := p.state.interner

def declarations (p : Program) : List Declaration := p.state.sites.toList.map (·.declaration)

/-- What an alias stands for. -/
def aliasTarget? (p : Program) (id : TypeId) : Option TypeId := p.state.named.target? id

def facts? (p : Program) (fileName : String) : Option Facts :=
  p.files.lookup (Modules.Lookup.key fileName)

/-- `resolved_signature`. -/
def signature? (p : Program) (fileName : String) (node : NodeId) : Option Signature := do
  (← p.facts? fileName).signatures[node]?

/-- `type_from_type_node`. -/
def typeAt? (p : Program) (fileName : String) (node : NodeId) : Option TypeId := do
  (← p.facts? fileName).types[node]?

/-- All declarations of a property share one type; in strict checking an optional property reads
as that type or `undefined`. -/
def propertyType (p : Program) (property : Property) (_ : DeclId) : TypeId :=
  if property.optional && p.options.strictNullChecks then
    p.state.widened[property.type]?.getD property.type
  else property.type

/-- A program answers what a rewrite asks. -/
def oracle (p : Program) : Oracle where
  signature? := p.signature?
  typeAt? := p.typeAt?
  typeAtNone? _ := none
  properties := p.state.propertiesOf
  propertyType := p.propertyType
  typeText := p.interner.typeText renderDepth
  declaration? d := p.state.sites[d]?.map (·.declaration)

theorem propertyType_of_required (p : Program) {property : Property}
    (h : property.optional = false) (d : DeclId) : p.propertyType property d = property.type := by
  simp [propertyType, h]

end Program

end TypeReify
