import TypeReify.Types.Declaration
import TypeReify.Types.Interner
import Std.Data.TreeMap

/-!
# What checking accumulates

The type table, the declarations met so far, what every named type has come to (the members of an
interface, the target of an alias), the widened types of optional properties, the named types that
are being worked out, and the warnings.

Model of the tables of `CheckerState`: `interner`, `declarations` with `decl_ids` (`sites`),
`interface_shapes` with `alias_targets` (`named`, one list since an id is in one of them at most),
`optional_types` (`widened`) and `in_progress`. `declare`, `collect_properties` (`propertiesOf`) and
`literal_keys` (`literalKeys`) read and write them. The limits are `MAX_TYPE_RESOLUTION_DEPTH` and
`MAX_HERITAGE_DEPTH`.

Results:
* `declare_of_known`: a declaration site is entered once.
* `propertiesOf_object`: an object type has the properties of its shape.

Out of scope: hashing. The source asks hash maps whose order it never uses; here they are lists that
are searched, and ordered maps.
-/

namespace TypeReify.Check

open TypeReify.Types
open Syntax (NodeId)

/-- How deep a type node may lead, and how long a chain of aliases is followed. -/
def typeDepth : Nat := 64

/-- How many `extends` clauses may lead into each other. -/
def heritageDepth : Nat := 32

/-- A declaration, with the key of the file it belongs to. -/
structure Site where
  module : String
  declaration : Declaration
  deriving DecidableEq, Repr

/-- What a named type has come to. -/
inductive Named
  /-- The members of an interface. -/
  | members (shape : Shape)
  /-- What an alias stands for. -/
  | target (id : TypeId)
  deriving DecidableEq, Repr

/-- The named types that are worked out, the last one first. -/
abbrev NamedTypes := List (TypeId × Named)

namespace Named

def shape? : Named → Option Shape
  | .members shape => some shape
  | .target _ => none

def target? : Named → Option TypeId
  | .members _ => none
  | .target aim => some aim

end Named

namespace NamedTypes

def shape? (named : NamedTypes) (id : TypeId) : Option Shape :=
  (named.lookup id).bind Named.shape?

def target? (named : NamedTypes) (id : TypeId) : Option TypeId :=
  (named.lookup id).bind Named.target?

end NamedTypes

/-- What the checker warns of. -/
inductive Warning
  /-- A type node of a file lies deeper than `typeDepth`. -/
  | typeDepth (module : String)
  /-- The `extends` clauses of an interface lead deeper than `heritageDepth`. -/
  | heritageDepth (interface : String)
  deriving DecidableEq, Repr

/-- The tables of a `CheckerState`. -/
structure State where
  interner : Interner
  sites : Array Site
  named : NamedTypes
  /-- The type of an optional property by its declared type, `undefined` included. -/
  widened : Std.TreeMap TypeId TypeId
  /-- The named types that are being worked out. -/
  inProgress : List TypeId
  /-- The last one first. -/
  warnings : List Warning

namespace State

def empty : State := ⟨.empty, #[], [], ∅, [], []⟩

instance : Inhabited State := ⟨empty⟩

end State

/-- An action of the checker. -/
abbrev Checking := StateM State

/-- What the tables of the checker say. -/
def tables : Checking State := get

@[simp] theorem tables_run (st : State) : tables st = (st, st) := rfl

/-- In the checker itself its actions are what they are. -/
@[simp] theorem liftM_checking {α : Type} (act : Checking α) : (liftM act : Checking α) = act := rfl

/-- The id of a structure, entered where it is new. -/
def intern (s : Structure) : Checking TypeId :=
  modifyGet fun st =>
    let (id, interner) := st.interner.intern s
    (id, { st with interner })

def union (ids : List TypeId) : Checking TypeId :=
  modifyGet fun st =>
    let (id, interner) := st.interner.union ids
    (id, { st with interner })

/-- The declaration of a node, entered at its first mention. -/
def declare (module fileName : String) (kind : DeclarationKind) (name : Option String)
    (node : NodeId) : Checking DeclId :=
  modifyGet fun st =>
    match st.sites.findIdx? fun s => s.module == module && s.declaration.node == node with
    | some id => (id, st)
    | none =>
      (st.sites.size, { st with sites := st.sites.push ⟨module, ⟨kind, name, fileName, node⟩⟩ })

/-- Enters a named type among those being worked out. -/
def start (id : TypeId) : Checking Unit :=
  modify fun st => { st with inProgress := id :: st.inProgress }

/-- The named type is worked out. -/
def finish (id : TypeId) : Checking Unit :=
  modify fun st => { st with inProgress := st.inProgress.erase id }

/-- The members that an interface has come to. -/
def setShape (id : TypeId) (shape : Shape) : Checking Unit :=
  modify fun st => { st with named := (id, .members shape) :: st.named }

/-- The type that an alias has come to. -/
def setAlias (id target : TypeId) : Checking Unit :=
  modify fun st => { st with named := (id, .target target) :: st.named }

def warn (warning : Warning) : Checking Unit :=
  modify fun st => { st with warnings := warning :: st.warnings }

/-- Records the type with `undefined` that an optional property of type `id` reads as. -/
def widen (id : TypeId) : Checking Unit := do
  unless (← get).widened.contains id do
    let wide ← union [id, TypeId.undefined]
    modify fun st => { st with widened := st.widened.insert id wide }

/-! ## Reading types -/

/-- `collect_properties`: the properties of a type through its aliases; types without members have
none. -/
def propertiesOf (t : Interner) (named : NamedTypes) : (levels : Nat) → TypeId → Shape
  | 0, _ => []
  | levels + 1, id =>
    match t.get? id with
    | some (.object shape) => shape
    | some (.interface ..) => (named.shape? id).getD []
    | some (.synonym ..) =>
      match named.target? id with
      | some target => propertiesOf t named levels target
      | none => []
    | _ => []

/-- `collect_literal_keys`: the names a key type denotes, each with its own literal type, gathered
behind `found`. Only literals denote names, through unions and aliases. -/
def literalKeys (t : Interner) (named : NamedTypes) : (levels : Nat) → List (String × TypeId) →
    TypeId → List (String × TypeId)
  | 0, found, _ => found
  | levels + 1, found, id =>
    match t.get? id with
    | some (.literal (.string text)) | some (.literal (.number text)) =>
      if found.any (·.1 == text) then found else found ++ [(text, id)]
    | some (.union members) => members.foldl (literalKeys t named levels) found
    | some (.synonym ..) =>
      match named.target? id with
      | some target => literalKeys t named levels found target
      | none => found
    | _ => found

namespace State

def propertiesOf (st : State) (id : TypeId) : Shape :=
  Check.propertiesOf st.interner st.named typeDepth id

def literalKeys (st : State) (id : TypeId) : List (String × TypeId) :=
  Check.literalKeys st.interner st.named typeDepth [] id

end State

theorem propertiesOf_object {t : Interner} {id : TypeId} {shape : Shape}
    (h : t.get? id = some (.object shape)) (named : NamedTypes) (levels : Nat) :
    propertiesOf t named (levels + 1) id = shape := by
  simp [propertiesOf, h]

theorem declare_of_known {st : State} {module : String} {node : NodeId} {id : DeclId}
    (h : (st.sites.findIdx? fun s => s.module == module && s.declaration.node == node) = some id)
    (fileName : String) (kind : DeclarationKind) (name : Option String) :
    declare module fileName kind name node st = (id, st) := by
  simp [declare, modifyGet, MonadStateOf.modifyGet, StateT.modifyGet, h, pure]

end TypeReify.Check
