import TypeReify.Check.Lexical
import TypeReify.Check.Sources
import TypeReify.Check.State

/-!
# From type nodes to types

`resolveType` works out the type a node denotes, entering types and declarations on the way. Named
types are entered before their members are looked at and count as in progress meanwhile, so a type
that mentions itself comes to an end. A node that lies more than `typeDepth` nodes deep denotes
`any`, and so does everything that cannot be made sense of.

Each function below works on one node, and leaves the nodes beneath to `resolve` and the types in
`extends` clauses to `bases`; `resolveType` ties the knot, one level at a time. What it is that is
left to others is open to the functions, and so is the monad they run in: it has the actions of the
checker, and may do more.

Model of `resolve_type` and of what it calls: `resolve_type_inner` is `nodeType`, and below it are
`resolve_literal`, `resolve_type_reference`, `instantiate_symbol`, `builtin_reference`,
`resolve_mapped`, `add_member`, `function_shape`, `bind_type_arguments`, `instantiate_interface`,
`instantiate_alias` and `alias_view`. The fields `depth` and `heritage_depth`, which the source
counts up and down, are here the levels that are left (`TypeReify.Proofs.Check.Machine` has the
fields).

Out of scope: the growing of the call stack (`ensure_sufficient_stack`) and the texts of the log, of
which `warnings` keeps what they are about.
-/

namespace TypeReify.Check

open Syntax Scope
open TypeReify.Types

/-- Works out the type of a node of a module in some surroundings. -/
abbrev ResolveIn (M : Type → Type) := Module → Surroundings → Ref → M TypeId

/-- Works out the types that the `extends` clauses of an interface of this name lead to. -/
abbrev BasesIn (M : Type → Type) := Module → String → Surroundings → List Ref → M (List TypeId)

abbrev Resolve := ResolveIn Checking

/-- Enters the declaration at a node of a module. -/
def Module.declare (m : Module) (kind : DeclarationKind) (name : Option String) (node : NodeId) :
    Checking DeclId :=
  Check.declare m.key m.file.fileName kind name node

/-- The type a keyword stands for. -/
def keywordType (k : Token) : TypeId := (k.text?.bind intrinsic?).getD TypeId.any

/-- `resolve_literal`: the type of a literal, of `true`, `false` or `null`. -/
def literalType (a : Arena) (r : Ref) : Checking TypeId :=
  match a.kind? r with
  | some (.token .stringLiteral) =>
    match a.literalText? r with
    | some text => intern (.literal (.string text))
    | none => return TypeId.string
  | some (.token .numericLiteral) =>
    match a.literalText? r with
    | some text => intern (.literal (.number text))
    | none => return TypeId.number
  | some (.token .trueKeyword) => return TypeId.true
  | some (.token .falseKeyword) => return TypeId.false
  | some (.token .nullKeyword) => return TypeId.null
  | _ => return TypeId.any

/-- A property that no source text declares. -/
def computedProperty (name : String) (type : TypeId) : Property :=
  { name, type, optional := false, readonly := false, method := false, declarations := [] }

/-- `builtin_reference`: the generic types that are there without a declaration. -/
def builtinType (name : String) (arguments : List TypeId) : Checking (Option TypeId) :=
  match name, arguments with
  | "Array", [element] | "ReadonlyArray", [element] => some <$> intern (.array element)
  | "Record", [keys, value] => do
    let shape := ((← get).literalKeys keys).map fun k => computedProperty k.1 value
    some <$> intern (.object shape)
  | _, _ => return none

/-- `alias_view`: an alias of an anonymous type keeps its name; any other is what it stands for. -/
def aliasView (id target : TypeId) : Checking TypeId := do
  match (← get).interner.get? target with
  | some (.object _) | some (.union _) | some (.function _) => return id
  | _ => return target

section Nodes

variable {M : Type → Type} [Monad M] [MonadLiftT Checking M]
variable (strict : Bool) (resolve : ResolveIn M)

/-! ## Members -/

/-- The type of one parameter; other nodes in a parameter list are passed over. -/
def parameterType (m : Module) (s : Surroundings) (r : Ref) : M (Option Parameter) :=
  match m.file.arena.content? r with
  | some (h, .parameter name ascription _) => do
    let type ← resolve m s ascription
    let name := (m.file.arena.identifierText? name).getD "_"
    return some { name, type, optional := h.has .optional }
  | _ => return none

/-- `function_shape`: the parameters in order, and then the result. -/
def functionShape (m : Module) (s : Surroundings) (parameters : List Ref) (result : Ref) :
    M FunctionShape := do
  let parameters ← parameters.filterMapM (parameterType resolve m s)
  return { parameters, result := ← resolve m s result }

/-- Adds a further declaration to the property of a name. -/
def redeclare (shape : Shape) (name : String) (declaration : DeclId) : Shape :=
  shape.map fun p =>
    if p.name == name then { p with declarations := p.declarations ++ [declaration] } else p

/-- The type of a member: that of a function for a method, else that of its ascription. -/
def memberType (m : Module) (s : Surroundings) (method : Bool) (parameters : Option (List Ref))
    (ascription : Ref) : M TypeId := do
  if method then
    let shape ← functionShape resolve m s (parameters.getD []) ascription
    intern (.function shape)
  else
    resolve m s ascription

/-- `add_member`: takes one member into a shape. The first member of a name fixes its type; later
ones are further declarations of it. Strict checking records the type of an optional member. -/
def addMember (m : Module) (s : Surroundings) (shape : Shape) (member : Ref) : M Shape :=
  match member, m.file.arena.content? member with
  | some node, some (h, .signature name _ parameters ascription) =>
    match m.file.arena.nameText? name with
    | none => return shape
    | some text => do
      let method := h.kind == .form .methodSignature
      let kind := if method then .methodSignature else .propertySignature
      let declaration ← m.declare kind (some text) node
      if shape.any (·.name == text) then
        return redeclare shape text declaration
      let type ← memberType resolve m s method parameters ascription
      let optional := h.has .optional
      if optional && strict then
        widen type
      let property : Property :=
        { name := text, type, optional, readonly := h.has .readonly, method,
          declarations := [declaration] }
      return shape ++ [property]
  | _, _ => return shape

/-! ## Named types -/

/-- What a type parameter is bound to: the argument, else the default of the parameter, else the
parameter itself. -/
def parameterArgument (m : Module) (s : Surroundings) (name : String) (fallback : Ref) :
    Option TypeId → M TypeId
  | some argument => return argument
  | none =>
    match fallback with
    | some _ => resolve m s fallback
    | none => intern (.parameter name)

/-- Binds one type parameter; other nodes in a list of parameters are passed over. -/
def bindParameter (m : Module) (s : Surroundings) (r : Ref) (argument : Option TypeId) :
    M Surroundings :=
  match m.file.arena.content? r with
  | some (_, .typeParameter name _ fallback) =>
    match m.file.arena.identifierText? name with
    | some text => do return s.bind text (← parameterArgument resolve m s text fallback argument)
    | none => return s
  | _ => return s

/-- `bind_type_arguments`: binds type parameters to arguments, one after the other. A default is
seen from the parameters before it. -/
def bindArguments (m : Module) : List Ref → List TypeId → Surroundings → M Surroundings
  | [], _, s => return s
  | r :: rs, arguments, s => do
    bindArguments m rs arguments.tail (← bindParameter resolve m s r arguments.head?)

/-- The own members of one declaration of an interface, and its bases. -/
def interfacePart (bases : BasesIn M) (m : Module) (name : String) (frames : Frames)
    (arguments : List TypeId) (part : Shape × List TypeId) (node : NodeId) :
    M (Shape × List TypeId) :=
  match m.file.arena.content? (some node) with
  | some (_, .interface _ parameters heritage members) => do
    let s ← bindArguments resolve m (parameters.getD []) arguments (.ofFrames frames)
    let shape ← members.foldlM (addMember strict resolve m s) part.1
    let inherited ← bases m name s (heritage.getD [])
    return (shape, part.2 ++ inherited)
  | _ => return part

/-- Takes over the properties of a base that have no property of the same name before them. -/
def inherit (shape base : Shape) : Shape :=
  base.foldl (fun shape p => if shape.any (·.name == p.name) then shape else shape ++ [p]) shape

/-- `instantiate_interface`: an interface applied to arguments. Its own members come first, then
those of its bases, as these are known when all parts are done. -/
def interfaceType (bases : BasesIn M) (m : Module) (name : String) (first : NodeId)
    (merged : List NodeId) (frames : Frames) (arguments : List TypeId) : M TypeId := do
  let declaration ← m.declare .interface (some name) first
  let id ← intern (.interface name declaration arguments)
  let st ← tables
  if (st.named.shape? id).isSome || st.inProgress.contains id then
    return id
  start id
  let (own, inherited) ←
    (first :: merged).foldlM (interfacePart strict resolve bases m name frames arguments)
      ([], [])
  let st ← tables
  setShape id (inherited.foldl (fun shape base => inherit shape (st.propertiesOf base)) own)
  finish id
  return id

/-- `instantiate_alias`: an alias applied to arguments. One in progress stands for itself. -/
def aliasType (m : Module) (name : String) (node : NodeId) (frames : Frames)
    (arguments : List TypeId) : M TypeId := do
  let declaration ← m.declare .typeAlias (some name) node
  let id ← intern (.synonym name declaration arguments)
  let st ← tables
  if let some target := st.named.target? id then
    return ← aliasView id target
  if st.inProgress.contains id then
    return id
  match m.file.arena.content? (some node) with
  | some (_, .typeAlias _ parameters body) => do
    start id
    let s ← bindArguments resolve m (parameters.getD []) arguments (.ofFrames frames)
    let target ← resolve m s body
    setAlias id target
    finish id
    aliasView id target
  | _ => return TypeId.any

variable (sources : Sources) (bases : BasesIn M)

/-- `instantiate_symbol`: a declared type applied to arguments; imports are followed to the file
they name. -/
def declaredType (m : Module) (name : String) (symbol : TypeName) (frames : Frames)
    (arguments : List TypeId) : M (Option TypeId) :=
  let declared (m : Module) (name : String) (frames : Frames) : TypeName → M (Option TypeId)
    | .interface first merged =>
      some <$> interfaceType strict resolve bases m name first merged frames arguments
    | .typeAlias node => some <$> aliasType resolve m name node frames arguments
    | .imported .. => return none
  match symbol with
  | .imported .. =>
    match sources.followType importHops m name symbol with
    | some (m, name, symbol) => declared m name [] symbol
    | none => return none
  | symbol => declared m name frames symbol

/-- `resolve_type_reference`: a type name with arguments. The arguments are worked out first,
whatever the name means, and what is bound is tried before what is declared. -/
def referenceType (m : Module) (s : Surroundings) (name : Ref) (arguments : Option (List Ref)) :
    M TypeId :=
  match m.file.arena.identifierText? name with
  | none => return TypeId.any
  | some text => do
    let arguments ← (arguments.getD []).mapM (resolve m s)
    if let some bound := s.get? text then
      return bound
    let declared ←
      match s.frames.lookup m.names.locals.types text with
      | some .parameter => some <$> (intern (.parameter text) : M TypeId)
      | some (.declared symbol frames) =>
        declaredType strict resolve sources bases m text symbol frames arguments
      | none => pure none
    match declared with
    | some type => return type
    | none => return (← (builtinType text arguments : M _)).getD TypeId.any

/-! ## Type nodes -/

/-- One property for each key, its type worked out with the parameter bound to that key. -/
def mappedShape (m : Module) (s : Surroundings) (parameter : String) (template : Ref) :
    List (String × TypeId) → M Shape
  | [] => return []
  | (name, key) :: keys => do
    let type ← resolve m (s.bind parameter key) template
    let rest ← mappedShape m s parameter template keys
    return computedProperty name type :: rest

/-- `resolve_mapped`: the keys are worked out once, and then the template for each of them. -/
def mappedType (m : Module) (s : Surroundings) (parameter template : Ref) : M TypeId :=
  let a := m.file.arena
  match a.content? parameter with
  | some (_, .typeParameter name bound _) =>
    match a.identifierText? name with
    | some text => do
      let keys ← resolve m s bound
      let keys := (← tables).literalKeys keys
      intern (.object (← mappedShape resolve m s text template keys))
    | none => return TypeId.any
  | _ => return TypeId.any

/-- `resolve_type_inner`: the type of one node. -/
def nodeType (m : Module) (s : Surroundings) (r : Ref) : M TypeId :=
  match m.file.arena.header? r with
  | none => return TypeId.any
  | some h =>
    match h.kind, m.file.arena.payload? h with
    | .token k, _ => return if k.isTypeKeyword then keywordType k else TypeId.any
    | _, some (.typeReference name arguments) =>
      referenceType strict resolve sources bases m s name arguments
    | _, some (.literalType literal) => literalType m.file.arena literal
    | _, some (.arrayType element) => do
      let element ← resolve m s element
      intern (.array element)
    | _, some (.union members) => do
      let members ← members.mapM (resolve m s)
      union members
    | _, some (.typeLiteral members) => do
      let shape ← members.foldlM (addMember strict resolve m s) []
      intern (.object shape)
    | _, some (.functionType _ parameters result) => do
      let shape ← functionShape resolve m s parameters result
      intern (.function shape)
    | _, some (.mappedType parameter template) => mappedType resolve m s parameter template
    | _, _ => return TypeId.any

end Nodes

/-- The types that the `extends` clauses of an interface name. Where the clauses lead too deep there
are none. -/
def baseTypes (resolveBase : Option Resolve) (m : Module) (name : String) (s : Surroundings)
    (clauses : List Ref) : Checking (List TypeId) :=
  match resolveBase, clauses with
  | _, [] => return []
  | some resolveBase, _ => clauses.mapM (resolveBase m s)
  | none, _ => do
    warn (.heritageDepth name)
    return []

/-- `resolve_type`: the type of a node, `levels` nodes deep at most and through `heritage` more
`extends` clauses at most. -/
def resolveType (strict : Bool) (sources : Sources) : (levels heritage : Nat) → Resolve
  | 0, _ => fun m _ r =>
    match r with
    | some _ => do
      warn (.typeDepth m.key)
      return TypeId.any
    | none => return TypeId.any
  | levels + 1, heritage =>
    nodeType strict (resolveType strict sources levels heritage) sources
      (baseTypes
        (match heritage with
        | 0 => none
        | more + 1 => some (resolveType strict sources levels more)))

end TypeReify.Check
