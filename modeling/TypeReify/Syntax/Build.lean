import TypeReify.Syntax.Arena

/-!
# Building trees node by node

One constructor for each kind of node, each appending exactly one header (and a payload where the
kind has one) to the arena in hand. Children are built first and passed as references.

Model of the `add_…` functions of `NodeArena`, of `with_flags` and of `with_range`.
-/

namespace TypeReify.Syntax

/-- An action that extends the arena. -/
abbrev Build := StateM Arena

namespace Build

def node (kind : Kind) (x : Payload Ref) : Build NodeId := fun a => a.push kind x

def form (f : Form) (x : Payload Ref) : Build NodeId := node (.form f) x

/-! ## Tokens, names and literals -/

/-- A keyword or operator, without payload. -/
def token (t : Token) : Build NodeId := fun a => a.pushHeader (.fresh (.token t) none)

def identifier (text : String) : Build NodeId := node (.token .identifier) (.identifier text)

def stringLiteral (text : String) : Build NodeId := node (.token .stringLiteral) (.literal text)

def numericLiteral (text : String) : Build NodeId := node (.token .numericLiteral) (.literal text)

/-! ## Expressions -/

def call (callee : Ref) (typeArguments : Option (List Ref)) (arguments : List Ref) : Build NodeId :=
  form .call (.call callee typeArguments arguments)

def propertyAccess (object name : Ref) : Build NodeId := form .propertyAccess (.access object name)

def arrayLiteral (items : List Ref) : Build NodeId := form .arrayLiteral (.elements items)

def objectLiteral (properties : List Ref) : Build NodeId :=
  form .objectLiteral (.elements properties)

def propertyAssignment (name value : Ref) : Build NodeId :=
  form .propertyAssignment (.assignment name value)

def shorthandAssignment (name : Ref) : Build NodeId :=
  form .shorthandAssignment (.assignment name none)

def parenthesized (expression : Ref) : Build NodeId :=
  form .parenthesized (.parenthesized expression)

def binary (left : Ref) (operator : Token) (right : Ref) : Build NodeId :=
  form .binary (.binary left operator right)

/-! ## Functions -/

/-- A function declaration; without body it is an ambient one. -/
def functionDeclaration (name : Ref) (typeParameters : Option (List Ref)) (parameters : List Ref)
    (result body : Ref) : Build NodeId :=
  form .functionDeclaration (.function name typeParameters parameters result body)

def arrowFunction (parameters : List Ref) (result body : Ref) : Build NodeId :=
  form .arrowFunction (.function none none parameters result body)

def parameter (name ascription value : Ref) : Build NodeId :=
  form .parameter (.parameter name ascription value)

def typeParameter (name bound fallback : Ref) : Build NodeId :=
  form .typeParameter (.typeParameter name bound fallback)

/-! ## Statements -/

def block (statements : List Ref) : Build NodeId := form .block (.block statements)

def expressionStatement (expression : Ref) : Build NodeId :=
  form .expressionStatement (.expressionStatement expression)

def returnStatement (expression : Ref) : Build NodeId :=
  form .returnStatement (.expressionStatement expression)

def ifStatement (condition thenBranch elseBranch : Ref) : Build NodeId :=
  form .ifStatement (.ifStatement condition thenBranch elseBranch)

/-- A `var` statement, unless its flags say otherwise. -/
def variableStatement (declarations : List Ref) : Build NodeId :=
  form .variableStatement (.variableStatement declarations)

def variableDeclaration (name ascription value : Ref) : Build NodeId :=
  form .variableDeclaration (.variableDeclaration name ascription value)

/-! ## Modules -/

def importDeclaration (clause specifier : Ref) : Build NodeId :=
  form .importDeclaration (.importDeclaration clause specifier)

def importClause (name bindings : Ref) : Build NodeId :=
  form .importClause (.importClause name bindings)

def namedImports (items : List Ref) : Build NodeId :=
  form .namedImports (.importBindings none items)

def namespaceImport (name : Ref) : Build NodeId :=
  form .namespaceImport (.importBindings name [])

def importSpecifier (source name : Ref) : Build NodeId :=
  form .importSpecifier (.importSpecifier source name)

/-! ## Types -/

def typeReference (name : Ref) (arguments : Option (List Ref)) : Build NodeId :=
  form .typeReference (.typeReference name arguments)

def unionType (members : List Ref) : Build NodeId := form .unionType (.union members)

def arrayType (element : Ref) : Build NodeId := form .arrayType (.arrayType element)

def literalType (literal : Ref) : Build NodeId := form .literalType (.literalType literal)

def typeLiteral (members : List Ref) : Build NodeId := form .typeLiteral (.typeLiteral members)

def propertySignature (name ascription : Ref) : Build NodeId :=
  form .propertySignature (.signature name none none ascription)

def methodSignature (name : Ref) (parameters : List Ref) (ascription : Ref) : Build NodeId :=
  form .methodSignature (.signature name none (some parameters) ascription)

def indexSignature (parameters : List Ref) (ascription : Ref) : Build NodeId :=
  form .indexSignature (.indexSignature parameters ascription)

/-- Keys from the bound of the type parameter, values from the template. -/
def mappedType (parameter template : Ref) : Build NodeId :=
  form .mappedType (.mappedType parameter template)

def functionType (parameters : List Ref) (result : Ref) : Build NodeId :=
  form .functionType (.functionType none parameters result)

def interfaceDeclaration (name : Ref) (typeParameters heritage : Option (List Ref))
    (members : List Ref) : Build NodeId :=
  form .interfaceDeclaration (.interface name typeParameters heritage members)

def typeAliasDeclaration (name : Ref) (typeParameters : Option (List Ref)) (body : Ref) :
    Build NodeId :=
  form .typeAliasDeclaration (.typeAlias name typeParameters body)

def sourceFile (fileName : String) (statements : List Ref) : Build NodeId :=
  form .sourceFile (.sourceFile fileName statements)

/-! ## Marking nodes -/

def addFlags (r : Ref) (f : Flags) : Build Unit := modify fun a => a.addFlags r f

def setRange (r : Ref) (start stop : Nat) : Build Unit := modify fun a => a.setRange r start stop

/-- A header as given, whatever its data position selects. -/
def header (h : Header) : Build NodeId := fun a => a.pushHeader h

/-- Puts `layers` wrappers around a node, innermost first. -/
def nest (wrap : Ref → Build NodeId) : Nat → Ref → Build Ref
  | 0, r => pure r
  | layers + 1, r => do nest wrap layers (some (← wrap r))

end Build

end TypeReify.Syntax
