/-!
# Node kinds

Every node of a syntax tree carries a kind: a `Token` (keywords, operators, names, literals), a
`Form` (every compound node) or a code that nobody has assigned. Kinds travel between programs as
16-bit codes, so each has one.

Model of `SyntaxKind` (`from_u16`, `is_type_keyword`, `token_text`) and of the codes of compound
nodes with `kind_name`.

Results:
* `Token.ofCode?_code`, `Form.ofCode?_code`: a code reads back as the token or form it stands for.
* `Form.code_gt_token`: every form has a larger code than every token, so the two never clash.
* `Kind.code_ofCode`: the kind read from a code is written with that code.
-/

namespace TypeReify.Syntax

/-- Keywords, operators, names and literals. -/
inductive Token
  | unknown
  | numericLiteral
  | stringLiteral
  | lessThan
  | greaterThan
  | lessThanEquals
  | greaterThanEquals
  | equalsEqualsEquals
  | exclamationEqualsEquals
  | plus
  | minus
  | asterisk
  | slash
  | ampersandAmpersand
  | barBar
  | questionQuestion
  | equals
  | identifier
  | falseKeyword
  | nullKeyword
  | trueKeyword
  | voidKeyword
  | anyKeyword
  | booleanKeyword
  | neverKeyword
  | numberKeyword
  | objectKeyword
  | stringKeyword
  | symbolKeyword
  | undefinedKeyword
  | unknownKeyword
  | bigIntKeyword
  deriving DecidableEq, Repr

/-- Compound nodes: declarations, types, expressions, statements and module syntax. -/
inductive Form
  | typeParameter
  | parameter
  | propertySignature
  | methodSignature
  | indexSignature
  | typeReference
  | functionType
  | typeLiteral
  | arrayType
  | unionType
  | mappedType
  | literalType
  | arrayLiteral
  | objectLiteral
  | propertyAccess
  | call
  | parenthesized
  | arrowFunction
  | binary
  | block
  | variableStatement
  | expressionStatement
  | ifStatement
  | returnStatement
  | variableDeclaration
  | functionDeclaration
  | interfaceDeclaration
  | typeAliasDeclaration
  | importDeclaration
  | importClause
  | namespaceImport
  | namedImports
  | importSpecifier
  | propertyAssignment
  | shorthandAssignment
  | sourceFile
  deriving DecidableEq, Repr

namespace Token

/-- The tokens in the order of their codes. -/
def all : List Token :=
  [.unknown, .numericLiteral, .stringLiteral, .lessThan, .greaterThan, .lessThanEquals,
    .greaterThanEquals, .equalsEqualsEquals, .exclamationEqualsEquals, .plus, .minus, .asterisk,
    .slash, .ampersandAmpersand, .barBar, .questionQuestion, .equals, .identifier, .falseKeyword,
    .nullKeyword, .trueKeyword, .voidKeyword, .anyKeyword, .booleanKeyword, .neverKeyword,
    .numberKeyword, .objectKeyword, .stringKeyword, .symbolKeyword, .undefinedKeyword,
    .unknownKeyword, .bigIntKeyword]

def code : Token → UInt16
  | .unknown => 0
  | .numericLiteral => 9
  | .stringLiteral => 11
  | .lessThan => 30
  | .greaterThan => 32
  | .lessThanEquals => 33
  | .greaterThanEquals => 34
  | .equalsEqualsEquals => 37
  | .exclamationEqualsEquals => 38
  | .plus => 40
  | .minus => 41
  | .asterisk => 42
  | .slash => 44
  | .ampersandAmpersand => 56
  | .barBar => 57
  | .questionQuestion => 61
  | .equals => 64
  | .identifier => 80
  | .falseKeyword => 97
  | .nullKeyword => 106
  | .trueKeyword => 112
  | .voidKeyword => 116
  | .anyKeyword => 133
  | .booleanKeyword => 136
  | .neverKeyword => 146
  | .numberKeyword => 150
  | .objectKeyword => 151
  | .stringKeyword => 154
  | .symbolKeyword => 155
  | .undefinedKeyword => 157
  | .unknownKeyword => 159
  | .bigIntKeyword => 163

/-- The name of the token in the compiler's tables. -/
def name : Token → String
  | .unknown => "Unknown"
  | .numericLiteral => "NumericLiteral"
  | .stringLiteral => "StringLiteral"
  | .lessThan => "LessThanToken"
  | .greaterThan => "GreaterThanToken"
  | .lessThanEquals => "LessThanEqualsToken"
  | .greaterThanEquals => "GreaterThanEqualsToken"
  | .equalsEqualsEquals => "EqualsEqualsEqualsToken"
  | .exclamationEqualsEquals => "ExclamationEqualsEqualsToken"
  | .plus => "PlusToken"
  | .minus => "MinusToken"
  | .asterisk => "AsteriskToken"
  | .slash => "SlashToken"
  | .ampersandAmpersand => "AmpersandAmpersandToken"
  | .barBar => "BarBarToken"
  | .questionQuestion => "QuestionQuestionToken"
  | .equals => "EqualsToken"
  | .identifier => "Identifier"
  | .falseKeyword => "FalseKeyword"
  | .nullKeyword => "NullKeyword"
  | .trueKeyword => "TrueKeyword"
  | .voidKeyword => "VoidKeyword"
  | .anyKeyword => "AnyKeyword"
  | .booleanKeyword => "BooleanKeyword"
  | .neverKeyword => "NeverKeyword"
  | .numberKeyword => "NumberKeyword"
  | .objectKeyword => "ObjectKeyword"
  | .stringKeyword => "StringKeyword"
  | .symbolKeyword => "SymbolKeyword"
  | .undefinedKeyword => "UndefinedKeyword"
  | .unknownKeyword => "UnknownKeyword"
  | .bigIntKeyword => "BigIntKeyword"

/-- `from_u16`. -/
def ofCode? (c : UInt16) : Option Token := all.find? (·.code == c)

def ofName? (s : String) : Option Token := all.find? (·.name == s)

/-- The text a keyword or operator is written with. Names and literals carry their own text. -/
def text? : Token → Option String
  | .unknown | .numericLiteral | .stringLiteral | .identifier => none
  | .lessThan => some "<"
  | .greaterThan => some ">"
  | .lessThanEquals => some "<="
  | .greaterThanEquals => some ">="
  | .equalsEqualsEquals => some "==="
  | .exclamationEqualsEquals => some "!=="
  | .plus => some "+"
  | .minus => some "-"
  | .asterisk => some "*"
  | .slash => some "/"
  | .ampersandAmpersand => some "&&"
  | .barBar => some "||"
  | .questionQuestion => some "??"
  | .equals => some "="
  | .falseKeyword => some "false"
  | .nullKeyword => some "null"
  | .trueKeyword => some "true"
  | .voidKeyword => some "void"
  | .anyKeyword => some "any"
  | .booleanKeyword => some "boolean"
  | .neverKeyword => some "never"
  | .numberKeyword => some "number"
  | .objectKeyword => some "object"
  | .stringKeyword => some "string"
  | .symbolKeyword => some "symbol"
  | .undefinedKeyword => some "undefined"
  | .unknownKeyword => some "unknown"
  | .bigIntKeyword => some "bigint"

/-- Keywords that stand for a type on their own. -/
def isTypeKeyword : Token → Bool
  | .anyKeyword | .unknownKeyword | .numberKeyword | .bigIntKeyword | .booleanKeyword
  | .stringKeyword | .symbolKeyword | .voidKeyword | .undefinedKeyword | .neverKeyword
  | .objectKeyword | .nullKeyword => true
  | _ => false

theorem ofCode?_code (t : Token) : ofCode? t.code = some t := by cases t <;> rfl

theorem mem_all (t : Token) : t ∈ all := by cases t <;> decide

end Token

namespace Form

/-- The forms in the order of their codes. -/
def all : List Form :=
  [.typeParameter, .parameter, .propertySignature, .methodSignature, .indexSignature,
    .typeReference, .functionType, .typeLiteral, .arrayType, .unionType, .mappedType,
    .literalType, .arrayLiteral, .objectLiteral, .propertyAccess, .call, .parenthesized,
    .arrowFunction, .binary, .block, .variableStatement, .expressionStatement, .ifStatement,
    .returnStatement, .variableDeclaration, .functionDeclaration, .interfaceDeclaration,
    .typeAliasDeclaration, .importDeclaration, .importClause, .namespaceImport, .namedImports,
    .importSpecifier, .propertyAssignment, .shorthandAssignment, .sourceFile]

def code : Form → UInt16
  | .typeParameter => 168
  | .parameter => 169
  | .propertySignature => 171
  | .methodSignature => 173
  | .indexSignature => 181
  | .typeReference => 183
  | .functionType => 184
  | .typeLiteral => 187
  | .arrayType => 188
  | .unionType => 192
  | .mappedType => 200
  | .literalType => 201
  | .arrayLiteral => 209
  | .objectLiteral => 210
  | .propertyAccess => 211
  | .call => 213
  | .parenthesized => 217
  | .arrowFunction => 219
  | .binary => 226
  | .block => 241
  | .variableStatement => 243
  | .expressionStatement => 244
  | .ifStatement => 245
  | .returnStatement => 253
  | .variableDeclaration => 260
  | .functionDeclaration => 262
  | .interfaceDeclaration => 264
  | .typeAliasDeclaration => 265
  | .importDeclaration => 272
  | .importClause => 273
  | .namespaceImport => 274
  | .namedImports => 275
  | .importSpecifier => 276
  | .propertyAssignment => 303
  | .shorthandAssignment => 304
  | .sourceFile => 312

def name : Form → String
  | .typeParameter => "TypeParameter"
  | .parameter => "Parameter"
  | .propertySignature => "PropertySignature"
  | .methodSignature => "MethodSignature"
  | .indexSignature => "IndexSignature"
  | .typeReference => "TypeReference"
  | .functionType => "FunctionType"
  | .typeLiteral => "TypeLiteral"
  | .arrayType => "ArrayType"
  | .unionType => "UnionType"
  | .mappedType => "MappedType"
  | .literalType => "LiteralType"
  | .arrayLiteral => "ArrayLiteralExpression"
  | .objectLiteral => "ObjectLiteralExpression"
  | .propertyAccess => "PropertyAccessExpression"
  | .call => "CallExpression"
  | .parenthesized => "ParenthesizedExpression"
  | .arrowFunction => "ArrowFunction"
  | .binary => "BinaryExpression"
  | .block => "Block"
  | .variableStatement => "VariableStatement"
  | .expressionStatement => "ExpressionStatement"
  | .ifStatement => "IfStatement"
  | .returnStatement => "ReturnStatement"
  | .variableDeclaration => "VariableDeclaration"
  | .functionDeclaration => "FunctionDeclaration"
  | .interfaceDeclaration => "InterfaceDeclaration"
  | .typeAliasDeclaration => "TypeAliasDeclaration"
  | .importDeclaration => "ImportDeclaration"
  | .importClause => "ImportClause"
  | .namespaceImport => "NamespaceImport"
  | .namedImports => "NamedImports"
  | .importSpecifier => "ImportSpecifier"
  | .propertyAssignment => "PropertyAssignment"
  | .shorthandAssignment => "ShorthandPropertyAssignment"
  | .sourceFile => "SourceFile"

def ofCode? (c : UInt16) : Option Form := all.find? (·.code == c)

theorem ofCode?_code (f : Form) : ofCode? f.code = some f := by cases f <;> rfl

theorem mem_all (f : Form) : f ∈ all := by cases f <;> decide

/-- Forms are numbered above all tokens. -/
theorem code_gt_token (f : Form) (t : Token) : t.code < f.code :=
  have ht : t.code < 164 := by cases t <;> decide
  have hf : 164 < f.code := by cases f <;> decide
  UInt16.lt_trans ht hf

end Form

/-- The kind of a node. -/
inductive Kind
  | token (t : Token)
  | form (f : Form)
  /-- A code that stands for no token and no form. -/
  | unassigned (code : UInt16)
  deriving DecidableEq, Repr

namespace Kind

def code : Kind → UInt16
  | .token t => t.code
  | .form f => f.code
  | .unassigned c => c

def ofCode (c : UInt16) : Kind :=
  match Token.ofCode? c with
  | some t => .token t
  | none =>
    match Form.ofCode? c with
    | some f => .form f
    | none => .unassigned c

/-- Forms by name; everything else is a token as far as a reader is concerned. -/
def name : Kind → String
  | .form f => f.name
  | .token _ | .unassigned _ => "Token"

def isTypeKeyword : Kind → Bool
  | .token t => t.isTypeKeyword
  | .form _ | .unassigned _ => false

theorem code_ofCode (c : UInt16) : (ofCode c).code = c := by
  unfold ofCode
  split
  · rename_i t h
    simpa [code] using List.find?_some h
  · split
    · rename_i f h
      simpa [code] using List.find?_some h
    · rfl

end Kind

end TypeReify.Syntax
