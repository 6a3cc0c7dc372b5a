import TypeReify.Proofs.Syntax.Read
import TypeReify.Proofs.Text.TypeText

/-!
# The text of a type node tells its tree

Unions and functions are put in parentheses where they are elements of an array, and nowhere else.
In a union that leaves the members apart as long as a function is the last of them: the result of a
function reaches as far as it can, so a function in front of another member swallows the bar behind
it.

`readTypeNode` reads type nodes from their texts. Behind an opening parenthesis a name that ends
like a parameter, or the closing parenthesis, belongs to a function, since what is parenthesized
else is a function or a union.

The keyword `null` is the same text as the literal type `null`, so `typeTree` does not tell them
apart.

This is about the arms of `emit_node_kind` for type nodes: the one for arrays puts unions and
functions in parentheses, the one for unions writes its members as they are.

Results:
* `operand_text`: what stands in a union or an array does not begin like a function.
* `reads_typeOperand`: an operand is read, whatever brackets come behind.
* `typesReadBelow`: the text of a type node is read as its tree.
* `typeNode_textOf_injective`: type nodes with the same text have the same tree, if functions come
  last.
* `typeNode_textOf_function`: a function in front of another member is read as something else.

Out of scope: trees that are not well-formed or have names that are no names.
-/

namespace TypeReify.Syntax

open Text

/-! ## Trees of type nodes -/

/-- The flags that a node of this kind is written with. -/
def Kind.writtenFlags (kind : Kind) (f : Flags) : Flags :=
  match kind with
  | .form .parameter => if f.has .optional then .optional else .empty
  | .form .propertySignature =>
    .union (if f.has .optional then .optional else .empty)
      (if f.has .readonly then .readonly else .empty)
  | _ => .empty

/-- A type node without its range, with the flags that it is written with. The literal type `null`
is taken for the keyword. -/
def Tree.ofTypeNode (h : Header) : Option (Payload (Option Tree)) → Tree
  | some (.literalType (some (.node (.token .nullKeyword) _ _ _ _))) =>
    .node (.token .nullKeyword) .empty 0 0 none
  | p => .node h.kind (h.kind.writtenFlags h.flags) 0 0 p

namespace Arena

/-- The tree of a type node, up to ranges. -/
def typeTree (a : Arena) : Ref → Option Tree := a.fold Tree.ofTypeNode

/-- Where a node of a type may stand. -/
inductive TypePlace
  | type
  /-- In front of the arrow of a function. -/
  | parameter
  /-- In a type literal. -/
  | property
  deriving DecidableEq, Repr

/-- A keyword that is a value. -/
def Constant (a : Arena) (r : Ref) : Prop :=
  ∃ h t, a.header? r = some h ∧ h.kind = .token t ∧ t ∈ Token.constants

/-- The trees of type nodes. With `last`, a function is no member of a union but the last one. -/
inductive TypeNode (a : Arena) (last : Bool) : TypePlace → Ref → Prop
  | keyword {r : Ref} {h : Header} {t : Token} (hr : a.header? r = some h) (hk : h.kind = .token t)
      (ht : t.isTypeKeyword = true) : TypeNode a last .type r
  | reference {r : Ref} {h : Header} {name : Ref} {arguments : Option (List Ref)}
      (hr : a.Holds r h (.form .typeReference) (.typeReference name arguments))
      (hname : a.Named name)
      (harguments : ∀ x ∈ arguments.getD [], TypeNode a last .type x) : TypeNode a last .type r
  | literal {r : Ref} {h : Header} {l : Ref}
      (hr : a.Holds r h (.form .literalType) (.literalType l))
      (hl : a.Literal l ∨ a.Constant l) : TypeNode a last .type r
  | array {r : Ref} {h : Header} {element : Ref}
      (hr : a.Holds r h (.form .arrayType) (.arrayType element))
      (helement : TypeNode a last .type element) : TypeNode a last .type r
  | function {r : Ref} {h : Header} {parameters : List Ref} {result : Ref}
      (hr : a.Holds r h (.form .functionType) (.functionType none parameters result))
      (hparameters : ∀ x ∈ parameters, TypeNode a last .parameter x)
      (hresult : TypeNode a last .type result) : TypeNode a last .type r
  | object {r : Ref} {h : Header} {members : List Ref}
      (hr : a.Holds r h (.form .typeLiteral) (.typeLiteral members))
      (hmembers : ∀ x ∈ members, TypeNode a last .property x) : TypeNode a last .type r
  | union {r : Ref} {h : Header} {members : List Ref}
      (hr : a.Holds r h (.form .unionType) (.union members)) (hlength : 2 ≤ members.length)
      (hmembers : ∀ x ∈ members, TypeNode a last .type x)
      (hflat : ∀ x ∈ members, a.kind? x ≠ some (.form .unionType))
      (hlast : last = true → ∀ x ∈ members.dropLast, a.kind? x ≠ some (.form .functionType)) :
      TypeNode a last .type r
  | parameter {r : Ref} {h : Header} {name ascription : Ref}
      (hr : a.Holds r h (.form .parameter) (.parameter name ascription none)) (hname : a.Named name)
      (hascription : ascription ≠ none → TypeNode a last .type ascription) :
      TypeNode a last .parameter r
  | property {r : Ref} {h : Header} {name ascription : Ref}
      (hr : a.Holds r h (.form .propertySignature) (.signature name none none ascription))
      (hname : a.Keyed name) (hascription : ascription ≠ none → TypeNode a last .type ascription) :
      TypeNode a last .property r

end Arena

/-! ## Readers -/

def Tree.arrayType (element : Option Tree) : Option Tree :=
  Tree.bare (.form .arrayType) (.arrayType element)

def Tree.unionType (members : List (Option Tree)) : Option Tree :=
  Tree.bare (.form .unionType) (.union members)

/-- A name is a literal type, a keyword or a reference. -/
def typeWord (name : String) : Option Tree :=
  match Token.all.find? (·.text? == some name) with
  | some .trueKeyword => Tree.bare (.form .literalType) (.literalType (Tree.keyword .trueKeyword))
  | some .falseKeyword => Tree.bare (.form .literalType) (.literalType (Tree.keyword .falseKeyword))
  | some t => Tree.keyword t
  | none => Tree.bare (.form .typeReference) (.typeReference (Tree.name name) none)

section

variable (inner : Reader (Option Tree))

def readAscription : Reader (Option Tree) := do
  if ← accept ": " then inner else return none

/-- A parameter of a function type: its name, whether it is optional, and its type. -/
def readTypeParameter : Reader (Option Tree) := do
  let name ← readName
  let optional ← accept "?"
  let ascription ← readAscription inner
  let flags : Flags := if optional then .optional else .empty
  return some (.node (.form .parameter) flags 0 0
    (some (.parameter (Tree.name name) ascription none)))

/-- Takes a function type from behind its opening parenthesis. -/
def readFunctionType : Reader (Option Tree) := do
  let parameters ← enclosed (readTypeParameter inner) ")"
  expect " => "
  let result ← inner
  return Tree.bare (.form .functionType) (.functionType none parameters result)

/-- Takes a property with the semicolon behind it. -/
def readTypeProperty : Reader (Option Tree) := do
  let readonly ← accept "readonly "
  let name ← readKey
  let optional ← accept "?"
  let ascription ← readAscription inner
  expect "; "
  let flags : Flags :=
    .union (if optional then .optional else .empty) (if readonly then .readonly else .empty)
  return some (.node (.form .propertySignature) flags 0 0
    (some (.signature name none none ascription)))

/-- Takes a type literal from behind its opening brace. -/
def readTypeLiteral : Reader (Option Tree) := do
  if ← accept "\x7d" then
    return Tree.bare (.form .typeLiteral) (.typeLiteral [])
  else
    expect " "
    let members ← many (readTypeProperty inner) "\x7d"
    return Tree.bare (.form .typeLiteral) (.typeLiteral members)

/-- Takes the arguments of a reference from behind its name, if there are any. -/
def readTypeArguments (name : String) : Reader (Option Tree) := do
  if ← accept "<" then
    let arguments ← enclosed inner ">"
    return Tree.bare (.form .typeReference) (.typeReference (Tree.name name) (some arguments))
  else
    return typeWord name

/-- Takes a literal type, a keyword, or a reference with its arguments. -/
def readTypeWord : Reader (Option Tree) := do
  match ← readLiteral with
  | some literal => return Tree.bare (.form .literalType) (.literalType literal)
  | none =>
    let name ← readName
    readTypeArguments inner name

/-- Takes a type that is no array, no union and no function, or one in parentheses. -/
def readTypeAtom : Reader (Option Tree) := do
  if ← accept "(" then
    let x ← inner
    expect ")"
    return x
  else if ← accept "\x7b" then
    readTypeLiteral inner
  else
    readTypeWord inner

/-- Takes a type that is no union and no function. -/
def readTypeOperand : Reader (Option Tree) := do
  let x ← readTypeAtom inner
  fun cs => some (brackets Tree.arrayType x cs)

/-- Takes a member of a union. A function is told by its parameters. -/
def readMember : Reader (Option Tree) := fun cs =>
  if opensParameters cs then (do expect "("; readFunctionType inner : Reader (Option Tree)) cs
  else readTypeOperand inner cs

def readUnion : Reader (Option Tree) := do
  let members ← list (readMember inner) " | "
  return unionOf Tree.unionType members

end

/-- Takes a type node, at most so deep. -/
def readTypeNode : (levels : Nat) → Reader (Option Tree)
  | 0 => failure
  | levels + 1 => readUnion (readTypeNode levels)

/-! ## Words -/

/-- The keywords that are no literal types. -/
theorem typeWord_keyword {t : Token} (ht : t.isTypeKeyword = true) :
    typeWord (t.text?.getD "") = Tree.keyword t := by
  cases t with
  | voidKeyword | anyKeyword | booleanKeyword | neverKeyword | numberKeyword | objectKeyword
  | stringKeyword | symbolKeyword | undefinedKeyword | unknownKeyword | bigIntKeyword
  | nullKeyword => rfl
  | _ => cases ht

/-- A word that is no keyword is the name of a type. -/
theorem typeWord_name {text : String} (h : IsName text) : typeWord text =
    Tree.bare (.form .typeReference) (.typeReference (Tree.name text) none) := by
  have hnone : Token.all.find? (·.text? == some text) = none :=
    List.find?_eq_none.2 fun t _ => by simpa using h.2 t
  rw [typeWord, hnone]

section

variable {inner : Reader (Option Tree)}

/-- What begins with no bracket is read as a word. -/
theorem takes_typeWord {c : Char} {cs : List Char} {x : Option Tree} {p : List Char → Prop}
    (hc : c ∉ ['(', '\x7b']) (h : Takes (readTypeWord inner) (c :: cs) x p) :
    Takes (readTypeAtom inner) (c :: cs) x p := by
  simp only [List.mem_cons, List.not_mem_nil, or_false, not_or] at hc
  have habsent (token : List Char) (d : Char) (htoken : token.head? = some d) (hd : c ≠ d)
      (rest : List Char) : skip token (c :: cs ++ rest) = none :=
    skip_eq_none (begins_cons (List.mem_singleton_self c)) (by simpa [htoken] using hd.symm)
  refine .absent "(" (fun rest _ => habsent _ '(' rfl hc.1 rest) ?_
  exact .absent "\x7b" (fun rest _ => habsent _ '\x7b' rfl hc.2 rest) h

/-- A name is read with what comes behind it. -/
theorem takes_typeName {text : String} (h : isIdentifierText text = true) {rest : List Char}
    {x : Option Tree} {p : List Char → Prop} {ends : List Char} (hends : ends ⊆ marks)
    (hbegins : ∀ rest', p rest' → Begins ends (rest ++ rest'))
    (hrest : Takes (readTypeArguments inner text) rest x p) :
    Takes (readTypeAtom inner) (text.toList ++ rest) x p := by
  obtain ⟨c, cs, hcs, hstart⟩ := exists_cons_of_name h
  have hc : c ∉ ['(', '\x7b'] := by
    intro hmem
    have hpart := not_isIdentifierPart_of_mark c ((by decide : ['(', '\x7b'] ⊆ marks) hmem)
    rw [isIdentifierPart_of_start hstart] at hpart
    cases hpart
  have hname : Takes (readName >>= readTypeArguments inner) (text.toList ++ rest) x p :=
    Takes.bind (reads_name h hends) hrest hbegins
  have hword : Takes (readTypeWord inner) (text.toList ++ rest) x p := takes_no_literal h hname
  rw [hcs] at hword ⊢
  exact takes_typeWord hc hword

/-- A name alone is read as what it stands for. -/
theorem reads_typeName {text : String} (h : isIdentifierText text = true) :
    Reads (readTypeAtom inner) text.toList (typeWord text) typeOperandEnds := by
  rw [← List.append_nil text.toList]
  exact takes_typeName h (by decide : typeOperandEnds ⊆ marks) (fun _ h => h)
    (Takes.absent "<" (fun rest hrest => skip_eq_none hrest (by decide)) fun _ _ => rfl)

/-- A quoted text or a number is read as a literal type. -/
theorem reads_typeLiteral {text : List Char} {x : Option Tree}
    (hlead : ∃ c cs, text = c :: cs ∧ (c = '"' ∨ c.isDigit = true))
    (h : Reads readLiteral text (some x) typeOperandEnds) :
    Reads (readTypeAtom inner) text (Tree.bare (.form .literalType) (.literalType x))
      typeOperandEnds := by
  obtain ⟨c, cs, rfl, hc⟩ := hlead
  refine takes_typeWord ?_ ?_
  · intro hmem
    rcases hc with rfl | hc
    · exact absurd hmem (by decide)
    · rw [not_isDigit_of_mark c ((by decide : ['(', '\x7b'] ⊆ marks) hmem)] at hc
      cases hc
  · rw [← List.append_nil (c :: cs)]
    exact h.bind .pure fun _ h => h

/-- No type begins with a mark that opens nothing. -/
theorem readTypeAtom_mark {c : Char} (hc : c ∈ marks) (hopen : c ∉ ['(', '\x7b', '"'])
    (cs : List Char) : readTypeAtom inner (c :: cs) = none := by
  simp only [List.mem_cons, List.not_mem_nil, or_false, not_or] at hopen
  have habsent (token : List Char) (d : Char) (htoken : token.head? = some d) (hd : c ≠ d) :
      skip token (c :: cs) = none :=
    skip_eq_none (begins_cons (List.mem_singleton_self c)) (by simpa [htoken] using hd.symm)
  refine (accept_bind_of_none (habsent _ '(' rfl hopen.1)).trans ?_
  refine (accept_bind_of_none (habsent _ '\x7b' rfl hopen.2.1)).trans ?_
  show (readLiteral (c :: cs)).bind _ = none
  rw [readLiteral_of_not hopen.2.2 (not_isDigit_of_mark c hc)]
  exact bind_eq_none (readName_mark hc cs)

/-- No type begins with the bracket that closes a list of arguments, -/
theorem readTypeNode_close (levels : Nat) (cs : List Char) :
    readTypeNode levels ('>' :: cs) = none := by
  cases levels with
  | zero => rfl
  | succ levels =>
    have hmember : readMember (readTypeNode levels) ('>' :: cs) = none :=
      bind_eq_none (readTypeAtom_mark (by decide) (by decide) cs)
    exact bind_eq_none (bind_eq_none hmember)

/-- no parameter with the one that closes a list of parameters, -/
theorem readTypeParameter_close (cs : List Char) : readTypeParameter inner (')' :: cs) = none :=
  bind_eq_none (readName_mark (by decide) cs)

/-- and no property with the one that closes an object type. -/
theorem readTypeProperty_close (cs : List Char) : readTypeProperty inner ('\x7d' :: cs) = none := by
  refine (accept_bind_of_none ?_).trans (bind_eq_none (readKey_mark (by decide) (by decide) cs))
  exact skip_eq_none (begins_cons (List.mem_singleton_self '\x7d')) rfl

end

/-! ## Beginnings -/

/-- At a mark the mark decides. -/
theorem namesParameter_mark {c : Char} (hc : c ∈ marks) (cs : List Char) :
    namesParameter (c :: cs) = parameterEnds.contains c :=
  namesParameter_cons (not_isIdentifierPart_of_mark c hc) cs

/-- What may stand behind the name of a parameter is taken to do so. -/
theorem namesParameter_of_begins {rest : List Char} (hne : rest ≠ [])
    (h : Begins parameterEnds rest) :
    namesParameter rest = true := by
  obtain ⟨c, cs, rfl⟩ := List.exists_cons_of_ne_nil hne
  exact namesParameter_of_mem (h c rfl) cs

/-- The text does not begin like the parameters of a function, and in parentheses it names none. -/
def NoFunction (text : List Char) : Prop :=
  (∃ c cs, text = c :: cs ∧ c ≠ '(' ∧
    ∀ rest, Begins [' ', '['] rest → namesParameter (text ++ rest) = false) ∨
  ∃ cs, text = '(' :: cs ∧ ∀ rest, namesParameter (cs ++ rest) = false

/-- A word, with arguments or without, is not taken for a function. -/
theorem noFunction_word {word tail : List Char} (hne : word ≠ []) (hword : ∀ c ∈ word, c ∉ marks)
    (htail : tail = [] ∨ ∃ cs, tail = '<' :: cs) : NoFunction (word ++ tail) := by
  obtain ⟨c, cs, rfl⟩ := List.exists_cons_of_ne_nil hne
  refine .inl ⟨c, cs ++ tail, rfl, ?_, fun rest hrest => ?_⟩
  · rintro rfl
    exact hword '(' List.mem_cons_self (by decide)
  · rw [List.append_assoc]
    refine namesParameter_word ['<', ' ', '[']
      (fun c hc hend => hword c hc ((by decide : parameterEnds ⊆ marks) hend))
      (forall_mem_of_all (by decide +kernel)) ?_
    rcases htail with rfl | ⟨cs, rfl⟩
    · exact hrest.mono (by decide)
    · exact begins_cons (by decide)

theorem noFunction_name {text : String} (h : isIdentifierText text = true) {tail : List Char}
    (htail : tail = [] ∨ ∃ cs, tail = '<' :: cs) : NoFunction (text.toList ++ tail) := by
  obtain ⟨c, cs, hcs, -⟩ := exists_cons_of_name h
  exact noFunction_word (by rw [hcs]; exact List.cons_ne_nil c cs) (not_mark_of_name h) htail

/-- A quote or a brace opens no parameters. -/
theorem noFunction_mark {c : Char} (hc : c = '"' ∨ c = '\x7b') (cs : List Char) :
    NoFunction (c :: cs) := by
  refine .inl ⟨c, cs, rfl, ?_, fun rest _ => ?_⟩
  · rcases hc with rfl | rfl <;> decide
  · rw [List.cons_append]
    rcases hc with rfl | rfl
    · exact namesParameter_mark (by decide) _
    · exact namesParameter_mark (by decide) _

namespace NoFunction

variable {text rest : List Char}

/-- What is no function does not go on like the name of a parameter, -/
theorem names (h : NoFunction text) (hrest : Begins [' ', '['] rest) :
    namesParameter (text ++ rest) = false := by
  rcases h with ⟨c, cs, -, -, hnames⟩ | ⟨cs, rfl, -⟩
  · exact hnames rest hrest
  · exact namesParameter_mark (by decide) (cs ++ rest)

/-- nor does it open a parameter list. -/
theorem opens (h : NoFunction text) (rest : List Char) :
    opensParameters (text ++ rest) = false := by
  rcases h with ⟨c, cs, rfl, hc, -⟩ | ⟨cs, rfl, hnames⟩
  · have hskip : skip ['('] (c :: cs ++ rest) = none :=
      skip_eq_none (begins_cons (List.mem_singleton_self c)) (by simpa using hc.symm)
    exact opensParameters_of_skip hskip
  · exact (opensParameters_cons (cs ++ rest)).trans (hnames rest)

/-- Brackets behind it change nothing. -/
theorem brackets (h : NoFunction text) : NoFunction (text ++ "[]".toList) := by
  rcases h with ⟨c, cs, rfl, hc, hnames⟩ | ⟨cs, rfl, hnames⟩
  · refine .inl ⟨c, cs ++ "[]".toList, rfl, hc, fun rest _ => ?_⟩
    rw [List.append_assoc]
    exact hnames _ (begins_cons (by decide))
  · refine .inr ⟨cs ++ "[]".toList, rfl, fun rest => ?_⟩
    rw [List.append_assoc]
    exact hnames _

end NoFunction

namespace Arena

variable {a : Arena} {last : Bool}

/-! ## Trees and texts of type nodes -/

/-- The tree of a node is its kind, the flags that are written and the trees of its children. -/
theorem Holds.typeTree (ha : a.WellFormed) {r : Ref} {h : Header} {kind : Kind} {p : Payload Ref}
    (hr : a.Holds r h kind p) (hp : ∀ l, p ≠ .literalType l) :
    a.typeTree r = some (.node kind (kind.writtenFlags h.flags) 0 0 (some (p.map a.typeTree))) := by
  obtain ⟨i, rfl, -⟩ := hr.exists_node
  rw [Arena.typeTree, fold_of_content? ha hr.content, ← hr.kind]
  cases p with
  | literalType l => exact absurd rfl (hp l)
  | _ => rfl

@[simp] theorem typeTree_none (a : Arena) : a.typeTree none = none := a.fold_none _

theorem Named.typeTree (ha : a.WellFormed) {r : Ref} (hr : a.Named r) :
    a.typeTree r = Tree.name (a.identifierText r) := by
  obtain ⟨-, hskeleton⟩ := hr.identifierText ha
  obtain ⟨h, text, hr, -⟩ := hr
  rw [← hskeleton, hr.typeTree ha nofun, hr.skeleton ha]
  rfl

theorem Literal.typeTree (ha : a.WellFormed) {r : Ref} (hr : a.Literal r) :
    a.typeTree r = a.skeleton r := by
  obtain ⟨h, text, hr | ⟨hr, -⟩⟩ := hr
  · rw [hr.typeTree ha nofun, hr.skeleton ha]
    rfl
  · rw [hr.typeTree ha nofun, hr.skeleton ha]
    rfl

theorem Keyed.typeTree (ha : a.WellFormed) {r : Ref} (hr : a.Keyed r) :
    a.typeTree r = a.skeleton r := by
  rcases hr with hname | hliteral
  · rw [hname.typeTree ha, (hname.identifierText ha).2]
  · exact hliteral.typeTree ha

theorem TypeNode.exists_node {place : TypePlace} {r : Ref} (h : a.TypeNode last place r) :
    ∃ i : Nat, r = some i ∧ i < a.size := by
  cases h with
  | keyword hr _ _ => exact exists_node_of_header? hr
  | reference hr _ _ | literal hr _ | array hr _ | function hr _ _ | object hr _ | union hr _ _ _ _
  | parameter hr _ _ | property hr _ _ => exact hr.exists_node

/-- A part of a type node stands in front of it. -/
theorem TypeNode.lt (ha : a.WellFormed) {i : Nat} {h : Header} {kind : Kind} {p : Payload Ref}
    (hr : a.Holds (some i) h kind p) {place : TypePlace} {c : Ref} (hc : c ∈ p.children)
    (he : a.TypeNode last place c) : ∃ j : Nat, c = some j ∧ j < i :=
  hr.child_lt ha hc he.exists_node

/-- A keyword is written as itself, and it is no more than its kind. -/
theorem keyword_text (ha : a.WellFormed) {i : Nat} {h : Header} {t : Token}
    (hr : a.header? (some i) = some h) (hk : h.kind = .token t)
    (ht : t.isTypeKeyword = true ∨ t ∈ Token.constants) (levels indent : Nat) :
    a.print (levels + 1) indent (some i) = t.text?.getD "" ∧
      a.typeTree (some i) = Tree.keyword t := by
  have hpayload : a.payload? h = none := by
    refine payload?_of_token hk fun hmem => ?_
    have hall : ∀ t ∈ [Token.identifier, .stringLiteral, .numericLiteral],
        ¬ (t.isTypeKeyword = true ∨ t ∈ Token.constants) := by decide
    exact hall t hmem ht
  refine ⟨print_token hr hk hpayload levels indent, ?_⟩
  rw [typeTree, fold_of_header? ha hr, hpayload]
  show some (Tree.node h.kind (h.kind.writtenFlags h.flags) 0 0 none) = _
  rw [hk]
  rfl

section Text

variable {i : Nat} {h : Header} (levels indent : Nat)

theorem toList_reference {name : Ref} {arguments : Option (List Ref)}
    (hr : a.Holds (some i) h (.form .typeReference) (.typeReference name arguments)) :
    (a.print (levels + 1) indent (some i)).toList = (a.identifierText name).toList ++
      match arguments with
      | none => []
      | some rs => "<".toList ++
          (", ".toList.intercalate (rs.map fun r => (a.print levels indent r).toList) ++
            ">".toList) := by
  rw [print_of_content? hr.content, nodeText, String.toList_append]
  cases arguments with
  | none => rfl
  | some rs => simp only [typeList, String.toList_append, toList_commaList, List.append_assoc]

theorem toList_parameter {name ascription : Ref}
    (hr : a.Holds (some i) h (.form .parameter) (.parameter name ascription none)) :
    (a.print (levels + 1) indent (some i)).toList = (a.identifierText name).toList ++
      ((if h.has .optional then "?" else "").toList ++
        (typeAscription (a.print levels) indent ascription).toList) := by
  rw [print_of_content? hr.content, nodeText]
  simp only [flagText, slot, String.toList_append, String.toList_empty, List.append_nil,
    List.append_assoc]

theorem toList_functionType {parameters : List Ref} {result : Ref}
    (hr : a.Holds (some i) h (.form .functionType) (.functionType none parameters result)) :
    (a.print (levels + 1) indent (some i)).toList = "(".toList ++
      ((", ".toList.intercalate (parameters.map fun r => (a.print levels indent r).toList) ++
        ")".toList) ++ (" => ".toList ++ (a.print levels indent result).toList)) := by
  rw [print_of_content? hr.content, nodeText, parameterList]
  simp only [typeList, String.toList_append, String.toList_empty, List.nil_append, toList_commaList,
    List.append_assoc]

theorem toList_unionType {members : List Ref}
    (hr : a.Holds (some i) h (.form .unionType) (.union members)) :
    (a.print (levels + 1) indent (some i)).toList =
      " | ".toList.intercalate (members.map fun r => (a.print levels indent r).toList) := by
  rw [print_of_content? hr.content, nodeText, String.toList_intercalate, List.map_map]
  rfl

theorem toList_arrayType {element : Ref}
    (hr : a.Holds (some i) h (.form .arrayType) (.arrayType element)) :
    (a.print (levels + 1) indent (some i)).toList =
      (a.elementText (a.print levels) indent element).toList ++ "[]".toList := by
  rw [print_of_content? hr.content, nodeText, String.toList_append]

end Text

/-- Unions and functions are put in parentheses as elements of arrays. -/
def Parenthesized (a : Arena) (r : Ref) : Prop :=
  a.kind? r = some (.form .unionType) ∨ a.kind? r = some (.form .functionType)

instance (a : Arena) (r : Ref) : Decidable (a.Parenthesized r) :=
  inferInstanceAs (Decidable (_ ∨ _))

/-- Functions and unions are put in parentheses before brackets, -/
theorem elementText_parenthesized (write : (indent : Nat) → Ref → String) (indent : Nat) {r : Ref}
    (hr : a.Parenthesized r) :
    (a.elementText write indent r).toList = "(".toList ++
      ((write indent r).toList ++ ")".toList) := by
  rw [elementText]
  rcases hr with hr | hr
  · rw [hr, String.toList_append, String.toList_append, List.append_assoc]
  · rw [hr, String.toList_append, String.toList_append, List.append_assoc]

/-- and nothing else is. -/
theorem elementText_operand (write : (indent : Nat) → Ref → String) (indent : Nat) {r : Ref}
    (hr : ¬ a.Parenthesized r) : a.elementText write indent r = write indent r := by
  unfold elementText
  split
  · exact absurd (.inl ‹_›) hr
  · exact absurd (.inr ‹_›) hr
  · rfl

theorem Holds.kind? {r : Ref} {h : Header} {kind : Kind} {p : Payload Ref}
    (hr : a.Holds r h kind p) :
    a.kind? r = some kind := by
  rw [Arena.kind?, (content?_eq_some.1 hr.content).1, ← hr.kind]
  rfl

section Kinds

variable {r : Ref} (he : a.TypeNode last .type r)
include he

/-- A union of the grammar has two members at least, none of them a union itself. -/
theorem TypeNode.exists_union (hk : a.kind? r = some (.form .unionType)) :
    ∃ h members, a.Holds r h (.form .unionType) (.union members) ∧ 2 ≤ members.length ∧
      (∀ x ∈ members, a.TypeNode last .type x) ∧
      (∀ x ∈ members, a.kind? x ≠ some (.form .unionType)) ∧
      (last = true → ∀ x ∈ members.dropLast, a.kind? x ≠ some (.form .functionType)) := by
  cases he with
  | union hr hlength hmembers hflat hlast => exact ⟨_, _, hr, hlength, hmembers, hflat, hlast⟩
  | keyword hr hk' _ =>
    rw [Arena.kind?, hr, Option.map_some, hk'] at hk
    cases hk
  | reference hr _ _ | literal hr _ | array hr _ | object hr _ | function hr _ _ =>
    rw [hr.kind?] at hk
    cases hk

/-- A function type has parameters and a type as result, but no type parameters. -/
theorem TypeNode.exists_function (hk : a.kind? r = some (.form .functionType)) :
    ∃ h parameters result,
      a.Holds r h (.form .functionType) (.functionType none parameters result) ∧
      (∀ x ∈ parameters, a.TypeNode last .parameter x) ∧ a.TypeNode last .type result := by
  cases he with
  | function hr hparameters hresult => exact ⟨_, _, _, hr, hparameters, hresult⟩
  | keyword hr hk' _ =>
    rw [Arena.kind?, hr, Option.map_some, hk'] at hk
    cases hk
  | reference hr _ _ | literal hr _ | array hr _ | object hr _ | union hr _ _ _ _ =>
    rw [hr.kind?] at hk
    cases hk

end Kinds

/-- A value is a literal or a keyword, and it is written as such. -/
theorem noFunction_literal (ha : a.WellFormed) {i : Nat}
    (hl : a.Literal (some i) ∨ a.Constant (some i))
    (levels indent : Nat) : NoFunction (a.print (levels + 1) indent (some i)).toList := by
  rcases hl with hl | ⟨h, t, hr, hk, ht⟩
  · obtain ⟨h, text, hl | ⟨hl, hdigits⟩⟩ := hl
    · rw [print_of_content? hl.content, nodeText, literalText_of_string hl.kind, Quoted.literal,
        Quoted.toList_quote]
      exact noFunction_mark (.inl rfl) _
    · rw [print_of_content? hl.content, nodeText, literalText_of_number hl.kind,
        ← List.append_nil text.toList]
      refine noFunction_word ?_ (not_mark_of_digits hdigits) (.inl rfl)
      rintro hnil
      rw [hnil] at hdigits
      cases hdigits
  · rw [(keyword_text ha hr hk (.inr ht) levels indent).1, ← List.append_nil (String.toList _)]
    exact noFunction_name (isIdentifierText_of_keyword (.inr ht)) (.inl rfl)

/-- The first of several members is no function. -/
theorem kind?_first {members : List Ref} {m m' : Ref} {ms : List Ref}
    (hms : members = m :: m' :: ms)
    (hlast : ∀ x ∈ members.dropLast, a.kind? x ≠ some (.form .functionType))
    (hflat : ∀ x ∈ members, a.kind? x ≠ some (.form .unionType)) : ¬ a.Parenthesized m := by
  subst hms
  exact fun h => h.elim (hflat m List.mem_cons_self)
    (hlast m (by rw [List.dropLast_cons_cons]; exact List.mem_cons_self))

/-- What is put in parentheses is a function, or it begins with the first member of a union. -/
theorem inside_text (ha : a.WellFormed) {j levels : Nat} (indent : Nat) (hl : j < levels)
    (he : a.TypeNode true .type (some j)) (hparentheses : a.Parenthesized (some j))
    (hbelow : ∀ k < j, ∀ levels, k < levels → a.TypeNode true .type (some k) →
      ¬ a.Parenthesized (some k) → NoFunction (a.print levels indent (some k)).toList)
    (rest : List Char) : namesParameter
      ((a.print levels indent (some j)).toList ++ rest) = false := by
  obtain ⟨levels, rfl⟩ : ∃ l, levels = l + 1 := ⟨levels - 1, by omega⟩
  rcases hparentheses with hunion | hfunction
  · obtain ⟨h, members, hr, hlength, hmembers, hflat, hlast⟩ := he.exists_union hunion
    match hms : members, hlength with
    | m :: m' :: ms, _ =>
      have hfirst := kind?_first rfl (hlast rfl) hflat
      obtain ⟨k, rfl, hk⟩ := TypeNode.lt ha hr List.mem_cons_self (hmembers m List.mem_cons_self)
      have hnone := hbelow k hk levels (by omega) (hmembers _ List.mem_cons_self) hfirst
      rw [toList_unionType levels indent hr, List.map_cons, List.map_cons,
        List.intercalate_cons_cons,
        List.append_assoc, List.append_assoc]
      exact hnone.names (begins_cons (by decide))
  · obtain ⟨h, parameters, result, hr, -, -⟩ := he.exists_function hfunction
    rw [toList_functionType levels indent hr, List.append_assoc]
    exact namesParameter_mark (by decide) _

/-- **What is neither a union nor a function does not begin like a function.** -/
theorem operand_text (ha : a.WellFormed) : ∀ (i levels indent : Nat), i < levels →
    a.TypeNode true .type (some i) → ¬ a.Parenthesized (some i) →
      NoFunction (a.print levels indent (some i)).toList := by
  intro i
  induction i using Nat.strongRecOn with
  | ind i ih =>
    intro levels indent hl he hoperand
    obtain ⟨levels, rfl⟩ : ∃ l, levels = l + 1 := ⟨levels - 1, by omega⟩
    -- Only an array begins with another type, and that one is either in parentheses or an operand.
    cases he with
    | keyword hr hk ht =>
      rw [(keyword_text ha hr hk (.inl ht) levels indent).1, ← List.append_nil (String.toList _)]
      exact noFunction_name (isIdentifierText_of_keyword (.inl ht)) (.inl rfl)
    | @reference _ h name arguments hr hname harguments =>
      rw [toList_reference levels indent hr]
      refine noFunction_name (hname.identifierText ha).1.1 ?_
      cases arguments with
      | none => exact .inl rfl
      | some rs => exact .inr ⟨_, rfl⟩
    | @literal _ h l hr hvalue =>
      obtain ⟨j, rfl, hj⟩ : ∃ j : Nat, l = some j ∧ j < i := by
        refine hr.child_lt ha List.mem_cons_self ?_
        rcases hvalue with hliteral | ⟨h', t, hh, -, -⟩
        · obtain ⟨h', text, kind, hliteral⟩ := hliteral.holds
          exact hliteral.exists_node
        · exact exists_node_of_header? hh
      obtain ⟨levels, rfl⟩ : ∃ l, levels = l + 1 := ⟨levels - 1, by omega⟩
      rw [print_of_content? hr.content, nodeText]
      exact noFunction_literal ha hvalue levels indent
    | @array _ h element hr helement =>
      obtain ⟨j, rfl, hj⟩ := TypeNode.lt ha hr List.mem_cons_self helement
      rw [toList_arrayType levels indent hr]
      by_cases hparentheses : a.Parenthesized (some j)
      · rw [elementText_parenthesized _ _ hparentheses]
        refine NoFunction.brackets (.inr
          ⟨(a.print levels indent (some j)).toList ++ ")".toList, rfl,
          fun rest => ?_⟩)
        rw [List.append_assoc]
        exact inside_text ha indent (by omega) helement hparentheses
          (fun k hk levels hl => ih k (by omega) levels indent hl) _
      · rw [elementText_operand _ _ hparentheses]
        exact (ih j hj levels indent (by omega) helement hparentheses).brackets
    | function hr _ _ => exact absurd (.inr hr.kind?) hoperand
    | @object _ h members hr hmembers =>
      obtain ⟨cs, hcs⟩ : ∃ cs, (a.print (levels + 1) indent (some i)).toList = '\x7b' :: cs := by
        rw [print_of_content? hr.content, nodeText]
        split
        · exact ⟨['\x7d'], rfl⟩
        · rw [String.toList_append, String.toList_append, List.append_assoc]
          exact ⟨_, rfl⟩
      rw [hcs]
      exact noFunction_mark (.inr rfl) cs
    | union hr _ _ _ _ => exact absurd (.inl hr.kind?) hoperand

/-! ## Parts -/

/-- Type nodes in front of a position are read. -/
def TypesReadBelow (a : Arena) (n : Nat) : Prop :=
  ∀ (j levels indent : Nat), j < n → j < levels → a.TypeNode true .type (some j) →
    Reads (readTypeNode n) (a.print levels indent (some j)).toList (a.typeTree (some j)) typeEnds

section Parts

variable {n i levels : Nat} (ha : a.WellFormed) (h : a.TypesReadBelow n) (indent : Nat) (hi : i ≤ n)
  (hl : i ≤ levels)
include ha h hi hl

/-- The type of a parameter or a property is read, if it has one. -/
theorem reads_ascription {hd : Header} {kind : Kind} {p : Payload Ref}
    (hr : a.Holds (some i) hd kind p)
    {r : Ref} (hmem : r ∈ p.children) (he : r ≠ none → a.TypeNode true .type r) {ends : List Char}
    (hends : ends ⊆ typeEnds) :
    Reads (readAscription (readTypeNode n)) (typeAscription (a.print levels) indent r).toList
      (a.typeTree r) ends := by
  cases r with
  | none =>
    rw [typeTree_none]
    refine .absent ": " (fun rest hrest => skip_eq_none (hrest.mono hends) (by decide)) .pure
  | some j =>
    obtain ⟨j', hj', hj⟩ := TypeNode.lt ha hr hmem (he nofun)
    obtain rfl := Option.some.inj hj'
    have hread := h j levels indent (by omega) (by omega) (he nofun)
    have htext : (typeAscription (a.print levels) indent (some j)).toList =
        ": ".toList ++ (a.print levels indent (some j)).toList := String.toList_append
    rw [htext]
    exact .accept ": " (hread.mono hends)

/-- Types between angle brackets are read. -/
theorem reads_referenceArguments {hd : Header} {kind : Kind} {p : Payload Ref}
    (hr : a.Holds (some i) hd kind p) {rs : List Ref} (hrs : ∀ x ∈ rs, x ∈ p.children)
    (he : ∀ x ∈ rs, a.TypeNode true .type x) (ends : List Char) :
    Reads (enclosed (readTypeNode n) ">")
      (", ".toList.intercalate (rs.map fun r => (a.print levels indent r).toList) ++ ">".toList)
      (rs.map a.typeTree) ends := by
  refine reads_enclosed (c := '>') rfl (by decide) (readTypeNode_close n) fun x hx => ?_
  obtain ⟨j, rfl, hj⟩ := TypeNode.lt ha hr (hrs x hx) (he x hx)
  exact (h j levels indent (by omega) (by omega) (he _ hx)).mono (by decide)

end Parts

theorem begins_ascription (write : (indent : Nat) → Ref → String) (indent : Nat) (r : Ref)
    {ends rest : List Char} (hrest : Begins ends rest) :
    Begins (':' :: ends) ((typeAscription write indent r).toList ++ rest) := by
  cases r with
  | none => exact hrest.mono (List.subset_cons_self ':' ends)
  | some j =>
    have htext : (typeAscription write indent (some j)).toList =
        ": ".toList ++ (write indent (some j)).toList := String.toList_append
    rw [htext]
    exact begins_cons List.mem_cons_self

theorem begins_optional (optional : Bool) {ends rest : List Char} (hrest : Begins ends rest) :
    Begins ('?' :: ends) ((if optional then "?" else "").toList ++ rest) := by
  cases optional with
  | true => exact begins_cons List.mem_cons_self
  | false => exact hrest.mono (List.subset_cons_self '?' ends)

/-- No key begins with a modifier. -/
theorem skip_readonly {r : Ref} (hr : a.Keyed r) {rest : List Char}
    (hrest : Begins ['?', ':', ';'] rest) :
    skip "readonly ".toList ((a.propertyName r).toList ++ rest) = none := by
  have hword {word : List Char} (hword : ∀ c ∈ word, c ∉ marks) :
      skip "readonly ".toList (word ++ rest) = none :=
    skip_word (c := ' ') (by decide) (fun h => hword ' ' h (by decide)) hrest (by simp)
  rcases hr with ⟨h, text, hr, htext⟩ | ⟨h, text, hr | ⟨hr, hdigits⟩⟩
  · have hname : a.propertyName r = text := by rw [Arena.propertyName, hr.content]
    rw [hname]
    exact hword (not_mark_of_name htext.1)
  · have hname : a.propertyName r = Quoted.literal text := by
      rw [Arena.propertyName, hr.content, ← literalText_of_string hr.kind]
    rw [hname, Quoted.literal, Quoted.toList_quote]
    exact skip_eq_none (begins_cons (List.mem_singleton_self '"')) rfl
  · have hname : a.propertyName r = text := by
      rw [Arena.propertyName, hr.content]
      exact literalText_of_number hr.kind text
    rw [hname]
    exact hword (not_mark_of_digits hdigits)

section Nodes

variable {n i levels : Nat} (ha : a.WellFormed) (h : a.TypesReadBelow n) (indent : Nat) (hi : i ≤ n)
  (hl : i < levels)
include ha h hi hl

/-- **A parameter is read** with its mark and its type. -/
theorem reads_typeParameter (he : a.TypeNode true .parameter (some i)) :
    Reads (readTypeParameter (readTypeNode n)) (a.print levels indent (some i)).toList
      (a.typeTree (some i)) [',', ')'] := by
  obtain ⟨levels, rfl⟩ : ∃ l, levels = l + 1 := ⟨levels - 1, by omega⟩
  cases he with
  | @parameter _ hd name ascription hr hname hascription =>
    obtain ⟨⟨hidentifier, -⟩, -⟩ := hname.identifierText ha
    have htype := reads_ascription ha h indent hi (Nat.le_of_lt_succ hl) hr
      (by simp [Payload.children]) hascription (by decide : [',', ')'] ⊆ typeEnds)
    have htree : a.typeTree (some i) = some (.node (.form .parameter)
        (if hd.has .optional then .optional else .empty) 0 0
          (some (.parameter (Tree.name (a.identifierText name))
            (a.typeTree ascription) none))) := by
      rw [hr.typeTree ha (by simp), ← hname.typeTree ha, ← a.typeTree_none]
      rfl
    have hbehind (rest : List Char) (hrest : Begins [',', ')'] rest) :
        Begins [':', ',', ')'] ((typeAscription
          (a.print levels) indent ascription).toList ++ rest) :=
      begins_ascription _ indent ascription hrest
    rw [toList_parameter levels indent hr, htree]
    refine (reads_name hidentifier (by decide : ['?', ':', ',', ')'] ⊆ marks)).bind
      (.flag "?" (hd.has .optional) htype.bind_pure fun _ rest hrest => ?_) fun rest hrest => ?_
    · exact skip_eq_none (hbehind rest hrest) (by decide)
    · rw [List.append_assoc]
      exact begins_optional _ (hbehind rest hrest)

/-- **A property is read** with its marks and its type. -/
theorem reads_typeProperty (he : a.TypeNode true .property (some i)) (ends : List Char) :
    Reads (readTypeProperty (readTypeNode n))
      ((a.print levels indent (some i)).toList ++ "; ".toList) (a.typeTree (some i)) ends := by
  obtain ⟨levels, rfl⟩ : ∃ l, levels = l + 1 := ⟨levels - 1, by omega⟩
  cases he with
  | @property _ hd name ascription hr hname hascription =>
    have htype := reads_ascription ha h indent hi (Nat.le_of_lt_succ hl) hr
      (by simp [Payload.children]) hascription (by decide : [';'] ⊆ typeEnds)
    have htext : (a.print (levels + 1) indent (some i)).toList ++ "; ".toList =
        (if hd.has .readonly then "readonly " else "").toList ++ ((a.propertyName name).toList ++
          ((if hd.has .optional then "?" else "").toList ++
            ((typeAscription (a.print levels) indent ascription).toList ++ "; ".toList))) := by
      rw [print_of_content? hr.content, nodeText]
      simp only [flagText, String.toList_append, String.toList_empty, List.append_nil,
        List.append_assoc]
    have htree : a.typeTree (some i) = some (.node (.form .propertySignature)
        (.union (if hd.has .optional then .optional else .empty)
          (if hd.has .readonly then .readonly else .empty)) 0 0
          (some (.signature (a.skeleton name) none none (a.typeTree ascription)))) := by
      rw [hr.typeTree ha (by simp), ← hname.typeTree ha]
      rfl
    have hbehind (rest : List Char) : Begins [':', ';']
        ((typeAscription (a.print levels) indent ascription).toList ++ "; ".toList ++ rest) := by
      rw [List.append_assoc]
      exact begins_ascription _ indent ascription (begins_cons (by decide))
    rw [htext, htree]
    refine .flag "readonly " (hd.has .readonly) ?_ fun _ rest _ => ?_
    · refine (reads_key hname ha (by decide : ['?', ':', ';'] ⊆ marks)).bind
        (.flag "?" (hd.has .optional) ?_ fun _ rest _ => ?_) fun rest _ => ?_
      · exact htype.bind (.expect "; " .pure) fun _ _ => begins_cons (by decide)
      · exact skip_eq_none (hbehind rest) (by decide)
      · rw [List.append_assoc]
        exact begins_optional _ (hbehind rest)
    · rw [List.append_assoc]
      refine skip_readonly hname ?_
      rw [List.append_assoc]
      exact begins_optional _ (hbehind rest)

/-- A type literal is read with its properties. -/
theorem reads_typeLiteralNode {hd : Header} {members : List Ref}
    (hr : a.Holds (some i) hd (.form .typeLiteral) (.typeLiteral members))
    (hmembers : ∀ x ∈ members, a.TypeNode true .property x) :
    Reads (readTypeAtom (readTypeNode n)) (a.print levels indent (some i)).toList
      (a.typeTree (some i)) typeOperandEnds := by
  obtain ⟨levels, rfl⟩ : ∃ l, levels = l + 1 := ⟨levels - 1, by omega⟩
  rw [print_of_content? hr.content, nodeText, hr.typeTree ha (by simp)]
  cases hms : members with
  | nil =>
    rw [List.isEmpty_nil, if_pos rfl]
    show Reads _ ("\x7b".toList ++ ("\x7d".toList ++ [])) _ _
    exact .absent "(" (fun _ _ => rfl) (.accept "\x7b" (.accept "\x7d" .pure))
  | cons m ms =>
    have hmany : Reads (many (readTypeProperty (readTypeNode n)) "\x7d")
        (members.flatMap (fun r => (a.print levels indent r).toList ++ "; ".toList) ++
          "\x7d".toList)
        (members.map a.typeTree) typeOperandEnds :=
      reads_many_of_none (c := '\x7d') rfl readTypeProperty_close fun x hx ends => by
        obtain ⟨j, rfl, hj⟩ := TypeNode.lt ha hr hx (hmembers x hx)
        exact reads_typeProperty ha h indent (by omega) (by omega) (hmembers _ hx) ends
    have htext : ("\x7b " ++ String.join (members.map (a.print levels indent · ++ "; ")) ++
        "\x7d").toList = "\x7b".toList ++ (" ".toList ++ (members.flatMap (fun r =>
          (a.print levels indent r).toList ++ "; ".toList) ++ "\x7d".toList)) := by
      have hopen : "\x7b ".toList = "\x7b".toList ++ " ".toList := rfl
      simp only [String.toList_append, String.toList_join, List.flatMap_map, hopen,
        List.append_assoc]
    rw [hms] at hmany htext
    rw [List.isEmpty_cons, if_neg Bool.false_ne_true, htext]
    exact .absent "(" (fun _ _ => rfl) (.accept "\x7b" (.absent "\x7d" (fun _ _ => rfl)
      (.expect " " hmany.bind_pure)))

/-- A name and its arguments are read as what they were. -/
theorem reads_referenceNode {hd : Header} {name : Ref} {arguments : Option (List Ref)}
    (hr : a.Holds (some i) hd (.form .typeReference) (.typeReference name arguments))
    (hname : a.Named name) (harguments : ∀ x ∈ arguments.getD [], a.TypeNode true .type x) :
    Reads (readTypeAtom (readTypeNode n)) (a.print levels indent (some i)).toList
      (a.typeTree (some i)) typeOperandEnds := by
  obtain ⟨levels, rfl⟩ : ∃ l, levels = l + 1 := ⟨levels - 1, by omega⟩
  obtain ⟨hidentifier, -⟩ := hname.identifierText ha
  rw [toList_reference levels indent hr, hr.typeTree ha (by simp)]
  cases arguments with
  | none =>
    have hword : Reads (readTypeAtom (readTypeNode n)) _ _ _ := reads_typeName hidentifier.1
    rw [typeWord_name hidentifier, ← hname.typeTree ha] at hword
    rw [List.append_nil]
    exact hword
  | some rs =>
    have hlist := reads_referenceArguments ha h indent hi (Nat.le_of_lt_succ hl) hr
      (fun x hx => List.mem_cons_of_mem name hx) harguments typeOperandEnds
    refine takes_typeName hidentifier.1 (by decide : ['<'] ⊆ marks)
      (fun _ _ => begins_cons (by decide)) ?_
    have harguments : Reads (readTypeArguments (readTypeNode n) (a.identifierText name)) _ _ _ :=
      .accept "<" hlist.bind_pure
    rw [← hname.typeTree ha] at harguments
    exact harguments

end Nodes

section LiteralTypes

variable {i : Nat} {h : Header} {l : Ref} (ha : a.WellFormed)
  (hr : a.Holds (some i) h (.form .literalType) (.literalType l))
include ha hr

theorem literalType_null (hl : a.typeTree l = Tree.keyword .nullKeyword) :
    a.typeTree (some i) = Tree.keyword .nullKeyword := by
  rw [typeTree, fold_of_content? ha hr.content]
  show some (Tree.ofTypeNode h (some (.literalType (a.typeTree l)))) = _
  rw [hl]
  rfl

/-- But for `null` a literal type is told from its literal. -/
theorem literalType_tree {t : Token} {p : Option (Payload (Option Tree))}
    (hl : a.typeTree l = some (.node (.token t) .empty 0 0 p)) (ht : t ≠ .nullKeyword) :
    a.typeTree (some i) = Tree.bare (.form .literalType) (.literalType (a.typeTree l)) := by
  have hnode : Tree.ofTypeNode h (some (.literalType (some (.node (.token t) .empty 0 0 p)))) =
      .node h.kind (h.kind.writtenFlags h.flags) 0 0
        (some (.literalType (some (.node (.token t) .empty 0 0 p)))) := by
    cases t with
    | nullKeyword => exact absurd rfl ht
    | _ => rfl
  rw [typeTree, fold_of_content? ha hr.content]
  show some (Tree.ofTypeNode h (some (.literalType (a.typeTree l)))) = some (.node _ _ _ _ (some
    (.literalType (a.typeTree l))))
  rw [hl, hnode, hr.kind]
  rfl

/-- **A literal type is read** from the text of its literal. -/
theorem reads_literalType (hl : a.Literal l ∨ a.Constant l) {inner : Reader (Option Tree)}
    {levels : Nat} (hlevels : i < levels) (indent : Nat) :
    Reads (readTypeAtom inner) (a.print levels indent (some i)).toList (a.typeTree (some i))
      typeOperandEnds := by
  obtain ⟨levels, rfl⟩ : ∃ l, levels = l + 1 := ⟨levels - 1, by omega⟩
  rw [print_of_content? hr.content, nodeText]
  rcases hl with hliteral | ⟨hd, t, hh, hk, ht⟩
  · obtain ⟨hd, text, kind, hholds⟩ := hliteral.holds
    obtain ⟨j, rfl, hj⟩ := hr.child_lt ha List.mem_cons_self hholds.exists_node
    obtain ⟨levels, rfl⟩ : ∃ l, levels = l + 1 := ⟨levels - 1, by omega⟩
    have hread : Reads (readTypeAtom inner) _ _ _ := reads_typeLiteral
      (exists_cons_of_literal hholds hliteral) (reads_literal hholds hliteral ha (by decide))
    have htree : ∃ t p, a.typeTree (some j) = some (.node (.token t) .empty 0 0 p) ∧
        t ≠ .nullKeyword := by
      rw [hliteral.typeTree ha]
      obtain ⟨hd', text', hstring | ⟨hnumber, -⟩⟩ := hliteral
      · exact ⟨.stringLiteral, _, hstring.skeleton ha, by decide⟩
      · exact ⟨.numericLiteral, _, hnumber.skeleton ha, by decide⟩
    obtain ⟨t, p, htree, ht⟩ := htree
    rw [print_of_content? hholds.content, nodeText, literalType_tree ha hr htree ht,
      hliteral.typeTree ha]
    exact hread
  · obtain ⟨j, rfl, hj⟩ := hr.child_lt ha List.mem_cons_self (exists_node_of_header? hh)
    obtain ⟨levels, rfl⟩ : ∃ l, levels = l + 1 := ⟨levels - 1, by omega⟩
    obtain ⟨htext, htree⟩ := keyword_text ha hh hk (.inr ht) levels indent
    have hread : Reads (readTypeAtom inner) _ _ _ :=
      reads_typeName (isIdentifierText_of_keyword (.inr ht))
    rw [htext]
    cases t with
    | nullKeyword =>
      rw [literalType_null ha hr htree]
      exact hread
    | trueKeyword | falseKeyword =>
      rw [literalType_tree ha hr htree (by decide), htree]
      exact hread
    | _ => exact absurd ht (by decide)

end LiteralTypes

/-! ## Operands -/

/-- **What is neither a union nor a function is read**, whatever brackets come behind. -/
theorem reads_typeOperand (ha : a.WellFormed) {n : Nat} (h : a.TypesReadBelow n) :
    ∀ (i levels indent : Nat), i ≤ n → i < levels → a.TypeNode true .type (some i) →
      ¬ a.Parenthesized (some i) → ∀ rest, Begins typeOperandEnds rest →
        readTypeOperand (readTypeNode n) ((a.print levels indent (some i)).toList ++ rest) =
          some (brackets Tree.arrayType (a.typeTree (some i)) rest) := by
  intro i
  induction i using Nat.strongRecOn with
  | ind i ih =>
    intro levels indent hi hl he hoperand rest hrest
    cases he with
    | @keyword _ hd t hr hk ht =>
      obtain ⟨levels, rfl⟩ : ∃ l, levels = l + 1 := ⟨levels - 1, by omega⟩
      obtain ⟨htext, htree⟩ := keyword_text ha hr hk (.inl ht) levels indent
      rw [htext, htree, ← typeWord_keyword ht]
      exact bind_brackets (reads_typeName (isIdentifierText_of_keyword (.inl ht))) hrest
    | reference hr hname harguments =>
      exact bind_brackets (reads_referenceNode ha h indent hi hl hr hname harguments) hrest
    | literal hr hvalue =>
      exact bind_brackets (reads_literalType ha hr hvalue hl indent) hrest
    | object hr hmembers =>
      exact bind_brackets (reads_typeLiteralNode ha h indent hi hl hr hmembers) hrest
    | @array _ hd element hr helement =>
      -- The brackets of the array are taken as those behind its element, with all that follow.
      obtain ⟨levels, rfl⟩ : ∃ l, levels = l + 1 := ⟨levels - 1, by omega⟩
      obtain ⟨j, rfl, hj⟩ := TypeNode.lt ha hr List.mem_cons_self helement
      rw [toList_arrayType levels indent hr, List.append_assoc, hr.typeTree ha (by simp)]
      by_cases hparentheses : a.Parenthesized (some j)
      · have hinner := h j levels indent (by omega) (by omega) helement
        have hatom : Reads (readTypeAtom (readTypeNode n)) ("(".toList ++
            ((a.print levels indent (some j)).toList ++ (")".toList ++ []))) (a.typeTree (some j))
            typeOperandEnds :=
          .accept "(" (hinner.bind (.expect ")" .pure) fun _ _ => begins_cons (by decide))
        rw [List.append_nil] at hatom
        rw [elementText_parenthesized _ _ hparentheses]
        exact bind_brackets hatom (begins_cons (by decide))
      · rw [elementText_operand _ _ hparentheses]
        exact ih j hj levels indent (by omega) (by omega) helement hparentheses _
          (begins_cons (by decide))
    | function hr _ _ => exact absurd (.inr hr.kind?) hoperand
    | union hr _ _ _ _ => exact absurd (.inl hr.kind?) hoperand

/-! ## Members -/

/-- A function is recognised by its parameters. -/
theorem opensParameters_functionType (ha : a.WellFormed) {i levels : Nat} (indent : Nat)
    (hl : i < levels) {h : Header} {parameters : List Ref} {result : Ref}
    (hr : a.Holds (some i) h (.form .functionType) (.functionType none parameters result))
    (hparameters : ∀ x ∈ parameters, a.TypeNode last .parameter x) (rest : List Char) :
    opensParameters ((a.print levels indent (some i)).toList ++ rest) = true := by
  obtain ⟨levels, rfl⟩ : ∃ l, levels = l + 1 := ⟨levels - 1, by omega⟩
  have hopen (cs : List Char) : opensParameters ("(".toList ++ cs) = namesParameter cs :=
    opensParameters_cons cs
  rw [toList_functionType levels indent hr, List.append_assoc, hopen]
  cases parameters with
  | nil => exact namesParameter_mark (by decide) _
  | cons x xs =>
    obtain ⟨j, rfl, hj⟩ := TypeNode.lt ha hr List.mem_cons_self (hparameters x List.mem_cons_self)
    obtain ⟨levels, rfl⟩ : ∃ l, levels = l + 1 := ⟨levels - 1, by omega⟩
    cases hparameters _ List.mem_cons_self with
    | @parameter _ hd name ascription hr' hname _ =>
      obtain ⟨tail, htail, hbehind⟩ : ∃ tail, ", ".toList.intercalate
          ((some j :: xs).map fun r => (a.print (levels + 1) indent r).toList) =
            (a.print (levels + 1) indent (some j)).toList ++ tail ∧
          ∀ more, Begins [',', ')'] (tail ++ (")".toList ++ more)) := by
        cases xs with
        | nil => exact ⟨[], by simp, fun more => begins_cons (by decide)⟩
        | cons y ys =>
          refine ⟨", ".toList ++ ", ".toList.intercalate
            ((y :: ys).map fun r => (a.print (levels + 1) indent r).toList), ?_, fun more => ?_⟩
          · rw [List.map_cons, List.map_cons, List.intercalate_cons_cons, List.append_assoc]
          · rw [List.append_assoc]
            exact begins_cons (by decide)
      have hident := isIdentifierPart_of_mem (hname.identifierText ha).1.1
      rw [htail, toList_parameter levels indent hr']
      simp only [List.append_assoc]
      rw [namesParameter_append hident]
      refine namesParameter_of_begins (by simp) ?_
      have hmore := begins_ascription (a.print levels) indent ascription (hbehind
        (" => ".toList ++ ((a.print (levels + 1) indent result).toList ++ rest)))
      exact (begins_optional (hd.has .optional) hmore).mono (by decide)

section Members

variable {n i levels : Nat} (ha : a.WellFormed) (h : a.TypesReadBelow n) (indent : Nat) (hi : i ≤ n)
  (hl : i < levels)
include ha h hi hl

/-- An operand is read as a member, with another one behind it or not. -/
theorem reads_operandMember (he : a.TypeNode true .type (some i))
    (hoperand : ¬ a.Parenthesized (some i)) :
    Reads (readMember (readTypeNode n)) (a.print levels indent (some i)).toList
      (a.typeTree (some i))
      (' ' :: typeEnds) := by
  intro rest hrest
  have hopens := (operand_text ha i levels indent hl he hoperand).opens rest
  rw [readMember, hopens, if_neg Bool.false_ne_true,
    reads_typeOperand ha h i levels indent hi hl he hoperand rest (hrest.mono (by decide)),
    brackets_eq _ _ hrest]

/-- A function is read as a member with nothing behind it. -/
theorem reads_functionMember {hd : Header} {parameters : List Ref} {result : Ref}
    (hr : a.Holds (some i) hd (.form .functionType) (.functionType none parameters result))
    (hparameters : ∀ x ∈ parameters, a.TypeNode true .parameter x)
    (hresult : a.TypeNode true .type result) :
    Reads (readMember (readTypeNode n)) (a.print levels indent (some i)).toList
      (a.typeTree (some i))
      typeEnds := by
  intro rest hrest
  rw [readMember, opensParameters_functionType ha indent hl hr hparameters rest, if_pos rfl]
  obtain ⟨levels, rfl⟩ : ∃ l, levels = l + 1 := ⟨levels - 1, by omega⟩
  obtain ⟨k, rfl, hk⟩ := TypeNode.lt ha hr (by simp [Payload.children]) hresult
  have hlist : ∀ ends, Reads (enclosed (readTypeParameter (readTypeNode n)) ")")
      (", ".toList.intercalate (parameters.map fun r =>
        (a.print levels indent r).toList) ++ ")".toList)
      (parameters.map a.typeTree) ends := fun ends =>
    reads_enclosed (c := ')') rfl (by decide) readTypeParameter_close fun x hx => by
      obtain ⟨j, rfl, hj⟩ := TypeNode.lt ha hr (by simp [Payload.children, hx]) (hparameters x hx)
      exact reads_typeParameter ha h indent (by omega) (by omega) (hparameters _ hx)
  have hread := h k levels indent (by omega) (by omega) hresult
  have hfunction : Reads (do expect "("; readFunctionType (readTypeNode n) : Reader
    (Option Tree)) _ _
      typeEnds :=
    .expect "(" (.bind_delimited hlist (.expect " => " hread.bind_pure))
  rw [toList_functionType levels indent hr, hr.typeTree ha (by simp)]
  exact hfunction rest hrest

/-- **The last member of a union is read**, and so is a type that is no union. -/
theorem reads_lastMember (he : a.TypeNode true .type (some i))
    (hflat : a.kind? (some i) ≠ some (.form .unionType)) :
    Reads (readMember (readTypeNode n)) (a.print levels indent (some i)).toList
      (a.typeTree (some i))
      typeEnds := by
  by_cases hfunction : a.kind? (some i) = some (.form .functionType)
  · obtain ⟨hd, parameters, result, hr, hparameters, hresult⟩ := he.exists_function hfunction
    exact reads_functionMember ha h indent hi hl hr hparameters hresult
  · exact (reads_operandMember ha h indent hi hl he (not_or.2 ⟨hflat, hfunction⟩)).mono
      (List.subset_cons_self ' ' typeEnds)

end Members

/-! ## Types -/

/-- Members with bars between them are read, one of them alone too. -/
theorem reads_members (ha : a.WellFormed) {n : Nat} (h : a.TypesReadBelow n) (levels indent : Nat)
    (members : List Ref) (final : Ref) (hbound : ∀ x ∈ members ++ [final],
      a.TypeNode true .type x ∧ ∃ j : Nat, x = some j ∧ j ≤ n ∧ j < levels)
    (hinit : ∀ x ∈ members, ¬ a.Parenthesized x)
      (hfinal : a.kind? final ≠ some (.form .unionType)) :
    Reads (readTypeNode (n + 1)) (" | ".toList.intercalate
        ((members ++ [final]).map fun r => (a.print levels indent r).toList))
      (unionOf Tree.unionType ((members ++ [final]).map a.typeTree)) typeEnds := by
  refine Takes.bind_pure (takes_list (by decide) (fun rest hrest => ?_) (fun x hx => ?_) ?_)
  · exact skip_eq_none hrest (by decide)
  · obtain ⟨he, j, rfl, hn, hl⟩ := hbound x (List.mem_append_left _ hx)
    refine Takes.mono (reads_operandMember ha h indent hn hl he (hinit _ hx)) ?_
    rintro rest ⟨tail, rfl⟩
    exact begins_cons (by decide)
  · obtain ⟨he, j, rfl, hn, hl⟩ :=
      hbound final (List.mem_append_right _ (List.mem_singleton_self _))
    exact reads_lastMember ha h indent hn hl he hfinal

/-- A type is read one level up, if the types in front of it are. -/
theorem reads_typeLevel (ha : a.WellFormed) {n : Nat} (h : a.TypesReadBelow n) {i levels : Nat}
    (indent : Nat) (hi : i ≤ n) (hl : i < levels) (he : a.TypeNode true .type (some i)) :
    Reads (readTypeNode (n + 1)) (a.print levels indent (some i)).toList (a.typeTree (some i))
      typeEnds := by
  by_cases hunion : a.kind? (some i) = some (.form .unionType)
  · obtain ⟨levels, rfl⟩ : ∃ l, levels = l + 1 := ⟨levels - 1, by omega⟩
    obtain ⟨hd, members, hr, hlength, hmembers, hflat, hlast⟩ := he.exists_union hunion
    have hne : members ≠ [] := by
      rintro rfl
      exact absurd hlength (by decide)
    have hsplit := List.dropLast_concat_getLast hne
    have hread := reads_members ha h levels indent members.dropLast (members.getLast hne)
      (fun x hx => ?_) (fun x hx => ?_) (hflat _ (List.getLast_mem hne))
    · have htree : unionOf Tree.unionType (members.map a.typeTree) =
          Tree.bare (.form .unionType) (.union (members.map a.typeTree)) := by
        match members, hlength with
        | m :: m' :: ms, _ => rfl
      rw [hsplit, htree] at hread
      rw [toList_unionType levels indent hr, hr.typeTree ha (by simp)]
      exact hread
    · rw [hsplit] at hx
      obtain ⟨j, rfl, hj⟩ := TypeNode.lt ha hr hx (hmembers x hx)
      exact ⟨hmembers _ hx, j, rfl, by omega, by omega⟩
    · exact not_or.2 ⟨hflat x (List.dropLast_subset members hx), hlast rfl x hx⟩
  · have hread := reads_members ha h levels indent [] (some i) (fun x hx => ?_)
      (fun _ hx => absurd hx List.not_mem_nil) hunion
    · rw [List.nil_append, List.map_singleton, List.intercalate_singleton,
        List.map_singleton] at hread
      exact hread
    · obtain rfl := List.mem_singleton.1 hx
      exact ⟨he, i, rfl, hi, hl⟩

/-- **A type node is read** from its text. -/
theorem typesReadBelow (ha : a.WellFormed) (n : Nat) : a.TypesReadBelow n := by
  induction n with
  | zero => exact fun j _ _ hj => absurd hj (Nat.not_lt_zero j)
  | succ n ih => exact fun j levels indent hj hl he =>
      reads_typeLevel ha ih indent (Nat.le_of_lt_succ hj) hl he

/-- The whole text of a type is read, and nothing of it is left. -/
theorem readTypeNode_textOf (ha : a.WellFormed) {r : Ref} (hr : a.TypeNode true .type r) {n : Nat}
    (hn : a.size ≤ n) : readTypeNode n (a.textOf r).toList = some (a.typeTree r, []) := by
  obtain ⟨i, rfl, hi⟩ := hr.exists_node
  have hlevels : i < a.levels := by
    rw [levels]
    omega
  have hread := typesReadBelow ha n i a.levels 0 (by omega) hlevels hr [] (begins_nil _)
  rwa [List.append_nil] at hread

/-- **Type nodes with the same text are the same**, up to ranges, if in no union a function stands
in front of another member: in two arenas, or at two places of one. -/
theorem typeNode_textOf_injective {a b : Arena} (ha : a.WellFormed) (hb : b.WellFormed) {r s : Ref}
    (hr : a.TypeNode true .type r) (hs : b.TypeNode true .type s)
    (htext : a.textOf r = b.textOf s) :
    a.typeTree r = b.typeTree s := by
  have hread := readTypeNode_textOf ha hr (Nat.le_max_left a.size b.size)
  have hread' := readTypeNode_textOf hb hs (Nat.le_max_right a.size b.size)
  rw [htext, hread'] at hread
  exact (congrArg Prod.fst (Option.some.inj hread)).symm

/-- The type `\x7b readonly x: (null | (p?: A) => A)[]; \x7d` twice, with the keyword and with the
literal type `null`. -/
def twoObjects : Arena := Prod.snd <| Id.run <| StateT.run (s := Arena.empty) do
  let A ← Build.identifier "A"
  let A ← Build.typeReference A none
  let null ← Build.token .nullKeyword
  let literal ← Build.literalType null
  let p ← Build.identifier "p"
  let p ← Build.parameter p A none
  Build.addFlags p .optional
  let function ← Build.functionType [p] A
  let x ← Build.identifier "x"
  let object (null : Ref) : Build NodeId := do
    let union ← Build.unionType [null, function]
    let array ← Build.arrayType union
    let property ← Build.propertySignature x array
    Build.addFlags property .readonly
    Build.typeLiteral [some property]
  let _ ← object null
  let _ ← object literal

theorem typeNode_textOf_injective_objects :
    twoObjects.WellFormed ∧ twoObjects.TypeNode true .type (some 11) ∧
      twoObjects.TypeNode true .type (some 15) ∧
      twoObjects.textOf (some 11) = twoObjects.textOf (some 15) ∧
      twoObjects.typeTree (some 11) = twoObjects.typeTree (some 15) := by
  have hwell : twoObjects.WellFormed := by decide +kernel
  have hname : twoObjects.Named (some 0) := ⟨_, "A", ⟨rfl, rfl⟩, by decide +kernel⟩
  have hA : twoObjects.TypeNode true .type (some 1) :=
    .reference ⟨rfl, rfl⟩ hname (List.forall_mem_nil _)
  have hp : twoObjects.Named (some 4) := ⟨_, "p", ⟨rfl, rfl⟩, by decide +kernel⟩
  have hfunction : twoObjects.TypeNode true .type (some 6) :=
    .function ⟨rfl, rfl⟩ (List.forall_mem_singleton.2 (.parameter ⟨rfl, rfl⟩ hp fun _ => hA)) hA
  have hnull : twoObjects.TypeNode true .type (some 2) := .keyword rfl rfl rfl
  have hliteral : twoObjects.TypeNode true .type (some 3) :=
    .literal ⟨rfl, rfl⟩ (.inr ⟨_, .nullKeyword, rfl, rfl, by decide⟩)
  have hx : twoObjects.Keyed (some 7) := .inl ⟨_, "x", ⟨rfl, rfl⟩, by decide +kernel⟩
  have hunion : twoObjects.Holds (some 8) _ (.form .unionType) (.union [some 2, some 6]) :=
    ⟨rfl, rfl⟩
  have hunion' : twoObjects.Holds (some 12) _ (.form .unionType) (.union [some 3, some 6]) :=
    ⟨rfl, rfl⟩
  have hfirst : twoObjects.TypeNode true .type (some 11) :=
    .object ⟨rfl, rfl⟩ (List.forall_mem_singleton.2 (.property ⟨rfl, rfl⟩ hx fun _ =>
      .array ⟨rfl, rfl⟩ (.union hunion (by decide)
        (List.forall_mem_cons.2 ⟨hnull, List.forall_mem_singleton.2 hfunction⟩) (by decide +kernel)
        (by decide +kernel))))
  have hsecond : twoObjects.TypeNode true .type (some 15) :=
    .object ⟨rfl, rfl⟩ (List.forall_mem_singleton.2 (.property ⟨rfl, rfl⟩ hx fun _ =>
      .array ⟨rfl, rfl⟩ (.union hunion' (by decide)
        (List.forall_mem_cons.2 ⟨hliteral, List.forall_mem_singleton.2 hfunction⟩)
        (by decide +kernel)
        (by decide +kernel))))
  have htext : twoObjects.textOf (some 11) = twoObjects.textOf (some 15) := by decide +kernel
  exact ⟨hwell, hfirst, hsecond, htext, typeNode_textOf_injective hwell hwell hfirst hsecond htext⟩

/-- The union of `() => A` and `B`, and the function from nothing to the union of `A` and `B`. -/
def functionAndUnion : Arena := Prod.snd <| Id.run <| StateT.run (s := Arena.empty) do
  let A ← Build.identifier "A"
  let A ← Build.typeReference A none
  let B ← Build.identifier "B"
  let B ← Build.typeReference B none
  let function ← Build.functionType [] A
  let _ ← Build.unionType [function, B]
  let union ← Build.unionType [A, B]
  let _ ← Build.functionType [] union

/-- In front of another member a function is written without parentheses, and the text is that of a
function whose result is a union. -/
theorem typeNode_textOf_function :
    functionAndUnion.WellFormed ∧ functionAndUnion.TypeNode false .type (some 5) ∧
      functionAndUnion.TypeNode false .type (some 7) ∧
      functionAndUnion.textOf (some 5) = "() => A | B" ∧
      functionAndUnion.textOf (some 7) = "() => A | B" ∧
      functionAndUnion.typeTree (some 5) ≠ functionAndUnion.typeTree (some 7) := by
  have hwell : functionAndUnion.WellFormed := by decide +kernel
  have hname : functionAndUnion.Named (some 0) := ⟨_, "A", ⟨rfl, rfl⟩, by decide +kernel⟩
  have hname' : functionAndUnion.Named (some 2) := ⟨_, "B", ⟨rfl, rfl⟩, by decide +kernel⟩
  have hA : functionAndUnion.TypeNode false .type (some 1) :=
    .reference ⟨rfl, rfl⟩ hname (List.forall_mem_nil _)
  have hB : functionAndUnion.TypeNode false .type (some 3) :=
    .reference ⟨rfl, rfl⟩ hname' (List.forall_mem_nil _)
  have hfunction : functionAndUnion.TypeNode false .type (some 4) :=
    .function ⟨rfl, rfl⟩ (List.forall_mem_nil _) hA
  have hfive : functionAndUnion.Holds (some 5) _ (.form .unionType) (.union [some 4, some 3]) :=
    ⟨rfl, rfl⟩
  have hsix : functionAndUnion.Holds (some 6) _ (.form .unionType) (.union [some 1, some 3]) :=
    ⟨rfl, rfl⟩
  have hmembers : functionAndUnion.TypeNode false .type (some 5) :=
    .union hfive (by decide)
      (List.forall_mem_cons.2 ⟨hfunction, List.forall_mem_singleton.2 hB⟩) (by decide +kernel) nofun
  have hunion : functionAndUnion.TypeNode false .type (some 6) :=
    .union hsix (by decide)
      (List.forall_mem_cons.2 ⟨hA, List.forall_mem_singleton.2 hB⟩) (by decide +kernel) nofun
  have hresult : functionAndUnion.TypeNode false .type (some 7) :=
    .function ⟨rfl, rfl⟩ (List.forall_mem_nil _) hunion
  have hseven : functionAndUnion.Holds (some 7) _ (.form .functionType)
      (.functionType none [] (some 6)) := ⟨rfl, rfl⟩
  refine ⟨hwell, hmembers, hresult, by decide +kernel, by decide +kernel, ?_⟩
  rw [hfive.typeTree hwell nofun, hseven.typeTree hwell nofun]
  exact nofun

end Arena

end TypeReify.Syntax
