import TypeReify.Proofs.Syntax.Read

/-!
# The text of an expression tells its tree

`readExpression` reads expressions from their texts. An operand is read from its first part on:
member names and argument lists are taken from behind it as long as there are some, so what is
called or accessed needs no look ahead. An operator stands between blanks, which tells it from the
angle brackets of type arguments and from the closing brace of an object.

This is about `emit_node_kind` with `write_comma_list` and `write_type_list`: no expression gets
parentheses that the tree does not have.

Results:
* `reads_reference`: type references are read with their arguments.
* `reads_operand`: an operand is read, whatever member names and arguments come behind.
* `readExpression_textOf`: the text of an expression is read as its skeleton.
* `expression_textOf_injective`: expressions with the same text have the same skeleton.

Out of scope: arrow functions and elements on several lines, and trees that no source text has, such
as an operation that is an operand without parentheses.
-/

namespace TypeReify.Syntax

open Text

/-- The operators. -/
def Token.operators : List Token :=
  [.lessThan, .greaterThan, .lessThanEquals, .greaterThanEquals, .equalsEqualsEquals,
    .exclamationEqualsEquals, .plus, .minus, .asterisk, .slash, .ampersandAmpersand, .barBar,
    .questionQuestion, .equals]

namespace Arena

/-! ## Expressions -/

/-- Where a node of an expression may stand. -/
inductive Place
  /-- Anywhere: in parentheses, in a list, as a value. -/
  | expression
  /-- Next to an operator, or in front of a member name or of arguments. -/
  | operand
  /-- In an object. -/
  | property
  /-- As a type argument. -/
  | typeArgument
  deriving DecidableEq, Repr

/-- The trees of expressions, on one line. A binary expression is an operand only in parentheses. -/
inductive Expression (a : Arena) : Place → Ref → Prop
  | identifier {r : Ref} (hname : a.Named r) : Expression a .operand r
  | literal {r : Ref} (hliteral : a.Literal r) : Expression a .operand r
  | constant {r : Ref} {h : Header} {t : Token} (hr : a.header? r = some h) (hk : h.kind = .token t)
      (ht : t ∈ Token.constants) : Expression a .operand r
  | call {r : Ref} {h : Header} {callee : Ref} {types : Option (List Ref)} {arguments : List Ref}
      (hr : a.Holds r h (.form .call) (.call callee types arguments))
      (hcallee : Expression a .operand callee)
      (htypes : ∀ x ∈ types.getD [], Expression a .typeArgument x)
      (harguments : ∀ x ∈ arguments, Expression a .expression x) : Expression a .operand r
  | access {r : Ref} {h : Header} {object name : Ref}
      (hr : a.Holds r h (.form .propertyAccess) (.access object name))
      (hobject : Expression a .operand object) (hname : a.Named name) : Expression a .operand r
  | array {r : Ref} {h : Header} {items : List Ref}
      (hr : a.Holds r h (.form .arrayLiteral) (.elements items)) (hline : h.has .multiLine = false)
      (hitems : ∀ x ∈ items, Expression a .expression x) : Expression a .operand r
  | object {r : Ref} {h : Header} {items : List Ref}
      (hr : a.Holds r h (.form .objectLiteral) (.elements items)) (hline : h.has .multiLine = false)
      (hitems : ∀ x ∈ items, Expression a .property x) : Expression a .operand r
  | parenthesized {r : Ref} {h : Header} {e : Ref}
      (hr : a.Holds r h (.form .parenthesized) (.parenthesized e))
      (he : Expression a .expression e) : Expression a .operand r
  | operand {r : Ref} (hr : Expression a .operand r) : Expression a .expression r
  | binary {r : Ref} {h : Header} {left right : Ref} {operator : Token}
      (hr : a.Holds r h (.form .binary) (.binary left operator right))
      (hoperator : operator ∈ Token.operators) (hleft : Expression a .operand left)
      (hright : Expression a .operand right) : Expression a .expression r
  | assignment {r : Ref} {h : Header} {name value : Ref}
      (hr : a.Holds r h (.form .propertyAssignment) (.assignment name value)) (hname : a.Keyed name)
      (hvalue : Expression a .expression value) : Expression a .property r
  | shorthand {r : Ref} {h : Header} {name : Ref}
      (hr : a.Holds r h (.form .shorthandAssignment) (.assignment name none))
      (hname : a.Named name) :
      Expression a .property r
  | typeReference {r : Ref} {h : Header} {name : Ref} {arguments : Option (List Ref)}
      (hr : a.Holds r h (.form .typeReference) (.typeReference name arguments))
      (hname : a.Named name)
      (harguments : ∀ x ∈ arguments.getD [], Expression a .typeArgument x) :
      Expression a .typeArgument r

end Arena

/-! ## Readers -/

/-- An operator with the blanks around it. -/
def operatorText (t : Token) : List Char := (" " ++ t.text?.getD "?" ++ " ").toList

/-- Takes an operator, if there is one. -/
def readOperator : Reader (Option Token) := fun cs =>
  match Token.operators.findSome? fun t => (skip (operatorText t) cs).map (t, ·) with
  | some (t, rest) => some (some t, rest)
  | none => some (none, cs)

/-- Takes a type reference, at most so deep. -/
def readReference : (levels : Nat) → Reader (Option Tree)
  | 0 => failure
  | levels + 1 => do
    let name ← readName
    if ← accept "<" then
      let arguments ← enclosed (readReference levels) ">"
      return Tree.bare (.form .typeReference) (.typeReference (Tree.name name) (some arguments))
    else
      return Tree.bare (.form .typeReference) (.typeReference (Tree.name name) none)

section

variable (inner types : Reader (Option Tree))

/-- Takes the name of a property, and its value if there is one. -/
def readProperty : Reader (Option Tree) := do
  let key ← readKey
  if ← accept ": " then
    let value ← inner
    return Tree.bare (.form .propertyAssignment) (.assignment key value)
  else
    return Tree.bare (.form .shorthandAssignment) (.assignment key none)

/-- Takes an object from behind its opening brace. -/
def readObject : Reader (Option Tree) := do
  if ← accept "\x7d" then
    return Tree.bare (.form .objectLiteral) (.elements [])
  else
    expect " "
    let items ← list (readProperty inner) ", "
    expect " \x7d"
    return Tree.bare (.form .objectLiteral) (.elements items)

/-- A name is a constant or an identifier. -/
def wordTree (name : String) : Option Tree :=
  match Token.constants.find? (·.text? == some name) with
  | some t => Tree.keyword t
  | none => Tree.name name

/-- Takes an operand without what may stand behind it. -/
def readPrimary : Reader (Option Tree) := do
  if ← accept "(" then
    let e ← inner
    expect ")"
    return Tree.bare (.form .parenthesized) (.parenthesized e)
  else if ← accept "[" then
    let items ← enclosed inner "]"
    return Tree.bare (.form .arrayLiteral) (.elements items)
  else if ← accept "\x7b" then
    readObject inner
  else
    match ← readLiteral with
    | some literal => return literal
    | none =>
      let name ← readName
      return wordTree name

/-- Takes member names and arguments from behind what they belong to, at most so many. -/
def readSuffixes : (count : Nat) → Option Tree → Reader (Option Tree)
  | 0, _ => failure
  | count + 1, x => do
    if ← accept "." then
      let name ← readName
      readSuffixes count (Tree.bare (.form .propertyAccess) (.access x (Tree.name name)))
    else if ← accept "(" then
      let arguments ← enclosed inner ")"
      readSuffixes count (Tree.bare (.form .call) (.call x none arguments))
    else if ← accept "<" then
      let typeArguments ← enclosed types ">"
      expect "("
      let arguments ← enclosed inner ")"
      readSuffixes count (Tree.bare (.form .call) (.call x (some typeArguments) arguments))
    else
      return x

def readOperand (count : Nat) : Reader (Option Tree) := do
  let x ← readPrimary inner
  readSuffixes inner types count x

/-- Takes an operand, and an operator with another one if there is an operator. -/
def readLevel (count : Nat) : Reader (Option Tree) := do
  let left ← readOperand inner types count
  match ← readOperator with
  | some operator =>
    let right ← readOperand inner types count
    return Tree.bare (.form .binary) (.binary left operator right)
  | none => return left

end

/-- Takes an expression, at most so deep. -/
def readExpression : (levels : Nat) → Reader (Option Tree)
  | 0 => failure
  | levels + 1 => readLevel (readExpression levels) (readReference levels) (levels + 1)

/-! ## What may come behind -/

/-- What may come behind an operand. -/
def operandEnds : List Char := [',', ')', ']', ' ']

/-- What may come behind the first part of an operand. -/
def primaryEnds : List Char := '.' :: '(' :: '<' :: operandEnds

/-- An expression ends here: behind the last value of an object a blank stands in front of the
brace. -/
def Closes (rest : List Char) : Prop := Begins [',', ')', ']'] rest ∨ " \x7d".toList <+: rest

/-- A property ends here. -/
def ClosesProperty (rest : List Char) : Prop := ", ".toList <+: rest ∨ " \x7d".toList <+: rest

theorem Closes.begins {rest : List Char} (h : Closes rest) : Begins operandEnds rest := by
  rcases h with h | ⟨cs, rfl⟩
  · exact h.mono (by decide)
  · exact begins_cons (by decide)

theorem ClosesProperty.closes {rest : List Char} (h : ClosesProperty rest) : Closes rest := by
  rcases h with ⟨cs, rfl⟩ | h
  · exact .inl (begins_cons (by decide))
  · exact .inr h

/-! ## Operators -/

theorem readOperator_operatorText {t : Token} (ht : t ∈ Token.operators) (rest : List Char) :
    readOperator (operatorText t ++ rest) = some (some t, rest) := by
  cases t with
  | lessThan | greaterThan | lessThanEquals | greaterThanEquals | equalsEqualsEquals
  | exclamationEqualsEquals | plus | minus | asterisk | slash | ampersandAmpersand | barBar
  | questionQuestion | equals => rfl
  | _ => exact absurd ht (by decide)

/-- Where an expression ends there is no operator. -/
theorem readOperator_closes {rest : List Char} (h : Closes rest) :
    readOperator rest = some (none, rest) := by
  have hnone (t : Token) : skip (operatorText t) rest = none := by
    rcases h with h | ⟨cs, rfl⟩
    · have hblank : (operatorText t).head? = some ' ' := by
        rw [operatorText, String.toList_append, String.toList_append]
        rfl
      exact skip_eq_none h (by rw [hblank]; decide)
    · cases t <;> rfl
  have hfind : (Token.operators.findSome? fun t =>
    (skip (operatorText t) rest).map (t, ·)) = none :=
    List.findSome?_eq_none_iff.2 fun t _ => by rw [hnone t]; rfl
  rw [readOperator, hfind]

/-! ## Words and beginnings -/

/-- What is a name is no constant. -/
theorem wordTree_name {text : String} (h : IsName text) : wordTree text = Tree.name text := by
  have hnone : Token.constants.find? (·.text? == some text) = none :=
    List.find?_eq_none.2 fun t _ => by simpa using h.2 t
  rw [wordTree, hnone]

theorem wordTree_constant {t : Token} (ht : t ∈ Token.constants) :
    wordTree (t.text?.getD "") = Tree.keyword t := by
  cases t with
  | trueKeyword | falseKeyword | nullKeyword => rfl
  | _ => exact absurd ht (by decide)

section

variable {inner types : Reader (Option Tree)}

/-- What begins with no bracket is a literal or a word. -/
theorem takes_leaf {c : Char} {cs : List Char} {x : Option Tree} {p : List Char → Prop}
    (hc : c ∉ ['(', '[', '\x7b'])
    (h : Takes (do
      match ← readLiteral with
      | some literal => return literal
      | none =>
        let name ← readName
        return wordTree name) (c :: cs) x p) : Takes (readPrimary inner) (c :: cs) x p := by
  simp only [List.mem_cons, List.not_mem_nil, or_false, not_or] at hc
  have habsent (token : List Char) (d : Char) (htoken : token.head? = some d) (hd : c ≠ d)
      (rest : List Char) : skip token (c :: cs ++ rest) = none :=
    skip_eq_none (begins_cons (List.mem_singleton_self c)) (by simpa [htoken] using hd.symm)
  refine .absent "(" (fun rest _ => habsent _ '(' rfl hc.1 rest) ?_
  refine .absent "[" (fun rest _ => habsent _ '[' rfl hc.2.1 rest) ?_
  exact .absent "\x7b" (fun rest _ => habsent _ '\x7b' rfl hc.2.2 rest) h

/-- A word is read as an operand. -/
theorem reads_word_primary {text : String} (h : isIdentifierText text = true) :
    Reads (readPrimary inner) text.toList (wordTree text) primaryEnds := by
  obtain ⟨c, cs, hcs, hstart⟩ := exists_cons_of_name h
  have hc : c ∉ ['(', '[', '\x7b'] := by
    intro hmem
    have hpart := not_isIdentifierPart_of_mark c ((by decide : ['(', '[', '\x7b'] ⊆ marks) hmem)
    rw [isIdentifierPart_of_start hstart] at hpart
    cases hpart
  have hword := (reads_name h (by decide : primaryEnds ⊆ marks)).bind_pure (f := wordTree)
  rw [hcs]
  refine takes_leaf hc ?_
  rw [← hcs, ← List.append_nil text.toList]
  refine takes_no_literal h ?_
  rw [List.append_nil]
  exact hword

/-- So is a literal. -/
theorem reads_literal_primary {text : List Char} {x : Option Tree}
    (hlead : ∃ c cs, text = c :: cs ∧ (c = '"' ∨ c.isDigit = true))
    (h : Reads readLiteral text (some x) primaryEnds) :
    Reads (readPrimary inner) text x primaryEnds := by
  obtain ⟨c, cs, rfl, hc⟩ := hlead
  refine takes_leaf ?_ ?_
  · intro hmem
    rcases hc with rfl | hc
    · exact absurd hmem (by decide)
    · rw [not_isDigit_of_mark c ((by decide : ['(', '[', '\x7b'] ⊆ marks) hmem)] at hc
      cases hc
  · rw [← List.append_nil (c :: cs)]
    exact h.bind .pure fun _ h => h

/-- No operand begins like the end of a list. -/
theorem readPrimary_close {c : Char} (hc : c = ')' ∨ c = ']') (cs : List Char) :
    readPrimary inner (c :: cs) = none := by
  have hmark : c ∈ marks := by rcases hc with rfl | rfl <;> decide
  have hquote : c ≠ '"' := by rcases hc with rfl | rfl <;> decide
  have habsent (token : String) (d : Char) (htoken : token.toList.head? = some d)
      (hd : d ∉ [')', ']']) : skip token.toList (c :: cs) = none := by
    have hbegins : Begins [')', ']'] (c :: cs) := begins_cons (by simpa using hc)
    refine skip_eq_none hbegins ?_
    rw [htoken]
    simpa using hd
  refine (accept_bind_of_none (habsent "(" '(' rfl (by decide))).trans ?_
  refine (accept_bind_of_none (habsent "[" '[' rfl (by decide))).trans ?_
  refine (accept_bind_of_none (habsent "\x7b" '\x7b' rfl (by decide))).trans ?_
  show (readLiteral (c :: cs)).bind _ = none
  rw [readLiteral_of_not hquote (not_isDigit_of_mark c hmark)]
  exact bind_eq_none (readName_mark hmark cs)

theorem readExpression_close {c : Char} (hc : c = ')' ∨ c = ']') (levels : Nat) (cs : List Char) :
    readExpression levels (c :: cs) = none := by
  cases levels with
  | zero => rfl
  | succ levels => exact bind_eq_none (bind_eq_none (readPrimary_close hc cs))

theorem readReference_close (levels : Nat) (cs : List Char) :
    readReference levels ('>' :: cs) = none := by
  cases levels with
  | zero => rfl
  | succ levels => exact bind_eq_none (readName_mark (by decide) cs)

/-! ## Objects -/

/-- The text of an object from behind its opening brace. -/
def objectText : List (List Char) → List Char
  | [] => "\x7d".toList
  | items => " ".toList ++ (", ".toList.intercalate items ++ " \x7d".toList)

/-- An object is read from behind its opening brace. -/
theorem reads_object {β : Type} {text : β → List Char} {value : β → Option Tree} {xs : List β}
    (h : ∀ x ∈ xs, Takes (readProperty inner) (text x) (value x) ClosesProperty)
    (ends : List Char) :
    Reads (readObject inner) (objectText (xs.map text))
      (Tree.bare (.form .objectLiteral) (.elements (xs.map value))) ends := by
  cases hxs : xs with
  | nil => exact .accept "\x7d" .pure
  | cons x ys =>
    have hne : xs ≠ [] := hxs ▸ nofun
    have hlist : Takes (list (readProperty inner) ", ") (", ".toList.intercalate (xs.map text))
        (xs.map value) (" \x7d".toList <+: ·) := by
      rw [← List.dropLast_concat_getLast hne]
      refine takes_list (by decide) ?_ (fun x hx => ?_) ?_
      · rintro rest ⟨tail, rfl⟩
        rfl
      · exact (h x (List.dropLast_subset xs hx)).mono fun _ => .inl
      · exact (h _ (List.getLast_mem hne)).mono fun _ => .inr
    have hobject : Takes (readObject inner)
        (" ".toList ++ (", ".toList.intercalate (xs.map text) ++ (" \x7d".toList ++ [])))
        (Tree.bare (.form .objectLiteral) (.elements (xs.map value))) (Begins ends) :=
      .absent "\x7d" (fun _ _ => rfl) (.expect " " (hlist.bind
        (.expect " \x7d" fun _ _ => rfl) fun rest _ => ⟨rest, by rw [List.append_nil]⟩))
    rw [List.append_nil] at hobject
    rw [hxs] at hobject
    exact hobject

/-! ## Operands -/

/-- Behind an operand nothing belongs to it any more. -/
theorem reads_no_suffix (count : Nat) (x : Option Tree) :
    Reads (readSuffixes inner types (count + 1) x) [] x operandEnds := by
  refine .absent "." (fun rest hrest => skip_eq_none hrest (by decide)) ?_
  refine .absent "(" (fun rest hrest => skip_eq_none hrest (by decide)) ?_
  exact .absent "<" (fun rest hrest => skip_eq_none hrest (by decide)) .pure

/-- The operand `x` is taken from `text` in `used` steps, and what comes behind is taken from there
on. -/
def Continues (inner types : Reader (Option Tree)) (used : Nat) (text : List Char)
    (x : Option Tree) :
    Prop :=
  ∀ (count : Nat) (text' : List Char) (y : Option Tree) (p : List Char → Prop),
    Takes (readSuffixes inner types count x) text' y p →
      (∀ rest, p rest → Begins primaryEnds (text' ++ rest)) →
        Takes (readOperand inner types (used + count)) (text ++ text') y p

theorem Continues.of_primary {text : List Char} {x : Option Tree}
    (h : Reads (readPrimary inner) text x primaryEnds) : Continues inner types 0 text x := by
  intro count text' y p hbehind hbegins
  rw [Nat.zero_add]
  exact Takes.bind h hbehind hbegins

/-- With nothing more behind it the operand is taken. -/
theorem Continues.reads {used count : Nat} {text : List Char} {x : Option Tree}
    (h : Continues inner types used text x) (hused : used < count) :
    Reads (readOperand inner types count) text x operandEnds := by
  obtain ⟨more, rfl⟩ : ∃ more, count = used + (more + 1) := ⟨count - used - 1, by omega⟩
  have hend := h (more + 1) [] x (Begins operandEnds) (reads_no_suffix more x) fun rest hrest =>
    hrest.mono (by decide)
  rwa [List.append_nil] at hend

/-- A member name belongs to what stands in front. -/
theorem Continues.access {used : Nat} {text : List Char} {x : Option Tree} {name : String}
    (h : Continues inner types used text x) (hname : isIdentifierText name = true) :
    Continues inner types (used + 1) (text ++ (".".toList ++ name.toList))
      (Tree.bare (.form .propertyAccess) (.access x (Tree.name name))) := by
  intro count text' y p hbehind hbegins
  rw [List.append_assoc, List.append_assoc, Nat.add_assoc, Nat.add_comm 1 count]
  refine h (count + 1) _ y p (.accept "." ?_) fun _ _ => begins_cons (by decide)
  exact Takes.bind (reads_name hname (by decide : primaryEnds ⊆ marks)) hbehind hbegins

/-- So do arguments. -/
theorem Continues.call {used : Nat} {text arguments : List Char} {x : Option Tree}
    {xs : List (Option Tree)} (h : Continues inner types used text x)
    (harguments : ∀ ends, Reads (enclosed inner ")") arguments xs ends) :
    Continues inner types (used + 1) (text ++ ("(".toList ++ arguments))
      (Tree.bare (.form .call) (.call x none xs)) := by
  intro count text' y p hbehind hbegins
  rw [List.append_assoc, List.append_assoc, Nat.add_assoc, Nat.add_comm 1 count]
  refine h (count + 1) _ y p (.absent "." (fun _ _ => rfl) (.accept "(" ?_)) fun _ _ =>
    begins_cons (by decide)
  exact (Reads.takes_delimited harguments fun _ => True).bind hbehind fun _ _ => trivial

/-- And arguments with type arguments in front. -/
theorem Continues.generic {used : Nat} {text typeArguments arguments : List Char} {x : Option Tree}
    {ts xs : List (Option Tree)} (h : Continues inner types used text x)
    (htypes : ∀ ends, Reads (enclosed types ">") typeArguments ts ends)
    (harguments : ∀ ends, Reads (enclosed inner ")") arguments xs ends) :
    Continues inner types (used + 1)
      (text ++ ("<".toList ++ (typeArguments ++ ("(".toList ++ arguments))))
      (Tree.bare (.form .call) (.call x (some ts) xs)) := by
  intro count text' y p hbehind hbegins
  simp only [List.append_assoc]
  rw [Nat.add_assoc, Nat.add_comm 1 count]
  refine h (count + 1) _ y p (.absent "." (fun _ _ => rfl) (.absent "(" (fun _ _ => rfl)
    (.accept "<" ?_))) fun _ _ => begins_cons (by decide)
  refine (Reads.takes_delimited htypes fun _ => True).bind (.expect "(" ?_) fun _ _ => trivial
  exact (Reads.takes_delimited harguments fun _ => True).bind hbehind fun _ _ => trivial

end

namespace Arena

variable {a : Arena}

/-! ## Nodes and their children -/

theorem Expression.exists_node {place : Place} {r : Ref} (h : a.Expression place r) :
    ∃ i : Nat, r = some i ∧ i < a.size := by
  induction h with
  | identifier hname =>
    obtain ⟨h, text, hr, -⟩ := hname
    exact hr.exists_node
  | literal hliteral =>
    obtain ⟨h, text, hr | ⟨hr, -⟩⟩ := hliteral
    · exact hr.exists_node
    · exact hr.exists_node
  | constant hr _ _ => exact exists_node_of_header? hr
  | call hr _ _ _ | access hr _ _ | array hr _ _ | object hr _ _ | parenthesized hr _
  | binary hr _ _ _ | assignment hr _ _ | shorthand hr _ | typeReference hr _ _ =>
    exact hr.exists_node
  | operand _ ih => exact ih

/-- A part of an expression stands in front of it. -/
theorem Expression.lt (ha : a.WellFormed) {i : Nat} {h : Header} {kind : Kind} {p : Payload Ref}
    (hr : a.Holds (some i) h kind p) {place : Place} {c : Ref} (hc : c ∈ p.children)
    (he : a.Expression place c) : ∃ j : Nat, c = some j ∧ j < i :=
  hr.child_lt ha hc he.exists_node

/-- Items on one line, between brackets without padding. -/
theorem toList_bracketed (write : (indent : Nat) → Ref → String) (indent : Nat) {h : Header}
    (hline : h.has .multiLine = false) (items : List Ref) :
    (bracketed write indent "[" "]" "" h items).toList = "[".toList ++
      (", ".toList.intercalate (items.map fun r => (write indent r).toList) ++ "]".toList) := by
  rw [← toList_commaList, bracketed]
  cases items with
  | nil =>
    rw [List.isEmpty_nil, if_pos rfl, String.toList_append]
    rfl
  | cons x xs =>
    rw [List.isEmpty_cons, if_neg Bool.false_ne_true, hline, if_neg Bool.false_ne_true]
    simp only [String.toList_append, String.toList_empty, List.append_nil, List.append_assoc]

/-! ## Type arguments -/

/-- **A type reference is read** with its arguments. -/
theorem reads_reference (ha : a.WellFormed) : ∀ (i n levels indent : Nat), i < n → i < levels →
    a.Expression .typeArgument (some i) →
    Reads (readReference n) (a.print levels indent (some i)).toList
      (a.skeleton (some i)) [',', '>'] := by
  intro i
  induction i using Nat.strongRecOn with
  | ind i ih =>
    intro n levels indent hn hl he
    obtain ⟨n, rfl⟩ : ∃ m, n = m + 1 := ⟨n - 1, by omega⟩
    obtain ⟨levels, rfl⟩ : ∃ l, levels = l + 1 := ⟨levels - 1, by omega⟩
    cases he with
    | @typeReference _ h name arguments hr hname harguments =>
      obtain ⟨⟨htext, -⟩, hskeleton⟩ := hname.identifierText ha
      rw [print_of_content? hr.content, nodeText, hr.skeleton ha, String.toList_append]
      cases arguments with
      | none =>
        have hnone : Reads (readReference (n + 1)) ((a.identifierText name).toList ++ [])
            (Tree.bare (.form .typeReference)
              (.typeReference (Tree.name (a.identifierText name)) none))
            [',', '>'] :=
          (reads_name htext (by decide)).bind
            (.absent "<" (fun rest hrest => skip_eq_none hrest (by decide)) .pure) fun _ h => h
        rw [← hskeleton] at hnone
        exact hnone
      | some rs =>
        have hlist : ∀ ends, Reads (enclosed (readReference n) ">")
            (", ".toList.intercalate (rs.map fun r =>
              (a.print levels indent r).toList) ++ ">".toList)
            (rs.map a.skeleton) ends := fun ends =>
          reads_enclosed (c := '>') rfl (by decide) (readReference_close n) fun x hx => by
            obtain ⟨j, rfl, hj⟩ := Expression.lt ha hr (List.mem_cons_of_mem name hx)
              (harguments x hx)
            exact ih j hj n levels indent (by omega) (by omega) (harguments _ hx)
        have hsome : Reads (readReference (n + 1)) ((a.identifierText name).toList ++ ("<".toList ++
            (", ".toList.intercalate (rs.map fun r => (a.print levels indent r).toList) ++
              ">".toList)))
            (Tree.bare (.form .typeReference)
              (.typeReference (Tree.name (a.identifierText name)) (some (rs.map a.skeleton))))
            [',', '>'] :=
          (reads_name htext (by decide : ['<'] ⊆ marks)).bind
            (.accept "<" (Reads.bind_pure (hlist _))) fun _ _ => begins_cons (by decide)
        rw [← hskeleton] at hsome
        rw [typeList, String.toList_append, String.toList_append, toList_commaList,
          List.append_assoc]
        exact hsome

/-! ## Operands -/

/-- Expressions in front of a position are read. -/
def ReadBelow (a : Arena) (n : Nat) : Prop :=
  ∀ (j levels indent : Nat), j < n → j < levels → a.Expression .expression (some j) →
    Takes (readExpression n) (a.print levels indent (some j)).toList (a.skeleton (some j)) Closes

theorem ReadBelow.reads {n : Nat} (h : a.ReadBelow n) {j levels : Nat} (indent : Nat) (hj : j < n)
    (hl : j < levels) (he : a.Expression .expression (some j)) :
    Reads (readExpression n) (a.print levels indent (some j)).toList (a.skeleton (some j))
      [',', ')', ']'] :=
  Takes.mono (h j levels indent hj hl he) fun _ => .inl

/-- Expressions between brackets are read. -/
theorem ReadBelow.enclosed {n : Nat} (h : a.ReadBelow n) (ha : a.WellFormed) {i levels : Nat}
    (indent : Nat) (hi : i ≤ n) (hl : i ≤ levels) {hd : Header} {kind : Kind} {p : Payload Ref}
    (hr : a.Holds (some i) hd kind p) {rs : List Ref} (hrs : ∀ x ∈ rs, x ∈ p.children)
    (he : ∀ x ∈ rs, a.Expression .expression x) (token : String) {c : Char}
      (htoken : token.toList = [c])
    (hc : c = ')' ∨ c = ']') (ends : List Char) :
    Reads (Text.enclosed (readExpression n) token)
      (", ".toList.intercalate (rs.map fun r => (a.print levels indent r).toList) ++ token.toList)
      (rs.map a.skeleton) ends := by
  have hcomma : c ≠ ',' := by rcases hc with rfl | rfl <;> decide
  refine reads_enclosed htoken hcomma (readExpression_close hc n) fun x hx => ?_
  obtain ⟨j, rfl, hj⟩ := Expression.lt ha hr (hrs x hx) (he x hx)
  refine (h.reads indent (by omega) (by omega) (he _ hx)).mono ?_
  rcases hc with rfl | rfl <;> decide

/-- Type references between angle brackets are read. -/
theorem reads_typeArguments (ha : a.WellFormed) {i n levels : Nat} (indent : Nat) (hi : i ≤ n)
    (hl : i ≤ levels) {hd : Header} {kind : Kind} {p : Payload Ref}
    (hr : a.Holds (some i) hd kind p)
    {rs : List Ref} (hrs : ∀ x ∈ rs, x ∈ p.children) (he : ∀ x ∈ rs, a.Expression .typeArgument x)
    (ends : List Char) :
    Reads (Text.enclosed (readReference n) ">")
      (", ".toList.intercalate (rs.map fun r => (a.print levels indent r).toList) ++ ">".toList)
      (rs.map a.skeleton) ends := by
  refine reads_enclosed (c := '>') rfl (by decide) (readReference_close n) fun x hx => ?_
  obtain ⟨j, rfl, hj⟩ := Expression.lt ha hr (hrs x hx) (he x hx)
  exact reads_reference ha j n levels indent (by omega) (by omega) (he _ hx)

/-- A property is read, if the expressions in front of it are. -/
theorem takes_property (ha : a.WellFormed) {n : Nat} (h : a.ReadBelow n) {i levels : Nat}
    (indent : Nat) (hi : i ≤ n) (hl : i < levels) (he : a.Expression .property (some i)) :
    Takes (readProperty (readExpression n)) (a.print levels indent (some i)).toList
      (a.skeleton (some i)) ClosesProperty := by
  obtain ⟨levels, rfl⟩ : ∃ l, levels = l + 1 := ⟨levels - 1, by omega⟩
  cases he with
  | @assignment _ hd name value hr hname hvalue =>
    obtain ⟨j, rfl, hj⟩ := Expression.lt ha hr (by simp [Payload.children]) hvalue
    have hrest := h j levels indent (by omega) (by omega) hvalue
    have hkey := reads_key hname ha (by decide : [':'] ⊆ marks)
    rw [print_of_content? hr.content, nodeText, if_neg (by rw [hr.kind]; decide), hr.skeleton ha,
      String.toList_append, String.toList_append, List.append_assoc]
    refine Takes.bind hkey (.accept ": " ?_) fun _ _ => begins_cons (by decide)
    exact (hrest.mono fun _ => ClosesProperty.closes).bind_pure
  | @shorthand _ hd name hr hname =>
    have hkey := reads_key (.inl hname) ha (by decide : [',', ' '] ⊆ marks)
    have hbegins (rest : List Char) (hrest : ClosesProperty rest) : Begins [',', ' '] rest := by
      rcases hrest with ⟨cs, rfl⟩ | ⟨cs, rfl⟩
      · exact begins_cons (by decide)
      · exact begins_cons (by decide)
    have hmap : (Payload.assignment name none).map a.skeleton = .assignment
      (a.skeleton name) none := by
      show Payload.assignment _ (a.skeleton none) = _
      rw [skeleton_none]
    rw [print_of_content? hr.content, nodeText, if_pos hr.kind, hr.skeleton ha, hmap,
      ← hname.propertyName, ← List.append_nil (a.propertyName name).toList]
    refine Takes.bind hkey (.absent ": " (fun rest hrest => ?_) fun _ _ => rfl) hbegins
    exact skip_eq_none (hbegins rest hrest) (by decide)

/-- The properties of an object are written behind its opening brace. -/
theorem toList_object (write : (indent : Nat) → Ref → String) (indent : Nat) {h : Header}
    (hline : h.has .multiLine = false) (items : List Ref) :
    (bracketed write indent "\x7b" "\x7d" " " h items).toList = "\x7b".toList ++
      objectText (items.map fun r => (write indent r).toList) := by
  rw [bracketed]
  cases items with
  | nil =>
    rw [List.isEmpty_nil, if_pos rfl, String.toList_append]
    rfl
  | cons x xs =>
    rw [List.isEmpty_cons, if_neg Bool.false_ne_true, hline, if_neg Bool.false_ne_true]
    simp only [String.toList_append, toList_commaList, List.append_assoc]
    rfl

theorem reads_constant (ha : a.WellFormed) {inner : Reader (Option Tree)} {i : Nat} {h : Header}
    {t : Token} (hr : a.header? (some i) = some h) (hk : h.kind = .token t)
    (ht : t ∈ Token.constants) (levels indent : Nat) :
    Reads (readPrimary inner) (a.print (levels + 1) indent (some i)).toList (a.skeleton (some i))
      primaryEnds := by
  have hpayload : a.payload? h = none :=
    payload?_of_token hk fun hmem =>
      absurd ht ((by decide : ∀ t ∈ [Token.identifier, .stringLiteral,
      .numericLiteral], t ∉ Token.constants) t hmem)
  have hskeleton : a.skeleton (some i) = Tree.keyword t := by
    rw [skeleton, fold_of_header? ha hr, hpayload, hk]
    rfl
  rw [print_token hr hk hpayload, hskeleton, ← wordTree_constant ht]
  exact reads_word_primary (isIdentifierText_of_keyword (.inr ht))

/-- **An operand is read**, whatever member names and arguments come behind. -/
theorem reads_operand (ha : a.WellFormed) {n : Nat} (h : a.ReadBelow n) : ∀ (i levels indent : Nat),
    i ≤ n → i < levels → a.Expression .operand (some i) → ∃ used ≤ i,
      Continues (readExpression n) (readReference n) used (a.print levels indent (some i)).toList
        (a.skeleton (some i)) := by
  intro i
  -- Children have smaller numbers, so the object of an access and the callee of a call are read by
  -- the induction; all else in an operand stands in brackets, and is read one level down.
  induction i using Nat.strongRecOn with
  | ind i ih =>
    intro levels indent hi hl he
    obtain ⟨levels, rfl⟩ : ∃ l, levels = l + 1 := ⟨levels - 1, by omega⟩
    cases he with
    | identifier hname =>
      obtain ⟨hidentifier, hskeleton⟩ := hname.identifierText ha
      obtain ⟨hd, text, hr, htext⟩ := hname
      have hprint : a.print (levels + 1) indent (some i) = text :=
        print_of_content? hr.content levels indent
      have hskeleton : a.skeleton (some i) = wordTree text := by
        rw [wordTree_name htext]
        exact hr.skeleton ha
      rw [hprint, hskeleton]
      exact ⟨0, Nat.zero_le i, .of_primary (reads_word_primary htext.1)⟩
    | literal hliteral =>
      obtain ⟨hd, text, kind, hr⟩ := hliteral.holds
      rw [print_of_content? hr.content, nodeText]
      exact ⟨0, Nat.zero_le i, .of_primary
        (reads_literal_primary (exists_cons_of_literal hr hliteral)
        (reads_literal hr hliteral ha (by decide)))⟩
    | constant hr hk ht =>
      exact ⟨0, Nat.zero_le i, .of_primary (reads_constant ha hr hk ht levels indent)⟩
    | @call _ hd callee types arguments hr hcallee htypes harguments =>
      obtain ⟨j, rfl, hj⟩ := Expression.lt ha hr (by simp [Payload.children]) hcallee
      obtain ⟨used, hused, hcontinues⟩ := ih j hj levels indent (by omega) (by omega) hcallee
      have hlist := h.enclosed ha indent hi (Nat.le_of_lt_succ hl) hr
        (by simp +contextual [Payload.children]) harguments ")" rfl (.inl rfl)
      rw [print_of_content? hr.content, nodeText, parameterList, hr.skeleton ha]
      simp only [String.toList_append, toList_commaList, List.append_assoc]
      cases types with
      | none => exact ⟨used + 1, by omega, hcontinues.call hlist⟩
      | some rs =>
        have htypes' := reads_typeArguments ha indent hi (Nat.le_of_lt_succ hl) hr
          (by simp +contextual [Payload.children]) htypes
        simp only [typeList, String.toList_append, toList_commaList, List.append_assoc]
        have hgeneric := hcontinues.generic htypes' hlist
        simp only [List.append_assoc] at hgeneric
        exact ⟨used + 1, by omega, hgeneric⟩
    | @access _ hd object name hr hobject hname =>
      obtain ⟨⟨hidentifier, -⟩, hskeleton⟩ := hname.identifierText ha
      obtain ⟨j, rfl, hj⟩ := Expression.lt ha hr (by simp [Payload.children]) hobject
      obtain ⟨used, hused, hcontinues⟩ := ih j hj levels indent (by omega) (by omega) hobject
      have haccess := hcontinues.access hidentifier
      rw [← hskeleton] at haccess
      rw [print_of_content? hr.content, nodeText, hr.skeleton ha, String.toList_append,
        String.toList_append, List.append_assoc]
      exact ⟨used + 1, by omega, haccess⟩
    | @array _ hd items hr hline hitems =>
      have hlist := h.enclosed ha indent hi (Nat.le_of_lt_succ hl) hr (fun x hx => hx) hitems
        "]" rfl (.inr rfl) primaryEnds
      rw [print_of_content? hr.content, nodeText, if_neg (by rw [hr.kind]; decide),
        toList_bracketed _ _ hline, hr.skeleton ha]
      exact ⟨0, Nat.zero_le i, .of_primary (.absent "(" (fun _ _ => rfl)
        (.accept "[" (Reads.bind_pure hlist)))⟩
    | @object _ hd items hr hline hitems =>
      have hobject : Reads (readObject (readExpression n))
          (objectText (items.map fun r => (a.print levels indent r).toList))
          (Tree.bare (.form .objectLiteral) (.elements (items.map a.skeleton))) primaryEnds :=
        reads_object (fun x hx => by
          obtain ⟨j, rfl, hj⟩ := Expression.lt ha hr hx (hitems x hx)
          exact takes_property ha h indent (by omega) (by omega) (hitems _ hx)) primaryEnds
      rw [print_of_content? hr.content, nodeText, if_pos hr.kind, toList_object _ _ hline,
        hr.skeleton ha]
      exact ⟨0, Nat.zero_le i, .of_primary
        (.absent "(" (fun _ _ => rfl) (.absent "[" (fun _ _ => rfl)
        (.accept "\x7b" hobject)))⟩
    | @parenthesized _ hd e hr he =>
      obtain ⟨j, rfl, hj⟩ := Expression.lt ha hr List.mem_cons_self he
      have hinner := h.reads indent (Nat.lt_of_lt_of_le hj hi) (by omega : j < levels) he
      rw [print_of_content? hr.content, nodeText, hr.skeleton ha, String.toList_append,
        String.toList_append, List.append_assoc]
      refine ⟨0, Nat.zero_le i, .of_primary (.accept "(" ?_)⟩
      refine Takes.bind (hinner.mono (by decide : [')'] ⊆ _)) ?_ fun _ _ => begins_cons (by decide)
      exact Reads.expect ")" .pure

/-! ## Expressions -/

/-- An expression is read one level up, if the expressions in front of it are. -/
theorem takes_level (ha : a.WellFormed) {n : Nat} (h : a.ReadBelow n) {i levels : Nat}
    (indent : Nat) (hi : i ≤ n) (hl : i < levels) (he : a.Expression .expression (some i)) :
    Takes (readExpression (n + 1)) (a.print levels indent (some i)).toList (a.skeleton (some i))
      Closes := by
  cases he with
  | operand he =>
    obtain ⟨used, hused, hcontinues⟩ := reads_operand ha h i levels indent hi hl he
    have hoperand := hcontinues.reads (by omega : used < n + 1)
    rw [← List.append_nil (a.print levels indent (some i)).toList]
    refine Takes.bind hoperand (fun rest hrest => ?_) fun _ hrest => hrest.begins
    show (readOperator rest).bind _ = _
    rw [readOperator_closes hrest]
    rfl
  | @binary _ hd left right operator hr hoperator hleft hright =>
    obtain ⟨levels, rfl⟩ : ∃ l, levels = l + 1 := ⟨levels - 1, by omega⟩
    obtain ⟨j, rfl, hj⟩ := Expression.lt ha hr List.mem_cons_self hleft
    obtain ⟨k, rfl, hk⟩ := Expression.lt ha hr (List.mem_cons_of_mem _ List.mem_cons_self) hright
    obtain ⟨used, hused, hcontinues⟩ :=
      reads_operand ha h j levels indent (by omega) (by omega) hleft
    obtain ⟨used', hused', hcontinues'⟩ :=
      reads_operand ha h k levels indent (by omega) (by omega) hright
    have hread := hcontinues.reads (by omega : used < n + 1)
    have hread' := hcontinues'.reads (by omega : used' < n + 1)
    have htext : (a.print levels indent (some j) ++ " " ++ operator.text?.getD "?" ++ " " ++
        a.print levels indent (some k)).toList = (a.print levels indent (some j)).toList ++
          (operatorText operator ++ (a.print levels indent (some k)).toList) := by
      simp only [operatorText, String.toList_append, List.append_assoc]
    rw [print_of_content? hr.content, nodeText, htext, hr.skeleton ha]
    refine Takes.bind hread (fun rest hrest => ?_) fun rest _ => ?_
    · have hbehind := Takes.bind_pure hread' (f := fun right =>
        Tree.bare (.form .binary) (.binary (a.skeleton (some j)) operator right))
      rw [List.append_assoc]
      show (readOperator _).bind _ = _
      rw [readOperator_operatorText hoperator]
      exact hbehind rest hrest.begins
    · rw [operatorText, String.toList_append, String.toList_append]
      exact begins_cons (by decide)

/-- **An expression is read** from its text. -/
theorem readBelow (ha : a.WellFormed) (n : Nat) : a.ReadBelow n := by
  induction n with
  | zero => exact fun j _ _ hj => absurd hj (Nat.not_lt_zero j)
  | succ n ih => exact fun j levels indent hj hl he =>
      takes_level ha ih indent (Nat.le_of_lt_succ hj) hl he

theorem readExpression_textOf (ha : a.WellFormed) {r : Ref}
    (hr : a.Expression .expression r) {n : Nat}
    (hn : a.size ≤ n) : readExpression n (a.textOf r).toList = some (a.skeleton r, []) := by
  obtain ⟨i, rfl, hi⟩ := hr.exists_node
  have hlevels : i < a.levels := by
    rw [levels]
    omega
  have hread := readBelow ha n i a.levels 0 (by omega) hlevels hr [] (.inl (begins_nil _))
  rwa [List.append_nil] at hread

/-- **Expressions with the same text are the same**, up to flags and ranges: in two arenas, or at
two places of one. -/
theorem expression_textOf_injective {a b : Arena} (ha : a.WellFormed)
    (hb : b.WellFormed) {r s : Ref}
    (hr : a.Expression .expression r) (hs : b.Expression .expression s)
    (htext : a.textOf r = b.textOf s) : a.skeleton r = b.skeleton s := by
  have hread := readExpression_textOf ha hr (Nat.le_max_left a.size b.size)
  have hread' := readExpression_textOf hb hs (Nat.le_max_right a.size b.size)
  rw [htext, hread'] at hread
  exact (congrArg Prod.fst (Option.some.inj hread)).symm

/-- A call of `f<T>` with an object of two properties, the string `"a\n"` for the comparison `x.y <
1` and the shorthand `z`, and the same call with a range and a flag of its own. -/
def twoCalls : Arena := Prod.snd <| Id.run <| StateT.run (s := Arena.empty) do
  let f ← Build.identifier "f"
  let T ← Build.identifier "T"
  let type ← Build.typeReference T none
  let x ← Build.identifier "x"
  let y ← Build.identifier "y"
  let member ← Build.propertyAccess x y
  let one ← Build.numericLiteral "1"
  let less ← Build.binary member .lessThan one
  let key ← Build.stringLiteral "a\n"
  let value ← Build.propertyAssignment key less
  let z ← Build.identifier "z"
  let short ← Build.shorthandAssignment z
  let object ← Build.objectLiteral [value, short]
  let _ ← Build.call f (some [some type]) [object]
  let again ← Build.call f (some [some type]) [object]
  Build.setRange again 3 21
  Build.addFlags again .synthesized

theorem expression_textOf_injective_calls :
    twoCalls.WellFormed ∧ twoCalls.Expression .expression (some 13) ∧
      twoCalls.Expression .expression (some 14) ∧
      twoCalls.textOf (some 13) = twoCalls.textOf (some 14) ∧
      twoCalls.skeleton (some 13) = twoCalls.skeleton (some 14) := by
  have hwell : twoCalls.WellFormed := by decide +kernel
  have hname {i : Nat} {h : Header} {text : String}
    (hc : twoCalls.content? (some i) = some (h, .identifier text))
      (hk : h.kind = .token .identifier) (htext : IsName text) : twoCalls.Named (some i) :=
    ⟨h, text, ⟨hc, hk⟩, htext⟩
  have htype : twoCalls.Expression .typeArgument (some 2) :=
    .typeReference ⟨rfl, rfl⟩ (hname (i := 1) rfl rfl (by decide +kernel)) (List.forall_mem_nil _)
  have hless : twoCalls.Expression .expression (some 7) :=
    .binary ⟨rfl, rfl⟩ (by decide)
      (.access ⟨rfl, rfl⟩ (.identifier (hname (i := 3) rfl rfl (by decide +kernel)))
        (hname (i := 4) rfl rfl (by decide +kernel)))
      (.literal ⟨_, _, .inr ⟨⟨rfl, rfl⟩, by decide⟩⟩)
  have hkey : twoCalls.Keyed (some 8) := .inr ⟨_, _, .inl ⟨rfl, rfl⟩⟩
  have hobject : twoCalls.Expression .expression (some 12) :=
    .operand (.object ⟨rfl, rfl⟩ rfl (List.forall_mem_cons.2 ⟨.assignment ⟨rfl, rfl⟩ hkey hless,
      List.forall_mem_singleton.2 (.shorthand ⟨rfl, rfl⟩
        (hname (i := 10) rfl rfl (by decide +kernel)))⟩))
  have hcall : twoCalls.Expression .expression (some 13) :=
    .operand (.call ⟨rfl, rfl⟩ (.identifier (hname (i := 0) rfl rfl (by decide +kernel)))
      (List.forall_mem_singleton.2 htype) (List.forall_mem_singleton.2 hobject))
  have hagain : twoCalls.Expression .expression (some 14) :=
    .operand (.call ⟨rfl, rfl⟩ (.identifier (hname (i := 0) rfl rfl (by decide +kernel)))
      (List.forall_mem_singleton.2 htype) (List.forall_mem_singleton.2 hobject))
  have htext : twoCalls.textOf (some 13) = twoCalls.textOf (some 14) := by decide +kernel
  exact ⟨hwell, hcall, hagain, htext, expression_textOf_injective hwell hwell hcall hagain htext⟩

end Arena

end TypeReify.Syntax
