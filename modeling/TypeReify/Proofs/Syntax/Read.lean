import TypeReify.Proofs.Syntax.Opening
import TypeReify.Proofs.Text.Literal
import TypeReify.Proofs.Text.Reading

/-!
# Reading names and literals of source text back

What is printed is read back as a tree without flags and ranges, the skeleton of what was there.
Names, numbers and quoted texts stand at the leaves of expressions and of types and in front of
properties, so they are read here once for both.

These are the texts of `write_identifier_text`, `write_property_name` and `write_quoted`.

Results:
* `reads_sourceQuoted`: the escapes of source text are undone.
* `reads_literal`: quoted texts and numbers are told from each other and from names.
* `reads_key`: the name of a property is read as what it was, quoted or not.
-/

namespace TypeReify.Text

/-! ## String literals -/

/-- The character that a letter behind a backslash stands for. -/
def unescape : Char → Char
  | 'n' => '\n'
  | 'r' => '\r'
  | 't' => '\t'
  | '0' => '\x00'
  | c => c

/-- Takes a string literal of source text from behind its first quote. -/
def sourceQuoted : List Char → Option (List Char × List Char)
  | [] => none
  | '"' :: cs => some ([], cs)
  | '\\' :: 'u' :: d₁ :: d₂ :: d₃ :: d₄ :: cs =>
    match Literal.hexNumber? [d₁, d₂, d₃, d₄] with
    | some n => (sourceQuoted cs).map fun (text, rest) => (Char.ofNat n :: text, rest)
    | none => none
  | '\\' :: c :: cs => (sourceQuoted cs).map fun (text, rest) => (unescape c :: text, rest)
  | c :: cs => (sourceQuoted cs).map fun (text, rest) => (c :: text, rest)

/-- Four hexadecimal digits are read as the character they are the number of. -/
theorem sourceQuoted_unicodeEscape {c : Char} (hc : c.toNat < 0x10000) (cs : List Char) :
    sourceQuoted (Quoted.unicodeEscape c ++ cs) =
      (sourceQuoted cs).map fun (text, rest) => (c :: text, rest) := by
  have hdigits := Literal.hexPrefix?_hexDigits hc []
  rw [Literal.hexPrefix?, if_neg (by simp)] at hdigits
  have hnumber : Literal.hexNumber? (((Quoted.unicodeEscape c).drop 2).take 4) = some c.toNat :=
    hdigits
  simp only [Quoted.unicodeEscape, List.drop_succ_cons, List.drop_zero, List.take_succ_cons,
    List.take_zero] at hnumber
  simp only [Quoted.unicodeEscape, List.cons_append, List.nil_append, sourceQuoted, hnumber,
    Char.ofNat_toNat]

/-- An escaped character is taken for the character. -/
theorem sourceQuoted_escapeLiteral (c : Char) (cs : List Char) :
    sourceQuoted (Quoted.escapeLiteral c ++ cs) =
      (sourceQuoted cs).map fun (text, rest) => (c :: text, rest) := by
  by_cases hshort : c ∈ ['"', '\\', '\n', '\r', '\t', '\x00']
  · simp only [List.mem_cons, List.not_mem_nil, or_false] at hshort
    rcases hshort with rfl | rfl | rfl | rfl | rfl | rfl <;> rfl
  · simp only [List.mem_cons, List.not_mem_nil, or_false, not_or] at hshort
    obtain ⟨hquote, hbackslash, hfeed, hreturn, htab, hnul⟩ := hshort
    simp only [Quoted.escapeLiteral, hquote, hbackslash, hfeed, hreturn, htab, hnul, if_false]
    split
    · exact sourceQuoted_unicodeEscape (by omega) cs
    · rw [List.singleton_append, sourceQuoted.eq_def]
      split
      · cases ‹_›
      · exact absurd (List.cons.inj ‹_›).1 hquote
      · exact absurd (List.cons.inj ‹_›).1 hbackslash
      · exact absurd (List.cons.inj ‹_›).1 hbackslash
      · obtain ⟨rfl, rfl⟩ := List.cons.inj ‹_›
        rfl

/-- A literal is read as the text it was written from. -/
theorem reads_sourceQuoted (text ends : List Char) :
    Reads sourceQuoted (text.flatMap Quoted.escapeLiteral ++ ['"']) text ends :=
  reads_escaped (fun _ => rfl) sourceQuoted_escapeLiteral text ends

/-! ## Names -/

/-- What no name has in it. -/
def marks : List Char :=
  ['.', ',', ':', ';', '?', '"', ' ', '(', ')', '[', ']', '<', '>', '\x7b', '\x7d']

theorem not_isIdentifierPart_of_mark : ∀ c ∈ marks, isIdentifierPart c = false :=
  forall_mem_of_all (by decide +kernel)

theorem not_mark_of_name {s : String} (hs : isIdentifierText s = true) :
    ∀ c ∈ s.toList, c ∉ marks := by
  intro c hmem hc
  have hpart := isIdentifierPart_of_mem hs c hmem
  rw [not_isIdentifierPart_of_mark c hc] at hpart
  cases hpart

theorem not_isDigit_of_mark : ∀ c ∈ marks, c.isDigit = false :=
  forall_mem_of_all (by decide)

/-- Takes a name, which has to be there. -/
def readName : Reader String := do
  let cs ← word isIdentifierPart
  if cs.isEmpty then failure else return String.ofList cs

/-- A name is read up to the next mark. -/
theorem reads_name {s : String} (hs : isIdentifierText s = true) {ends : List Char}
    (hends : ends ⊆ marks) : Reads readName s.toList s ends := by
  have hword : Reads (word isIdentifierPart) s.toList s.toList ends :=
    reads_word (isIdentifierPart_of_mem hs) fun c hc => not_isIdentifierPart_of_mark c (hends hc)
  obtain ⟨c, cs, hcs, -⟩ := exists_cons_of_name hs
  rw [← List.append_nil s.toList]
  refine hword.bind ?_ fun _ h => h
  rw [String.ofList_toList, hcs, List.isEmpty_cons, if_neg Bool.false_ne_true]
  exact .pure

/-- No name begins with a mark. -/
theorem readName_mark {c : Char} (hc : c ∈ marks) (cs : List Char) : readName (c :: cs) = none := by
  have hpart : ¬ isIdentifierPart c = true := by simp [not_isIdentifierPart_of_mark c hc]
  show (if ((c :: cs).takeWhile isIdentifierPart).isEmpty then failure else
    pure _ : Reader String) _ = none
  rw [List.takeWhile_cons_of_neg hpart]
  rfl

end TypeReify.Text

namespace TypeReify.Syntax

open Text

/-- The keywords that are values. -/
def Token.constants : List Token := [.trueKeyword, .falseKeyword, .nullKeyword]

/-! ## Trees without flags and ranges -/

/-- A node with a payload, without flags and range. -/
def Tree.bare (kind : Kind) (p : Payload (Option Tree)) : Option Tree :=
  some (.node kind .empty 0 0 (some p))

/-- A keyword. -/
def Tree.keyword (t : Token) : Option Tree := some (.node (.token t) .empty 0 0 none)

def Tree.name (text : String) : Option Tree := Tree.bare (.token .identifier) (.identifier text)

def Tree.string (text : String) : Option Tree := Tree.bare (.token .stringLiteral) (.literal text)

def Tree.number (text : String) : Option Tree := Tree.bare (.token .numericLiteral) (.literal text)

/-- The text may stand as a name, and it is no keyword. -/
def IsName (text : String) : Prop := isIdentifierText text = true ∧ ∀ t : Token, t.text? ≠ some text

instance (text : String) : Decidable (IsName text) :=
  decidable_of_iff (isIdentifierText text = true ∧ ∀ t ∈ Token.all, t.text? ≠ some text) <|
    and_congr_right fun _ => ⟨fun h t => h t t.mem_all, fun h t _ => h t⟩

/-- Takes a quoted text or a number, if there is one. -/
def readLiteral : Reader (Option (Option Tree)) := do
  if ← accept "\"" then
    let text ← sourceQuoted
    return some (Tree.string (String.ofList text))
  else
    let digits ← word Char.isDigit
    return if digits.isEmpty then none else some (Tree.number (String.ofList digits))

/-- Takes the name of a property. -/
def readKey : Reader (Option Tree) := do
  match ← readLiteral with
  | some key => return key
  | none =>
    let name ← readName
    return Tree.name name

theorem reads_string (text : String) (ends : List Char) :
    Reads readLiteral (Quoted.literal text).toList (some (Tree.string text)) ends := by
  have hquoted := (reads_sourceQuoted text.toList ends).bind_pure
    (f := fun cs => some (Tree.string (String.ofList cs)))
  rw [String.ofList_toList] at hquoted
  rw [Quoted.literal, Quoted.toList_quote]
  exact .accept "\"" hquoted

/-- What begins with another character is no quoted text. -/
theorem skip_quote {c : Char} (hc : c ≠ '"') (cs : List Char) :
    skip "\"".toList (c :: cs) = none :=
  skip_eq_none (begins_cons (List.mem_singleton_self c)) (by simpa using hc.symm)

theorem exists_cons_of_digits {cs : List Char} (h : isDigits cs = true) :
    ∃ d ds, cs = d :: ds ∧ d.isDigit = true := by
  cases cs with
  | nil => cases h
  | cons d ds => exact ⟨d, ds, rfl, all_of_isDigits h d List.mem_cons_self⟩

/-- So are the digits of a number. -/
theorem reads_number {text : String} (h : isDigits text.toList = true) {ends : List Char}
    (hends : ends ⊆ marks) : Reads readLiteral text.toList (some (Tree.number text)) ends := by
  have hdigits : Reads (word Char.isDigit) text.toList text.toList ends :=
    reads_word (all_of_isDigits h) fun c hc => not_isDigit_of_mark c (hends hc)
  obtain ⟨d, ds, hds, hd⟩ := exists_cons_of_digits h
  refine .absent "\"" (fun rest _ => ?_) ?_
  · rw [hds]
    exact skip_quote (by rintro rfl; cases hd) _
  · rw [← List.append_nil text.toList]
    refine hdigits.bind ?_ fun _ h => h
    rw [String.ofList_toList, hds, List.isEmpty_cons, if_neg Bool.false_ne_true]
    exact .pure

theorem not_mark_of_digits {cs : List Char} (h : isDigits cs = true) : ∀ c ∈ cs, c ∉ marks := by
  intro c hmem hc
  have hdigit := all_of_isDigits h c hmem
  rw [not_isDigit_of_mark c hc] at hdigit
  cases hdigit

/-- Where neither a quote nor a digit stands there is no literal. -/
theorem readLiteral_of_not {c : Char}
    (hquote : c ≠ '"') (hdigit : c.isDigit = false) (cs : List Char) :
    readLiteral (c :: cs) = some (none, c :: cs) := by
  have hdigits : Reads (word Char.isDigit) [] [] [c] :=
    reads_word (fun _ hd => absurd hd List.not_mem_nil) fun d hd => List.mem_singleton.1 hd ▸ hdigit
  have htake : Reads readLiteral [] none [c] :=
    .absent "\"" (fun rest hrest => skip_eq_none hrest (by simpa using hquote.symm))
      (hdigits.bind .pure fun _ h => h)
  exact htake (c :: cs) (begins_cons (List.mem_singleton_self c))

/-- No key begins with a mark. -/
theorem readKey_mark {c : Char} (hc : c ∈ marks) (hquote : c ≠ '"') (cs : List Char) :
    readKey (c :: cs) = none := by
  show (readLiteral (c :: cs)).bind _ = none
  rw [readLiteral_of_not hquote (not_isDigit_of_mark c hc)]
  exact bind_eq_none (readName_mark hc cs)

/-- No literal begins a name. -/
theorem takes_no_literal {β : Type} {k : Option (Option Tree) → Reader β} {s : String}
    {rest : List Char} (hs : isIdentifierText s = true) {y : β} {p : List Char → Prop}
    (h : Takes (k none) (s.toList ++ rest) y p) :
    Takes (readLiteral >>= k) (s.toList ++ rest) y p := by
  obtain ⟨c, cs, hcs, hstart⟩ := exists_cons_of_name hs
  have hdigit := not_isDigit_of_start hstart
  have hquote : c ≠ '"' := by
    rintro rfl
    exact absurd (isIdentifierPart_of_start hstart)
      (by simp [not_isIdentifierPart_of_mark '"' (by decide)])
  intro rest' hrest'
  rw [hcs] at h ⊢
  show (readLiteral (c :: _)).bind _ = _
  rw [readLiteral_of_not hquote hdigit]
  exact h rest' hrest'

/-- Every keyword could be a name. -/
theorem isIdentifierText_of_keyword {t : Token}
    (ht : t.isTypeKeyword = true ∨ t ∈ Token.constants) :
    isIdentifierText (t.text?.getD "") = true := by
  have hall : ∀ t ∈ Token.all, t.isTypeKeyword = true ∨ t ∈ Token.constants →
      isIdentifierText (t.text?.getD "") = true := by decide +kernel
  exact hall t t.mem_all ht

namespace Arena

variable {a : Arena}

/-! ## Names and literals of an arena -/

/-- The tree below a slot, without flags and ranges. -/
def skeleton (a : Arena) : Ref → Option Tree := a.fold fun h p => .node h.kind .empty 0 0 p

@[simp] theorem skeleton_none (a : Arena) : a.skeleton none = none := a.fold_none _

/-- A node of this kind with this payload. -/
structure Holds (a : Arena) (r : Ref) (h : Header) (kind : Kind) (p : Payload Ref) : Prop where
  content : a.content? r = some (h, p)
  kind : h.kind = kind

theorem Holds.exists_node {r : Ref} {h : Header} {kind : Kind} {p : Payload Ref}
    (hr : a.Holds r h kind p) : ∃ i : Nat, r = some i ∧ i < a.size := by
  cases r with
  | none => exact absurd hr.content nofun
  | some i => exact ⟨i, rfl, lt_of_content? hr.content⟩

/-- The tree of a node is its kind and the trees of its children. -/
theorem Holds.skeleton (ha : a.WellFormed) {r : Ref} {h : Header} {kind : Kind} {p : Payload Ref}
    (hr : a.Holds r h kind p) : a.skeleton r = Tree.bare kind (p.map a.skeleton) := by
  obtain ⟨i, rfl, -⟩ := hr.exists_node
  rw [Arena.skeleton, fold_of_content? ha hr.content, hr.kind]
  rfl

/-- The nodes below a node stand in front of it. -/
theorem Holds.child_lt (ha : a.WellFormed) {i : Nat} {h : Header} {kind : Kind} {p : Payload Ref}
    (hr : a.Holds (some i) h kind p) {c : Ref} (hc : c ∈ p.children)
    (hnode : ∃ j : Nat, c = some j ∧ j < a.size) : ∃ j : Nat, c = some j ∧ j < i := by
  obtain ⟨j, rfl, -⟩ := hnode
  exact ⟨j, rfl, ha.lt_of_mem_children hr.content hc⟩

theorem exists_node_of_header? {r : Ref} {h : Header} (hr : a.header? r = some h) :
    ∃ i : Nat, r = some i ∧ i < a.size := by
  obtain ⟨i, rfl, -⟩ := Option.bind_eq_some_iff.1 hr
  exact ⟨i, rfl, lt_of_header? hr⟩

theorem toList_commaList (write : (indent : Nat) → Ref → String) (indent : Nat) (rs : List Ref) :
    (commaList write indent rs).toList =
      ", ".toList.intercalate (rs.map fun r => (write indent r).toList) := by
  rw [commaList, String.toList_intercalate, List.map_map]
  rfl

/-- A keyword has no payload. -/
theorem payload?_of_token {h : Header} {t : Token} (hk : h.kind = .token t)
    (ht : t ∉ [Token.identifier, .stringLiteral, .numericLiteral]) : a.payload? h = none := by
  have hpool : h.kind.pool? = none := by
    rw [hk]
    cases t with
    | identifier | stringLiteral | numericLiteral => exact absurd (by decide) ht
    | _ => rfl
  rw [payload?, hpool]
  rfl

/-- An identifier with a name for its text. -/
def Named (a : Arena) (r : Ref) : Prop :=
  ∃ h text, a.Holds r h (.token .identifier) (.identifier text) ∧ IsName text

/-- A string literal, or a number that is written with digits. -/
def Literal (a : Arena) (r : Ref) : Prop :=
  ∃ h text, a.Holds r h (.token .stringLiteral) (.literal text) ∨
    a.Holds r h (.token .numericLiteral) (.literal text) ∧ isDigits text.toList = true

/-- What may stand as the name of a property. -/
def Keyed (a : Arena) (r : Ref) : Prop := a.Named r ∨ a.Literal r

theorem Named.identifierText {r : Ref} (hr : a.Named r) (ha : a.WellFormed) :
    IsName (a.identifierText r) ∧ a.skeleton r = Tree.name (a.identifierText r) := by
  obtain ⟨h, text, hr, htext⟩ := hr
  have hname : a.identifierText r = text := by
    rw [Arena.identifierText, identifierText?, hr.content]
    rfl
  rw [hname]
  exact ⟨htext, hr.skeleton ha⟩

theorem Literal.holds {r : Ref} (hr : a.Literal r) :
    ∃ h text kind, a.Holds r h kind (.literal text) := by
  obtain ⟨h, text, hr | ⟨hr, -⟩⟩ := hr
  · exact ⟨h, text, _, hr⟩
  · exact ⟨h, text, _, hr⟩

theorem literalText_of_string {h : Header} (hk : h.kind = .token .stringLiteral) (text : String) :
    literalText h text = Quoted.literal text := if_pos hk

theorem literalText_of_number {h : Header} (hk : h.kind = .token .numericLiteral) (text : String) :
    literalText h text = text := if_neg (by rw [hk]; decide)

/-- A literal begins with a quote or a digit. -/
theorem exists_cons_of_literal {r : Ref} {h : Header} {kind : Kind} {text : String}
    (hr : a.Holds r h kind (.literal text)) (hl : a.Literal r) :
    ∃ c cs, (literalText h text).toList = c :: cs ∧ (c = '"' ∨ c.isDigit = true) := by
  obtain ⟨h', text', hl⟩ := hl
  rcases hl with hl | ⟨hl, hdigits⟩
  · obtain ⟨rfl, htext⟩ := Prod.mk.inj (Option.some.inj (hr.content.symm.trans hl.content))
    rw [literalText_of_string hl.kind, Quoted.literal, Quoted.toList_quote]
    exact ⟨'"', _, rfl, .inl rfl⟩
  · obtain ⟨rfl, htext⟩ := Prod.mk.inj (Option.some.inj (hr.content.symm.trans hl.content))
    obtain rfl := Payload.literal.inj htext
    rw [literalText_of_number hl.kind]
    obtain ⟨d, ds, hds, hd⟩ := exists_cons_of_digits hdigits
    exact ⟨d, ds, hds, .inr hd⟩

/-- **A literal is read** as the literal that was there. -/
theorem reads_literal {r : Ref} {h : Header} {kind : Kind} {text : String}
    (hr : a.Holds r h kind (.literal text)) (hl : a.Literal r) (ha : a.WellFormed)
    {ends : List Char} (hends : ends ⊆ marks) :
    Reads readLiteral (literalText h text).toList (some (a.skeleton r)) ends := by
  obtain ⟨h', text', hl⟩ := hl
  rcases hl with hl | ⟨hl, hdigits⟩
  · obtain ⟨rfl, htext⟩ := Prod.mk.inj (Option.some.inj (hr.content.symm.trans hl.content))
    obtain rfl := Payload.literal.inj htext
    rw [literalText_of_string hl.kind, hl.skeleton ha]
    exact reads_string text ends
  · obtain ⟨rfl, htext⟩ := Prod.mk.inj (Option.some.inj (hr.content.symm.trans hl.content))
    obtain rfl := Payload.literal.inj htext
    rw [literalText_of_number hl.kind, hl.skeleton ha]
    exact reads_number hdigits hends

theorem Named.propertyName {r : Ref} (hr : a.Named r) : a.propertyName r = a.identifierText r := by
  obtain ⟨h, text, hr, -⟩ := hr
  rw [Arena.propertyName, Arena.identifierText, identifierText?, hr.content]
  rfl

/-- **The name of a property is read** as what it was. -/
theorem reads_key {r : Ref} (hr : a.Keyed r) (ha : a.WellFormed) {ends : List Char}
    (hends : ends ⊆ marks) : Reads readKey (a.propertyName r).toList (a.skeleton r) ends := by
  rcases hr with hname | hliteral
  · obtain ⟨⟨hidentifier, -⟩, hskeleton⟩ := hname.identifierText ha
    rw [hname.propertyName, hskeleton, ← List.append_nil (a.identifierText r).toList]
    refine takes_no_literal hidentifier ?_
    rw [List.append_nil]
    exact (reads_name hidentifier hends).bind_pure
  · obtain ⟨h, text, kind, hr⟩ := hliteral.holds
    have htext : a.propertyName r = literalText h text := by rw [Arena.propertyName, hr.content]
    rw [htext, ← List.append_nil (literalText h text).toList]
    exact (reads_literal hr hliteral ha hends).bind .pure fun _ h => h

end Arena

end TypeReify.Syntax
