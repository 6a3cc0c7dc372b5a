import TypeReify.Proofs.Text.TypeText
import TypeReify.Proofs.Types.Tree

/-!
# Reading types back

`readType` reads the trees of types from their texts. It decides by what comes next: behind an
opening parenthesis a name with a colon or a question mark, or the closing parenthesis, can only
belong to the parameters of a function, since what is parenthesized else is a function or a union.
Whatever stands inside a type is followed by one of `,`, `>`, `)` and `;`.

Here every form of types is read from its text, provided that its parts are: all but unions and
arrays, whose parts stand in front.

The texts are those of `write_type`, `write_object`, `write_function` and `write_params`.

Results:
* `reads_function`: parameters and result, read from behind the opening parenthesis.
* `reads_property`: methods are told from properties whose type is a function.
* `reads_named`, `reads_keyword`: names with and without arguments are told from keywords.
* `reads_atom`: whatever stands in a union or an array without parentheses.
-/

namespace TypeReify.Types

open Text

/-! ## Readers -/

/-- What the names of properties without quotes are made of. -/
def isKeyChar (c : Char) : Bool := isIdentifierPart c || isNumberChar c

/-- Takes the name of a property, with or without quotes. -/
def readKey : Reader (List Char) := do
  if ← accept "\"" then quoted else word isKeyChar

section

variable (inner : Reader Tree)

def readParameter : Reader (Tree.Parameter Tree) := do
  let name ← word isIdentifierPart
  let optional ← accept "?"
  expect ": "
  let type ← inner
  return ⟨String.ofList name, optional, type⟩

/-- Takes parameters from behind their opening parenthesis. -/
def readParameters : Reader (List (Tree.Parameter Tree)) := do
  if ← accept ")" then
    return []
  else
    let ps ← list (readParameter inner) ", "
    expect ")"
    return ps

/-- Takes parameters, `arrow` and a result from behind the opening parenthesis. -/
def readFunction (arrow : String) : Reader Tree := do
  let ps ← readParameters inner
  expect arrow
  let result ← inner
  return .function ps result

/-- A method has its parameters right behind its name. -/
def readProperty : Reader (Tree.Property Tree) := do
  let readonly ← accept "readonly "
  let name ← readKey
  let optional ← accept "?"
  let method ← accept "("
  if method then
    let type ← readFunction inner ": "
    expect "; "
    return ⟨String.ofList name, optional, readonly, true, type⟩
  else
    expect ": "
    let type ← inner
    expect "; "
    return ⟨String.ofList name, optional, readonly, false, type⟩

/-- Takes an object type from behind its opening brace. -/
def readObject : Reader Tree := do
  if ← accept "\x7d" then
    return .object []
  else
    expect " "
    let properties ← many (readProperty inner) "\x7d"
    return .object properties

def readNamed : Reader Tree := do
  let name ← word isIdentifierPart
  if ← accept "<" then
    let arguments ← list inner ", "
    expect ">"
    return .named (String.ofList name) arguments
  else if intrinsicNames.contains (String.ofList name) then
    return .keyword (String.ofList name)
  else
    return .named (String.ofList name) []

/-- Takes a number or a name with its arguments. -/
def readWord : Reader Tree := do
  let digits ← word Char.isDigit
  if digits.isEmpty then readNamed inner else return .numeral (String.ofList digits)

/-- Takes a type that is no array, no union and no function, or one in parentheses. -/
def readAtom : Reader Tree := do
  if ← accept "(" then
    let x ← inner
    expect ")"
    return x
  else if ← accept "\x7b" then
    readObject inner
  else if ← accept "\"" then
    let text ← quoted
    return .text (String.ofList text)
  else
    readWord inner

/-- Takes what may stand in a union or an array. -/
def readOperand : Reader Tree := do
  let x ← readAtom inner
  fun cs => some (brackets Tree.array x cs)

def readUnion : Reader Tree := do
  let members ← list (readOperand inner) " | "
  return unionOf Tree.union members

/-- Takes a type whose parts are taken by `inner`. -/
def readLevel : Reader Tree := fun cs =>
  if opensParameters cs then (do expect "("; readFunction inner " => ") cs else readUnion inner cs

end

/-- Takes a type, at most so deep. -/
def readType : (levels : Nat) → Reader Tree
  | 0 => failure
  | levels + 1 => readLevel (readType levels)

/-! ## Names -/

/-- What stands between the names in a type. -/
def punctuation : List Char :=
  ['?', ':', '(', ')', '"', ' ', '\x7b', '\x7d', '[', ']', '<', '>', ',', ';']

/-- No name has punctuation in it. -/
theorem not_isKeyChar : ∀ c ∈ punctuation, isKeyChar c = false :=
  forall_mem_of_all (by decide +kernel)

theorem not_isIdentifierPart {c : Char} (h : c ∈ punctuation) : isIdentifierPart c = false :=
  (Bool.or_eq_false_iff.1 (not_isKeyChar c h)).1

/-- The name of a property is written without quotes only if it has no other characters. -/
theorem isKeyChar_of_mem {name : String} (h : (isIdentifierText name || isNumeral name) = true) :
    ∀ c ∈ name.toList, isKeyChar c = true := by
  intro c hc
  rcases (Bool.or_eq_true _ _).mp h with h | h
  · exact (Bool.or_eq_true _ _).mpr (.inl (isIdentifierPart_of_mem h c hc))
  · exact (Bool.or_eq_true _ _).mpr (.inr (mem_of_isNumeral h c hc))

/-- What may come behind the name of a property. -/
def keyEnds : List Char := ['?', ':', '(']

theorem not_mem_of_key {name : String}
    (h : (isIdentifierText name || isNumeral name) = true) {c : Char}
    (hc : c ∈ punctuation) : c ∉ name.toList := by
  intro hmem
  have hkey := isKeyChar_of_mem h c hmem
  rw [not_isKeyChar c hc] at hkey
  cases hkey

theorem reads_key (name : String) : Reads readKey (renderKey name).toList name.toList keyEnds := by
  unfold renderKey readKey
  split
  · rename_i h
    refine .absent "\"" (fun rest hrest => ?_) (reads_word (isKeyChar_of_mem h) ?_)
    · exact skip_word (c := '"') (by decide) (not_mem_of_key h (by decide)) hrest
        (forall_mem_of_all (by decide))
    · exact fun c hc => not_isKeyChar c ((by decide : keyEnds ⊆ punctuation) hc)
  · rw [Quoted.plain, Quoted.toList_quote]
    exact .accept "\"" (reads_quoted name.toList keyEnds)

/-! ## Parts of types -/

section Parts

variable {inner : Reader Tree} {text : TypeId → String} {value : TypeId → Tree}

/-- The reader takes the type from its text. -/
def Inner (inner : Reader Tree) (text : TypeId → String) (value : TypeId → Tree) (id : TypeId) :
    Prop :=
  Reads inner (text id).toList (value id) typeEnds

/-- The text of one parameter. -/
def parameterText (text : TypeId → String) (p : Parameter) : List Char :=
  p.name.toList ++ ((optionalMark p.optional).toList ++ (": ".toList ++ (text p.type).toList))

/-- Behind the name of a parameter comes a question mark or a colon. -/
theorem begins_behindName (optional : Bool) (rest : List Char) :
    Begins ['?', ':'] ((optionalMark optional).toList ++ (": ".toList ++ rest)) := by
  cases optional with
  | true => exact begins_cons (by decide)
  | false => exact begins_cons (by decide)

theorem reads_parameter {p : Parameter} (hname : isIdentifierText p.name = true)
    (htype : Inner inner text value p.type) :
    Reads (readParameter inner) (parameterText text p)
      ⟨p.name, p.optional, value p.type⟩ typeEnds := by
  have hname' : Reads (word isIdentifierPart) p.name.toList p.name.toList ['?', ':'] :=
    reads_word (isIdentifierPart_of_mem hname) fun c hc =>
      not_isIdentifierPart ((by decide : ['?', ':'] ⊆ punctuation) hc)
  refine hname'.bind (.flag "?" p.optional (.expect ": " ?_) fun _ _ _ => rfl) fun rest _ => ?_
  · rw [String.ofList_toList]
    exact htype.bind_pure
  · rw [List.append_assoc, List.append_assoc]
    exact begins_behindName p.optional _

/-- The text of parameters from behind the opening parenthesis. -/
def parametersText (text : TypeId → String) (ps : List Parameter) : List Char :=
  ", ".toList.intercalate (ps.map (parameterText text)) ++ ")".toList

theorem toList_renderParameters (ps : List Parameter) :
    (Interner.renderParameters text ps).toList = "(".toList ++ parametersText text ps := by
  have hone : (String.toList ∘ fun p : Parameter =>
      p.name ++ optionalMark p.optional ++ ": " ++ text p.type) = parameterText text := by
    funext p
    simp only [Function.comp_apply, String.toList_append, List.append_assoc, parameterText]
  rw [Interner.renderParameters, commas, String.toList_append, String.toList_append,
    String.toList_intercalate, List.map_map, hone, List.append_assoc, parametersText]

/-- The text of parameters begins with the name of the first one. -/
theorem parametersText_cons (text : TypeId → String) (p : Parameter) (ps : List Parameter) :
    ∃ rest, parametersText text (p :: ps) =
      p.name.toList ++ ((optionalMark p.optional).toList ++ (": ".toList ++ rest)) := by
  obtain ⟨tail, htail⟩ := exists_intercalate_cons ", ".toList (parameterText text p)
    (ps.map (parameterText text))
  refine ⟨(text p.type).toList ++ (tail ++ ")".toList), ?_⟩
  rw [parametersText, List.map_cons, htail, parameterText]
  simp only [List.append_assoc]

/-- Parameters are read from behind the opening parenthesis. -/
theorem reads_parameters {ps : List Parameter}
    (h : ∀ p ∈ ps, isIdentifierText p.name = true ∧ Inner inner text value p.type)
    (ends : List Char) :
    Reads (readParameters inner) (parametersText text ps) (parameterTrees value ps) ends := by
  unfold readParameters
  cases ps with
  | nil => exact .accept ")" .pure
  | cons p ps =>
    have hlist : Reads (list (readParameter inner) ", ")
        (", ".toList.intercalate ((p :: ps).map (parameterText text)))
        (parameterTrees value (p :: ps)) [')'] :=
      reads_list (c := ',') rfl (by decide) nofun fun p hp =>
        (reads_parameter (h p hp).1 (h p hp).2).mono (by decide)
    refine .absent ")" (fun rest _ => ?_) (hlist.bind (.expect ")" .pure) fun _ _ =>
      begins_cons (by decide))
    obtain ⟨tail, htail⟩ := parametersText_cons text p ps
    rw [htail, List.append_assoc, List.append_assoc, List.append_assoc]
    have hclose : ')' ∉ p.name.toList :=
      not_mem_of_key (by rw [(h p List.mem_cons_self).1, Bool.true_or]) (by decide)
    exact skip_word (c := ')') (by decide) hclose (begins_behindName p.optional _)
      (forall_mem_of_all (by decide))

/-- The text of a function from behind the opening parenthesis. -/
def functionText (text : TypeId → String) (f : FunctionShape) (arrow : String) : List Char :=
  parametersText text f.parameters ++ (arrow.toList ++ (text f.result).toList)

theorem toList_renderFunction (f : FunctionShape) (arrow : String) :
    (Interner.renderFunction text f arrow).toList = "(".toList ++ functionText text f arrow := by
  rw [Interner.renderFunction, String.toList_append, String.toList_append, toList_renderParameters,
    functionText, List.append_assoc, List.append_assoc]

/-- A function is read from behind the opening parenthesis. -/
theorem reads_function {f : FunctionShape} (arrow : String)
    (hparameters : ∀ p ∈ f.parameters, isIdentifierText p.name = true ∧
      Inner inner text value p.type)
    (hresult : Inner inner text value f.result) : Reads (readFunction inner arrow)
      (functionText text f arrow) (.function (parameterTrees value f.parameters) (value f.result))
      typeEnds :=
  .bind_delimited (reads_parameters hparameters) (.expect arrow hresult.bind_pure)

/-- The text of a property up to its type, and what comes behind. -/
def propertyText (p : Property) (rest : List Char) : List Char :=
  (if p.readonly then "readonly " else "").toList ++
    ((renderKey p.name).toList ++ ((optionalMark p.optional).toList ++ rest))

theorem begins_behindKey (optional : Bool) {rest : List Char} (h : Begins keyEnds rest) :
    Begins keyEnds ((optionalMark optional).toList ++ rest) := by
  cases optional with
  | true => exact begins_cons (by decide)
  | false => exact h

/-- No token with a blank or a brace in it stands in the place of the name of a property. -/
theorem skip_key (name : String) {token rest : List Char} {c : Char} (hc : c ∈ token)
    (hpunctuation : c ∈ punctuation) (hquote : token.head?.any (! ['"'].contains ·) = true)
    (hends : ∀ d ∈ keyEnds, d ∉ token) (hrest : Begins keyEnds rest) :
    skip token ((renderKey name).toList ++ rest) = none := by
  unfold renderKey
  split
  · exact skip_word hc (not_mem_of_key ‹_› hpunctuation) hrest hends
  · rw [Quoted.plain, Quoted.toList_quote]
    exact skip_eq_none (begins_cons (c := '"') (by decide)) hquote

/-- The beginning of a property is read, whatever is read behind. -/
theorem reads_propertyText {β : Type} {k : Bool → List Char → Bool → Reader β} {p : Property}
    {rest ends : List Char} {y : β} (h : Reads (k p.readonly p.name.toList p.optional) rest y ends)
    (hbegins : ∀ rest', Begins [':', '('] (rest ++ rest')) :
    Reads (do
      let readonly ← accept "readonly "
      let name ← readKey
      let optional ← accept "?"
      k readonly name optional) (propertyText p rest) y ends := by
  have hbehind (rest' : List Char) : Begins keyEnds (rest ++ rest') :=
    (hbegins rest').mono (by decide)
  refine .flag "readonly " p.readonly ?_ fun _ rest' _ => ?_
  · refine (reads_key p.name).bind (.flag "?" p.optional h fun _ rest' _ => ?_) fun rest' _ => ?_
    · exact skip_eq_none (hbegins rest') (by decide)
    · rw [List.append_assoc]
      exact begins_behindKey p.optional (hbehind rest')
  · rw [List.append_assoc, List.append_assoc]
    exact skip_key p.name (c := ' ') (by decide) (by decide) (by decide)
      (forall_mem_of_all (by decide))
      (begins_behindKey p.optional (hbehind rest'))

/-- A method is read as such. -/
theorem reads_method {p : Property} {f : FunctionShape} (hmethod : p.method = true)
    (hparameters : ∀ q ∈ f.parameters, isIdentifierText q.name = true ∧
      Inner inner text value q.type)
    (hresult : Inner inner text value f.result)
    (hvalue : value p.type = .function (parameterTrees value f.parameters) (value f.result))
    (ends : List Char) : Reads (readProperty inner)
      (propertyText p ("(".toList ++ (functionText text f ": " ++ "; ".toList)))
      ⟨p.name, p.optional, p.readonly, p.method, value p.type⟩ ends := by
  refine reads_propertyText (.accept "(" ((reads_function ": " hparameters hresult).bind
    (.expect "; " ?_) fun _ _ => begins_cons (by decide))) fun _ => begins_cons (by decide)
  rw [hmethod, hvalue, String.ofList_toList]
  exact .pure

/-- So is a property that is no method, also if its type is a function. -/
theorem reads_plain {p : Property} (hmethod : p.method = false)
    (htype : Inner inner text value p.type) (ends : List Char) : Reads (readProperty inner)
      (propertyText p (": ".toList ++ ((text p.type).toList ++ "; ".toList)))
      ⟨p.name, p.optional, p.readonly, p.method, value p.type⟩ ends := by
  refine reads_propertyText (.absent "(" (fun _ _ => rfl) (.expect ": " (htype.bind
    (.expect "; " ?_) fun _ _ => begins_cons (by decide)))) fun _ => begins_cons (by decide)
  rw [hmethod, String.ofList_toList]
  exact .pure

end Parts

/-! ## What is written of a type -/

namespace Interner

variable (t : Interner)

/-- The types that are written one level below a property: of a method, those of its function. -/
def writtenInProperty (p : Property) : List TypeId :=
  match t.get? p.type, p.method with
  | some (.function f), true => (Structure.function f).mentions
  | _, _ => [p.type]

/-- The types that are written one level below a structure. -/
def written : Structure → List TypeId
  | .object shape => shape.flatMap t.writtenInProperty
  | s => s.mentions

/-- Nothing is written more than `depth` levels below the type. -/
def Within : (depth : Nat) → TypeId → Prop
  | 0, id => ∀ s ∈ t.lookup id, t.written s = []
  | depth + 1, id => ∀ s ∈ t.lookup id, ∀ x ∈ t.written s, Within depth x

instance : (depth : Nat) → (id : TypeId) → Decidable (t.Within depth id)
  | 0, id => inferInstanceAs (Decidable (∀ s ∈ t.lookup id, t.written s = []))
  | depth + 1, id =>
    have (x : TypeId) : Decidable (t.Within depth x) := instDecidableWithin depth x
    inferInstanceAs (Decidable (∀ s ∈ t.lookup id, ∀ x ∈ t.written s, t.Within depth x))

end Interner

/-- Names of types and parameters are identifiers, those of types no keywords; numbers are digits,
and only functions are the types of methods. -/
def Structure.Spelled (t : Interner) : Structure → Prop
  | .interface name _ _ | .synonym name _ _ | .parameter name =>
    isIdentifierText name = true ∧ name ∉ intrinsicNames
  | .function f => ∀ p ∈ f.parameters, isIdentifierText p.name = true
  | .literal (.number text) => isDigits text.toList = true
  | .object shape => ∀ p ∈ shape, p.method = true → t.isFunction p.type = true
  | _ => True

instance (t : Interner) : DecidablePred (Structure.Spelled t)
  | .interface name _ _ | .synonym name _ _ | .parameter name =>
    inferInstanceAs (Decidable (isIdentifierText name = true ∧ name ∉ intrinsicNames))
  | .function f => inferInstanceAs (Decidable (∀ p ∈ f.parameters, isIdentifierText p.name = true))
  | .literal (.number text) => inferInstanceAs (Decidable (isDigits text.toList = true))
  | .object shape =>
    inferInstanceAs (Decidable (∀ p ∈ shape, p.method = true → t.isFunction p.type = true))
  | .intrinsic _ | .literal (.string _) | .literal (.boolean _) | .array _ | .union _ =>
    .isTrue trivial

/-- Every type of the table is spelled in this way. -/
def Interner.Spelled (t : Interner) : Prop := ∀ s ∈ t.types, s.Spelled t

instance (t : Interner) : Decidable t.Spelled :=
  inferInstanceAs (Decidable (∀ s ∈ t.types, s.Spelled t))

section Parts

variable {inner : Reader Tree} {text : TypeId → String} {value : TypeId → Tree} {t : Interner}

/-- The text of a property with the semicolon behind it. -/
def memberText (t : Interner) (text : TypeId → String) (p : Property) : List Char :=
  (Interner.renderProperty text t p ++ "; ").toList

/-- The text of a property is that of a method, or that of a property that is none. -/
theorem memberText_cases (t : Interner) (text : TypeId → String) (p : Property) :
    (∃ f, t.get? p.type = some (.function f) ∧ p.method = true ∧
      memberText t text p = propertyText p
      ("(".toList ++ (functionText text f ": " ++ "; ".toList))) ∨
    ((p.method = true → t.isFunction p.type = false) ∧
      memberText t text p = propertyText p
      (": ".toList ++ ((text p.type).toList ++ "; ".toList))) := by
  unfold memberText Interner.renderProperty
  dsimp only
  split
  · rename_i f hget hmethod
    refine .inl ⟨f, hget, hmethod, ?_⟩
    simp only [String.toList_append, toList_renderFunction, propertyText, List.append_assoc]
  · rename_i hother
    refine .inr ⟨fun hmethod => ?_, ?_⟩
    · unfold Interner.isFunction
      split
      · exact absurd hmethod (hother _ ‹_›)
      · rfl
    · simp only [String.toList_append, propertyText, List.append_assoc]

/-- No property begins with a closing brace. -/
theorem skip_memberText (t : Interner) (text : TypeId → String) (p : Property) (rest : List Char) :
    skip "\x7d".toList (memberText t text p ++ rest) = none := by
  obtain ⟨tail, htail, hbegins⟩ : ∃ tail, memberText t text p = propertyText p tail ∧
      Begins [':', '('] (tail ++ rest) := by
    rcases memberText_cases t text p with ⟨f, -, -, htext⟩ | ⟨-, htext⟩
    · exact ⟨_, htext, begins_cons (by decide)⟩
    · exact ⟨_, htext, begins_cons (by decide)⟩
  rw [htail, propertyText, List.append_assoc, List.append_assoc, List.append_assoc]
  cases p.readonly with
  | true => rfl
  | false =>
    exact skip_key p.name (c := '\x7d') (by decide) (by decide) (by decide)
      (forall_mem_of_all (by decide))
      (begins_behindKey p.optional (hbegins.mono (by decide)))

/-- The value of a function is made of those of its parts. -/
def FunctionValues (t : Interner) (value : TypeId → Tree) : Prop :=
  ∀ id f, t.get? id = some (.function f) →
    (∀ p ∈ f.parameters, isIdentifierText p.name = true) ∧
      value id = .function (parameterTrees value f.parameters) (value f.result)

/-- **A property is read**, if the types are that are written in it. -/
theorem reads_property {p : Property} (hvalues : FunctionValues t value)
    (hmethod : p.method = true → t.isFunction p.type = true)
    (h : ∀ x ∈ t.writtenInProperty p, Inner inner text value x) (ends : List Char) :
    Reads (readProperty inner) (memberText t text p)
      ⟨p.name, p.optional, p.readonly, p.method, value p.type⟩ ends := by
  rcases memberText_cases t text p with ⟨f, hget, hp, htext⟩ | ⟨hp, htext⟩
  · obtain ⟨hnames, hvalue⟩ := hvalues p.type f hget
    have hwritten : t.writtenInProperty p = (Structure.function f).mentions := by
      rw [Interner.writtenInProperty, hget, hp]
    rw [hwritten] at h
    rw [htext]
    refine reads_method hp (fun q hq => ⟨hnames q hq, h q.type ?_⟩) (h f.result ?_) hvalue ends
    · exact List.mem_append_left _ (List.mem_map_of_mem hq)
    · exact List.mem_append_right _ List.mem_cons_self
  · have hp' : p.method = false := by
      cases hm : p.method with
      | false => rfl
      | true => rw [hp hm] at hmethod; exact absurd (hmethod hm) Bool.false_ne_true
    have hwritten : t.writtenInProperty p = [p.type] := by
      rw [Interner.writtenInProperty, hp']
      cases t.get? p.type with
      | none => rfl
      | some s => cases s <;> rfl
    rw [htext]
    exact reads_plain hp' (h p.type (by rw [hwritten]; exact List.mem_cons_self)) ends

/-- The text of an object from behind its opening brace. -/
def objectText (t : Interner) (text : TypeId → String) (shape : Shape) : List Char :=
  match shape with
  | [] => "\x7d".toList
  | shape => " ".toList ++ (shape.flatMap (memberText t text) ++ "\x7d".toList)

theorem toList_object (shape : Shape) : (Interner.renderStructure text t (.object shape)).toList =
    "\x7b".toList ++ objectText t text shape := by
  cases shape with
  | nil =>
    rw [Interner.renderStructure]
    rfl
  | cons p ps =>
    have hopen : "\x7b ".toList = "\x7b".toList ++ " ".toList := rfl
    rw [Interner.renderStructure, String.toList_append, String.toList_append, String.toList_join,
      List.flatMap_map, hopen, List.append_assoc, List.append_assoc]
    · rfl
    · exact fun h => List.cons_ne_nil p ps h

/-- An object is read from behind its opening brace. -/
theorem reads_object {shape : Shape} (hvalues : FunctionValues t value)
    (hmethod : ∀ p ∈ shape, p.method = true → t.isFunction p.type = true)
    (h : ∀ x ∈ t.written (.object shape), Inner inner text value x) (ends : List Char) :
    Reads (readObject inner) (objectText t text shape)
      (.object (propertyTrees value shape)) ends := by
  cases shape with
  | nil => exact .accept "\x7d" .pure
  | cons p ps =>
    have hmembers : Reads (many (readProperty inner) "\x7d")
        ((p :: ps).flatMap (memberText t text) ++ "\x7d".toList)
        (propertyTrees value (p :: ps)) ends :=
      reads_many (fun q hq ends => reads_property hvalues (hmethod q hq)
        (fun x hx => h x (List.mem_flatMap.2 ⟨q, hq, hx⟩)) ends)
        fun q _ rest => skip_memberText t text q rest
    exact .absent "\x7d" (fun _ _ => rfl) (.expect " " hmembers.bind_pure)

/-! ## Types without parentheses -/

theorem reads_name (inner : Reader Tree) {name : String} (hname : isIdentifierText name = true) :
    Reads (readNamed inner) name.toList
      (if intrinsicNames.contains name then .keyword name else .named name []) typeOperandEnds := by
  have hword : Reads (word isIdentifierPart) name.toList name.toList typeOperandEnds :=
    reads_word (isIdentifierPart_of_mem hname) fun c hc =>
      not_isIdentifierPart ((by decide : typeOperandEnds ⊆ punctuation) hc)
  have hvalue : Reads (if intrinsicNames.contains name then pure (.keyword name) else
      pure (.named name []) : Reader Tree) []
      (if intrinsicNames.contains name then .keyword name else .named name []) typeOperandEnds := by
    split
    · exact .pure
    · exact .pure
  rw [← String.ofList_toList (s := name)] at hvalue
  rw [← List.append_nil name.toList]
  refine hword.bind (.absent "<" (fun _ hrest => skip_eq_none hrest (by decide)) ?_) fun _ h => h
  simpa only [String.ofList_toList, if_neg Bool.false_ne_true] using hvalue

/-- The text of some types between angle brackets. -/
def argumentsText (text : TypeId → String) (arguments : List TypeId) : List Char :=
  "<".toList ++ (", ".toList.intercalate (arguments.map fun x => (text x).toList) ++ ">".toList)

theorem reads_applied {name : String} (hname : isIdentifierText name = true)
    {arguments : List TypeId}
    (hne : arguments ≠ []) (h : ∀ x ∈ arguments, Inner inner text value x) (ends : List Char) :
    Reads (readNamed inner) (name.toList ++ argumentsText text arguments)
      (.named name (arguments.map value)) ends := by
  have hword : Reads (word isIdentifierPart) name.toList name.toList ['<'] :=
    reads_word (isIdentifierPart_of_mem hname) fun c hc =>
      not_isIdentifierPart ((by decide : ['<'] ⊆ punctuation) hc)
  have harguments : Reads (list inner ", ")
      (", ".toList.intercalate (arguments.map fun x => (text x).toList))
      (arguments.map value) ['>'] :=
    reads_list (c := ',') rfl (by decide) hne fun x hx => (h x hx).mono (by decide)
  refine hword.bind (.accept "<" (harguments.bind (.expect ">" ?_) fun _ _ =>
    begins_cons (by decide))) fun _ _ => begins_cons (by decide)
  rw [String.ofList_toList]
  exact .pure

/-- What begins with no punctuation is a number or a name. -/
theorem reads_atom_of_word {word ends : List Char} {c : Char} {cs : List Char} {x : Tree}
    (hword : word = c :: cs) (hc : c ∉ punctuation) (h : Reads (readWord inner) word x ends) :
    Reads (readAtom inner) word x ends := by
  have habsent {token : List Char} {d : Char} (htoken : token.head? = some d) (hd : d ∈ punctuation)
      (rest : List Char) : skip token (word ++ rest) = none := by
    have hbegins : Begins [c] (word ++ rest) := hword ▸ begins_cons List.mem_cons_self
    have hne : d ≠ c := fun e => hc (e ▸ hd)
    exact skip_eq_none hbegins (by simp [htoken, hne])
  refine .absent "(" (fun rest _ => habsent rfl (by decide) rest) ?_
  refine .absent "\x7b" (fun rest _ => habsent rfl (by decide) rest) ?_
  exact .absent "\"" (fun rest _ => habsent rfl (by decide) rest) h

theorem not_mem_of_name {name : String} (hname : isIdentifierText name = true) :
    ∀ c ∈ name.toList, c ∉ punctuation := fun _ hmem hc =>
  not_mem_of_key (by rw [hname, Bool.true_or]) hc hmem

/-- A text that begins with a name is read from this name on. -/
theorem reads_atom_of_name {name : String} (hname : isIdentifierText name = true)
    {rest ends : List Char} {x : Tree} (h : Reads (readNamed inner) (name.toList ++ rest) x ends) :
    Reads (readAtom inner) (name.toList ++ rest) x ends := by
  obtain ⟨c, cs, hcs, hstart⟩ := exists_cons_of_name hname
  have htext : name.toList ++ rest = c :: (cs ++ rest) := by rw [hcs, List.cons_append]
  have hdigits : Reads (word Char.isDigit) [] [] [c] :=
    reads_word (fun _ hd => absurd hd List.not_mem_nil) fun d hd =>
      List.mem_singleton.1 hd ▸ not_isDigit_of_start hstart
  refine reads_atom_of_word htext (not_mem_of_name hname c (by simp [hcs])) ?_
  have hbegins (rest' : List Char) : Begins [c] (name.toList ++ rest ++ rest') := by
    rw [htext]
    exact begins_cons List.mem_cons_self
  exact hdigits.bind h fun rest' _ => hbegins rest'

theorem not_mem_of_digits {digits : String} (h : isDigits digits.toList = true) :
    ∀ c ∈ digits.toList, c ∉ punctuation := by
  have hpunctuation : ∀ c ∈ punctuation, c.isDigit = false := forall_mem_of_all (by decide)
  intro c hmem hc
  have hdigit := all_of_isDigits h c hmem
  rw [hpunctuation c hc] at hdigit
  cases hdigit

/-- Digits are read as a number. -/
theorem reads_numeral {digits : String} (h : isDigits digits.toList = true) :
    Reads (readAtom inner) digits.toList (.numeral digits) typeOperandEnds := by
  obtain ⟨c, cs, hcs⟩ : ∃ c cs, digits.toList = c :: cs := by
    cases hs : digits.toList with
    | nil =>
      rw [hs] at h
      cases h
    | cons c cs => exact ⟨c, cs, rfl⟩
  have hdigits : Reads (word Char.isDigit) digits.toList digits.toList typeOperandEnds :=
    reads_word (all_of_isDigits h) (forall_mem_of_all (by decide))
  refine reads_atom_of_word hcs (not_mem_of_digits h c (by simp [hcs])) ?_
  rw [← List.append_nil digits.toList]
  refine hdigits.bind ?_ fun _ h => h
  rw [String.ofList_toList, hcs, List.isEmpty_cons, if_neg Bool.false_ne_true]
  exact .pure

/-- Arrays, unions and functions are written with their parts in front. -/
def Structure.isAtom : Structure → Bool
  | .array _ | .union _ | .function _ => false
  | _ => true

/-- The text of the arguments of a type, if it has any. -/
def argumentsText? (text : TypeId → String) (arguments : List TypeId) : List Char :=
  if arguments.isEmpty then [] else argumentsText text arguments

theorem toList_renderNamed (name : String) (arguments : List TypeId) :
    (Interner.renderNamed text name arguments).toList =
      name.toList ++ argumentsText? text arguments := by
  unfold Interner.renderNamed argumentsText?
  split
  · rw [List.append_nil]
  · rw [commas, String.toList_append, String.toList_append, String.toList_append,
      String.toList_intercalate, List.map_map, argumentsText, List.append_assoc, List.append_assoc]
    rfl

/-- **A name with arguments, or without, is read**, unless it is a keyword. -/
theorem reads_named {name : String} (hname : isIdentifierText name = true ∧ name ∉ intrinsicNames)
    {arguments : List TypeId} (h : ∀ x ∈ arguments, Inner inner text value x) :
    Reads (readAtom inner) (Interner.renderNamed text name arguments).toList
      (.named name (arguments.map value)) typeOperandEnds := by
  rw [toList_renderNamed]
  refine reads_atom_of_name hname.1 ?_
  cases arguments with
  | nil =>
    have hplain := reads_name inner hname.1
    rw [if_neg (by simpa using hname.2)] at hplain
    rw [argumentsText?, List.isEmpty_nil, if_pos rfl, List.append_nil]
    exact hplain
  | cons x xs =>
    rw [argumentsText?, List.isEmpty_cons, if_neg Bool.false_ne_true]
    exact reads_applied hname.1 (List.cons_ne_nil x xs) h typeOperandEnds

theorem isIdentifierText_of_keyword : ∀ name ∈ intrinsicNames, isIdentifierText name = true := by
  decide +kernel

theorem reads_keyword {name : String} (hname : name ∈ intrinsicNames) :
    Reads (readAtom inner) name.toList (.keyword name) typeOperandEnds := by
  have hidentifier := isIdentifierText_of_keyword name hname
  have hplain := reads_name inner hidentifier
  rw [if_pos (by simpa using hname)] at hplain
  rw [← List.append_nil name.toList] at hplain ⊢
  exact reads_atom_of_name hidentifier hplain

/-- **A type without parentheses is read**, if its parts are. -/
theorem reads_atom {s : Structure} (hatom : s.isAtom = true) (hspelled : s.Spelled t)
    (hkeyword : ∀ name, s = .intrinsic name → name ∈ intrinsicNames)
    (hvalues : FunctionValues t value) (h : ∀ x ∈ t.written s, Inner inner text value x) :
    Reads (readAtom inner) (Interner.renderStructure text t s).toList
      (s.tree value) typeOperandEnds := by
  cases s with
  | array _ | union _ | function _ => cases hatom
  | intrinsic name => exact reads_keyword (hkeyword name rfl)
  | literal value =>
    cases value with
    | string text =>
      have hquoted := (reads_quoted text.toList typeOperandEnds).bind_pure
        (f := fun cs => Tree.text (String.ofList cs))
      rw [String.ofList_toList] at hquoted
      rw [Interner.renderStructure, Literal.render, Quoted.plain, Quoted.toList_quote]
      exact .absent "(" (fun _ _ => rfl) (.absent "\x7b" (fun _ _ => rfl) (.accept "\"" hquoted))
    | number digits => exact reads_numeral hspelled
    | boolean value =>
      cases value with
      | true => exact reads_keyword (by decide : "true" ∈ intrinsicNames)
      | false => exact reads_keyword (by decide : "false" ∈ intrinsicNames)
  | object shape =>
    rw [toList_object]
    exact .absent "(" (fun _ _ => rfl)
      (.accept "\x7b" (reads_object hvalues hspelled h typeOperandEnds))
  | interface name _ arguments | synonym name _ arguments => exact reads_named hspelled h
  | parameter name =>
    have hnone : ∀ x ∈ [], Inner inner text value x := fun x hx => absurd hx List.not_mem_nil
    have hnamed := reads_named hspelled hnone
    rw [Interner.renderNamed, List.isEmpty_nil, if_pos rfl] at hnamed
    rw [Interner.renderStructure]
    exact hnamed

end Parts

end TypeReify.Types
