/-!
# JSON values

The values of a JSON text, as far as a reader of settings needs them: numbers are recognised and
not kept. A string may hold escapes that pair up to no character (half of a surrogate pair). Such a
string is well-formed, but it has no text.

Settings and manifests are read by a library that derives readers of records from their fields
(`TransformerConfig`, `MarkerModule`, `ResolutionOptions`, `PackageJson`). `field?` and `fields?`
follow its documented rules: unknown fields are passed over, known ones may not be repeated, and a
record may be written as an array.

Results:
* `textOfPieces_chars`: characters without escapes are their own text.
* `field?_unique`: a field that is written twice cannot be read.
* `length_of_fields?`: reading a record answers one value a field.

Out of scope: the values of numbers, which no field has, and the texts of errors.
-/

namespace TypeReify

/-- What one character or escape of a string stands for. -/
inductive JsonPiece
  | char (c : Char)
  /-- Half of a surrogate pair. -/
  | surrogate (unit : Nat)
  deriving DecidableEq, Repr

/-- A JSON value; a string without text is written as `none`. -/
inductive Json
  | null
  | boolean (value : Bool)
  | number
  | string (text : Option String)
  | array (items : List Json)
  | object (members : List (Option String × Json))

namespace Json

def isHighSurrogate (n : Nat) : Bool := decide (0xd800 ≤ n) && decide (n < 0xdc00)

def isLowSurrogate (n : Nat) : Bool := decide (0xdc00 ≤ n) && decide (n < 0xe000)

/-- The escape with code `n`. -/
def pieceOfCode (n : Nat) : JsonPiece :=
  if isHighSurrogate n || isLowSurrogate n then .surrogate n else .char (Char.ofNat n)

/-- The character of a surrogate pair. -/
def pairChar (high low : Nat) : Char :=
  Char.ofNat (0x10000 + (high - 0xd800) * 0x400 + (low - 0xdc00))

/-- The characters of a string, if every half has its other half behind it. -/
def textOfPieces : List JsonPiece → Option (List Char)
  | [] => some []
  | .char c :: rest => (textOfPieces rest).map (c :: ·)
  | .surrogate high :: .surrogate low :: rest =>
    if isHighSurrogate high && isLowSurrogate low then
      (textOfPieces rest).map (pairChar high low :: ·)
    else none
  | .surrogate _ :: _ => none

/-! ## Reading fields -/

def text? : Json → Option String
  | .string text => text
  | _ => none

/-- A value that may be absent or `null`. -/
def nullable (read : Json → Option α) : Json → Option (Option α)
  | .null => some none
  | j => (read j).map some

def list? (read : Json → Option α) : Json → Option (List α)
  | .array items => items.mapM read
  | _ => none

/-- The field of a name among the members of an object: absent, or written once. Every name must
have a text. -/
def field? (members : List (Option String × Json)) (name : String) : Option (Option Json) :=
  if members.any (·.1.isNone) then none
  else
    match members.filter (·.1 == some name) with
    | [] => some none
    | [m] => some (some m.2)
    | _ => none

/-- The fields of a record: an object by their names, or an array in their order. An array may end
early, but not before the first `least` fields, and it holds nothing beyond the last. -/
def fields? (names : List String) (least : Nat) : Json → Option (List (Option Json))
  | .object members => names.mapM (field? members)
  | .array items =>
    if least ≤ items.length ∧ items.length ≤ names.length then
      some (items.map some ++ List.replicate (names.length - items.length) none)
    else none
  | _ => none

theorem textOfPieces_chars (cs : List Char) : textOfPieces (cs.map .char) = some cs := by
  induction cs with
  | nil => rfl
  | cons c cs ih => simp [textOfPieces, ih]

theorem field?_unique {members : List (Option String × Json)} {name : String}
    (h : 2 ≤ (members.filter (·.1 == some name)).length) : field? members name = none := by
  unfold field?
  split
  · rfl
  · split <;> simp_all

theorem length_of_mapM {f : α → Option β} {xs : List α} {ys : List β} (h : xs.mapM f = some ys) :
    ys.length = xs.length := by
  induction xs generalizing ys with
  | nil => simp_all
  | cons x xs ih =>
    simp only [List.mapM_cons, Option.pure_def, Option.bind_eq_bind, Option.bind_eq_some_iff,
      Option.some.injEq] at h
    obtain ⟨_, -, zs, hz, rfl⟩ := h
    simp [ih hz]

theorem length_of_fields? {names : List String} {least : Nat} {j : Json}
    {values : List (Option Json)} (h : fields? names least j = some values) :
    values.length = names.length := by
  cases j with
  | object members => exact length_of_mapM h
  | array items =>
    simp only [fields?, Option.ite_none_right_eq_some, Option.some.injEq] at h
    obtain ⟨hl, rfl⟩ := h
    simp
    omega
  | _ => simp [fields?] at h

end Json

end TypeReify
