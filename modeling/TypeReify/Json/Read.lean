import TypeReify.Json.Basic

/-!
# Reading JSON

The strict grammar: one value with nothing but blanks around it, no trailing comma, no number with
a leading zero, no control character inside a string.

Each reader takes what it recognises from the front of the characters and answers the rest. Values
nest at most as deep as the text is long.

This is the documented grammar of the library that `from_json_str` and `read_package_json` read
with.

Results:
* `literal?_append`: a word is read off the front of a text that begins with it.

Out of scope: its limit on the nesting of values that it keeps. Settings are nested three deep, and
what is passed over does not count.
-/

namespace TypeReify.Json

def isBlank (c : Char) : Bool := c == ' ' || c == '\t' || c == '\n' || c == '\r'

def skipBlanks (cs : List Char) : List Char := cs.dropWhile isBlank

/-- Reads a fixed word. -/
def literal? : List Char → List Char → Option (List Char)
  | [], cs => some cs
  | w :: ws, c :: cs => if w = c then literal? ws cs else none
  | _ :: _, [] => none

def hexValue? (c : Char) : Option Nat :=
  if '0' ≤ c ∧ c ≤ '9' then some (c.toNat - 48)
  else if 'a' ≤ c ∧ c ≤ 'f' then some (c.toNat - 87)
  else if 'A' ≤ c ∧ c ≤ 'F' then some (c.toNat - 55)
  else none

/-- The code of four hexadecimal digits. -/
def hexCode? (a b c d : Char) : Option Nat := do
  return (((← hexValue? a) * 16 + (← hexValue? b)) * 16 + (← hexValue? c)) * 16 + (← hexValue? d)

/-- The character behind a backslash. -/
def shortEscape? : Char → Option Char
  | '"' => some '"'
  | '\\' => some '\\'
  | '/' => some '/'
  | 'b' => some '\x08'
  | 'f' => some '\x0c'
  | 'n' => some '\n'
  | 'r' => some '\r'
  | 't' => some '\t'
  | _ => none

/-- The pieces of a string up to its closing quote, and the rest behind it. -/
def pieces? : List Char → Option (List JsonPiece × List Char)
  | [] => none
  | '"' :: rest => some ([], rest)
  | '\\' :: 'u' :: a :: b :: c :: d :: rest => do
    let code ← hexCode? a b c d
    let (more, rest) ← pieces? rest
    return (pieceOfCode code :: more, rest)
  | '\\' :: e :: rest => do
    let c ← shortEscape? e
    let (more, rest) ← pieces? rest
    return (.char c :: more, rest)
  | c :: rest => do
    if c.toNat < 0x20 ∨ c = '\\' then none
    let (more, rest) ← pieces? rest
    return (.char c :: more, rest)

def string? (cs : List Char) : Option (Option String × List Char) := do
  let (pieces, rest) ← pieces? cs
  return ((textOfPieces pieces).map String.ofList, rest)

/-! ## Numbers -/

/-- Skips digits, at least one. -/
def digits? : List Char → Option (List Char)
  | c :: cs => if c.isDigit then some (cs.dropWhile Char.isDigit) else none
  | [] => none

def whole? : List Char → Option (List Char)
  | '0' :: cs => some cs
  | cs => digits? cs

def fraction? : List Char → Option (List Char)
  | '.' :: cs => digits? cs
  | cs => some cs

/-- Skips the sign of an exponent. -/
def skipSign : List Char → List Char
  | '+' :: cs | '-' :: cs => cs
  | cs => cs

def exponent? : List Char → Option (List Char)
  | e :: cs => if e = 'e' ∨ e = 'E' then digits? (skipSign cs) else some (e :: cs)
  | [] => some []

def number? (cs : List Char) : Option (List Char) := do
  let unsigned := if cs.head? = some '-' then cs.tail else cs
  exponent? (← fraction? (← whole? unsigned))

/-! ## Values -/

mutual

def value? : (depth : Nat) → List Char → Option (Json × List Char)
  | 0, _ => none
  | depth + 1, cs =>
    match skipBlanks cs with
    | 'n' :: rest => do return (.null, ← literal? ['u', 'l', 'l'] rest)
    | 't' :: rest => do return (.boolean true, ← literal? ['r', 'u', 'e'] rest)
    | 'f' :: rest => do return (.boolean false, ← literal? ['a', 'l', 's', 'e'] rest)
    | '"' :: rest => do
      let (text, rest) ← string? rest
      return (.string text, rest)
    | '[' :: rest =>
      match skipBlanks rest with
      | ']' :: rest => some (.array [], rest)
      | rest => do
        let (items, rest) ← items? depth rest
        return (.array items, rest)
    | '\x7b' :: rest =>
      match skipBlanks rest with
      | '\x7d' :: rest => some (.object [], rest)
      | rest => do
        let (members, rest) ← members? depth rest
        return (.object members, rest)
    | cs => do return (.number, ← number? cs)

/-- The items of an array up to its bracket. -/
def items? : (depth : Nat) → List Char → Option (List Json × List Char)
  | 0, _ => none
  | depth + 1, cs => do
    let (item, rest) ← value? depth cs
    match skipBlanks rest with
    | ']' :: rest => return ([item], rest)
    | ',' :: rest =>
      let (items, rest) ← items? depth rest
      return (item :: items, rest)
    | _ => none

/-- The members of an object up to its brace. -/
def members? : (depth : Nat) → List Char → Option (List (Option String × Json) × List Char)
  | 0, _ => none
  | depth + 1, cs => do
    match skipBlanks cs with
    | '"' :: rest =>
      let (name, rest) ← string? rest
      match skipBlanks rest with
      | ':' :: rest =>
        let (value, rest) ← value? depth rest
        match skipBlanks rest with
        | '\x7d' :: rest => return ([(name, value)], rest)
        | ',' :: rest =>
          let (members, rest) ← members? depth rest
          return ((name, value) :: members, rest)
        | _ => none
      | _ => none
    | _ => none

end

/-- The value that is all of a text. -/
def ofText? (s : String) : Option Json := do
  let cs := s.toList
  let (value, rest) ← value? (cs.length + 1) cs
  if (skipBlanks rest).isEmpty then some value else none

theorem literal?_append (w cs : List Char) : literal? w (w ++ cs) = some cs := by
  induction w with
  | nil => rfl
  | cons c w ih => simp [literal?, ih]

end TypeReify.Json
