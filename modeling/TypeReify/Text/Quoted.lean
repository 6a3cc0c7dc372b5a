/-!
# Quoted text

String literals between double quotes. Two writers share the frame and differ in what they escape:
`literal` is for source text and names every control character, `plain` is for the rendering of a
type and only escapes what would end the literal or the line.

Model of `write_quoted` (`literal`) and of the escapes of `write_literal` (`plain`).

Results:
* `toList_quote`: a quoted text is its escaped characters between two quotes.
-/

namespace TypeReify.Text.Quoted

/-- A hexadecimal digit. -/
def hexDigit (n : Nat) : Char := if n < 10 then Char.ofNat (48 + n) else Char.ofNat (55 + n)

/-- A backslash, `u` and four hexadecimal digits. -/
def unicodeEscape (c : Char) : List Char :=
  let n := c.toNat
  ['\\', 'u', hexDigit (n / 4096 % 16), hexDigit (n / 256 % 16), hexDigit (n / 16 % 16),
    hexDigit (n % 16)]

/-- Escapes of source text: the short ones where there are, else by code point. -/
def escapeLiteral (c : Char) : List Char :=
  if c = '"' then ['\\', '"']
  else if c = '\\' then ['\\', '\\']
  else if c = '\n' then ['\\', 'n']
  else if c = '\r' then ['\\', 'r']
  else if c = '\t' then ['\\', 't']
  else if c = '\x00' then ['\\', '0']
  else if c.toNat < 0x20 ∨ c.toNat = 0x7f then unicodeEscape c
  else [c]

/-- Escapes of a rendered type: the quote, the backslash and the line feed. -/
def escapePlain (c : Char) : List Char :=
  if c = '"' then ['\\', '"']
  else if c = '\\' then ['\\', '\\']
  else if c = '\n' then ['\\', 'n']
  else [c]

/-- A text between quotes, each character escaped. -/
def quote (escape : Char → List Char) (s : String) : String :=
  String.ofList ('"' :: s.toList.flatMap escape ++ ['"'])

/-- The text of a literal as `write_quoted` writes it. -/
def literal (s : String) : String := quote escapeLiteral s

/-- The text of a literal as `write_literal` writes it. -/
def plain (s : String) : String := quote escapePlain s

theorem toList_quote (escape : Char → List Char) (s : String) :
    (quote escape s).toList = '"' :: s.toList.flatMap escape ++ ['"'] := by
  simp [quote]

end TypeReify.Text.Quoted
