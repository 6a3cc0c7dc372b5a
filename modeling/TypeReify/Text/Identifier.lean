import TypeReify.Text.Alphabetic
import TypeReify.Text.Numeric

/-!
# Identifier texts

Which texts may stand as a name without quotes: a letter, `$` or `_`, then letters, numbers, `$`,
`_` and the two zero-width joiners. Reserved words count, since they may name a property.

Model of `is_identifier_text`, `is_identifier_start` and `is_identifier_part`.

Results:
* `isIdentifierPart_of_start`: what may begin a name may also stand inside it.
-/

namespace TypeReify.Text

def isIdentifierStart (c : Char) : Bool := c == '$' || c == '_' || isAlphabetic c

def isIdentifierPart (c : Char) : Bool :=
  isIdentifierStart c || isNumeric c || c == '\u200c' || c == '\u200d'

/-- The characters form a name that needs no quotes. -/
def isIdentifier : List Char → Bool
  | [] => false
  | c :: cs => isIdentifierStart c && cs.all isIdentifierPart

/-- `is_identifier_text`. -/
def isIdentifierText (s : String) : Bool := isIdentifier s.toList

theorem isIdentifierPart_of_start {c : Char} (h : isIdentifierStart c = true) :
    isIdentifierPart c = true := by
  simp [isIdentifierPart, h]

end TypeReify.Text
