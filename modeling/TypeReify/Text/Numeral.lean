/-!
# Numerals

The texts that read as a floating-point number: an optional sign, then digits with an optional
point and exponent, or one of the words `inf`, `infinity` and `nan` in any letter case. The digits
may be missing on one side of the point, not on both.

These are the texts that the standard library parses as a 64-bit floating-point number, which is how
`write_object` tells the keys that it leaves bare.

Results:
* `isDecimal_of_isDigits`: a run of digits is a numeral.

Out of scope: the number that is read, since only whether there is one is asked.
-/

namespace TypeReify.Text

/-- Drops one sign. -/
def unsigned : List Char → List Char
  | '+' :: cs | '-' :: cs => cs
  | cs => cs

/-- Digits to the end of the text, at least one. -/
def isDigits : List Char → Bool
  | [] => false
  | cs => cs.all Char.isDigit

/-- Nothing, or `e` with a signed whole number. -/
def isExponent : List Char → Bool
  | [] => true
  | 'e' :: cs | 'E' :: cs => isDigits (unsigned cs)
  | _ => false

/-- What stands behind the whole digits, given whether there were any. -/
def isFraction (whole : Bool) : List Char → Bool
  | '.' :: cs => (whole || cs.head?.any Char.isDigit) && isExponent (cs.dropWhile Char.isDigit)
  | cs => whole && isExponent cs

def isDecimal (cs : List Char) : Bool :=
  isFraction (cs.head?.any Char.isDigit) (cs.dropWhile Char.isDigit)

/-- The words for numbers without digits, letter case aside. -/
def isNumberWord (cs : List Char) : Bool :=
  ["inf", "infinity", "nan"].any fun word => cs.map Char.toLower == word.toList

/-- The text reads as a number. -/
def isNumeral (s : String) : Bool :=
  let cs := unsigned s.toList
  isDecimal cs || isNumberWord cs

theorem dropWhile_of_all {p : Char → Bool} {cs : List Char} (h : ∀ c ∈ cs, p c = true) :
    cs.dropWhile p = [] := by
  induction cs with
  | nil => rfl
  | cons c cs ih =>
    rw [List.dropWhile_cons, if_pos (h c (.head _))]
    exact ih fun x hx => h x (.tail _ hx)

theorem isDecimal_of_isDigits {cs : List Char} (h : isDigits cs = true) : isDecimal cs = true := by
  cases cs with
  | nil => simp [isDigits] at h
  | cons c cs =>
    have h' : ∀ x ∈ c :: cs, x.isDigit = true := by simpa [isDigits] using h
    have hc : c.isDigit = true := h' c (.head _)
    simp [isDecimal, isFraction, isExponent, dropWhile_of_all h', hc]

end TypeReify.Text
