/-!
# Character ranges

Character properties are tables of code point ranges, ends included.
-/

namespace TypeReify.Text

def inRange (c : Char) (range : Nat × Nat) : Bool :=
  decide (range.1 ≤ c.toNat) && decide (c.toNat ≤ range.2)

/-- Some range holds the character. -/
def inRanges (ranges : List (Nat × Nat)) (c : Char) : Bool := ranges.any (inRange c)

end TypeReify.Text
