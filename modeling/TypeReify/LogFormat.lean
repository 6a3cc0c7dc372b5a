import TypeReify.Text.Blank

/-!
# Log formats

The three shapes of log output and the words that choose them. Blanks around the word and the case
of its letters do not matter; any other word means plain text.

Model of `LogFormat::parse`.

Results:
* `ofWord_self`: every format is chosen by its own word.

Out of scope: the environment that the word is taken from, and the setting up of a log.
-/

namespace TypeReify

inductive LogFormat
  /-- One line an event. -/
  | text
  /-- Events indented by their spans. -/
  | tree
  | json
  deriving DecidableEq, Repr

namespace LogFormat

def word : LogFormat → String
  | .text => "text"
  | .tree => "tree"
  | .json => "json"

/-- `parse`. -/
def ofWord (s : String) : LogFormat :=
  let w := String.ofList ((Text.trimBlanks s.toList).map Char.toLower)
  if w = "tree" then .tree else if w = "json" then .json else .text

theorem ofWord_self (f : LogFormat) : ofWord f.word = f := by cases f <;> decide

end LogFormat

end TypeReify
