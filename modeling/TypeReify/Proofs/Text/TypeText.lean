import TypeReify.Proofs.Text.Reading

/-!
# How the texts of types begin and end

Types are written out in two ways, as nodes of a file and as types of a table, and both kinds of
text are read back by looking at what comes next. Behind an opening parenthesis a name that ends
like a parameter, or the end of an empty list of parameters, belongs to a function, since what is
parenthesized else is a function or a union. Behind an element come the brackets of its arrays, and
one member alone is no union. What the values are that are read is left open here.

The two kinds of text are those of `write_type` and of the arms of `emit_node_kind` for type nodes.

Results:
* `namesParameter_word`: a word that ends otherwise names no parameter.
* `opensParameters_cons`: behind an opening parenthesis the names of parameters are looked for.
* `brackets_eq`: without brackets behind it an element is no array.

Out of scope: what stands between the beginning and the end of a type.
-/

namespace TypeReify.Text

variable {α : Type}

/-! ## Beginnings -/

/-- What comes behind the name of a parameter, or behind no parameter at all. -/
def parameterEnds : List Char := [':', '?', ',', ')']

/-- The text goes on, behind a name if there is one, like a parameter. -/
def namesParameter (cs : List Char) : Bool :=
  (cs.dropWhile isIdentifierPart).head?.any parameterEnds.contains

/-- The text begins with the parameters of a function. -/
def opensParameters (cs : List Char) : Bool :=
  match skip ['('] cs with
  | some cs => namesParameter cs
  | none => false

theorem namesParameter_append {name rest : List Char} (h : ∀ c ∈ name, isIdentifierPart c = true) :
    namesParameter (name ++ rest) = namesParameter rest := by
  rw [namesParameter, List.dropWhile_append_of_pos h, namesParameter]

/-- At a character that no name has, the character decides. -/
theorem namesParameter_cons {c : Char} (hc : isIdentifierPart c = false) (cs : List Char) :
    namesParameter (c :: cs) = parameterEnds.contains c := by
  rw [namesParameter, List.dropWhile_cons_of_neg (by simp [hc])]
  rfl

theorem not_isIdentifierPart_of_mem_parameterEnds :
    ∀ c ∈ parameterEnds, isIdentifierPart c = false :=
  forall_mem_of_all (by decide +kernel)

theorem namesParameter_of_mem {c : Char} (hc : c ∈ parameterEnds) (cs : List Char) :
    namesParameter (c :: cs) = true := by
  rw [namesParameter_cons (not_isIdentifierPart_of_mem_parameterEnds c hc)]
  exact List.contains_iff_mem.2 hc

/-- A word names no parameter, if it ends otherwise. -/
theorem namesParameter_word {word rest : List Char} (ends : List Char)
    (hword : ∀ c ∈ word, c ∉ parameterEnds)
    (hends : ∀ c ∈ ends, isIdentifierPart c = false ∧ c ∉ parameterEnds)
      (hrest : Begins ends rest) :
    namesParameter (word ++ rest) = false := by
  have hnone {c : Char} (hc : c ∉ parameterEnds) : parameterEnds.contains c = false :=
    Bool.eq_false_iff.2 fun h => hc (List.contains_iff_mem.1 h)
  induction word with
  | nil =>
    cases rest with
    | nil => rfl
    | cons c cs =>
      obtain ⟨hpart, hc⟩ := hends c (hrest c rfl)
      exact (namesParameter_cons hpart cs).trans (hnone hc)
  | cons c word ih =>
    cases hpart : isIdentifierPart c with
    | true =>
      rw [← List.singleton_append, List.append_assoc,
        namesParameter_append fun d hd => List.mem_singleton.1 hd ▸ hpart]
      exact ih fun d hd => hword d (List.mem_cons_of_mem c hd)
    | false => exact (namesParameter_cons hpart _).trans (hnone (hword c List.mem_cons_self))

theorem opensParameters_cons (cs : List Char) :
    opensParameters ('(' :: cs) = namesParameter cs := by
  have hskip : skip ['('] ('(' :: cs) = some cs := skip_append ['('] cs
  rw [opensParameters, hskip]

theorem opensParameters_of_skip {cs : List Char} (h : skip ['('] cs = none) :
    opensParameters cs = false := by
  rw [opensParameters, h]

/-! ## Ends -/

/-- What may come behind a type. -/
def typeEnds : List Char := [',', '>', ')', ';']

/-- What may come behind a member of a union or an element of an array. -/
def typeOperandEnds : List Char := ' ' :: '[' :: typeEnds

/-- Takes the brackets of array types. -/
def brackets (array : α → α) (x : α) : List Char → α × List Char
  | '[' :: ']' :: cs => brackets array (array x) cs
  | cs => (x, cs)

/-- One member is no union. -/
def unionOf (union : List α → α) : List α → α
  | [x] => x
  | members => union members

theorem brackets_eq (array : α → α) (x : α) {rest : List Char} (h : Begins (' ' :: typeEnds) rest) :
    brackets array x rest = (x, rest) := by
  unfold brackets
  split
  · exact absurd (h '[' rfl) (by decide)
  · rfl

/-- Behind what has been read the brackets of arrays are taken. -/
theorem bind_brackets {array : α → α} {read : Reader α} {text rest : List Char} {x : α}
    (h : Reads read text x typeOperandEnds) (hrest : Begins typeOperandEnds rest) :
    (do
      let x ← read
      fun cs => some (brackets array x cs) : Reader α)
        (text ++ rest) = some (brackets array x rest) := by
  show (read (text ++ rest)).bind _ = _
  rw [h rest hrest]
  rfl

end TypeReify.Text
