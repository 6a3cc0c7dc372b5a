import TypeReify.Proofs.Syntax.Growth
import TypeReify.Syntax.Build
import TypeReify.Syntax.Print
import Mathlib.Data.List.Infix

/-!
# The values of string literals

A string literal of ECMAScript denotes a sequence of UTF-16 code units. `value?` reads it by the
rules of strict mode, and answers nothing for a text that is no string literal.

The printer writes NUL as a backslash and a zero. In strict mode no digit may follow these, and the
printer does not look at what follows.

This is about `write_quoted`. The reader follows the grammar of ECMAScript, not the printer.

Results:
* `value?_literal`: a quoted text is a literal of this text, unless a digit stands behind a NUL.
* `print_literal_value`: so are the literals of a printed tree.
* `print_literal_nul`: a NUL in front of a digit is not written as a literal.

Out of scope: templates, and the octal escapes of sloppy mode.
-/

namespace TypeReify.Text

/-- The UTF-16 code units of a character. -/
def charUnits (c : Char) : List Nat :=
  if c.toNat < 0x10000 then [c.toNat]
  else [0xd800 + (c.toNat - 0x10000) / 0x400, 0xdc00 + (c.toNat - 0x10000) % 0x400]

/-- The UTF-16 code units of a text. -/
def units (s : String) : List Nat := s.toList.flatMap charUnits

namespace Literal

/-! ## Reading a literal -/

def hexValue? (c : Char) : Option Nat :=
  if c.isDigit then some (c.toNat - 48)
  else if 'A' ≤ c ∧ c ≤ 'F' then some (c.toNat - 55)
  else if 'a' ≤ c ∧ c ≤ 'f' then some (c.toNat - 87)
  else none

/-- The number that some hexadecimal digits write, if there are any. -/
def hexNumber? (digits : List Char) : Option Nat :=
  if digits.isEmpty then none
  else digits.foldlM (fun n c => (hexValue? c).map (n * 16 + ·)) 0

/-- The number written by the first `n` characters. -/
def hexPrefix? (n : Nat) (cs : List Char) : Option Nat :=
  if cs.length < n then none else hexNumber? (cs.take n)

/-- The code units of a code point, which need not be that of a character. -/
def pointUnits? (n : Nat) : Option (List Nat) :=
  if n < 0x10000 then some [n]
  else if n < 0x110000 then some (charUnits (.ofNat n))
  else none

def isLineTerminator (c : Char) : Bool :=
  c == '\n' || c == '\r' || c == '\u2028' || c == '\u2029'

/-- The letters that stand for a control character behind a backslash. -/
def controlEscapes : List (Char × Nat) :=
  [('b', 8), ('t', 9), ('n', 10), ('v', 11), ('f', 12), ('r', 13)]

/-- What a backslash stands for with the text behind it, and how many characters of this text belong
to it. A digit stands behind a backslash in one case only: a zero that no digit follows. -/
def escape? : List Char → Option (List Nat × Nat)
  | [] => none
  | '\r' :: '\n' :: _ => some ([], 2)
  | '0' :: cs => if cs.head?.any Char.isDigit then none else some ([0], 1)
  | 'x' :: cs => (hexPrefix? 2 cs).map ([·], 3)
  | 'u' :: '\x7b' :: cs =>
    let digits := cs.takeWhile (· != '\x7d')
    if digits.length < cs.length then
      ((hexNumber? digits).bind pointUnits?).map (·, digits.length + 3)
    else none
  | 'u' :: cs => (hexPrefix? 4 cs).map ([·], 5)
  | c :: _ =>
    if isLineTerminator c then some ([], 1)
    else if c.isDigit then none
    else some ((controlEscapes.lookup c).elim (charUnits c) ([·]), 1)

/-- Reads from behind the first quote, some characters left out. Nothing may follow the last quote.
-/
def body? (quote : Char) : (skipped : Nat) → List Char → Option (List Nat)
  | _, [] => none
  | skipped + 1, _ :: cs => body? quote skipped cs
  | 0, c :: cs =>
    if c = quote then if cs.isEmpty then some [] else none
    else if c = '\\' then
      match escape? cs with
      | some (units, length) => (body? quote length cs).map (units ++ ·)
      | none => none
    else if c = '\n' ∨ c = '\r' then none
    else (body? quote 0 cs).map (charUnits c ++ ·)

/-- What a string literal denotes. -/
def value? : List Char → Option (List Nat)
  | [] => none
  | c :: cs => if c = '"' ∨ c = '\x27' then body? c 0 cs else none

end Literal

/-! ## Code units -/

namespace Literal

/-! ## Escaped characters -/

/-- No digit stands behind a NUL. -/
def Plain (cs : List Char) : Prop := ∀ d ∈ cs, d.isDigit = true → ¬['\x00', d] <:+: cs

instance (cs : List Char) : Decidable (Plain cs) :=
  inferInstanceAs (Decidable (∀ d ∈ cs, d.isDigit = true → ¬['\x00', d] <:+: cs))

theorem plain_iff {cs : List Char} :
    Plain cs ↔ ∀ d : Char, d.isDigit = true → ¬['\x00', d] <:+: cs :=
  ⟨fun h d hd hin => h d (hin.subset (by simp)) hd hin, fun h d _ => h d⟩

theorem plain_cons {c : Char} {cs : List Char} :
    Plain (c :: cs) ↔ (c = '\x00' → cs.head?.any Char.isDigit = false) ∧ Plain cs := by
  have hprefix (d : Char) : ['\x00', d] <+: c :: cs ↔ c = '\x00' ∧ cs.head? = some d := by
    cases cs with
    | nil => simp
    | cons d' cs => simp [List.cons_prefix_cons, eq_comm]
  have hinfix (d : Char) : ['\x00', d] <:+: c :: cs ↔
      (c = '\x00' ∧ cs.head? = some d) ∨ ['\x00', d] <:+: cs := by
    rw [List.infix_cons_iff, hprefix]
  simp only [plain_iff, hinfix, not_or, not_and, imp_and, forall_and, Option.any_eq_false]
  refine and_congr_left fun _ => ?_
  constructor
  · exact fun h hc d hd => Bool.eq_false_iff.2 fun hdigit => h d hdigit hc hd
  · exact fun h d hdigit hc hd => Bool.eq_false_iff.1 (h hc d hd) hdigit

theorem hexValue?_hexDigit : ∀ n < 16, hexValue? (Quoted.hexDigit n) = some n := by decide

/-- Four hexadecimal digits are read as the number they were made from. -/
theorem hexPrefix?_hexDigits {n : Nat} (hn : n < 0x10000) (cs : List Char) :
    hexPrefix? 4 (Quoted.hexDigit (n / 4096 % 16) :: Quoted.hexDigit (n / 256 % 16) ::
      Quoted.hexDigit (n / 16 % 16) :: Quoted.hexDigit (n % 16) :: cs) = some n := by
  have hdigit (n : Nat) : hexValue? (Quoted.hexDigit (n % 16)) = some (n % 16) :=
    hexValue?_hexDigit _ (Nat.mod_lt _ (by decide))
  have hsum : ((n / 4096 % 16 * 16 + n / 256 % 16) * 16 + n / 16 % 16) * 16 + n % 16 = n := by
    omega
  simpa [hexPrefix?, hexNumber?, hdigit] using hsum

theorem body?_unicodeEscape {c : Char} (hc : c.toNat < 0x10000) (cs : List Char) :
    body? '"' 0 (Quoted.unicodeEscape c ++ cs) = (body? '"' 0 cs).map (charUnits c ++ ·) := by
  have hbrace : ∀ n < 16, Quoted.hexDigit n ≠ '\x7b' := by decide
  have hescape : escape? (Quoted.unicodeEscape c ++ cs).tail = some ([c.toNat], 5) := by
    simp only [Quoted.unicodeEscape, List.cons_append, List.nil_append, List.tail_cons]
    rw [escape?.eq_def]
    simp [hbrace _ (Nat.mod_lt _ (by decide : 0 < 16)), hexPrefix?_hexDigits hc]
  rw [show charUnits c = [c.toNat] from if_pos hc]
  simp only [Quoted.unicodeEscape, List.cons_append, List.nil_append, List.tail_cons] at hescape ⊢
  rw [body?, if_neg (by decide), if_pos rfl, hescape]
  rfl

theorem body?_escapeLiteral {c : Char} {cs : List Char}
    (hnul : c = '\x00' → cs.head?.any Char.isDigit = false) :
    body? '"' 0 (Quoted.escapeLiteral c ++ cs) = (body? '"' 0 cs).map (charUnits c ++ ·) := by
  by_cases hshort : c ∈ ['"', '\\', '\n', '\r', '\t']
  · simp only [List.mem_cons, List.not_mem_nil, or_false] at hshort
    rcases hshort with rfl | rfl | rfl | rfl | rfl <;> rfl
  · simp only [List.mem_cons, List.not_mem_nil, or_false, not_or] at hshort
    obtain ⟨hquote, hbackslash, hfeed, hreturn, htab⟩ := hshort
    simp only [Quoted.escapeLiteral, hquote, hbackslash, hfeed, hreturn, htab, if_false]
    split
    · rename_i hc
      have hnone := hnul hc
      rw [hc, List.cons_append, List.cons_append, List.nil_append, body?,
        if_neg (by decide), if_pos rfl]
      simp only [escape?, hnone]
      rfl
    split
    · exact body?_unicodeEscape (by omega) cs
    · rw [List.singleton_append, body?, if_neg hquote, if_neg hbackslash,
        if_neg (not_or.2 ⟨hfeed, hreturn⟩)]

/-- An escaped character begins with a digit if it is one. -/
theorem any_head?_escapeLiteral (c : Char) (cs : List Char) :
    (Quoted.escapeLiteral c ++ cs).head?.any Char.isDigit = c.isDigit := by
  by_cases hshort : c ∈ ['"', '\\', '\n', '\r', '\t', '\x00']
  · simp only [List.mem_cons, List.not_mem_nil, or_false] at hshort
    rcases hshort with rfl | rfl | rfl | rfl | rfl | rfl <;> rfl
  · simp only [List.mem_cons, List.not_mem_nil, or_false, not_or] at hshort
    simp only [Quoted.escapeLiteral, hshort, if_false]
    split
    · have hdigit : c.isDigit = false := by
        rw [Bool.eq_false_iff, ne_eq, Char.isDigit_iff_toNat]
        simp only [show ('0'.toNat) = 48 from rfl, show ('9'.toNat) = 57 from rfl]
        omega
      rw [hdigit]
      rfl
    · rfl

/-- What stands between the quotes of a literal is read back, up to a NUL in front of a digit. -/
theorem body?_eq_some_iff {cs : List Char} {us : List Nat} :
    body? '"' 0 (cs.flatMap Quoted.escapeLiteral ++ ['"']) = some us ↔
      us = cs.flatMap charUnits ∧ Plain cs := by
  induction cs generalizing us with
  | nil =>
    have hplain : Plain [] := fun _ hd => absurd hd List.not_mem_nil
    rw [and_iff_left hplain, eq_comm]
    exact Option.some_inj
  | cons c cs ih =>
    have hhead : (cs.flatMap Quoted.escapeLiteral ++ ['"']).head?.any Char.isDigit =
        cs.head?.any Char.isDigit := by
      cases cs with
      | nil => rfl
      | cons d cs =>
        rw [List.flatMap_cons, List.append_assoc, any_head?_escapeLiteral]
        rfl
    rw [List.flatMap_cons, List.append_assoc, plain_cons, List.flatMap_cons]
    by_cases hnul : c = '\x00' → cs.head?.any Char.isDigit = false
    · rw [body?_escapeLiteral (hhead ▸ hnul), Option.map_eq_some_iff]
      constructor
      · rintro ⟨vs, hvs, rfl⟩
        obtain ⟨rfl, hplain⟩ := ih.1 hvs
        exact ⟨rfl, hnul, hplain⟩
      · rintro ⟨rfl, -, hplain⟩
        exact ⟨_, ih.2 ⟨rfl, hplain⟩, rfl⟩
    · -- The zero behind the backslash has a digit behind it.
      obtain ⟨rfl, hdigit⟩ := Classical.not_imp.1 hnul
      rw [Bool.not_eq_false, ← hhead] at hdigit
      refine iff_of_false ?_ fun h => hnul h.2.1
      show body? '"' 0 ('\\' :: '0' :: (cs.flatMap Quoted.escapeLiteral ++ ['"'])) ≠ _
      rw [body?, if_neg (by decide), if_pos rfl, escape?, if_pos hdigit]
      exact (Option.some_ne_none us).symm

/-- **A quoted text is a literal of this text**, and of no other. With a digit behind a NUL it is no
literal. -/
theorem value?_literal {s : String} {us : List Nat} :
    value? (Quoted.literal s).toList = some us ↔ us = units s ∧ Plain s.toList := by
  rw [Quoted.literal, Quoted.toList_quote]
  exact body?_eq_some_iff

end Literal

end TypeReify.Text

namespace TypeReify.Syntax

open Text

/-- **A string literal of a tree is printed as a literal of its text**, where no digit stands behind
a NUL, and else as no literal at all. -/
theorem print_literal_value {a : Arena} {r : Ref} {h : Header} {s : String}
    (hr : a.content? r = some (h, .literal s)) (hk : h.kind = .token .stringLiteral)
    (levels indent : Nat) (us : List Nat) :
    Literal.value? (a.print (levels + 1) indent r).toList = some us ↔
      us = units s ∧ Literal.Plain s.toList := by
  obtain ⟨hheader, hpayload⟩ := Arena.content?_eq_some.1 hr
  have hprint : a.print (levels + 1) indent r = Quoted.literal s := by
    simp [Arena.print, hheader, hpayload, Arena.nodeText, Arena.literalText, hk]
  rw [hprint]
  exact Literal.value?_literal

/-- An arena with one string literal. -/
def literalArena (s : String) : Arena := (Build.stringLiteral s .empty).2

theorem print_literal_value_controls :
    let s := "say \"hi\"\n\x00\x1b😀"
    (literalArena s).content? (some 0) =
        some (.fresh (.token .stringLiteral) (some 0), .literal s) ∧
      Literal.value? ((literalArena s).print 1 0 (some 0)).toList = some (units s) :=
  have hplain : Literal.Plain "say \"hi\"\n\x00\x1b😀".toList := by simp [Literal.Plain]
  ⟨rfl, (print_literal_value rfl rfl 0 0 _).2 ⟨rfl, hplain⟩⟩

/-- A NUL in front of a digit is written as a backslash, a zero and the digit, which is no literal.
-/
theorem print_literal_nul :
    (literalArena "\x001").textOf (some 0) = "\"\\01\"" ∧
      Literal.value? ((literalArena "\x001").textOf (some 0)).toList = none := by
  decide +kernel

end TypeReify.Syntax
