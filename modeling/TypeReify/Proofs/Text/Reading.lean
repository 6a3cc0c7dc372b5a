import TypeReify.Text.Identifier
import TypeReify.Text.Numeral
import TypeReify.Text.Quoted
import Mathlib.Data.List.Basic

/-!
# Reading a text back

A `Reader` takes a value from the beginning of a text and leaves the rest. `Takes read text x p`
says that it takes `x` from `text`, whatever comes behind, if only `p` holds of this, and `Reads
read text x ends` that it does so before a text that begins with one of `ends` or is empty. Readers
are put together like the texts they read, and so are the proofs.

The texts that are read back are those of `print_type` and of `print_source_file`; the program
itself reads neither.

Results:
* `Reads.bind`: one text after the other.
* `reads_word`, `reads_quoted`: words, and what stands between quotes.
* `reads_list`, `reads_many`: lists with separators, and lists up to a closing token.
* `mem_of_isNumeral`: what the texts of numbers are made of.
-/

namespace TypeReify.Text

/-- A reader takes a value from the front of a text, and may fail. -/
abbrev Reader := StateT (List Char) Option

variable {α β : Type}

/-- What is said of the characters of a text is decided one by one. -/
theorem forall_mem_of_all {p : Char → Prop} [DecidablePred p] {cs : List Char}
    (h : (cs.all fun c => decide (p c)) = true) : ∀ c ∈ cs, p c := fun c hc =>
  of_decide_eq_true (List.all_eq_true.1 h c hc)

/-- The text is empty or begins with one of these characters. -/
def Begins (ends rest : List Char) : Prop := ∀ c ∈ rest.head?, c ∈ ends

/-- From `text` the reader takes `x`, and leaves what comes behind if `p` holds of this. -/
def Takes (read : Reader α) (text : List Char) (x : α) (p : List Char → Prop) : Prop :=
  ∀ rest, p rest → read (text ++ rest) = some (x, rest)

/-- From a text with such a beginning the reader takes `x` and leaves what comes behind. -/
def Reads (read : Reader α) (text : List Char) (x : α) (ends : List Char) : Prop :=
  ∀ rest, Begins ends rest → read (text ++ rest) = some (x, rest)

/-- A text that has ended has come to any end. -/
theorem begins_nil (ends : List Char) : Begins ends [] :=
  fun _ h => absurd h (Option.not_mem_none _)

theorem begins_cons {ends rest : List Char} {c : Char} (h : c ∈ ends) : Begins ends (c :: rest) :=
  fun _ hc => Option.mem_some.1 hc ▸ h

theorem Begins.mono {ends ends' rest : List Char} (h : Begins ends rest) (hsub : ends ⊆ ends') :
    Begins ends' rest :=
  fun c hc => hsub (h c hc)

/-- A text that may be empty passes on what it begins with. -/
theorem Begins.append {ends text rest : List Char} (h : Begins ends text)
    (hrest : Begins ends rest) :
    Begins ends (text ++ rest) := by
  cases text with
  | nil => exact hrest
  | cons c cs => exact begins_cons (h c rfl)

namespace Takes

variable {read : Reader α} {text text' : List Char} {x : α} {p q : List Char → Prop}

theorem mono (h : Takes read text x p) (hsub : ∀ rest, q rest → p rest) : Takes read text x q :=
  fun rest hrest => h rest (hsub rest hrest)

/-- One text after the other. -/
theorem bind {f : α → Reader β} {y : β} (h : Takes read text x p) (hf : Takes (f x) text' y q)
    (hbehind : ∀ rest, q rest → p (text' ++ rest)) : Takes (read >>= f) (text ++ text') y q := by
  intro rest hrest
  rw [List.append_assoc]
  show (read (text ++ (text' ++ rest))).bind _ = _
  rw [h _ (hbehind rest hrest)]
  exact hf rest hrest

theorem bind_pure {f : α → β} (h : Takes read text x p) :
    Takes (read >>= fun x => Pure.pure (f x)) text (f x) p := by
  intro rest hrest
  show (read (text ++ rest)).bind _ = _
  rw [h rest hrest]
  rfl

end Takes

namespace Reads

variable {read : Reader α} {text text' : List Char} {x : α} {ends ends' : List Char}

theorem pure : Reads (Pure.pure x) [] x ends := fun _ _ => rfl

theorem mono (h : Reads read text x ends) (hsub : ends' ⊆ ends) : Reads read text x ends' :=
  fun rest hrest => h rest (hrest.mono hsub)

/-- One text after the other. -/
theorem bind {f : α → Reader β} {y : β} (h : Reads read text x ends)
    (hf : Reads (f x) text' y ends')
    (hbegins : ∀ rest, Begins ends' rest → Begins ends (text' ++ rest)) :
    Reads (read >>= f) (text ++ text') y ends' :=
  Takes.bind h hf hbegins

/-- A text that shows its own end is taken before anything. -/
theorem takes_delimited (h : ∀ ends, Reads read text x ends) (p : List Char → Prop) :
    Takes read text x p := fun rest _ =>
  h rest.head?.toList rest fun c hc => by simp [Option.mem_def.1 hc]

/-- Behind a text that shows its own end anything may come. -/
theorem bind_delimited {f : α → Reader β} {y : β} (h : ∀ ends, Reads read text x ends)
    (hf : Reads (f x) text' y ends') : Reads (read >>= f) (text ++ text') y ends' :=
  (takes_delimited h fun _ => True).bind hf fun _ _ => trivial

theorem bind_pure {f : α → β} (h : Reads read text x ends) :
    Reads (read >>= fun x => Pure.pure (f x)) text (f x) ends :=
  Takes.bind_pure h

end Reads

/-! ## Tokens -/

/-- The text without a token at its beginning. -/
def skip (token : List Char) : List Char → Option (List Char) :=
  token.isPrefixOf?

/-- Takes a token, which has to be there. -/
def expect (token : String) : Reader Unit := fun cs => (skip token.toList cs).map ((), ·)

/-- Takes a token if it is there. -/
def accept (token : String) : Reader Bool := fun cs =>
  match skip token.toList cs with
  | some rest => some (true, rest)
  | none => some (false, cs)

/-- A token is skipped where it stands, -/
theorem skip_append (token rest : List Char) : skip token (token ++ rest) = some rest :=
  List.isPrefixOf?_eq_some_iff_append_eq.2 rfl

/-- and nowhere else. -/
theorem skip_eq_some {token cs rest : List Char} (h : skip token cs = some rest) :
    cs = token ++ rest :=
  (List.append_eq_of_isPrefixOf?_eq_some h).symm

/-- A token is not there if the text begins otherwise. -/
theorem skip_eq_none {token ends rest : List Char} (h : Begins ends rest)
    (htoken : token.head?.any (!ends.contains ·) = true) : skip token rest = none := by
  obtain ⟨c, hc, hends⟩ := (Option.any_eq_true _ _).1 htoken
  refine Option.eq_none_iff_forall_ne_some.2 fun rest' hrest => ?_
  rw [skip_eq_some hrest] at h
  have hmem : c ∈ ends := h c (by rw [List.head?_append, hc]; rfl)
  simp [hmem] at hends

/-- A token with a character that a word lacks is not there, if the text goes on behind the word
with a character that the token lacks. -/
theorem skip_word {token word ends rest : List Char} {c : Char} (hc : c ∈ token) (hword : c ∉ word)
    (hrest : Begins ends rest) (hends : ∀ d ∈ ends, d ∉ token) :
    skip token (word ++ rest) = none := by
  refine Option.eq_none_iff_forall_ne_some.2 fun rest' hskip => ?_
  rcases List.append_eq_append_iff.1 (skip_eq_some hskip) with ⟨cs, rfl, rfl⟩ | ⟨cs, rfl, -⟩
  · cases cs with
    | nil => exact hword (by simpa using hc)
    | cons d cs => exact hends d (hrest d rfl) (List.mem_append_right word List.mem_cons_self)
  · exact hword (List.mem_append_left cs hc)

/-- What comes after a reader that fails is not run. -/
theorem bind_eq_none {read : Reader α} {f : α → Reader β} {cs : List Char} (h : read cs = none) :
    (read >>= f) cs = none := by
  show (read cs).bind _ = none
  rw [h]
  rfl

theorem accept_bind_of_none {token : String} {f : Bool → Reader β} {cs : List Char}
    (h : skip token.toList cs = none) : (accept token >>= f) cs = f false cs := by
  show (accept token cs).bind _ = _
  rw [accept, h]
  rfl

section Token

variable {text ends : List Char} {y : β} {p : List Char → Prop} (token : String)

/-- A token in front of the text is taken first. -/
theorem Takes.expect {f : Unit → Reader β} (h : Takes (f ()) text y p) :
    Takes (Text.expect token >>= f) (token.toList ++ text) y p := by
  intro rest hrest
  rw [List.append_assoc]
  show (Text.expect token (token.toList ++ (text ++ rest))).bind _ = _
  rw [Text.expect, skip_append]
  exact h rest hrest

/-- So is one that might have been absent. -/
theorem Takes.accept {f : Bool → Reader β} (h : Takes (f true) text y p) :
    Takes (Text.accept token >>= f) (token.toList ++ text) y p := by
  intro rest hrest
  rw [List.append_assoc]
  show (Text.accept token (token.toList ++ (text ++ rest))).bind _ = _
  rw [Text.accept, skip_append]
  exact h rest hrest

/-- A token that is not there is not taken. -/
theorem Takes.absent {f : Bool → Reader β}
    (hskip : ∀ rest, p rest → skip token.toList (text ++ rest) = none)
    (h : Takes (f false) text y p) : Takes (Text.accept token >>= f) text y p := by
  intro rest hrest
  show (Text.accept token (text ++ rest)).bind _ = _
  rw [Text.accept, hskip rest hrest]
  exact h rest hrest

theorem Reads.expect {f : Unit → Reader β} (h : Reads (f ()) text y ends) :
    Reads (Text.expect token >>= f) (token.toList ++ text) y ends :=
  Takes.expect token h

theorem Reads.accept {f : Bool → Reader β} (h : Reads (f true) text y ends) :
    Reads (Text.accept token >>= f) (token.toList ++ text) y ends :=
  Takes.accept token h

/-- Where the token does not stand, nothing is taken for it. -/
theorem Reads.absent {f : Bool → Reader β}
    (hskip : ∀ rest, Begins ends rest → skip token.toList (text ++ rest) = none)
    (h : Reads (f false) text y ends) : Reads (Text.accept token >>= f) text y ends :=
  Takes.absent token hskip h

/-- A token that may be there. -/
theorem Reads.flag {f : Bool → Reader β} (b : Bool) (h : Reads (f b) text y ends)
    (hskip : b = false → ∀ rest, Begins ends rest → skip token.toList (text ++ rest) = none) :
    Reads (Text.accept token >>= f) ((if b then token else "").toList ++ text) y ends := by
  cases b with
  | true => exact h.accept token
  | false => exact h.absent token (hskip rfl)

end Token

/-! ## Words and quoted texts -/

/-- Takes the characters with a property as long as there are some. -/
def word (p : Char → Bool) : Reader (List Char) := fun cs => some (cs.takeWhile p, cs.dropWhile p)

theorem dropWhile_begins {p : Char → Bool} {ends rest : List Char} (h : Begins ends rest)
    (hends : ∀ c ∈ ends, p c = false) : rest.takeWhile p = [] ∧ rest.dropWhile p = rest := by
  cases rest with
  | nil => exact ⟨rfl, rfl⟩
  | cons c rest =>
    have hc := hends c (h c rfl)
    exact ⟨List.takeWhile_cons_of_neg (by simp [hc]), List.dropWhile_cons_of_neg (by simp [hc])⟩

/-- A word ends where a character comes that is none of its own. -/
theorem reads_word {p : Char → Bool} {text ends : List Char} (htext : ∀ c ∈ text, p c = true)
    (hends : ∀ c ∈ ends, p c = false) : Reads (word p) text text ends := by
  intro rest hrest
  obtain ⟨htake, hdrop⟩ := dropWhile_begins hrest hends
  rw [word, List.takeWhile_append_of_pos htext, List.dropWhile_append_of_pos htext, htake, hdrop,
    List.append_nil]

/-- Takes a quoted text from behind its first quote. -/
def quoted : List Char → Option (List Char × List Char)
  | [] => none
  | '"' :: cs => some ([], cs)
  | '\\' :: 'n' :: cs => (quoted cs).map fun (text, rest) => ('\n' :: text, rest)
  | '\\' :: c :: cs => (quoted cs).map fun (text, rest) => (c :: text, rest)
  | c :: cs => (quoted cs).map fun (text, rest) => (c :: text, rest)

/-- An escaped character is taken for the character. -/
theorem quoted_escapePlain (c : Char) (cs : List Char) :
    quoted (Quoted.escapePlain c ++ cs) = (quoted cs).map fun (text, rest) =>
      (c :: text, rest) := by
  unfold Quoted.escapePlain
  split
  · rename_i hc
    rw [hc]
    rfl
  split
  · rename_i hc
    rw [hc]
    rfl
  split
  · rename_i hc
    rw [hc]
    rfl
  · rename_i hquote hbackslash _
    rw [List.singleton_append, quoted.eq_def]
    split
    · cases ‹_›
    · exact absurd (List.cons.inj ‹_›).1 hquote
    · exact absurd (List.cons.inj ‹_›).1 hbackslash
    · exact absurd (List.cons.inj ‹_›).1 hbackslash
    · obtain ⟨rfl, rfl⟩ := List.cons.inj ‹_›
      rfl

/-- A reader that takes the last quote, and an escaped character for the character, takes what
stands between the quotes. -/
theorem reads_escaped {read : Reader (List Char)} {escape : Char → List Char}
    (hquote : ∀ cs, read ('"' :: cs) = some ([], cs))
    (hescape : ∀ c cs, read (escape c ++ cs) = (read cs).map fun (text, rest) => (c :: text, rest))
    (text ends : List Char) : Reads read (text.flatMap escape ++ ['"']) text ends := by
  intro rest _
  induction text with
  | nil => exact hquote rest
  | cons c text ih =>
    rw [List.flatMap_cons, List.append_assoc, List.append_assoc, hescape, ← List.append_assoc, ih]
    rfl

/-- Quoted text is read up to the quote that is not escaped. -/
theorem reads_quoted (text ends : List Char) :
    Reads quoted (text.flatMap Quoted.escapePlain ++ ['"']) text ends :=
  reads_escaped (fun _ => rfl) quoted_escapePlain text ends

/-! ## Lists -/

/-- Takes items with a separator between them, at most so many. -/
def separated (item : Reader α) (separator : String) : Nat → Reader (List α)
  | 0 => failure
  | n + 1 => do
    let x ← item
    if ← accept separator then
      return x :: (← separated item separator n)
    else
      return [x]

/-- Takes items up to a closing token, at most so many. -/
def closed (item : Reader α) (token : String) : Nat → Reader (List α)
  | 0 => failure
  | n + 1 => do
    if ← accept token then
      return []
    else
      let x ← item
      return x :: (← closed item token n)

/-- There are no more items than characters. -/
def list (item : Reader α) (separator : String) : Reader (List α) := fun cs =>
  separated item separator (cs.length + 1) cs

/-- As many items as begin with a token. -/
def many (item : Reader α) (token : String) : Reader (List α) := fun cs =>
  closed item token (cs.length + 1) cs

/-- Takes items with commas between them, or none, and a closing token. -/
def enclosed (item : Reader α) (token : String) : Reader (List α) := fun cs =>
  (do let xs ← list item ", "; expect token; return xs : Reader (List α)) cs <|>
    (do expect token; return [] : Reader (List α)) cs

/-- The text itself is fuel enough to read the items of a list in it. -/
theorem length_le_intercalate {separator : List Char} (h : separator ≠ []) (xs : List (List Char)) :
    xs.length ≤ (separator.intercalate xs).length + 1 := by
  have hpos : 0 < separator.length := List.length_pos_iff.2 h
  induction xs with
  | nil => exact Nat.zero_le _
  | cons x xs ih =>
    cases xs with
    | nil => simp
    | cons y xs =>
      rw [List.intercalate_cons_cons, List.length_append, List.length_append, List.length_cons]
      omega

/-- A list begins with its first item. -/
theorem exists_intercalate_cons (separator x : List Char) (xs : List (List Char)) :
    ∃ tail, separator.intercalate (x :: xs) = x ++ tail := by
  cases xs with
  | nil => exact ⟨[], by rw [List.intercalate_singleton, List.append_nil]⟩
  | cons y xs => exact ⟨_, by rw [List.intercalate_cons_cons, List.append_assoc]⟩

/-- Items with separators are taken, if what comes behind does not begin with a separator. -/
theorem takes_separated {item : Reader α} {separator : String} {text : β → List Char}
    {value : β → α}
    {p : List Char → Prop} (hskip : ∀ rest, p rest → skip separator.toList rest = none) {y : β}
    (hy : Takes item (text y) (value y) p) : ∀ {xs : List β} {n : Nat},
      (∀ x ∈ xs, Takes item (text x) (value x) (separator.toList <+: ·)) → xs.length < n →
        Takes (separated item separator n)
          (separator.toList.intercalate ((xs ++ [y]).map text)) ((xs ++ [y]).map value) p
  | [], n + 1, _, _ => by
    rw [List.nil_append, List.map_singleton, List.intercalate_singleton, ← List.append_nil (text y)]
    exact hy.bind (.absent separator hskip fun _ _ => rfl) fun _ hrest => hrest
  | x :: xs, n + 1, h, hn => by
    have hx := h x List.mem_cons_self
    have hxs := takes_separated hskip hy (fun z hz => h z (List.mem_cons_of_mem x hz))
      (Nat.lt_of_succ_lt_succ hn)
    obtain ⟨z, zs, hzs⟩ : ∃ z zs, xs ++ [y] = z :: zs := List.exists_cons_of_ne_nil (by simp)
    rw [hzs] at hxs
    rw [List.cons_append, hzs, List.map_cons, List.map_cons, List.map_cons,
      List.intercalate_cons_cons, List.append_assoc, ← List.map_cons]
    exact hx.bind (.accept separator hxs.bind_pure) fun rest _ =>
      ⟨_, (List.append_assoc _ _ _).symm⟩

/-- A list is read item by item, as long as a separator follows. -/
theorem takes_list {item : Reader α} {separator : String} {text : β → List Char} {value : β → α}
    {p : List Char → Prop} (hne : separator.toList ≠ [])
    (hskip : ∀ rest, p rest → skip separator.toList rest = none) {xs : List β} {y : β}
    (hxs : ∀ x ∈ xs, Takes item (text x) (value x) (separator.toList <+: ·))
    (hy : Takes item (text y) (value y) p) :
    Takes (list item separator) (separator.toList.intercalate ((xs ++ [y]).map text))
      ((xs ++ [y]).map value) p := by
  intro rest hrest
  refine takes_separated hskip hy hxs ?_ rest hrest
  have hlength := length_le_intercalate hne ((xs ++ [y]).map text)
  rw [List.length_map, List.length_append, List.length_singleton] at hlength
  rw [List.length_append]
  omega

/-- A list is taken, if no item and nothing that comes behind begins like a separator. -/
theorem reads_list {item : Reader α} {separator : String} {text : β → List Char} {value : β → α}
    {ends : List Char} {c : Char} (hseparator : separator.toList.head? = some c) (hc : c ∉ ends)
    {xs : List β} (hxs : xs ≠ []) (h : ∀ x ∈ xs, Reads item (text x) (value x) (c :: ends)) :
    Reads (list item separator) (separator.toList.intercalate (xs.map text))
      (xs.map value) ends := by
  have hne : separator.toList ≠ [] := fun e => by simp [e] at hseparator
  rw [← List.dropLast_concat_getLast hxs]
  refine takes_list hne (fun rest hrest => ?_) (fun x hx => ?_) ?_
  · exact skip_eq_none hrest (by rw [hseparator]; simpa using hc)
  · refine Takes.mono (h x (List.dropLast_subset xs hx)) ?_
    rintro rest ⟨tail, rfl⟩ d hd
    rw [List.head?_append, hseparator] at hd
    exact Option.some.inj hd ▸ List.mem_cons_self
  · exact (h _ (List.getLast_mem hxs)).mono (List.subset_cons_self c ends)

/-- Items up to a closing token are taken, if no item begins like this token. -/
theorem reads_enclosed {item : Reader α} {token : String} {text : β → List Char} {value : β → α}
    {ends : List Char} {c : Char} (htoken : token.toList = [c]) (hc : c ≠ ',')
    (hitem : ∀ cs, item (c :: cs) = none) {xs : List β}
    (h : ∀ x ∈ xs, Reads item (text x) (value x) [',', c]) :
    Reads (enclosed item token) (", ".toList.intercalate (xs.map text) ++ token.toList)
      (xs.map value) ends := by
  intro rest hrest
  cases xs with
  | nil =>
    have hnone : list item ", " (token.toList ++ rest) = none := by
      rw [htoken]
      show (item (c :: rest)).bind _ = none
      rw [hitem]
      rfl
    have htake : Takes (do expect token; return [] : Reader (List α)) (token.toList ++ []) []
        fun _ => True := .expect token fun _ _ => rfl
    rw [List.append_nil] at htake
    show ((list item ", " (token.toList ++ rest)).bind _ <|> _) = _
    rw [hnone]
    exact htake rest trivial
  | cons x xs =>
    have hlist : Reads (list item ", ") (", ".toList.intercalate ((x :: xs).map text))
        ((x :: xs).map value) [c] :=
      reads_list (c := ',') rfl (by simpa using hc.symm) nofun h
    have htake : Reads (do let ys ← list item ", "; expect token; return ys : Reader (List α))
        (", ".toList.intercalate ((x :: xs).map text) ++ (token.toList ++ [])) ((x :: xs).map value)
        ends :=
      hlist.bind (.expect token .pure) fun _ _ => by
        rw [htoken]
        exact begins_cons List.mem_cons_self
    rw [List.append_nil] at htake
    rw [enclosed, htake rest hrest]
    rfl

/-- Items are taken up to a token that none of them begins with. -/
theorem reads_closed {item : Reader α} {token : String} {text : β → List Char} {value : β → α}
    {ends : List Char} {xs : List β} (h : ∀ x ∈ xs, ∀ ends, Reads item (text x) (value x) ends)
    (hskip : ∀ x ∈ xs, ∀ rest, skip token.toList (text x ++ rest) = none) {n : Nat}
    (hn : xs.length < n) :
    Reads (closed item token n) (xs.flatMap text ++ token.toList) (xs.map value) ends := by
  obtain ⟨n, rfl⟩ : ∃ m, n = m + 1 := ⟨n - 1, by omega⟩
  induction xs generalizing n with
  | nil =>
    rw [List.flatMap_nil, List.nil_append, ← List.append_nil token.toList]
    exact .accept token .pure
  | cons x xs ih =>
    obtain ⟨n, rfl⟩ : ∃ m, n = m + 1 := ⟨n - 1, by rw [List.length_cons] at hn; omega⟩
    have hxs := ih (fun y hy => h y (List.mem_cons_of_mem x hy))
      (fun y hy => hskip y (List.mem_cons_of_mem x hy)) n (Nat.lt_of_succ_lt_succ hn)
    rw [List.flatMap_cons, List.append_assoc]
    refine .absent token (fun rest _ => ?_) (.bind_delimited (h x List.mem_cons_self) hxs.bind_pure)
    rw [List.append_assoc]
    exact hskip x List.mem_cons_self _

theorem length_le_flatMap {text : β → List Char} {xs : List β} (h : ∀ x ∈ xs, text x ≠ []) :
    xs.length ≤ (xs.flatMap text).length := by
  induction xs with
  | nil => exact Nat.le_refl 0
  | cons x xs ih =>
    have hx : 0 < (text x).length := List.length_pos_iff.2 (h x List.mem_cons_self)
    have hxs := ih fun y hy => h y (List.mem_cons_of_mem x hy)
    rw [List.flatMap_cons, List.length_append, List.length_cons]
    omega

/-- Items are read as long as another one begins. -/
theorem reads_many {item : Reader α} {token : String} {text : β → List Char} {value : β → α}
    {ends : List Char} {xs : List β} (h : ∀ x ∈ xs, ∀ ends, Reads item (text x) (value x) ends)
    (hskip : ∀ x ∈ xs, ∀ rest, skip token.toList (text x ++ rest) = none) :
    Reads (many item token) (xs.flatMap text ++ token.toList) (xs.map value) ends := by
  intro rest hrest
  refine reads_closed h hskip (Nat.lt_succ_of_le ?_) rest hrest
  have hlength : xs.length ≤ (xs.flatMap text).length := by
    refine length_le_flatMap fun x hx hnil => ?_
    have hnone := hskip x hx (token.toList ++ [])
    rw [hnil, List.nil_append, skip_append] at hnone
    cases hnone
  rw [List.length_append, List.length_append]
  omega

/-- Items are taken up to a character that no item can be read from. -/
theorem reads_many_of_none {item : Reader α} {token : String} {text : β → List Char} {value : β → α}
    {ends : List Char} {c : Char} (htoken : token.toList = [c])
    (hitem : ∀ cs, item (c :: cs) = none)
    {xs : List β} (h : ∀ x ∈ xs, ∀ ends, Reads item (text x) (value x) ends) :
    Reads (many item token) (xs.flatMap text ++ token.toList) (xs.map value) ends := by
  refine reads_many h fun x hx rest => Option.eq_none_iff_forall_ne_some.2 fun rest' hskip => ?_
  have htaken := Reads.takes_delimited (h x hx) (fun _ => True) rest trivial
  rw [skip_eq_some hskip, htoken] at htaken
  exact absurd ((hitem rest').symm.trans htaken) nofun

/-! ## Numbers -/

/-- What the texts of numbers are made of. -/
def isNumberChar (c : Char) : Bool := c.isAlphanum || c == '.' || c == '+' || c == '-'

theorem isAlphanum_of_isDigit {c : Char} (h : c.isDigit = true) : c.isAlphanum = true := by
  simp [Char.isAlphanum, h]

theorem all_of_isDigits {cs : List Char} (h : isDigits cs = true) : ∀ c ∈ cs, c.isDigit = true := by
  cases cs with
  | nil => exact fun c hc => absurd hc List.not_mem_nil
  | cons c cs => exact List.all_eq_true.1 h

theorem isNumberChar_of_isDigit {c : Char} (h : c.isDigit = true) : isNumberChar c = true := by
  simp [isNumberChar, isAlphanum_of_isDigit h]

theorem mem_of_unsigned {cs : List Char} (h : ∀ c ∈ unsigned cs, isNumberChar c = true) :
    ∀ c ∈ cs, isNumberChar c = true := by
  unfold unsigned at h
  split at h
  · exact List.forall_mem_cons.2 ⟨by decide, h⟩
  · exact List.forall_mem_cons.2 ⟨by decide, h⟩
  · exact h

theorem mem_of_isExponent {cs : List Char} (h : isExponent cs = true) :
    ∀ c ∈ cs, isNumberChar c = true := by
  unfold isExponent at h
  split at h
  · exact fun c hc => absurd hc List.not_mem_nil
  · exact List.forall_mem_cons.2 ⟨by decide, mem_of_unsigned fun c hc =>
      isNumberChar_of_isDigit (all_of_isDigits h c hc)⟩
  · exact List.forall_mem_cons.2 ⟨by decide, mem_of_unsigned fun c hc =>
      isNumberChar_of_isDigit (all_of_isDigits h c hc)⟩
  · cases h

/-- A number stands behind its digits. -/
theorem mem_of_dropWhile {cs : List Char}
    (h : ∀ c ∈ cs.dropWhile Char.isDigit, isNumberChar c = true) :
    ∀ c ∈ cs, isNumberChar c = true := by
  intro c hc
  rw [← List.takeWhile_append_dropWhile (p := Char.isDigit) (l := cs)] at hc
  rcases List.mem_append.1 hc with hc | hc
  · exact isNumberChar_of_isDigit (List.all_eq_true.1 List.all_takeWhile c hc)
  · exact h c hc

theorem mem_of_isFraction {whole : Bool} {cs : List Char} (h : isFraction whole cs = true) :
    ∀ c ∈ cs, isNumberChar c = true := by
  unfold isFraction at h
  split at h
  · exact List.forall_mem_cons.2 ⟨by decide,
      mem_of_dropWhile (mem_of_isExponent (Bool.and_eq_true_iff.1 h).2)⟩
  · exact mem_of_isExponent (Bool.and_eq_true_iff.1 h).2

/-- A word for a number has digits, signs, a point and letters in it, and nothing else. -/
theorem mem_of_isNumberWord {cs : List Char} (h : isNumberWord cs = true) :
    ∀ c ∈ cs, isNumberChar c = true := by
  intro c hc
  obtain ⟨word, hword, heq⟩ := List.any_eq_true.1 h
  have hletters : ∀ word ∈ ["inf", "infinity", "nan"], ∀ c ∈ word.toList,
    isNumberChar c = true := by
    simp only [List.forall_mem_cons]
    exact ⟨forall_mem_of_all (by decide), forall_mem_of_all (by decide),
      forall_mem_of_all (by decide), nofun⟩
  have hlower : isNumberChar c.toLower = true :=
    hletters word hword c.toLower (beq_iff_eq.1 heq ▸ List.mem_map_of_mem hc)
  by_cases hupper : c.isUpper = true
  · have halpha : c.isAlpha = true := (Bool.or_eq_true _ _).mpr (.inl hupper)
    simp [isNumberChar, Char.isAlphanum, halpha]
  · have hsame : c.toLower = c := dif_neg fun h => hupper (decide_eq_true h)
    rwa [hsame] at hlower

/-- **The text of a number is made of letters, digits, points and signs.** -/
theorem mem_of_isNumeral {s : String} (h : isNumeral s = true) :
    ∀ c ∈ s.toList, isNumberChar c = true := by
  refine mem_of_unsigned ?_
  rcases (Bool.or_eq_true _ _).mp h with h | h
  · exact mem_of_dropWhile (mem_of_isFraction h)
  · exact mem_of_isNumberWord h

/-- No name begins with a digit. -/
theorem not_isDigit_of_start {c : Char} (h : isIdentifierStart c = true) : c.isDigit = false := by
  have hranges : ∀ r ∈ alphabeticRanges, r.2 < 48 ∨ 57 < r.1 := by decide +kernel
  rw [Bool.eq_false_iff]
  intro hdigit
  have hc : 48 ≤ c.toNat ∧ c.toNat ≤ 57 := by
    simp only [Char.isDigit, Bool.and_eq_true, decide_eq_true_eq, ge_iff_le,
      UInt32.le_iff_toNat_le] at hdigit
    exact hdigit
  simp only [isIdentifierStart, Bool.or_eq_true, beq_iff_eq] at h
  rcases h with (rfl | rfl) | h
  · exact absurd hc (by decide)
  · exact absurd hc (by decide)
  · obtain ⟨r, hr, hin⟩ := List.any_eq_true.1 h
    simp only [inRange, Bool.and_eq_true, decide_eq_true_eq] at hin
    rcases hranges r hr with hlt | hlt <;> omega

/-! ## Names -/

theorem isIdentifierPart_of_mem {s : String} (h : isIdentifierText s = true) :
    ∀ c ∈ s.toList, isIdentifierPart c = true := by
  unfold isIdentifierText at h
  cases hs : s.toList with
  | nil => exact fun c hc => absurd hc List.not_mem_nil
  | cons c cs =>
    rw [hs] at h
    obtain ⟨hc, hcs⟩ := Bool.and_eq_true_iff.1 h
    exact List.forall_mem_cons.2 ⟨isIdentifierPart_of_start hc, List.all_eq_true.1 hcs⟩

theorem exists_cons_of_name {name : String} (hname : isIdentifierText name = true) :
    ∃ c cs, name.toList = c :: cs ∧ isIdentifierStart c = true := by
  unfold isIdentifierText at hname
  cases hs : name.toList with
  | nil =>
    rw [hs] at hname
    cases hname
  | cons c cs =>
    rw [hs] at hname
    exact ⟨c, cs, rfl, (Bool.and_eq_true_iff.1 hname).1⟩

end TypeReify.Text
