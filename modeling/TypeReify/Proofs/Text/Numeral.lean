import TypeReify.Proofs.Text.Reading

/-!
# The grammar of numerals

An unsigned decimal literal is digits with an optional fraction, or a fraction by itself, and then
an optional exponent. A text reads as a number if it is such a literal or one of the words for
numbers without digits, either of them with or without a sign.

The texts are those that `write_object` leaves bare because they parse as a number.

Results:
* `isDecimal_iff`: the recogniser accepts exactly the decimal literals.
* `isNumeral_iff`: numerals are decimal literals, words, and these two behind a sign.
* `isIdentifierText_of_isNumberWord`: the words are names.
-/

namespace TypeReify.Text

/-! ## Grammar -/

/-- At most one sign. -/
def IsSign (cs : List Char) : Prop := cs = [] ∨ cs = ['+'] ∨ cs = ['-']

/-- `e` with a signed whole number, or nothing. -/
inductive Exponent : List Char → Prop
  | none : Exponent []
  | some {mark : Char} {sign digits : List Char} (hmark : mark = 'e' ∨ mark = 'E')
      (hsign : IsSign sign) (hdigits : isDigits digits = true) : Exponent (mark :: (sign ++ digits))

/-- **The unsigned decimal literals.** -/
inductive Decimal : List Char → Prop
  | whole {digits exponent : List Char} (hdigits : isDigits digits = true)
      (hexponent : Exponent exponent) : Decimal (digits ++ exponent)
  | point {digits fraction exponent : List Char} (hdigits : isDigits digits = true)
      (hfraction : ∀ c ∈ fraction, c.isDigit = true) (hexponent : Exponent exponent) :
      Decimal (digits ++ '.' :: (fraction ++ exponent))
  | fraction {digits exponent : List Char} (hdigits : isDigits digits = true)
      (hexponent : Exponent exponent) : Decimal ('.' :: (digits ++ exponent))

/-- A sign in front of a number. -/
def Signed (s : String) : Prop :=
  ∃ c rest, s.toList = c :: rest ∧ (c = '+' ∨ c = '-') ∧ (Decimal rest ∨ isNumberWord rest = true)

/-! ## Signs -/

theorem exists_cons_of_isDigits {cs : List Char} (h : isDigits cs = true) :
    ∃ c rest, cs = c :: rest ∧ c.isDigit = true := by
  cases cs with
  | nil => cases h
  | cons c rest => exact ⟨c, rest, rfl, all_of_isDigits h c List.mem_cons_self⟩

theorem exists_sign (cs : List Char) : ∃ sign, IsSign sign ∧ cs = sign ++ unsigned cs := by
  unfold unsigned
  split
  · exact ⟨['+'], .inr (.inl rfl), rfl⟩
  · exact ⟨['-'], .inr (.inr rfl), rfl⟩
  · exact ⟨[], .inl rfl, rfl⟩

theorem unsigned_cons {c : Char} (hplus : c ≠ '+') (hminus : c ≠ '-') (cs : List Char) :
    unsigned (c :: cs) = c :: cs := by
  rw [unsigned.eq_def]
  split
  · rename_i h
    exact absurd (List.cons.inj h).1 hplus
  · rename_i h
    exact absurd (List.cons.inj h).1 hminus
  · rfl

theorem unsigned_append {sign : List Char} (hsign : IsSign sign) {c : Char} (hplus : c ≠ '+')
    (hminus : c ≠ '-') (cs : List Char) : unsigned (sign ++ c :: cs) = c :: cs := by
  rcases hsign with rfl | rfl | rfl
  · exact unsigned_cons hplus hminus cs
  · rfl
  · rfl

theorem ne_sign_of_isDigit {c : Char} (h : c.isDigit = true) : c ≠ '+' ∧ c ≠ '-' := by
  constructor <;> rintro rfl <;> exact absurd h (by decide)

/-! ## Exponents -/

theorem isExponent_iff {cs : List Char} : isExponent cs = true ↔ Exponent cs := by
  constructor
  · intro h
    unfold isExponent at h
    split at h
    · exact .none
    · rename_i cs
      obtain ⟨sign, hsign, hcs⟩ := exists_sign cs
      rw [hcs]
      exact .some (.inl rfl) hsign h
    · rename_i cs
      obtain ⟨sign, hsign, hcs⟩ := exists_sign cs
      rw [hcs]
      exact .some (.inr rfl) hsign h
    · cases h
  · intro h
    cases h with
    | none => rfl
    | @some mark sign digits hmark hsign hdigits =>
      obtain ⟨c, rest, rfl, hc⟩ := exists_cons_of_isDigits hdigits
      obtain ⟨hplus, hminus⟩ := ne_sign_of_isDigit hc
      have hrest : isDigits (unsigned (sign ++ c :: rest)) = true := by
        rw [unsigned_append hsign hplus hminus, hdigits]
      rcases hmark with rfl | rfl
      · exact hrest
      · exact hrest

/-- An exponent begins with its letter. -/
theorem Exponent.begins {cs : List Char} (h : Exponent cs) : Begins ['e', 'E'] cs := by
  cases h with
  | none => exact begins_nil _
  | some hmark => exact begins_cons (by simpa using hmark)

theorem not_isDigit_mark : ∀ c ∈ ['e', 'E'], c.isDigit = false := forall_mem_of_all (by decide)

/-! ## Decimal literals -/

/-- The digits at the beginning, if there are any. -/
theorem isDigits_takeWhile (cs : List Char) :
    isDigits (cs.takeWhile Char.isDigit) = cs.head?.any Char.isDigit := by
  cases cs with
  | nil => rfl
  | cons c cs =>
    rw [List.takeWhile_cons]
    by_cases hc : c.isDigit = true
    · have hall : (cs.takeWhile Char.isDigit).all Char.isDigit = true := List.all_takeWhile
      simp [hc, isDigits, hall]
    · simp [hc, isDigits]

theorem dropWhile_digits {digits ends rest : List Char} (hdigits : ∀ c ∈ digits, c.isDigit = true)
    (hrest : Begins ends rest) (hends : ∀ c ∈ ends, c.isDigit = false) :
    (digits ++ rest).dropWhile Char.isDigit = rest := by
  rw [List.dropWhile_append_of_pos hdigits]
  exact (dropWhile_begins hrest hends).2

theorem any_head?_append {digits : List Char} (hdigits : isDigits digits = true)
    (rest : List Char) :
    (digits ++ rest).head?.any Char.isDigit = true := by
  obtain ⟨c, cs, rfl, hc⟩ := exists_cons_of_isDigits hdigits
  exact hc

/-- What is behind the digits is the rest of a decimal literal, given whether there were digits. -/
theorem decimal_of_isFraction {digits rest : List Char}
    (hdigits : digits = [] ∨ isDigits digits = true)
    (h : isFraction (isDigits digits) rest = true) :
    Decimal (digits ++ rest) := by
  unfold isFraction at h
  split at h
  · rename_i cs
    obtain ⟨hsome, hexponent⟩ := Bool.and_eq_true_iff.1 h
    have hfraction : ∀ c ∈ cs.takeWhile Char.isDigit, c.isDigit = true :=
      List.all_eq_true.1 List.all_takeWhile
    have hexponent := isExponent_iff.1 hexponent
    rw [← List.takeWhile_append_dropWhile (p := Char.isDigit) (l := cs)]
    rcases hdigits with rfl | hdigits
    · refine .fraction ?_ hexponent
      rw [isDigits_takeWhile]
      exact hsome
    · exact .point hdigits hfraction hexponent
  · obtain ⟨hdigits, hexponent⟩ := Bool.and_eq_true_iff.1 h
    exact .whole hdigits (isExponent_iff.1 hexponent)

/-- **The recogniser accepts exactly the decimal literals.** -/
theorem isDecimal_iff {cs : List Char} : isDecimal cs = true ↔ Decimal cs := by
  constructor
  · intro h
    rw [isDecimal, ← isDigits_takeWhile] at h
    rw [← List.takeWhile_append_dropWhile (p := Char.isDigit) (l := cs)]
    refine decimal_of_isFraction ?_ h
    by_cases hnil : cs.takeWhile Char.isDigit = []
    · exact .inl hnil
    · refine .inr ?_
      obtain ⟨c, rest, hcons⟩ := List.exists_cons_of_ne_nil hnil
      have hall : (cs.takeWhile Char.isDigit).all Char.isDigit = true := List.all_takeWhile
      rw [hcons] at hall ⊢
      exact hall
  · intro h
    cases h with
    | @whole digits exponent hdigits hexponent =>
      have hdrop := dropWhile_digits (all_of_isDigits hdigits) hexponent.begins not_isDigit_mark
      rw [isDecimal, any_head?_append hdigits, hdrop]
      cases hexponent with
      | none => rfl
      | some hmark hsign hdigits =>
        have hexponent := isExponent_iff.2 (.some hmark hsign hdigits)
        rcases hmark with rfl | rfl <;> exact hexponent
    | @point digits fraction exponent hdigits hfraction hexponent =>
      have hpoint : Begins ['.'] ('.' :: (fraction ++ exponent)) := begins_cons List.mem_cons_self
      have hdrop : (digits ++ '.' :: (fraction ++ exponent)).dropWhile Char.isDigit =
          '.' :: (fraction ++ exponent) :=
        dropWhile_digits (all_of_isDigits hdigits) hpoint (forall_mem_of_all (by decide))
      have hrest := dropWhile_digits hfraction hexponent.begins not_isDigit_mark
      rw [isDecimal, any_head?_append hdigits, hdrop, isFraction, hrest, isExponent_iff.2 hexponent]
      rfl
    | @fraction digits exponent hdigits hexponent =>
      have hrest := dropWhile_digits (all_of_isDigits hdigits) hexponent.begins not_isDigit_mark
      show isFraction false ('.' :: (digits ++ exponent)) = true
      rw [isFraction, any_head?_append hdigits, hrest, isExponent_iff.2 hexponent]
      rfl

/-- A decimal literal begins with a digit or with the point. -/
theorem Decimal.head {cs : List Char} (h : Decimal cs) :
    ∃ c rest, cs = c :: rest ∧ (c.isDigit = true ∨ c = '.') := by
  have hhead {digits : List Char} (hdigits : isDigits digits = true) (rest : List Char) :
      ∃ c cs, digits ++ rest = c :: cs ∧ (c.isDigit = true ∨ c = '.') := by
    obtain ⟨c, cs, rfl, hc⟩ := exists_cons_of_isDigits hdigits
    exact ⟨c, cs ++ rest, rfl, .inl hc⟩
  cases h with
  | whole hdigits _ => exact hhead hdigits _
  | point hdigits _ _ => exact hhead hdigits _
  | fraction _ _ => exact ⟨'.', _, rfl, .inr rfl⟩

/-! ## Words for numbers -/

theorem isAlpha_of_toLower {c : Char} (h : c.toLower.isAlpha = true) : c.isAlpha = true := by
  by_cases hupper : c.isUpper = true
  · exact (Bool.or_eq_true _ _).mpr (.inl hupper)
  · have hsame : c.toLower = c := dif_neg fun h => hupper (decide_eq_true h)
    rwa [hsame] at h

theorem isAlpha_of_isNumberWord {cs : List Char} (h : isNumberWord cs = true) :
    cs ≠ [] ∧ ∀ c ∈ cs, c.isAlpha = true := by
  obtain ⟨word, hword, heq⟩ := List.any_eq_true.1 h
  have heq : cs.map Char.toLower = word.toList := beq_iff_eq.1 heq
  have hletters : word.toList ≠ [] ∧ ∀ c ∈ word.toList, c.isAlpha = true := by
    simp only [List.mem_cons, List.not_mem_nil, or_false] at hword
    rcases hword with rfl | rfl | rfl <;> exact ⟨by decide, forall_mem_of_all (by decide)⟩
  rw [← heq] at hletters
  exact ⟨fun hnil => hletters.1 (by rw [hnil]; rfl),
    fun c hc => isAlpha_of_toLower (hletters.2 _ (List.mem_map_of_mem hc))⟩

/-- **A word for a number is a name.** -/
theorem isIdentifierText_of_isNumberWord {s : String} (h : isNumberWord s.toList = true) :
    isIdentifierText s = true := by
  obtain ⟨hne, hletters⟩ := isAlpha_of_isNumberWord h
  have hstart : ∀ c ∈ s.toList, isIdentifierStart c = true := fun c hc => by
    simp [isIdentifierStart, isAlphabetic_of_isAlpha (hletters c hc)]
  obtain ⟨c, cs, hs⟩ := List.exists_cons_of_ne_nil hne
  rw [hs] at hstart
  rw [isIdentifierText, hs, isIdentifier, Bool.and_eq_true, List.all_eq_true]
  exact ⟨hstart c List.mem_cons_self,
    fun d hd => isIdentifierPart_of_start (hstart d (List.mem_cons_of_mem c hd))⟩

/-! ## Numerals -/

/-- A number without its sign does not begin with a sign. -/
theorem ne_sign_of_number {cs : List Char} (h : Decimal cs ∨ isNumberWord cs = true) :
    ∃ c rest, cs = c :: rest ∧ c ≠ '+' ∧ c ≠ '-' := by
  rcases h with h | h
  · obtain ⟨c, rest, rfl, hc | rfl⟩ := h.head
    · exact ⟨c, rest, rfl, ne_sign_of_isDigit hc⟩
    · exact ⟨'.', rest, rfl, by decide, by decide⟩
  · obtain ⟨hne, hletters⟩ := isAlpha_of_isNumberWord h
    obtain ⟨c, rest, rfl⟩ := List.exists_cons_of_ne_nil hne
    have hc := hletters c List.mem_cons_self
    refine ⟨c, rest, rfl, ?_, ?_⟩ <;> rintro rfl <;> exact absurd hc (by decide)

/-- **Numerals are decimal literals, words, and these two behind a sign.** -/
theorem isNumeral_iff {s : String} :
    isNumeral s = true ↔ Decimal s.toList ∨ isNumberWord s.toList = true ∨ Signed s := by
  have hnumber (cs : List Char) :
      (isDecimal cs || isNumberWord cs) = true ↔ Decimal cs ∨ isNumberWord cs = true := by
    rw [Bool.or_eq_true, isDecimal_iff]
  rw [isNumeral, hnumber]
  constructor
  · intro h
    obtain ⟨sign, hsign, hs⟩ := exists_sign s.toList
    rcases hsign with rfl | rfl | rfl
    · rw [List.nil_append] at hs
      rw [← hs] at h
      exact h.imp_right .inl
    · exact .inr (.inr ⟨'+', _, hs, .inl rfl, h⟩)
    · exact .inr (.inr ⟨'-', _, hs, .inr rfl, h⟩)
  · intro h
    rcases or_assoc.2 h with h | ⟨c, rest, hs, rfl | rfl, h⟩
    · obtain ⟨c, rest, hs, hplus, hminus⟩ := ne_sign_of_number h
      rw [hs, unsigned_cons hplus hminus, ← hs]
      exact h
    · rw [hs]
      exact h
    · rw [hs]
      exact h

end TypeReify.Text
