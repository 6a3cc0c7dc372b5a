import TypeReify.Proofs.Text.Numeral
import TypeReify.Proofs.Types.Quoted

/-!
# Keys in the text of a type

A property name of TypeScript is a name, an unsigned decimal literal, or a string literal. The key
of a property is left bare if it is a name or reads as a number. Numbers may have a sign, property
names may not, so a number behind a sign is left bare although it is no property name.

This is about `write_object`, which parses the key as a number where `property_key` of the lowering
asks for a name only.

Results:
* `renderKey_eq_plain_iff`: which keys are quoted.
* `propertyName_renderKey_iff`: which keys are property names.
* `render_propertyName`: so are the keys that stand in the text of an object type.
* `typeText_signed`: a number behind a sign is left bare.
-/

namespace TypeReify.Types

open Text

/-- **The text is a property name.** -/
inductive PropertyName (text : String) : Prop
  | identifier (h : isIdentifierText text = true)
  | number (h : Decimal text.toList)
  | string {us : List Nat} (hquote : text.toList.head? = some '"')
      (h : Literal.value? text.toList = some us)

/-! ## Which keys are quoted -/

/-- A name, a decimal literal or a number behind a sign. -/
def StaysBare (name : String) : Prop :=
  isIdentifierText name = true ∨ Decimal name.toList ∨ Signed name

theorem staysBare_iff {name : String} :
    StaysBare name ↔ (isIdentifierText name || isNumeral name) = true := by
  rw [Bool.or_eq_true, isNumeral_iff]
  constructor
  · rintro (h | h | h)
    · exact .inl h
    · exact .inr (.inl h)
    · exact .inr (.inr (.inr h))
  · rintro (h | h | h | h)
    · exact .inl h
    · exact .inr (.inl h)
    · exact .inl (isIdentifierText_of_isNumberWord h)
    · exact .inr (.inr h)

theorem renderKey_of_staysBare {name : String} (h : StaysBare name) : renderKey name = name :=
  if_pos (staysBare_iff.1 h)

theorem renderKey_of_not_staysBare {name : String} (h : ¬ StaysBare name) :
    renderKey name = Quoted.plain name :=
  if_neg (mt staysBare_iff.2 h)

/-- What stays bare does not begin with a quote. -/
theorem StaysBare.head_ne_quote {name : String} (h : StaysBare name) :
    name.toList.head? ≠ some '"' := by
  rcases h with h | h | ⟨c, rest, hs, hc, -⟩
  · obtain ⟨c, cs, hs, hc⟩ := exists_cons_of_name h
    rw [hs]
    rintro ⟨⟩
    exact absurd hc (by decide +kernel)
  · obtain ⟨c, rest, hs, hc⟩ := h.head
    rw [hs]
    rintro ⟨⟩
    exact absurd hc (by decide)
  · rw [hs]
    rintro ⟨⟩
    exact absurd hc (by decide)

/-- **Names of any other form are quoted.** -/
theorem renderKey_eq_plain_iff {name : String} :
    renderKey name = Quoted.plain name ↔ ¬ StaysBare name := by
  constructor
  · intro h hbare
    rw [renderKey_of_staysBare hbare] at h
    refine hbare.head_ne_quote ?_
    rw [h]
    simp [Quoted.plain, Quoted.toList_quote]
  · exact renderKey_of_not_staysBare

/-! ## Which keys are property names -/

theorem not_mem_of_staysBare {name : String} (h : StaysBare name) : '\r' ∉ name.toList := by
  intro hmem
  rcases Bool.or_eq_true_iff.1 (staysBare_iff.1 h) with h | h
  · exact absurd (isIdentifierPart_of_mem h _ hmem) (by decide +kernel)
  · exact absurd (mem_of_isNumeral h _ hmem) (by decide)

/-- A number behind a sign is no property name. -/
theorem not_propertyName_of_signed {name : String} (h : Signed name) : ¬ PropertyName name := by
  obtain ⟨c, rest, hs, hsign, -⟩ := h
  intro hname
  cases hname with
  | identifier h =>
    obtain ⟨d, cs, hd, hstart⟩ := exists_cons_of_name h
    obtain ⟨rfl, -⟩ := List.cons.inj (hs.symm.trans hd)
    rcases hsign with rfl | rfl <;> exact absurd hstart (by decide +kernel)
  | number h =>
    obtain ⟨d, cs, hd, hstart⟩ := h.head
    obtain ⟨rfl, -⟩ := List.cons.inj (hs.symm.trans hd)
    rcases hsign with rfl | rfl <;> exact absurd hstart (by decide)
  | string hquote _ =>
    rw [hs] at hquote
    obtain rfl := Option.some.inj hquote
    exact absurd hsign (by decide)

/-- A quoted name is a property name, unless it has a carriage return. -/
theorem propertyName_plain_iff {name : String} :
    PropertyName (Quoted.plain name) ↔ '\r' ∉ name.toList := by
  have hhead : (Quoted.plain name).toList.head? = some '"' := (Interner.quotes_plain name).quote
  have hbare : ¬ StaysBare (Quoted.plain name) := fun h => h.head_ne_quote hhead
  constructor
  · intro h
    cases h with
    | identifier h => exact absurd (.inl h) hbare
    | number h => exact absurd (.inr (.inl h)) hbare
    | string _ h => exact (Literal.value?_plain.1 h).2
  · intro h
    exact .string hhead (Literal.value?_plain.2 ⟨rfl, h⟩)

/-- **Which keys are property names**: all but the numbers behind a sign, and the names with a
carriage return. -/
theorem propertyName_renderKey_iff {name : String} :
    PropertyName (renderKey name) ↔ ¬ Signed name ∧ '\r' ∉ name.toList := by
  by_cases hbare : StaysBare name
  · rw [renderKey_of_staysBare hbare, and_iff_left (not_mem_of_staysBare hbare)]
    constructor
    · intro h hsigned
      exact not_propertyName_of_signed hsigned h
    · intro hsigned
      rcases hbare with h | h | h
      · exact .identifier h
      · exact .number h
      · exact absurd h hsigned
  · have hsigned : ¬ Signed name := fun h => hbare (.inr (.inr h))
    rw [renderKey_of_not_staysBare hbare, propertyName_plain_iff, and_iff_right hsigned]

namespace Interner

/-- **Which keys in the text of an object type are property names.** A key stands behind the opening
brace or the end of another property, and in front of a question mark, a colon or a parenthesis. It
is the name itself if this is a name, a decimal literal or a number behind a sign, and else the name
in quotes. It is a property name just if the name is no number behind a sign and has no carriage
return.
-/
theorem render_propertyName {t : Interner} {id : TypeId} {before behind : Shape} {p : Property}
    (h : t.lookup id = some (.object (before ++ p :: behind))) (levels : Nat) :
    ∃ rest, t.render (levels + 1) id =
        beforeKey t (t.render levels) before p ++ renderKey p.name ++ rest ∧
      (∃ c ∈ rest.toList.head?, c ∈ ['?', ':', '(']) ∧
      (StaysBare p.name → renderKey p.name = p.name) ∧
      (renderKey p.name = Quoted.plain p.name ↔ ¬ StaysBare p.name) ∧
      (PropertyName (renderKey p.name) ↔ ¬ Signed p.name ∧ '\r' ∉ p.name.toList) := by
  obtain ⟨rest, hrender, hrest⟩ := render_object_split h levels
  exact ⟨rest, hrender, hrest, renderKey_of_staysBare, renderKey_eq_plain_iff,
    propertyName_renderKey_iff⟩

/-- An object type with a name, a number and a quoted text for keys. -/
def memberTypes : Interner :=
  ⟨#[.object [stringProperty "id", stringProperty "1.5e3", stringProperty "data-id"]]⟩

theorem render_propertyName_memberTypes :
    memberTypes.lookup 100 = some (.object
        ([stringProperty "id"] ++ stringProperty "1.5e3" :: [stringProperty "data-id"])) ∧
      ∃ rest, memberTypes.render 2 100 =
          beforeKey memberTypes (memberTypes.render 1) [stringProperty "id"]
          (stringProperty "1.5e3") ++
            renderKey "1.5e3" ++ rest ∧
        (∃ c ∈ rest.toList.head?, c ∈ ['?', ':', '(']) ∧
        (StaysBare "1.5e3" → renderKey "1.5e3" = "1.5e3") ∧
        (renderKey "1.5e3" = Quoted.plain "1.5e3" ↔ ¬ StaysBare "1.5e3") ∧
        (PropertyName (renderKey "1.5e3") ↔ ¬ Signed "1.5e3" ∧ '\r' ∉ "1.5e3".toList) :=
  ⟨rfl, render_propertyName rfl 1⟩

/-- A number behind a sign is left bare, and is no property name then. -/
theorem typeText_signed :
    let t : Interner := ⟨#[.object [stringProperty "-1"]]⟩
    t.typeText renderDepth 100 = "\x7b -1: string; \x7d" ∧ renderKey "-1" = "-1" ∧
      ¬ PropertyName "-1" := by
  refine ⟨by decide +kernel, by decide +kernel, ?_⟩
  exact not_propertyName_of_signed ⟨'-', ['1'], rfl, .inr rfl, .inl (isDecimal_iff.1 (by decide))⟩

end Interner

end TypeReify.Types
