import TypeReify.Proofs.Text.Literal
import TypeReify.Types.Render

/-!
# String literals in the text of a type

A string literal type is written between double quotes, and so is the name of a property that cannot
stand bare. Of the characters between the quotes only the quote, the backslash and the line feed are
escaped. All others stand for themselves in a literal, but for the carriage return, which may not
stand there.

This is about `write_literal` and `write_object`. `write_quoted`, which writes source text, escapes
the carriage return.

Results:
* `value?_plain`: a quoted text is a literal of this text, unless it has a carriage return.
* `render_object_split`: where the key of a property stands in the text of an object type.
* `render_quoted_value`: literal types and quoted keys are literals of their texts in this sense.
* `typeText_return`: a carriage return is written as it is, and what is written then is no literal.

Out of scope: types nested deeper than `MAX_TYPE_PRINT_DEPTH`, which are written as dots.
-/

namespace TypeReify.Text.Literal

/-! ## Reading quoted texts -/

/-- An escaped character is read as itself, and the reading goes on behind it. -/
theorem body?_escapePlain {c : Char} (hc : c ≠ '\r') (cs : List Char) :
    body? '"' 0 (Quoted.escapePlain c ++ cs) = (body? '"' 0 cs).map (charUnits c ++ ·) := by
  by_cases hshort : c ∈ ['"', '\\', '\n']
  · simp only [List.mem_cons, List.not_mem_nil, or_false] at hshort
    rcases hshort with rfl | rfl | rfl <;> rfl
  · simp only [List.mem_cons, List.not_mem_nil, or_false, not_or] at hshort
    obtain ⟨hquote, hbackslash, hfeed⟩ := hshort
    simp only [Quoted.escapePlain, hquote, hbackslash, hfeed, if_false]
    rw [List.singleton_append, body?, if_neg hquote, if_neg hbackslash,
      if_neg (not_or.2 ⟨hfeed, hc⟩)]

/-- No literal goes on over the end of a line. -/
theorem body?_return (cs : List Char) : body? '"' 0 (Quoted.escapePlain '\r' ++ cs) = none := rfl

/-- What stands between the quotes is read back, up to a carriage return. -/
theorem body?_plain_eq_some_iff {cs : List Char} {us : List Nat} :
    body? '"' 0 (cs.flatMap Quoted.escapePlain ++ ['"']) = some us ↔
      us = cs.flatMap charUnits ∧ '\r' ∉ cs := by
  induction cs generalizing us with
  | nil =>
    rw [and_iff_left List.not_mem_nil, eq_comm]
    exact Option.some_inj
  | cons c cs ih =>
    rw [List.flatMap_cons, List.append_assoc, List.flatMap_cons, List.mem_cons, not_or]
    by_cases hc : c = '\r'
    · subst hc
      rw [body?_return]
      simp
    · rw [body?_escapePlain hc, Option.map_eq_some_iff]
      constructor
      · rintro ⟨vs, hvs, rfl⟩
        obtain ⟨rfl, hrest⟩ := ih.1 hvs
        exact ⟨rfl, Ne.symm hc, hrest⟩
      · rintro ⟨rfl, -, hrest⟩
        exact ⟨_, ih.2 ⟨rfl, hrest⟩, rfl⟩

/-- **A quoted text is a literal of this text**, and of no other. With a carriage return it is no
literal. -/
theorem value?_plain {s : String} {us : List Nat} :
    value? (Quoted.plain s).toList = some us ↔ us = units s ∧ '\r' ∉ s.toList := by
  rw [Quoted.plain, Quoted.toList_quote]
  exact body?_plain_eq_some_iff

/-! ## Ends of lines -/

theorem mem_plain_iff {s : String} {c : Char} (hquote : c ≠ '"') (hbackslash : c ≠ '\\')
    (hn : c ≠ 'n') : c ∈ (Quoted.plain s).toList ↔ c ∈ s.toList ∧ c ≠ '\n' := by
  have hescape (d : Char) : c ∈ Quoted.escapePlain d ↔ c = d ∧ d ≠ '\n' := by
    unfold Quoted.escapePlain
    split_ifs <;> simp_all
  have hmem : c ∈ s.toList.flatMap Quoted.escapePlain ↔ c ∈ s.toList ∧ c ≠ '\n' := by
    simp only [List.mem_flatMap, hescape]
    constructor
    · rintro ⟨d, hd, rfl, hfeed⟩
      exact ⟨hd, hfeed⟩
    · rintro ⟨hc, hfeed⟩
      exact ⟨c, hc, rfl, hfeed⟩
  rw [Quoted.plain, Quoted.toList_quote]
  simp [hmem, hquote]

end TypeReify.Text.Literal

namespace TypeReify.Types

open Text

/-! ## Where keys stand -/

namespace Interner

section

variable (t : Interner) (inner : TypeId → String)

/-- What comes before the key of a property that stands behind the properties `before`. -/
def beforeKey (before : Shape) (p : Property) : String :=
  "\x7b " ++ String.join (before.map (renderProperty inner t · ++ "; ")) ++
    if p.readonly then "readonly " else ""

/-- What is written of a property behind its key. -/
def behindKey (p : Property) : String :=
  optionalMark p.optional ++
    match t.get? p.type, p.method with
    | some (.function f), true => renderFunction inner f ": "
    | _, _ => ": " ++ inner p.type

theorem renderProperty_eq (p : Property) :
    renderProperty inner t p =
      (if p.readonly then "readonly " else "") ++ renderKey p.name ++ behindKey t inner p := by
  unfold renderProperty behindKey
  generalize (if p.readonly then "readonly " else "") = mark, t.get? p.type = found,
    p.method = method
  rcases found with _ | s
  · simp only [String.append_assoc]
  · cases s <;> cases method <;> simp only [String.append_assoc]

/-- A key ends where a question mark, a colon or a parenthesis stands. -/
theorem behindKey_begins (p : Property) :
    ∃ c rest, (behindKey t inner p).toList = c :: rest ∧ c ∈ ['?', ':', '('] := by
  unfold behindKey
  cases p.optional with
  | true => simp [optionalMark]
  | false =>
    split
    · simp [optionalMark, renderFunction, renderParameters]
    · simp [optionalMark]

end

variable {t : Interner} {id : TypeId}

/-- **The text of an object type, taken apart at the key of one property**, which ends where a
question mark, a colon or a parenthesis stands. -/
theorem render_object_split {before behind : Shape} {p : Property}
    (h : t.lookup id = some (.object (before ++ p :: behind))) (levels : Nat) :
    ∃ rest, t.render (levels + 1) id =
        beforeKey t (t.render levels) before p ++ renderKey p.name ++ rest ∧
      ∃ c ∈ rest.toList.head?, c ∈ ['?', ':', '('] := by
  obtain ⟨q, shape, hshape⟩ : ∃ q shape, before ++ p :: behind = q :: shape :=
    List.exists_cons_of_ne_nil (by simp)
  have hrender : renderStructure (t.render levels) t (.object (before ++ p :: behind)) =
      "\x7b " ++ String.join ((before ++ p :: behind).map
        (renderProperty (t.render levels) t · ++ "; ")) ++ "\x7d" := by
    rw [hshape]
    rfl
  refine ⟨behindKey t (t.render levels) p ++ "; " ++
    String.join (behind.map (renderProperty (t.render levels) t · ++ "; ")) ++ "\x7d", ?_, ?_⟩
  · rw [render, h]
    dsimp only
    rw [hrender, List.map_append, List.map_cons, String.join_append, String.join_cons, beforeKey,
      renderProperty_eq]
    simp only [String.append_assoc]
  · obtain ⟨c, rest, hc, hmem⟩ := behindKey_begins t (t.render levels) p
    exact ⟨c, by simp [String.toList_append, hc], hmem⟩

/-! ## Literals of types and keys -/

/-- **The text is a literal of `s`**, in double quotes and on one line, if only `s` has no carriage
return. If it has one, the text has it too, and is no literal at all. -/
structure Quotes (text s : String) : Prop where
  quote : text.toList.head? = some '"'
  feed : '\n' ∉ text.toList
  carriageReturn : '\r' ∈ text.toList ↔ '\r' ∈ s.toList
  value : ∀ us, Literal.value? text.toList = some us ↔ us = units s ∧ '\r' ∉ s.toList

theorem quotes_plain (s : String) : Quotes (Quoted.plain s) s where
  quote := by simp [Quoted.plain, Quoted.toList_quote]
  feed := by simp [Literal.mem_plain_iff]
  carriageReturn := by simp [Literal.mem_plain_iff]
  value _ := Literal.value?_plain

/-- **The text of a string literal type is a literal of its string, and a quoted key is a literal of
the name of its property**, wherever the text has no carriage return. -/
theorem render_quoted_value (t : Interner) (levels : Nat) (id : TypeId) :
    (∀ s, t.lookup id = some (.literal (.string s)) → Quotes (t.render (levels + 1) id) s) ∧
      ∀ before p behind, t.lookup id = some (.object (before ++ p :: behind)) →
        isIdentifierText p.name = false → isNumeral p.name = false →
          ∃ rest, t.render (levels + 1) id =
              beforeKey t (t.render levels) before p ++ renderKey p.name ++ rest ∧
            (∃ c ∈ rest.toList.head?, c ∈ ['?', ':', '(']) ∧ Quotes (renderKey p.name) p.name := by
  constructor
  · intro s h
    have hrender : t.render (levels + 1) id = Quoted.plain s := by
      rw [render, h]
      rfl
    rw [hrender]
    exact quotes_plain s
  · intro before p behind h hname hnumeral
    obtain ⟨rest, hrender, hrest⟩ := render_object_split h levels
    have hkey : renderKey p.name = Quoted.plain p.name := by
      rw [renderKey, hname, hnumeral]
      rfl
    refine ⟨rest, hrender, hrest, ?_⟩
    rw [hkey]
    exact quotes_plain p.name

/-- A property that no source text declares, of type `string`. -/
def stringProperty (name : String) : Property :=
  { name, type := TypeId.string, optional := false, readonly := false, method := false,
    declarations := [] }

/-- A string literal type, and an object type with a key that is quoted. -/
def greetingTypes : Interner :=
  ⟨#[.literal (.string "say \"hi\"\n"), .object [stringProperty "id", stringProperty "data-id"]]⟩

theorem render_quoted_value_greetingTypes :
    greetingTypes.lookup 100 = some (.literal (.string "say \"hi\"\n")) ∧
      Quotes (greetingTypes.render 1 100) "say \"hi\"\n" ∧
      greetingTypes.lookup 101 =
        some (.object ([stringProperty "id"] ++ stringProperty "data-id" :: [])) ∧
      ∃ rest, greetingTypes.render 2 101 =
          beforeKey greetingTypes (greetingTypes.render 1) [stringProperty "id"]
            (stringProperty "data-id") ++ renderKey "data-id" ++ rest ∧
        (∃ c ∈ rest.toList.head?, c ∈ ['?', ':', '(']) ∧ Quotes (renderKey "data-id") "data-id" :=
  ⟨rfl, (render_quoted_value greetingTypes 0 100).1 _ rfl, rfl,
    (render_quoted_value greetingTypes 1 101).2 _ _ _ rfl (by decide +kernel) (by decide +kernel)⟩

/-- A carriage return is written as it is, in a literal type and in a key, and what is written then
is no literal. -/
theorem typeText_return :
    let t : Interner := ⟨#[.literal (.string "a\rb"), .object [stringProperty "a\rb"]]⟩
    t.typeText renderDepth 100 = "\"a\rb\"" ∧
      t.typeText renderDepth 101 = "\x7b \"a\rb\": string; \x7d" ∧
      renderKey "a\rb" = "\"a\rb\"" ∧ Literal.value? "\"a\rb\"".toList = none := by
  decide +kernel

end Interner

end TypeReify.Types
