import TypeReify.Proofs.Syntax.Tree
import TypeReify.Syntax.Print

/-!
# Printing in a larger arena

The text of a node is written from its own content and from that of nodes below it, which a larger
arena leaves as they were. The clauses of `nodeText` look some levels down and leave the rest to
`inner`, so each of them is compared once, for any two ways of writing the nodes below.

This is about `Printer`, which is handed an arena and only reads it.

Results:
* `nodeText_congr`: the text of a node depends on the texts of the nodes below it.
* `Extends.print`: an old node is written in a larger arena as it was before.
-/

namespace TypeReify.Syntax.Arena

variable {a b : Arena} {inner inner' : (indent : Nat) → Ref → String}

/-! ## Lists and slots -/

section Inner

variable {rs : List Ref} (h : ∀ r ∈ rs, ∀ indent, inner' indent r = inner indent r)
include h

theorem commaList_congr (indent : Nat) :
    commaList inner' indent rs = commaList inner indent rs := by
  rw [commaList, commaList, List.map_congr_left fun r hr => h r hr indent]

theorem parameterList_congr (indent : Nat) :
    parameterList inner' indent rs = parameterList inner indent rs := by
  rw [parameterList, parameterList, commaList_congr h]

theorem lines_congr (indent : Nat) (terminator : String) :
    lines inner' indent terminator rs = lines inner indent terminator rs := by
  unfold lines
  congr 1
  exact List.map_congr_left fun r hr => by rw [h r hr]

theorem elementLines_congr (indent : Nat) :
    elementLines inner' indent rs = elementLines inner indent rs := by
  induction rs with
  | nil => rfl
  | cons r rs ih =>
    have hr := h r List.mem_cons_self
    cases rs with
    | nil => simp only [elementLines, hr]
    | cons r' rs =>
      have hrest := ih fun x hx => h x (List.mem_cons_of_mem r hx)
      simp only [elementLines, hr] at hrest ⊢
      rw [hrest]

/-- Whether on one line or on several, elements are written by the inner writer only. -/
theorem bracketed_congr (indent : Nat) (left right padding : String) (hd : Header) :
    bracketed inner' indent left right padding hd rs =
      bracketed inner indent left right padding hd rs := by
  rw [bracketed, bracketed, elementLines_congr h, commaList_congr h]

end Inner

theorem typeList_congr {rs : Option (List Ref)}
    (h : ∀ r ∈ rs.getD [], ∀ indent, inner' indent r = inner indent r) (indent : Nat) :
    typeList inner' indent rs = typeList inner indent rs := by
  cases rs with
  | none => rfl
  | some rs =>
    have hrs : ∀ r ∈ rs, ∀ indent, inner' indent r = inner indent r := h
    simp only [typeList, commaList_congr hrs]

theorem slot_congr {r : Ref} (h : ∀ indent, inner' indent r = inner indent r) (indent : Nat)
    (before : String) : slot inner' indent before r = slot inner indent before r := by
  cases r with
  | none => rfl
  | some i => simp only [slot, h]

theorem typeAscription_congr {r : Ref} (h : ∀ indent, inner' indent r = inner indent r)
    (indent : Nat) : typeAscription inner' indent r = typeAscription inner indent r :=
  slot_congr h indent ": "

/-! ## Nodes that are looked into -/

/-- Below the slot, both arenas have the same and write the same. -/
structure Alike (a b : Arena) (inner inner' : (indent : Nat) → Ref → String) (r : Ref) : Prop where
  content : b.content? r = a.content? r
  kind : b.kind? r = a.kind? r
  text : ∀ indent, inner' indent r = inner indent r

namespace Alike

variable {r : Ref} (h : Alike a b inner inner' r)
include h

theorem identifierText? : b.identifierText? r = a.identifierText? r := by
  rw [Arena.identifierText?, Arena.identifierText?, h.content]

theorem identifierText : b.identifierText r = a.identifierText r := by
  rw [Arena.identifierText, Arena.identifierText, h.identifierText?]

theorem propertyName : b.propertyName r = a.propertyName r := by
  rw [Arena.propertyName, Arena.propertyName, h.content]

theorem blockText (indent : Nat) : b.blockText inner' indent r = a.blockText inner indent r := by
  rw [Arena.blockText, Arena.blockText, h.content, h.text]

theorem elementText (indent : Nat) :
    b.elementText inner' indent r = a.elementText inner indent r := by
  rw [Arena.elementText, Arena.elementText, h.kind, h.text]

end Alike


section Below

variable {S : Ref → Prop} (halike : ∀ r, S r → Alike a b inner inner' r)
  (hdown : ∀ r hd p, S r → a.content? r = some (hd, p) → ∀ c ∈ p.children, S c)
include halike hdown

/-- The body of an arrow function is looked into, two levels down, before it is left to the inner
writer. -/
theorem arrowBody_congr {r : Ref} (h : S r) (indent : Nat) :
    b.arrowBody inner' indent r = a.arrowBody inner indent r := by
  rw [arrowBody, arrowBody, (halike r h).content]
  cases hc : a.content? r with
  | none => exact (halike r h).text indent
  | some c =>
    obtain ⟨hd, p⟩ := c
    cases p with
    | expressionStatement e =>
      exact (halike e (hdown r hd _ h hc e (by simp [Payload.children]))).text indent
    | _ => exact (halike r h).text indent

theorem declarationText_congr {r : Ref} (h : S r) (indent : Nat) :
    b.declarationText inner' indent r = a.declarationText inner indent r := by
  rw [declarationText, declarationText, (halike r h).content]
  cases hc : a.content? r with
  | none => rfl
  | some c =>
    obtain ⟨hd, p⟩ := c
    cases p with
    | variableDeclaration name ascription value =>
      have hchild : ∀ c ∈ [name, ascription, value], Alike a b inner inner' c :=
        fun c hc' => halike c (hdown r hd _ h hc c hc')
      simp only [List.forall_mem_cons] at hchild
      simp only [hchild.1.identifierText, typeAscription_congr hchild.2.1.text,
        slot_congr hchild.2.2.1.text]
    | _ => rfl

theorem specifierText_congr {r : Ref} (h : S r) : b.specifierText r = a.specifierText r := by
  rw [specifierText, specifierText, (halike r h).content]
  cases hc : a.content? r with
  | none => rfl
  | some c =>
    obtain ⟨hd, p⟩ := c
    cases p with
    | importSpecifier source name =>
      have hsource := (halike source (hdown r hd _ h hc source (by simp [Payload.children])))
      have hname := (halike name (hdown r hd _ h hc name (by simp [Payload.children])))
      simp only [hsource.identifierText, hname.identifierText]
    | _ => rfl

/-- What an import binds is written from the names in it. -/
theorem clauseText_congr {r : Ref} (h : S r) : b.clauseText r = a.clauseText r := by
  rw [clauseText, clauseText, (halike r h).content]
  cases hc : a.content? r with
  | none => rfl
  | some c =>
    obtain ⟨hd, p⟩ := c
    cases p with
    | importClause name bindings =>
      have hname := (halike name (hdown r hd _ h hc name (by simp [Payload.children])))
      have hbindings := hdown r hd _ h hc bindings (by simp [Payload.children])
      simp only [hname.identifierText, (halike bindings hbindings).content]
      cases hcb : a.content? bindings with
      | none => rfl
      | some cb =>
        obtain ⟨hd', q⟩ := cb
        cases q with
        | importBindings name' items =>
          have hchild := hdown bindings hd' _ hbindings hcb
          have hname' := halike name' (hchild name' (by simp [Payload.children]))
          have hitems : items.map b.specifierText = items.map a.specifierText :=
            List.map_congr_left fun item hitem =>
              specifierText_congr halike hdown (hchild item (List.mem_cons_of_mem name' hitem))
          simp only [bindingsText, hname'.identifierText, hitems]
        | _ => rfl
    | _ => rfl

theorem mappedKey_congr {r : Ref} (h : S r) (indent : Nat) :
    b.mappedKey inner' indent r = a.mappedKey inner indent r := by
  rw [mappedKey, mappedKey, (halike r h).content]
  cases hc : a.content? r with
  | none => rfl
  | some c =>
    obtain ⟨hd, p⟩ := c
    cases p with
    | typeParameter name bound fallback =>
      have hname := (halike name (hdown r hd _ h hc name (by simp [Payload.children])))
      have hbound := (halike bound (hdown r hd _ h hc bound (by simp [Payload.children])))
      simp only [hname.identifierText, hbound.text]
    | _ => rfl

/-- The text of a node depends on the texts of the nodes below it. -/
theorem nodeText_congr (hd : Header) {p : Payload Ref} (hp : ∀ c ∈ p.children, S c) (indent : Nat) :
    b.nodeText inner' indent hd p = a.nodeText inner indent hd p := by
  have text : ∀ r ∈ p.children, ∀ indent, inner' indent r = inner indent r :=
    fun r hr => (halike r (hp r hr)).text
  have texts {rs : List Ref} (hrs : ∀ r ∈ rs, r ∈ p.children) :
      ∀ r ∈ rs, ∀ indent, inner' indent r = inner indent r := fun r hr => text r (hrs r hr)
  have name : ∀ r ∈ p.children, b.identifierText r = a.identifierText r :=
    fun r hr => (halike r (hp r hr)).identifierText
  have property : ∀ r ∈ p.children, b.propertyName r = a.propertyName r :=
    fun r hr => (halike r (hp r hr)).propertyName
  cases p with
  | identifier _ | literal _ | variableDeclaration _ _ _ | importClause _ _ | importBindings _ _
  | importSpecifier _ _ => rfl
  | call callee types arguments =>
    simp only [nodeText]
    rw [text callee (by simp [Payload.children]),
      typeList_congr (texts (by simp +contextual [Payload.children])),
      parameterList_congr (texts (by simp +contextual [Payload.children]))]
  | access object name' =>
    simp only [nodeText]
    rw [text object (by simp [Payload.children]), name name' (by simp [Payload.children])]
  | elements items =>
    simp only [nodeText]
    have hitems : ∀ r ∈ items, ∀ indent, inner' indent r = inner indent r := text
    rw [bracketed_congr hitems, bracketed_congr hitems]
  | assignment name' value =>
    simp only [nodeText]
    rw [text value (by simp [Payload.children]), name name' (by simp [Payload.children]),
      property name' (by simp [Payload.children])]
  | parenthesized e | literalType e =>
    simp only [nodeText]
    rw [text e (by simp [Payload.children])]
  | binary left operator right =>
    simp only [nodeText]
    rw [text left (by simp [Payload.children]), text right (by simp [Payload.children])]
  | function name' types parameters result body =>
    simp only [nodeText]
    have hbody : S body := hp body (by simp [Payload.children])
    rw [name name' (by simp [Payload.children]),
      typeList_congr (texts (by simp +contextual [Payload.children])),
      parameterList_congr (texts (by simp +contextual [Payload.children])),
      typeAscription_congr (text result (by simp [Payload.children])),
      arrowBody_congr halike hdown hbody, (halike body hbody).blockText]
  | parameter name' ascription value =>
    simp only [nodeText]
    rw [name name' (by simp [Payload.children]),
      typeAscription_congr (text ascription (by simp [Payload.children])),
      slot_congr (text value (by simp [Payload.children]))]
  | typeParameter name' bound fallback =>
    simp only [nodeText]
    rw [name name' (by simp [Payload.children]),
      slot_congr (text bound (by simp [Payload.children])),
      slot_congr (text fallback (by simp [Payload.children]))]
  | block statements =>
    have hstatements : ∀ r ∈ statements, ∀ indent, inner' indent r = inner indent r := text
    simp only [nodeText, lines_congr hstatements]
  | expressionStatement e =>
    simp only [nodeText]
    rw [text e (by simp [Payload.children]), slot_congr (text e (by simp [Payload.children]))]
  | ifStatement condition yes no =>
    simp only [nodeText]
    rw [text condition (by simp [Payload.children]), text yes (by simp [Payload.children]),
      slot_congr (text no (by simp [Payload.children]))]
  | variableStatement declarations =>
    have hdeclarations : declarations.map (b.declarationText inner' indent) =
        declarations.map (a.declarationText inner indent) :=
      List.map_congr_left fun r hr => declarationText_congr halike hdown (hp r hr) indent
    simp only [nodeText, hdeclarations]
  | importDeclaration clause specifier =>
    simp only [nodeText]
    rw [clauseText_congr halike hdown (hp clause (by simp [Payload.children])),
      text specifier (by simp [Payload.children])]
  | typeReference name' arguments =>
    simp only [nodeText]
    rw [name name' (by simp [Payload.children]),
      typeList_congr (texts (by simp +contextual [Payload.children]))]
  | union members =>
    have hmembers : members.map (inner' indent) = members.map (inner indent) :=
      List.map_congr_left fun r hr => text r hr indent
    simp only [nodeText, hmembers]
  | arrayType element =>
    simp only [nodeText]
    rw [(halike element (hp element (by simp [Payload.children]))).elementText]
  | typeLiteral members =>
    have hmembers : members.map (inner' indent · ++ "; ") = members.map (inner indent · ++ "; ") :=
      List.map_congr_left fun r hr => by rw [text r hr]
    simp only [nodeText, hmembers]
  | signature name' types parameters ascription =>
    simp only [nodeText]
    rw [property name' (by simp [Payload.children]),
      typeAscription_congr (text ascription (by simp [Payload.children])),
      typeList_congr (texts (by simp +contextual [Payload.children]))]
    cases parameters with
    | none => rfl
    | some ps =>
      have hps : ∀ r ∈ ps, ∀ indent, inner' indent r = inner indent r :=
        texts (by simp +contextual [Payload.children])
      simp only [parameterList_congr hps]
  | indexSignature parameters ascription =>
    simp only [nodeText]
    rw [commaList_congr (texts (by simp +contextual [Payload.children])),
      typeAscription_congr (text ascription (by simp [Payload.children]))]
  | mappedType key template =>
    simp only [nodeText]
    rw [mappedKey_congr halike hdown (hp key (by simp [Payload.children])),
      typeAscription_congr (text template (by simp [Payload.children]))]
  | functionType types parameters result =>
    simp only [nodeText]
    rw [typeList_congr (texts (by simp +contextual [Payload.children])),
      parameterList_congr (texts (by simp +contextual [Payload.children])),
      text result (by simp [Payload.children])]
  | interface name' types heritage members =>
    simp only [nodeText]
    rw [name name' (by simp [Payload.children]),
      typeList_congr (texts (by simp +contextual [Payload.children])),
      lines_congr (texts (by simp +contextual [Payload.children]))]
    cases heritage with
    | none => rfl
    | some bases =>
      have hbases : ∀ r ∈ bases, ∀ indent, inner' indent r = inner indent r :=
        texts (by simp +contextual [Payload.children])
      simp only [commaList_congr hbases]
  | typeAlias name' types body =>
    simp only [nodeText]
    rw [name name' (by simp [Payload.children]),
      typeList_congr (texts (by simp +contextual [Payload.children])),
      text body (by simp [Payload.children])]
  | sourceFile fileName statements =>
    have hstatements : (statements.map fun r => indentation indent ++ inner' indent r ++ "\n") =
        statements.map fun r => indentation indent ++ inner indent r ++ "\n" :=
      List.map_congr_left fun r hr => by rw [text r hr]
    simp only [nodeText, hstatements]

end Below

/-! ## Old nodes -/

/-- An old node is written in a larger arena as it was before, if the levels reach its leaves. -/
theorem Extends.print (h : Extends a b) (ha : a.WellFormed) : ∀ (i levels levels' indent : Nat),
    i < a.size → i < levels → i < levels' →
      b.print levels' indent (some i) = a.print levels indent (some i) := by
  intro i
  induction i using Nat.strongRecOn with
  | ind i ih =>
    intro levels levels' indent hi hl hl'
    obtain ⟨l, rfl⟩ : ∃ l, levels = l + 1 := ⟨levels - 1, by omega⟩
    obtain ⟨l', rfl⟩ : ∃ l', levels' = l' + 1 := ⟨levels' - 1, by omega⟩
    have hhas {r : Ref} (hr : ∀ j, r = some j → j < i) : a.Has r :=
      fun j hj => Nat.lt_trans (hr j hj) hi
    obtain ⟨hd, hh⟩ := header?_of_lt hi
    simp only [Arena.print, hh, h.header? (has_some.2 hi), h.payload? ha hh]
    cases hp : a.payload? hd with
    | none => rfl
    | some p =>
      -- Everything below the node stands before it.
      refine nodeText_congr (S := fun r => ∀ j, r = some j → j < i) (fun r hr => ?_) ?_ hd ?_ indent
      · refine ⟨h.content? ha (hhas hr), h.kind? (hhas hr), fun indent => ?_⟩
        cases r with
        | none => rw [print_none, print_none]
        | some j =>
          have hj : j < i := hr j rfl
          exact ih j hj l l' indent (Nat.lt_trans hj hi)
            (Nat.lt_of_lt_of_le hj (Nat.lt_succ_iff.1 hl))
            (Nat.lt_of_lt_of_le hj (Nat.lt_succ_iff.1 hl'))
      · rintro r hd' q hr hc c hmem j rfl
        cases r with
        | none => cases hc
        | some k => exact Nat.lt_trans (ha.lt_of_mem_children hc hmem) (hr k rfl)
      · rintro c hmem j rfl
        exact ha.lt_of_payload? hh hp hmem

/-- So its text is what it was. -/
theorem Extends.textOf (h : Extends a b) (ha : a.WellFormed) {i : Nat} (hi : i < a.size) :
    b.textOf (some i) = a.textOf (some i) := by
  have hsize := h.size_le
  refine h.print ha i _ _ 0 hi ?_ ?_
  · rw [levels]
    omega
  · rw [levels]
    omega

end TypeReify.Syntax.Arena
