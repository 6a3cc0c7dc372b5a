import TypeReify.Proofs.Types.Read

/-!
# The text of a type tells its tree

Whatever stands in a union or in front of the brackets of an array is a name, a number, a quoted
text, an object, or a function or a union in parentheses. None of these begins like the parameters
of a function, so the reader tells functions from other types by their beginning, and a union from
its first member by the bar behind it.

This is about `print_type`, down to `MAX_TYPE_PRINT_DEPTH`.

Results:
* `operand_begins`: members of unions and elements of arrays do not begin like functions.
* `reads_operand`: a member of a union is read, whatever brackets come behind.
* `reads_render`: the text of a type is read as its tree.
* `typeText_injective`: types with the same text have the same tree.

Out of scope: declarations of one name in two files, which have the same text and the same tree.
-/

namespace TypeReify.Types

open Text

/-! ## Beginnings -/

/-- What may come behind the word at the beginning of a type that is no function. -/
def leads : List Char := ['<', '"', '\x7b', ' ', '[']

/-- The text begins with a word, or with a quote or a brace. -/
def Leads (text : List Char) : Prop :=
  ∃ word rest, text = word ++ rest ∧ (∀ c ∈ word, c ∉ punctuation) ∧ Begins leads rest

/-- The text begins with a word, a quote, a brace, or a parenthesis that opens no parameters. -/
def Operand (text : List Char) : Prop :=
  Leads text ∨ ∃ cs, text = '(' :: cs ∧ ∀ rest, namesParameter (cs ++ rest) = false

theorem operand_parenthesis {cs : List Char} (h : ∀ rest, namesParameter (cs ++ rest) = false) :
    Operand ("(".toList ++ cs) := .inr ⟨cs, rfl, h⟩

theorem Operand.append {text rest : List Char} (h : Operand text) (hrest : Begins leads rest) :
    Operand (text ++ rest) := by
  rcases h with ⟨word, rest', rfl, hword, hbegins⟩ | ⟨cs, rfl, hcs⟩
  · exact .inl ⟨word, rest' ++ rest, by rw [List.append_assoc], hword, hbegins.append hrest⟩
  · exact .inr ⟨cs ++ rest, rfl, fun rest' => by rw [List.append_assoc]; exact hcs _⟩

/-- No parameter is named, if a word ends otherwise. -/
theorem namesParameter_lead {word rest : List Char} (hword : ∀ c ∈ word, c ∉ punctuation)
    (hrest : Begins leads rest) : namesParameter (word ++ rest) = false :=
  namesParameter_word leads (fun c hc hend =>
    hword c hc ((by decide : parameterEnds ⊆ punctuation) hend))
    (forall_mem_of_all (by decide +kernel)) hrest

theorem namesParameter_parenthesis (cs : List Char) : namesParameter ('(' :: cs) = false :=
  namesParameter_cons (not_isIdentifierPart (by decide)) cs

/-- In parentheses an operand with more behind it is no parameter. -/
theorem Operand.namesParameter_eq {text rest : List Char} (h : Operand text)
    (hrest : Begins leads rest) :
    namesParameter (text ++ rest) = false := by
  rcases h with ⟨word, rest', rfl, hword, hbegins⟩ | ⟨cs, rfl, -⟩
  · rw [List.append_assoc]
    exact namesParameter_lead hword (hbegins.append hrest)
  · exact namesParameter_parenthesis (cs ++ rest)

/-- An operand is not taken for a function. -/
theorem Operand.opensParameters_eq {text rest : List Char} (h : Operand text)
    (hrest : Begins (leads ++ typeEnds) rest) : opensParameters (text ++ rest) = false := by
  rcases h with ⟨word, rest', rfl, hword, hbegins⟩ | ⟨cs, rfl, hcs⟩
  · have hbehind : Begins (leads ++ typeEnds) (rest' ++ rest) :=
      (hbegins.mono (List.subset_append_left leads typeEnds)).append hrest
    have hskip : skip ['('] (word ++ (rest' ++ rest)) = none :=
      skip_word List.mem_cons_self (fun hmem => hword _ hmem (by decide)) hbehind
        (forall_mem_of_all (by decide))
    rw [List.append_assoc, opensParameters_of_skip hskip]
  · exact (opensParameters_cons (cs ++ rest)).trans (hcs rest)

section Beginnings

variable {text : TypeId → String} {t : Interner}

/-- A function is recognised by its parameters. -/
theorem opensParameters_function {f : FunctionShape} (arrow : String)
    (h : ∀ p ∈ f.parameters, isIdentifierText p.name = true) (rest : List Char) :
    opensParameters ("(".toList ++ functionText text f arrow ++ rest) = true := by
  refine (opensParameters_cons (functionText text f arrow ++ rest)).trans ?_
  rw [functionText]
  cases hps : f.parameters with
  | nil => exact namesParameter_of_mem (c := ')') (by decide) _
  | cons p ps =>
    obtain ⟨tail, htail⟩ := parametersText_cons text p ps
    have hname : ∀ c ∈ p.name.toList, isIdentifierPart c = true :=
      isIdentifierPart_of_mem (h p (hps ▸ List.mem_cons_self))
    rw [htail]
    simp only [List.append_assoc]
    rw [namesParameter_append hname]
    cases p.optional with
    | true => exact namesParameter_of_mem (c := '?') (by decide) _
    | false => exact namesParameter_of_mem (c := ':') (by decide) _

theorem leads_word {word : List Char} (h : ∀ c ∈ word, c ∉ punctuation) : Leads word :=
  ⟨word, [], (List.append_nil word).symm, h, begins_nil leads⟩

/-- A quote or a brace begins the text. -/
theorem leads_cons {c : Char} (hc : c ∈ leads) (rest : List Char) : Leads (c :: rest) :=
  ⟨[], c :: rest, rfl, fun _ hd => absurd hd List.not_mem_nil, begins_cons hc⟩

/-- What needs no parentheses begins with a word, a quote or a brace. -/
theorem leads_atom {s : Structure} (hatom : s.isAtom = true) (hspelled : s.Spelled t)
    (hkeyword : ∀ name, s = .intrinsic name → name ∈ intrinsicNames) :
    Leads (Interner.renderStructure text t s).toList := by
  cases s with
  | array _ | union _ | function _ => cases hatom
  | intrinsic name =>
    exact leads_word (not_mem_of_name (isIdentifierText_of_keyword name (hkeyword name rfl)))
  | literal value =>
    cases value with
    | string text =>
      rw [Interner.renderStructure, Literal.render, Quoted.plain, Quoted.toList_quote]
      exact leads_cons (by decide) _
    | number digits => exact leads_word (not_mem_of_digits hspelled)
    | boolean value =>
      cases value with
      | true =>
        exact leads_word (not_mem_of_name (isIdentifierText_of_keyword "true" (by decide)))
      | false =>
        exact leads_word (not_mem_of_name (isIdentifierText_of_keyword "false" (by decide)))
  | object shape =>
    rw [toList_object]
    exact leads_cons (by decide) _
  | interface name _ arguments | synonym name _ arguments =>
    rw [Interner.renderStructure, toList_renderNamed]
    refine ⟨_, _, rfl, not_mem_of_name hspelled.1, ?_⟩
    unfold argumentsText?
    split
    · exact begins_nil leads
    · exact begins_cons (by decide)
  | parameter name => exact leads_word (not_mem_of_name hspelled.1)

end Beginnings

/-! ## Tables whose types can be read back -/

/-- Functions and unions are put in parentheses where they stand in front of something. -/
def Structure.needsParentheses : Structure → Bool
  | .union _ | .function _ => true
  | _ => false

theorem Structure.needsParentheses_of_isAtom {s : Structure} (h : s.isAtom = true) :
    s.needsParentheses = false := by
  cases s with
  | union _ | function _ => cases h
  | _ => rfl

namespace Interner

/-- A table whose types can be read back. -/
structure Readable (t : Interner) : Prop where
  closed : t.Closed
  flat : t.Flat
  keyworded : t.Keyworded
  spelled : t.Spelled

variable {t : Interner} {id : TypeId} {s : Structure} {levels : Nat}

theorem Built.readable (h : t.Built) (hspelled : t.Spelled) : t.Readable :=
  ⟨h.closed, h.flat, h.keyworded, hspelled⟩

theorem mem_types_of_get? (h : t.get? id = some s) : s ∈ t.types := by
  unfold get? at h
  split at h
  · cases h
  · exact Array.mem_of_getElem? h

theorem Readable.spelled_of_lookup (ht : t.Readable) (h : t.lookup id = some s) : s.Spelled t := by
  cases s with
  | intrinsic _ => exact trivial
  | _ => exact ht.spelled _ (mem_types_of_get? (get?_of_lookup h nofun))

theorem Readable.functionValues (ht : t.Readable) : FunctionValues t t.tree := fun _ _ h =>
  ⟨ht.spelled _ (mem_types_of_get? h), tree_of_lookup ht.closed (lookup_of_get? h)⟩

theorem Readable.known_of_mentions (ht : t.Readable) (h : t.lookup id = some s) {x : TypeId}
    (hx : x ∈ s.mentions) : t.Known x := by
  cases s with
  | intrinsic _ => exact absurd hx List.not_mem_nil
  | _ => exact (ht.closed id _ (get?_of_lookup h nofun) x hx).2

/-- What is written of a known type is known. -/
theorem Readable.known_of_written (ht : t.Readable) (h : t.lookup id = some s) {x : TypeId}
    (hx : x ∈ t.written s) : t.Known x := by
  cases s with
  | object shape =>
    obtain ⟨p, hp, hx⟩ := List.mem_flatMap.1 hx
    unfold writtenInProperty at hx
    split at hx
    · exact ht.known_of_mentions (lookup_of_get? ‹_›) hx
    · obtain rfl := List.mem_singleton.1 hx
      exact ht.known_of_mentions h (List.mem_map_of_mem hp)
  | _ => exact ht.known_of_mentions h hx

theorem Flat.members (ht : t.Flat) {members : List TypeId}
    (h : t.lookup id = some (.union members)) :
    ∃ m m' ms, members = m :: m' :: ms ∧ ∀ m ∈ members, t.isUnion m = false := by
  obtain ⟨hlength, hmembers⟩ := ht id members (get?_of_lookup h nofun)
  match members, hlength with
  | m :: m' :: ms, _ => exact ⟨m, m', ms, rfl, hmembers⟩

theorem Within.part (h : t.Within levels id) (hs : t.lookup id = some s) {x : TypeId}
    (hx : x ∈ t.written s) : ∃ below, levels = below + 1 ∧ t.Within below x := by
  cases levels with
  | zero =>
    rw [h s hs] at hx
    exact absurd hx List.not_mem_nil
  | succ below => exact ⟨below, rfl, h s hs x hx⟩

theorem render_of_lookup (h : t.lookup id = some s) :
    t.render (levels + 1) id = renderStructure (t.render levels) t s := by
  rw [render, h]

theorem needsParentheses_of_lookup (h : t.lookup id = some s) :
    (t.isUnion id || t.isFunction id) = s.needsParentheses := by
  unfold isUnion isFunction
  cases hget : t.get? id with
  | none =>
    cases s with
    | intrinsic _ => rfl
    | _ => exact absurd (hget.symm.trans (get?_of_lookup h nofun)) nofun
  | some x =>
    obtain rfl := Option.some.inj ((lookup_of_get? hget).symm.trans h)
    cases x <;> rfl

/-- The text of a member of a union or an element of an array. -/
def operandText (t : Interner) (levels : Nat) (id : TypeId) : List Char :=
  (parenthesize (t.isUnion id || t.isFunction id) (t.render levels id)).toList

theorem operandText_of_needsParentheses (h : t.lookup id = some s)
    (hs : s.needsParentheses = true) :
    t.operandText (levels + 1) id =
      "(".toList ++ ((renderStructure (t.render levels) t s).toList ++ ")".toList) := by
  rw [operandText, needsParentheses_of_lookup h, hs, render_of_lookup h, parenthesize, if_pos rfl,
    String.toList_append, String.toList_append, List.append_assoc]

theorem operandText_of_not_needsParentheses (h : t.lookup id = some s)
    (hs : s.needsParentheses = false) :
    t.operandText (levels + 1) id = (renderStructure (t.render levels) t s).toList := by
  rw [operandText, needsParentheses_of_lookup h, hs, render_of_lookup h, parenthesize,
    if_neg Bool.false_ne_true]

theorem toList_array (element : TypeId) :
    (renderStructure (t.render levels) t (.array element)).toList =
    t.operandText levels element ++ "[]".toList := by
  rw [renderStructure, String.toList_append, operandText]

/-- No member of a union is a union, so the members need no parentheses but for functions. -/
theorem toList_union {members : List TypeId} (h : ∀ m ∈ members, t.isUnion m = false) :
    (renderStructure (t.render levels) t (.union members)).toList =
      " | ".toList.intercalate (members.map (t.operandText levels)) := by
  rw [renderStructure, String.toList_intercalate, List.map_map]
  refine congrArg _ (List.map_congr_left fun m hm => ?_)
  rw [operandText, h m hm, Bool.false_or, Function.comp_apply]

/-- **An operand does not begin like a function.** -/
theorem operand_begins (ht : t.Readable) (hid : t.Known id) :
    Operand (t.operandText levels id) := by
  induction levels generalizing id with
  | zero =>
    rw [operandText, render, parenthesize]
    split
    · have hdots (rest : List Char) : namesParameter ("...)".toList ++ rest) = false :=
        namesParameter_cons (by decide +kernel) _
      exact operand_parenthesis hdots
    · exact .inl (leads_word (forall_mem_of_all (by decide)))
  | succ levels ih =>
    obtain ⟨s, hs⟩ := hid
    by_cases hatom : s.isAtom = true
    · rw [operandText_of_not_needsParentheses hs (s.needsParentheses_of_isAtom hatom)]
      exact .inl (leads_atom hatom (ht.spelled_of_lookup hs) fun name e =>
        ht.keyworded id name (e ▸ hs))
    cases s with
    | array element =>
      rw [operandText_of_not_needsParentheses hs rfl, toList_array]
      exact (ih (ht.known_of_mentions hs List.mem_cons_self)).append (begins_cons (by decide))
    | function f =>
      rw [operandText_of_needsParentheses hs rfl, renderStructure, toList_renderFunction]
      exact operand_parenthesis fun rest => namesParameter_parenthesis _
    | union members =>
      obtain ⟨m, m', ms, rfl, hmembers⟩ := ht.flat.members hs
      rw [operandText_of_needsParentheses hs rfl, toList_union hmembers, List.map_cons,
        List.map_cons,
        List.intercalate_cons_cons, List.append_assoc]
      refine operand_parenthesis fun rest => ?_
      rw [List.append_assoc, List.append_assoc]
      refine (ih (ht.known_of_mentions hs List.mem_cons_self)).namesParameter_eq ?_
      exact begins_cons (by decide)
    | _ => exact absurd rfl hatom

end Interner

/-! ## Types -/

namespace Interner

section Level

variable {t : Interner} {levels : Nat}

/-- The types of the table are read, down to fewer than so many levels. -/
def ReadBelow (t : Interner) (levels : Nat) : Prop :=
  ∀ depth id, depth < levels → t.Known id → t.Within depth id →
    Inner (readType levels) (t.render (depth + 1)) t.tree id

/-- The parts of a type are read, if types are one level below. -/
theorem ReadBelow.parts (h : t.ReadBelow levels) (ht : t.Readable) {depth : Nat} {id : TypeId}
    {s : Structure} (hdepth : depth ≤ levels) (hwithin : t.Within depth id)
    (hs : t.lookup id = some s) :
    ∀ x ∈ t.written s, Inner (readType levels) (t.render depth) t.tree x := by
  intro x hx
  obtain ⟨below, rfl, hbelow⟩ := hwithin.part hs hx
  exact h below x hdepth (ht.known_of_written hs hx) hbelow

/-- A known type whose text is read as an operand where types are read down to fewer than so many
levels. In parentheses it is read as a type, so it has to be one level lower. -/
structure InReach (t : Interner) (levels depth : Nat) (id : TypeId) : Prop where
  known : t.Known id
  within : t.Within depth id
  le : depth ≤ levels
  lower : (t.isUnion id || t.isFunction id) = true → depth < levels

/-- **An operand is read**, whatever brackets come behind. -/
theorem reads_operand (h : t.ReadBelow levels) (ht : t.Readable) {depth : Nat} {id : TypeId}
    (hid : t.InReach levels depth id) {rest : List Char} (hrest : Begins typeOperandEnds rest) :
    readOperand (readType levels) (t.operandText (depth + 1) id ++ rest) =
      some (brackets Tree.array (t.tree id) rest) := by
  induction depth using Nat.strongRecOn generalizing id rest with
  | ind depth ih =>
    obtain ⟨⟨s, hs⟩, hwithin, hdepth, hlower⟩ := hid
    rw [needsParentheses_of_lookup hs] at hlower
    by_cases hatom : s.isAtom = true
    · rw [operandText_of_not_needsParentheses hs (s.needsParentheses_of_isAtom hatom),
        tree_of_lookup ht.closed hs]
      exact bind_brackets (reads_atom hatom (ht.spelled_of_lookup hs)
        (fun name e => ht.keyworded id name (e ▸ hs)) ht.functionValues
        (h.parts ht hdepth hwithin hs)) hrest
    cases hparentheses : s.needsParentheses with
    | true =>
      -- What stands between parentheses is no operand but a type, so the induction says nothing of
      -- it.
      have hinner := h depth id (hlower hparentheses) ⟨s, hs⟩ hwithin
      rw [Inner, render_of_lookup hs] at hinner
      rw [operandText_of_needsParentheses hs hparentheses]
      refine bind_brackets (.accept "(" (hinner.bind ?_ fun _ _ => begins_cons (by decide))) hrest
      exact .expect ")" .pure
    | false =>
      cases s with
      | array element =>
        -- The brackets of the array are taken as those behind its element, with all that follow.
        obtain ⟨below, rfl, hbelow⟩ := hwithin.part hs List.mem_cons_self
        have helement : t.Known element := ht.known_of_mentions hs List.mem_cons_self
        rw [operandText_of_not_needsParentheses hs rfl, toList_array, List.append_assoc,
          tree_of_lookup ht.closed hs]
        have hreach : t.InReach levels below element :=
          ⟨helement, hbelow, Nat.le_of_succ_le hdepth, fun _ => hdepth⟩
        exact ih below (Nat.lt_succ_self below) hreach (begins_cons (by decide))
      | function _ | union _ => cases hparentheses
      | _ => exact absurd rfl hatom

/-- Operands with bars between them are read. -/
theorem reads_operands (h : t.ReadBelow levels) (ht : t.Readable) {depth : Nat} {ids : List TypeId}
    (hne : ids ≠ []) (hids : ∀ id ∈ ids, t.InReach levels depth id) :
    Reads (list (readOperand (readType levels)) " | ")
      (" | ".toList.intercalate (ids.map (t.operandText (depth + 1))))
      (ids.map t.tree) typeEnds := by
  refine reads_list (c := ' ') rfl (by decide) hne fun id hid rest hrest => ?_
  rw [reads_operand h ht (hids id hid) (hrest.mono (by decide)), brackets_eq Tree.array _ hrest]

/-- A type that is no function is read as operands, at least one. -/
theorem reads_level (h : t.ReadBelow levels) (ht : t.Readable) {depth : Nat} {ids : List TypeId}
    (hne : ids ≠ []) (hids : ∀ id ∈ ids, t.InReach levels depth id) :
    Reads (readType (levels + 1)) (" | ".toList.intercalate (ids.map (t.operandText (depth + 1))))
      (unionOf Tree.union (ids.map t.tree)) typeEnds := by
  have hunion := (reads_operands h ht hne hids).bind_pure (f := unionOf Tree.union)
  intro rest hrest
  have hbegins : opensParameters
      (" | ".toList.intercalate (ids.map (t.operandText (depth + 1))) ++ rest) = false := by
    match ids, hne with
    | [id], _ =>
      have hoperand : Operand (t.operandText (depth + 1) id) :=
        operand_begins ht (hids id List.mem_cons_self).known
      rw [List.map_singleton, List.intercalate_singleton]
      exact hoperand.opensParameters_eq (hrest.mono (by decide))
    | id :: id' :: ids, _ =>
      have hoperand : Operand (t.operandText (depth + 1) id) :=
        operand_begins ht (hids id List.mem_cons_self).known
      rw [List.map_cons, List.map_cons, List.intercalate_cons_cons, List.append_assoc,
        List.append_assoc]
      exact hoperand.opensParameters_eq (begins_cons (by decide))
  rw [readType, readLevel, hbegins, if_neg Bool.false_ne_true]
  exact hunion rest hrest

section Render

variable {depth : Nat} {id : TypeId} (h : t.ReadBelow levels) (ht : t.Readable)
  (hdepth : depth ≤ levels) (hwithin : t.Within depth id)
include h ht hdepth hwithin

theorem reads_render_function {f : FunctionShape} (hs : t.lookup id = some (.function f)) :
    Inner (readType (levels + 1)) (t.render (depth + 1)) t.tree id := by
  have hparts := h.parts ht hdepth hwithin hs
  have hnames : ∀ p ∈ f.parameters, isIdentifierText p.name = true := ht.spelled_of_lookup hs
  rw [Inner, render_of_lookup hs, renderStructure, toList_renderFunction,
    tree_of_lookup ht.closed hs]
  intro rest hrest
  rw [readType, readLevel, opensParameters_function " => " hnames rest, if_pos rfl]
  refine Reads.expect "(" (reads_function " => " (fun p hp => ⟨hnames p hp, hparts p.type ?_⟩)
    (hparts f.result ?_)) rest hrest
  · exact List.mem_append_left _ (List.mem_map_of_mem hp)
  · exact List.mem_append_right _ List.mem_cons_self

theorem reads_render_union {members : List TypeId} (hs : t.lookup id = some (.union members)) :
    Inner (readType (levels + 1)) (t.render (depth + 1)) t.tree id := by
  obtain ⟨m, m', ms, rfl, hmembers⟩ := ht.flat.members hs
  obtain ⟨below, rfl, -⟩ := hwithin.part hs List.mem_cons_self
  rw [Inner, render_of_lookup hs, toList_union hmembers, tree_of_lookup ht.closed hs]
  refine reads_level h ht (List.cons_ne_nil _ _) fun x hx => ?_
  exact ⟨ht.known_of_mentions hs hx, hwithin _ hs x hx, Nat.le_of_succ_le hdepth, fun _ => hdepth⟩

/-- Any other type is an operand alone. -/
theorem reads_render_operand {s : Structure} (hs : t.lookup id = some s)
    (hparentheses : s.needsParentheses = false) :
    Inner (readType (levels + 1)) (t.render (depth + 1)) t.tree id := by
  have htext : " | ".toList.intercalate ([id].map (t.operandText (depth + 1))) =
      (renderStructure (t.render depth) t s).toList := by
    rw [List.map_singleton, List.intercalate_singleton,
      operandText_of_not_needsParentheses hs hparentheses]
  rw [Inner, render_of_lookup hs, ← htext]
  refine reads_level h ht (List.cons_ne_nil _ _) fun x hx => ?_
  obtain rfl := List.mem_singleton.1 hx
  refine ⟨⟨s, hs⟩, hwithin, hdepth, fun hneeds => ?_⟩
  rw [needsParentheses_of_lookup hs, hparentheses] at hneeds
  cases hneeds

end Render

end Level

/-- **The text of a type is read as its tree**, if nothing is left out of it. -/
theorem reads_render {t : Interner} (ht : t.Readable) (levels : Nat) : t.ReadBelow levels := by
  induction levels with
  | zero => exact fun _ _ hdepth => absurd hdepth (Nat.not_lt_zero _)
  | succ levels ih =>
    intro depth id hdepth hid hwithin
    obtain ⟨s, hs⟩ := hid
    have hle : depth ≤ levels := Nat.le_of_lt_succ hdepth
    cases s with
    | function f => exact reads_render_function ih ht hle hwithin hs
    | union members => exact reads_render_union ih ht hle hwithin hs
    | _ => exact reads_render_operand ih ht hle hwithin hs rfl

/-- **Types with the same text have the same tree**, if nothing is left out of the texts. -/
theorem typeText_injective {t t' : Interner} {depth depth' : Nat} {id id' : TypeId} (ht : t.Built)
    (ht' : t'.Built) (hspelled : t.Spelled) (hspelled' : t'.Spelled) (hid : t.Known id)
    (hid' : t'.Known id') (hwithin : t.Within depth id) (hwithin' : t'.Within depth' id')
    (h : t.typeText depth id = t'.typeText depth' id') : t.tree id = t'.tree id' := by
  have hread := reads_render (ht.readable hspelled) (max depth depth' + 1) depth id
    (Nat.lt_succ_of_le (Nat.le_max_left _ _)) hid hwithin [] (begins_nil typeEnds)
  have hread' := reads_render (ht'.readable hspelled') (max depth depth' + 1) depth' id'
    (Nat.lt_succ_of_le (Nat.le_max_right _ _)) hid' hwithin' [] (begins_nil typeEnds)
  rw [typeText, typeText] at h
  rw [h] at hread
  exact congrArg Prod.fst (Option.some.inj (hread.symm.trans hread'))

/-- An object with a method has one tree, also in a table where a literal was interned before. -/
theorem typeText_injective_method :
    let lookUp (result : TypeId) := Structure.function ⟨[⟨"key", TypeId.string, true⟩], result⟩
    let object (method : TypeId) := Structure.object [⟨"get", method, false, true, true, []⟩]
    let union := (empty.union [TypeId.string, TypeId.number]).2
    let t := ((union.intern (lookUp 100)).2.intern (object 101)).2
    let literal := (empty.intern (.literal (.string "x"))).2
    let union' := (literal.union [TypeId.string, TypeId.number]).2
    let t' := ((union'.intern (lookUp 101)).2.intern (object 102)).2
    t.typeText 2 102 = "\x7b readonly get(key?: string): string | number; \x7d" ∧
      t.tree 102 = t'.tree 103 := by
  intro lookUp object union t literal union' t'
  have hunion : union.Built := .union .empty (by decide +kernel)
  have ht : t.Built :=
    .intern (.intern hunion nofun nofun (by decide +kernel)) nofun nofun (by decide +kernel)
  have hliteral : literal.Built := .intern .empty nofun nofun nofun
  have hunion' : union'.Built := .union hliteral (by decide +kernel)
  have ht' : t'.Built :=
    .intern (.intern hunion' nofun nofun (by decide +kernel)) nofun nofun (by decide +kernel)
  have hwithin : t.Within 2 102 := by decide +kernel
  have hwithin' : t'.Within 3 103 := by decide +kernel
  refine ⟨by decide +kernel, typeText_injective ht ht' ?_ ?_ ?_ ?_ hwithin hwithin' ?_⟩
  all_goals decide +kernel

end Interner

end TypeReify.Types
