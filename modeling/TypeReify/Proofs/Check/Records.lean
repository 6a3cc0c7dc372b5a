import TypeReify.Proofs.Check.Members
import TypeReify.Proofs.Check.Repeat
import TypeReify.Syntax.Draft

/-!
# `Record` and mapped types

`Record<C, V>` works `V` out once, and the mapped type that binds a name to the keys in `C` does so
once for each key, with the name bound. If nothing in `V` has that name, all of this comes to the
same type, and so the two object types are one.

Two arms of the source are compared: `builtin_reference` for `Record`, and `resolve_mapped`, which
asks `resolve_type` for the template once for every key.

Results:
* `names_literalKeys`: a type denotes the texts of its literals, each once.
* `resolveType_mapped`: a mapped type is the `Record` of its keys if its name is not mentioned.

Out of scope: templates that mention the name, where the two are meant to differ.
-/

namespace TypeReify.Check

open Syntax Scope
open TypeReify.Types

/-! ## Keys -/

/-- The texts of the literals that a type is made of, in order, through unions and what aliases
stand for. Other types have none, and neither has what lies deeper. -/
def literalTexts (t : Interner) (named : NamedTypes) : (levels : Nat) → TypeId → List String
  | 0, _ => []
  | levels + 1, id =>
    match t.get? id with
    | some (.literal (.string text)) | some (.literal (.number text)) => [text]
    | some (.union members) => members.flatMap (literalTexts t named levels)
    | some (.synonym ..) =>
      match named.target? id with
      | some target => literalTexts t named levels target
      | none => []
    | _ => []

def State.literalTexts (st : State) (id : TypeId) : List String :=
  Check.literalTexts st.interner st.named typeDepth id

/-- A name is found among those before it, or comes behind them. -/
theorem names_add {found : List (String × TypeId)} {texts : List String}
    (h : found.map (·.1) = texts.eraseDups) (text : String) (id : TypeId) :
    (if found.any (·.1 == text) then found else found ++ [(text, id)]).map (·.1) =
      (texts ++ [text]).eraseDups := by
  have hany : found.any (·.1 == text) = true ↔ text ∈ texts := by
    rw [← List.mem_eraseDups, ← h, List.mem_map, List.any_eq_true]
    constructor
    · rintro ⟨k, hk, heq⟩
      exact ⟨k, hk, beq_iff_eq.1 heq⟩
    · rintro ⟨k, hk, rfl⟩
      exact ⟨k, hk, beq_self_eq_true _⟩
  by_cases hmem : text ∈ texts
  · rw [if_pos (hany.2 hmem), h, eraseDups_append_of_mem hmem]
  · rw [if_neg (mt hany.1 hmem), List.map_append, h, eraseDups_append_of_not_mem hmem]
    rfl

/-- **The keys of a type** are the texts of its literals, each at its first place. -/
theorem names_literalKeys (t : Interner) (named : NamedTypes) (levels : Nat) {texts : List String}
    {found : List (String × TypeId)} (h : found.map (·.1) = texts.eraseDups) (id : TypeId) :
    (literalKeys t named levels found id).map (·.1) =
      (texts ++ literalTexts t named levels id).eraseDups := by
  induction levels generalizing texts found id with
  | zero => simpa [literalKeys, literalTexts] using h
  | succ levels ih =>
    have hunion (members : List TypeId) : ∀ (texts : List String) (found : List (String × TypeId)),
        found.map (·.1) = texts.eraseDups →
        (members.foldl (literalKeys t named levels) found).map (·.1) =
          (texts ++ members.flatMap (literalTexts t named levels)).eraseDups := by
      induction members with
      | nil =>
        intro texts found h
        simpa using h
      | cons x xs ihx =>
        intro texts found h
        rw [List.foldl_cons, ihx _ _ (ih h x), List.flatMap_cons, List.append_assoc]
    have hskip : found.map (·.1) = (texts ++ []).eraseDups := by rw [List.append_nil, h]
    unfold literalKeys literalTexts
    cases t.get? id with
    | none => exact hskip
    | some s =>
      cases s with
      | literal value =>
        cases value with
        | string text => exact names_add h text id
        | number text => exact names_add h text id
        | boolean _ => exact hskip
      | union members => exact hunion members texts found h
      | synonym _ _ _ =>
        dsimp only
        cases named.target? id with
        | none => exact hskip
        | some target => exact ih h target
      | _ => exact hskip

theorem State.names_literalKeys (st : State) (id : TypeId) :
    (st.literalKeys id).map (·.1) = (st.literalTexts id).eraseDups :=
  have hnone : ([] : List (String × TypeId)).map (·.1) = ([] : List String).eraseDups := rfl
  Check.names_literalKeys st.interner st.named typeDepth hnone id

/-! ## The two object types -/

/-- Nothing of this name is bound or declared around the place, or only an import that leads
nowhere. -/
structure Surroundings.DenotesNothing (sources : Sources) (m : Module) (s : Surroundings)
    (name : String) : Prop where
  unbound : s.get? name = none
  undeclared : ∀ meaning, s.frames.lookup m.names.locals.types name = some meaning →
    ∃ module exported frames, meaning = .declared (.imported module exported) frames ∧
      sources.followType importHops m name (.imported module exported) = none

theorem declaredAs_of_denotesNothing {strict : Bool} {resolve : Resolve} {sources : Sources}
    {bases : BasesIn Checking} {m : Module} {s : Surroundings} {name : String}
    (h : s.DenotesNothing sources m name) (arguments : List TypeId) :
    declaredAs strict resolve sources bases m s name arguments = pure none := by
  unfold declaredAs
  cases hlookup : s.frames.lookup m.names.locals.types name with
  | none => rfl
  | some meaning =>
    obtain ⟨module, exported, frames, rfl, hfollow⟩ := h.undeclared meaning hlookup
    dsimp only [declaredType]
    rw [hfollow]

section Run

variable {strict : Bool} {sources : Sources} {resolve : Resolve} {bases : BasesIn Checking}
  {m : Module} {s : Surroundings} {st : State} {keys value : Ref}

/-- What a reference to the built-in `Record` does. -/
theorem referenceType_record {name : Ref}
    (hname : m.file.arena.identifierText? name = some "Record")
    (hnothing : s.DenotesNothing sources m "Record") :
    referenceType strict resolve sources bases m s name (some [keys, value]) = (do
      let keyType ← resolve m s keys
      let valueType ← resolve m s value
      intern (.object (recordShape ((← get).literalKeys keyType) valueType))) := by
  rw [referenceType_eq hname, hnothing.unbound]
  simp only [declaredAs_of_denotesNothing hnothing, Option.getD_some, List.mapM_cons, List.mapM_nil,
    bind_assoc, pure_bind, builtinType, map_bind, Functor.map_map, id_map']
  rfl

/-- What a mapped type does. -/
theorem mappedType_eq {parameter name fallback : Ref} {h : Header} {text : String}
    (hparameter : m.file.arena.content? parameter = some (h, .typeParameter name keys fallback))
    (hname : m.file.arena.identifierText? name = some text) :
    mappedType resolve m s parameter value = (do
      let keyType ← resolve m s keys
      let shape ← mappedShape resolve m s text value ((← get).literalKeys keyType)
      intern (.object shape)) := by
  unfold mappedType
  dsimp only
  rw [hparameter]
  dsimp only
  rw [hname]
  rfl

/-- Where the template comes to the same type for every key, so do the properties. -/
theorem mappedShape_again {text : String} {valueType : TypeId} {found : List (String × TypeId)}
    (h : ∀ k ∈ found, Again sources (resolve m (s.bind text k.2) value) st valueType) {t : State}
    (ht : Later sources st t) :
    (mappedShape resolve m s text value found t).1 = recordShape found valueType ∧
      Later sources t (mappedShape resolve m s text value found t).2 := by
  induction found generalizing t with
  | nil => exact ⟨rfl, refl t⟩
  | cons k rest ih =>
    obtain ⟨hfirst, hlater⟩ := h k List.mem_cons_self t ht
    obtain ⟨hrest, hend⟩ := ih (fun k' hk' => h k' (List.mem_cons_of_mem k hk'))
      (trans_of (Later sources) ht hlater)
    refine ⟨?_, trans_of (Later sources) hlater hend⟩
    show computedProperty k.1 (resolve m (s.bind text k.2) value t).1 :: _ = _
    rw [hfirst]
    exact congrArg (computedProperty k.1 valueType :: ·) hrest

end Run

section Answers

variable (strict : Bool) {sources : Sources} (hsources : sources.Proper) {levels : Nat}
  (hlevels : levels < typeDepth) (heritage : Nat) {m : Module} (hm : m ∈ sources.modules)
  {s : Surroundings} {st : State} (hst : st.Sound sources) (hs : s.Fits m.file st) {value : Ref}
include hsources hlevels hm hst hs

/-- A template that was worked out comes to the same type again with a name bound to a key, if the
name is not mentioned in it. -/
theorem template_again {text : String} (hvalue : ¬Mentions m.file.arena value text)
    {keyType : TypeId} (hkeyType : st.Knows keyType) :
    let answer := resolveType strict sources levels heritage m s value st
    ∀ k ∈ answer.2.literalKeys keyType,
      Again sources (resolveType strict sources levels heritage m (s.bind text k.2) value) answer.2
        answer.1 := by
  intro answer k hk
  have hrepeats : (resolveType strict sources levels heritage).Repeats sources :=
    resolveType_repeats hsources (Nat.le_of_lt hlevels) heritage
  have hlater : Later sources st answer.2 := (hrepeats m hm s s st hst value (.refl hs)).le
  rw [literalKeys_later hst hlater hkeyType] at hk
  have hkey : st.Knows k.2 := State.Consistent.knows_literalKeys typeDepth [] keyType
    (fun _ hk => absurd hk List.not_mem_nil) k hk
  refine (hrepeats m hm s (s.bind text k.2) st hst value
    ⟨hs, hs.bind text hkey, rfl, fun other hother => ?_⟩).post.2
  have hne : other ≠ text := fun heq => hvalue (heq ▸ hother)
  rw [Surroundings.get?_bind, if_neg hne]

end Answers

/-- What is entered already is answered, and nothing is entered. -/
theorem intern_of_sound {sources : Sources} {st : State} (hst : st.Sound sources) {id : TypeId}
    {s : Structure} (h : st.interner.lookup id = some s) : intern s st = (id, st) := by
  show ((st.interner.intern s).1, { st with interner := (st.interner.intern s).2 }) = _
  rw [Interner.intern_of_lookup hst.distinct.types h]

/-- **A mapped type is the `Record` of its keys**, if its template does not mention the name that it
binds to them. The type has one property for each text of a literal in the keys, in the order in
which the texts first occur. -/
theorem resolveType_mapped {strict : Bool} (files : List SourceFile) {m : Module}
    (hm : m ∈ (Sources.ofFiles files).modules) {levels : Nat} (hlevels : levels < typeDepth)
    (heritage : Nat) {st : State} (hst : st.Sound (Sources.ofFiles files)) {s : Surroundings}
    (hs : s.Fits m.file st) {record mapped keys value name parameter key fallback : Ref}
    {h h' h'' : Header} {text : String}
    (hrecord : m.file.arena.content? record = some (h, .typeReference name (some [keys, value])))
    (hname : m.file.arena.identifierText? name = some "Record")
    (hmapped : m.file.arena.content? mapped = some (h', .mappedType parameter value))
    (hparameter : m.file.arena.content? parameter = some (h'', .typeParameter key keys fallback))
    (hkey : m.file.arena.identifierText? key = some text)
    (hnothing : s.DenotesNothing (Sources.ofFiles files) m "Record")
    (hvalue : ¬Mentions m.file.arena value text) :
    let resolve := resolveType strict (Sources.ofFiles files)
    let keyType := resolve levels heritage m s keys st
    let valueType := resolve levels heritage m s value keyType.2
    let first := resolve (levels + 1) heritage m s record st
    let second := resolve (levels + 1) heritage m s mapped first.2
    second.1 = first.1 ∧ second.2.propertiesOf second.1 =
      (second.2.literalTexts keyType.1).eraseDups.map (computedProperty · valueType.1) := by
  intro resolve keyType valueType first second
  have hsources := Sources.proper_ofFiles files
  let sources := Sources.ofFiles files
  have hrepeats : (resolve levels heritage).Repeats sources :=
    resolveType_repeats hsources (Nat.le_of_lt hlevels) heritage
  let found := valueType.2.literalKeys keyType.1
  let object : Structure := .object (recordShape found valueType.1)
  -- For the reference, the keys and the template are worked out once.
  obtain ⟨hafterKeys, hknows, hkeys⟩ := hrepeats m hm s s st hst keys (.refl hs)
  have hsound : keyType.2.Sound sources := hafterKeys.sound hst
  have hfits := hs.mono hafterKeys.grows
  obtain ⟨hafterValue, hknows', -⟩ := hrepeats m hm s s keyType.2 hsound value (.refl hfits)
  have hsound' : valueType.2.Sound sources := hafterValue.sound hsound
  have hfirst : first = intern object valueType.2 := by
    show resolveType strict sources (levels + 1) heritage m s record st = _
    rw [resolveType_succ, nodeType_reference hrecord, referenceType_record hname hnothing]
    rfl
  have hafterFirst : Later sources valueType.2 first.2 := by
    rw [hfirst]
    refine later_intern not_false fun x hx => ?_
    obtain ⟨p, hp, rfl⟩ := List.mem_map.1 hx
    obtain ⟨k, -, rfl⟩ := List.mem_map.1 hp
    exact hknows'
  have hlookup : first.2.interner.lookup first.1 = some object := by
    rw [hfirst]
    exact Interner.lookup_intern _ _
  -- For the mapped type, both come to what they came to.
  obtain ⟨hsame, hafterAgain⟩ := hkeys first.2 (trans_of (Later sources) hafterValue hafterFirst)
  have hmiddle := trans_of (Later sources) hafterFirst hafterAgain
  have hknown : valueType.2.Knows keyType.1 := hknows.later hafterValue
  have hagain := template_again strict hsources hlevels heritage hm hsound hfits hvalue hknows
  obtain ⟨hshape, hafterShape⟩ := mappedShape_again hagain hmiddle
  have hsecond : second = (first.1, (mappedShape (resolve levels heritage) m s text value found
      (resolve levels heritage m s keys first.2).2).2) := by
    have hend := trans_of (Later sources) hmiddle hafterShape
    refine Eq.trans ?_ (intern_of_sound (hend.sound hsound') (s := object)
      ((trans_of (Later sources) hafterAgain hafterShape).grows.interner _ _ hlookup))
    show resolveType strict sources (levels + 1) heritage m s mapped first.2 = _
    rw [resolveType_succ, nodeType_mapped hmapped, mappedType_eq hparameter hkey]
    show (mappedShape (resolve levels heritage) m s text value
      ((resolve levels heritage m s keys first.2).2.literalKeys
        (resolve levels heritage m s keys first.2).1) >>= fun shape => intern (.object shape)) _ = _
    rw [hsame, literalKeys_later hsound' hmiddle hknown]
    show intern (.object (mappedShape (resolve levels heritage) m s text value _ _).1) _ = _
    rw [hshape]
  have hafterAll := trans_of (Later sources) hafterAgain hafterShape
  rw [hsecond]
  refine ⟨rfl, ?_⟩
  rw [← State.names_literalKeys, literalKeys_later hsound'
    (trans_of (Later sources) hafterFirst hafterAll) hknown, List.map_map]
  exact propertiesOf_object (Interner.get?_of_lookup
    (hafterAll.grows.interner _ _ hlookup) nofun) _ _

/-- `type A = "a" | 1;`, and then two variables of the types `Record<C, V>` and `{ [K in C]: V }`,
where `C` is `A | "b" | string | "a"` and `V` is `A[]`. -/
def recordFile : SourceFile :=
  let act : Drafting Unit := do
    let text ← Draft.build (Draft.stringType "a")
    let one ← Draft.build (do Build.literalType (← Build.numericLiteral "1"))
    let _ ← Draft.aliasNamed "A" (← Draft.build (Build.unionType [some text, some one]))
    let named ← Draft.build (Draft.typeNamed "A" [])
    let other ← Draft.build (Draft.stringType "b")
    let string ← Draft.build (Build.token .stringKeyword)
    let again ← Draft.build (Draft.stringType "a")
    let keys ← Draft.build (Build.unionType [some named, some other, some string, some again])
    let value ← Draft.build (Build.arrayType named)
    let record ← Draft.build (Draft.typeNamed "Record" [keys, value])
    let key ← Draft.build (Build.identifier "K")
    let parameter ← Draft.build (Build.typeParameter key keys none)
    let mapped ← Draft.build (Build.mappedType parameter value)
    for type in [record, mapped] do
      let name ← Draft.build (Build.identifier "x")
      let declaration ← Draft.build (Build.variableDeclaration name type none)
      let _ ← Draft.statement (Build.variableStatement [some declaration])
  (act .empty).2.finish "/app/main.ts"

/-- Below `A[]` stands no name but `A`. -/
theorem mentions_recordFile {name : String} (h : Mentions recordFile.arena (some 15) name) :
    name = "A" := by
  obtain ⟨root, hroot, n, hreach, hd, reference, arguments, hc, hname⟩ := h
  obtain rfl := Option.some.inj hroot
  have hn : n ∈ [15, 8, 7] := by
    clear hc
    induction hreach with
    | refl => exact List.mem_cons_self
    | tail _ hchild ih =>
      have hclosed : ∀ n ∈ [15, 8, 7], ∀ c ∈ recordFile.arena.childrenOf (some n),
        c ∈ [15, 8, 7] := by
        decide +kernel
      exact hclosed _ ih _ hchild
  have hall : ∀ n ∈ [15, 8, 7], ((recordFile.arena.content? (some n)).bind fun c =>
      match c.2 with
      | .typeReference reference _ => recordFile.arena.identifierText? reference
      | _ => none) ∈ [none, some "A"] := by decide +kernel
  have hfound := hall n hn
  rw [hc] at hfound
  dsimp only [Option.bind_some] at hfound
  rw [hname] at hfound
  simpa using hfound

theorem resolveType_mapped_recordFile :
    let m := Sources.moduleOf [recordFile] recordFile
    let resolve := resolveType false (Sources.ofFiles [recordFile])
    let keyType := resolve 63 32 m (.ofFrames []) (some 14) .empty
    let valueType := resolve 63 32 m (.ofFrames []) (some 15) keyType.2
    let first := resolve 64 32 m (.ofFrames []) (some 17) .empty
    let second := resolve 64 32 m (.ofFrames []) (some 20) first.2
    (second.2.literalTexts keyType.1).eraseDups = ["a", "1", "b"] ∧
      second.1 = first.1 ∧ second.2.propertiesOf second.1 =
        (second.2.literalTexts keyType.1).eraseDups.map (computedProperty · valueType.1) :=
  have hkeys : ([recordFile].map fileKey).Nodup := List.nodup_singleton _
  have hm : Sources.moduleOf [recordFile] recordFile ∈ (Sources.ofFiles [recordFile]).modules := by
    rw [Sources.modules_ofFiles hkeys]
    exact List.mem_cons_self
  let a := (Sources.moduleOf [recordFile] recordFile).file.arena
  have hrecord : a.content? (some 17) = some (.fresh (.form .typeReference) (some 1),
      .typeReference (some 16) (some [some 14, some 15])) := by decide +kernel
  have hmapped : a.content? (some 20) = some (.fresh (.form .mappedType) (some 0),
      .mappedType (some 19) (some 15)) := by decide +kernel
  have hparameter : a.content? (some 19) = some (.fresh (.form .typeParameter) (some 0),
      .typeParameter (some 18) (some 14) none) := by decide +kernel
  have hnothing : (Surroundings.ofFrames []).DenotesNothing (Sources.ofFiles [recordFile])
      (Sources.moduleOf [recordFile] recordFile) "Record" := by
    have hnone : (Frames.lookup (Sources.moduleOf
      [recordFile] recordFile).names.locals.types "Record"
        []).isNone = true := by decide +kernel
    refine ⟨rfl, fun meaning hmeaning => ?_⟩
    rw [show (Surroundings.ofFrames []).frames = [] from rfl,
      Option.isNone_iff_eq_none.1 hnone] at hmeaning
    exact absurd hmeaning nofun
  have hvalue : ¬Mentions recordFile.arena (some 15) "K" := fun h =>
    absurd (mentions_recordFile h) (by decide)
  ⟨by decide +kernel, resolveType_mapped [recordFile] hm (by decide) 32 (sound_empty _)
    (Surroundings.fits_ofFrames (Frames.fits_nil _) _) hrecord
    (by decide +kernel) hmapped hparameter
    (by decide +kernel) hnothing hvalue⟩

end TypeReify.Check
