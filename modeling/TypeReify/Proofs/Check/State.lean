import TypeReify.Check.Resolve
import TypeReify.Proofs.Check.Sources
import TypeReify.Proofs.Types.Interner

/-!
# Consistent states

What the tables of the checker say is never taken back (`State.Grows`), and they agree with each
other and with the files (`State.Consistent`): types mention known types only, a declaration site
says of its node what the arena says, and a named type is either worked out, once, or in progress.

Nothing of this is checked in the source: that the keys of `interface_shapes` are interfaces and
those of `alias_targets` aliases, that `declarations` lists what `decl_ids` numbers, and that every
named type is in one of the tables or in `in_progress`.

Results:
* `grows_intern`, `grows_union`, `grows_widen`, `grows_declare`: the basic actions only add.
* `Consistent.intern` and its like: they keep a state consistent.
* `Consistent.opened`, `Consistent.completed`: a named type is entered, and later it is worked out.
-/

namespace TypeReify.Check

open Syntax Scope
open TypeReify.Types

/-! ## What the tables say -/

/-- A declaration site as it is read off the arena: the kind and the name that belong to a node. -/
def Module.Declares (m : Module) (kind : DeclarationKind) (name : Option String)
    (node : NodeId) : Prop :=
  match m.file.arena.content? (some node) with
  | some (_, .function n _ _ _ _) => kind = .function ∧ name = m.file.arena.identifierText? n
  | some (h, .signature n _ _ _) =>
    (kind = if h.kind == .form .methodSignature then .methodSignature else .propertySignature) ∧
      name = m.file.arena.nameText? n
  | some (_, .interface n _ _ _) => kind = .interface ∧ name = m.file.arena.identifierText? n
  | some (_, .typeAlias n _ _) => kind = .typeAlias ∧ name = m.file.arena.identifierText? n
  | _ => False

/-- The site says of its node what the arena of its module says. -/
def Site.Fits (sources : Sources) (site : Site) : Prop :=
  ∃ m ∈ sources.modules, m.key = site.module ∧ m.file.fileName = site.declaration.fileName ∧
    m.Declares site.declaration.kind site.declaration.name site.declaration.node

/-- What a named type has come to is of the right kind, and mentions known types. -/
def Named.Fits (t : Interner) (id : TypeId) : Named → Prop
  | .members shape =>
    (∃ name declaration arguments, t.get? id = some (.interface name declaration arguments)) ∧
      ∀ p ∈ shape, t.Known p.type
  | .target aim =>
    (∃ name declaration arguments, t.get? id = some (.synonym name declaration arguments)) ∧
      t.Known aim

/-- The named types that are worked out. -/
def NamedTypes.ids (named : NamedTypes) : List TypeId := named.map (·.1)

namespace State

/-- The id stands for a type. -/
def Knows (st : State) (id : TypeId) : Prop := st.interner.Known id

/-- What the state says is never taken back. -/
structure Grows (st st' : State) : Prop where
  interner : st.interner.Grows st'.interner
  sites : ∀ (d : Nat) (site : Site), st.sites[d]? = some site → st'.sites[d]? = some site
  named : st.named <:+ st'.named
  warnings : st.warnings <:+ st'.warnings

instance : IsPreorder State Grows where
  refl _ := ⟨refl _, fun _ _ h => h, List.suffix_refl _, List.suffix_refl _⟩
  trans _ _ _ h h' := ⟨trans_of Interner.Grows h.interner h'.interner,
    fun d site hd => h'.sites d site (h.sites d site hd), h.named.trans h'.named,
    h.warnings.trans h'.warnings⟩

/-- The tables agree with each other and with the files. -/
structure Consistent (sources : Sources) (st : State) : Prop where
  closed : st.interner.Closed
  sites : ∀ (d : Nat) (site : Site), st.sites[d]? = some site → site.Fits sources
  /-- No type is worked out twice. -/
  distinct : st.named.ids.Nodup
  /-- What is in progress is not worked out yet. -/
  fresh : ∀ id ∈ st.inProgress, id ∉ st.named.ids
  named : ∀ x ∈ st.named, x.2.Fits st.interner x.1
  /-- Every named type is worked out or in progress. -/
  covered : ∀ id s, st.interner.get? id = some s → s.IsNamed →
    id ∈ st.named.ids ∨ id ∈ st.inProgress

/-- The state with a named type in progress. -/
def opened (st : State) (id : TypeId) : State := { st with inProgress := id :: st.inProgress }

/-- The state with a named type worked out. -/
def completed (st : State) (id : TypeId) (x : Named) : State :=
  { st with named := (id, x) :: st.named, inProgress := st.inProgress.erase id }

end State

/-- Asked in some consistent state, out of which the state has grown, the action answered `x`. -/
def Answered {α : Type} (sources : Sources) (st : State) (act : Checking α) (x : α) : Prop :=
  ∃ asked : State, asked.Consistent sources ∧ (act asked).1 = x ∧ (act asked).2.Grows st

/-- What has been answered stays answered. -/
theorem Answered.mono {α : Type} {sources : Sources} {st st' : State} {act : Checking α} {x : α}
    (h : Answered sources st act x) (hst : st.Grows st') : Answered sources st' act x := by
  obtain ⟨asked, hasked, hx, hgrows⟩ := h
  exact ⟨asked, hasked, hx, trans_of State.Grows hgrows hst⟩

/-- Where no warning is in the end, none was before. -/
theorem State.Grows.warnings_nil {st st' : State} (h : st.Grows st') (hw : st'.warnings = []) :
    st.warnings = [] :=
  List.suffix_nil.1 (hw ▸ h.warnings)

theorem State.Grows.size_le {st st' : State} (h : st.Grows st') :
    st.sites.size ≤ st'.sites.size := by
  by_contra hlt
  have hsite := h.sites _ _ (Array.getElem?_eq_getElem (Nat.lt_of_not_le hlt))
  obtain ⟨hself, -⟩ := Array.getElem?_eq_some_iff.1 hsite
  exact Nat.lt_irrefl _ hself

/-- A keyword stands for a keyword type. -/
theorem keywordType_lt (k : Token) : keywordType k < intrinsicNames.length := by
  unfold keywordType
  cases hid : k.text?.bind intrinsic? with
  | none => exact show TypeId.any < intrinsicNames.length by decide
  | some id =>
    obtain ⟨name, -, hname⟩ := Option.bind_eq_some_iff.1 hid
    exact (List.idxOf?_eq_some_iff.1 hname).1

theorem grows_opened (st : State) (id : TypeId) : st.Grows (st.opened id) :=
  ⟨refl _, fun _ _ h => h, List.suffix_refl _, List.suffix_refl _⟩

theorem grows_completed (st : State) (id : TypeId) (x : Named) : st.Grows (st.completed id x) :=
  ⟨refl _, fun _ _ h => h, List.suffix_cons _ _, List.suffix_refl _⟩

theorem Named.Fits.mono {t t' : Interner} {id : TypeId} {x : Named} (h : x.Fits t id)
    (hg : t.Grows t') : x.Fits t' id := by
  cases x with
  | members shape =>
    obtain ⟨⟨name, declaration, arguments, hid⟩, hshape⟩ := h
    exact ⟨⟨name, declaration, arguments, hg.get?_of_some hid⟩, fun p hp => (hshape p hp).mono hg⟩
  | target target =>
    obtain ⟨⟨name, declaration, arguments, hid⟩, htarget⟩ := h
    exact ⟨⟨name, declaration, arguments, hg.get?_of_some hid⟩, htarget.mono hg⟩

/-- A node declares one thing, under one name. -/
theorem Module.Declares.unique {m : Module} {kind kind' : DeclarationKind}
    {name name' : Option String} {node : NodeId} (h : m.Declares kind name node)
    (h' : m.Declares kind' name' node) : kind = kind' ∧ name = name' := by
  unfold Module.Declares at h h'
  split at h
  · simp_all
  · simp_all
  · simp_all
  · simp_all
  · exact absurd h id

/-! ## Looking up named types -/

namespace NamedTypes

variable {named named' : NamedTypes} {id : Nat}

theorem mem_of_lookup {x : Named} (h : named.lookup id = some x) : (id, x) ∈ named := by
  obtain ⟨before, after, hsplit, -⟩ := List.lookup_eq_some_iff.1 h
  exact hsplit ▸ List.mem_append_right before List.mem_cons_self

/-- No type has two entries, so any entry is what the search finds. -/
theorem lookup_of_mem (hd : named.ids.Nodup) {x : Named} (h : (id, x) ∈ named) :
    named.lookup id = some x := by
  induction named with
  | nil => exact absurd h List.not_mem_nil
  | cons y ys ih =>
    obtain ⟨hy, hd⟩ := List.nodup_cons.1 hd
    rcases List.mem_cons.1 h with rfl | h
    · rw [List.lookup_cons, beq_self_eq_true]
    · have hne : id ≠ y.1 := by
        rintro rfl
        exact hy (List.mem_map.2 ⟨_, h, rfl⟩)
      rw [List.lookup_cons, beq_false_of_ne hne]
      exact ih hd h

section Read

variable {α : Type} {read : Named → Option α}

/-- What is read of a named type is read of an entry. -/
theorem mem_of_read {y : α} (h : (named.lookup id).bind read = some y) :
    ∃ x, (id, x) ∈ named ∧ read x = some y := by
  obtain ⟨x, hx, hread⟩ := Option.bind_eq_some_iff.1 h
  exact ⟨x, mem_of_lookup hx, hread⟩

theorem read_of_mem (hd : named.ids.Nodup) {x : Named} (h : (id, x) ∈ named) :
    (named.lookup id).bind read = read x := by
  rw [lookup_of_mem hd h, Option.bind_some]

end Read

theorem mem_of_shape? {shape : Shape} (h : named.shape? id = some shape) :
    (id, .members shape) ∈ named := by
  obtain ⟨x, hx, hread⟩ := mem_of_read h
  cases x with
  | members _ => exact Option.some.inj hread ▸ hx
  | target _ => exact absurd hread nofun

theorem mem_of_target? {target : TypeId} (h : named.target? id = some target) :
    (id, .target target) ∈ named := by
  obtain ⟨x, hx, hread⟩ := mem_of_read h
  cases x with
  | members _ => exact absurd hread nofun
  | target _ => exact Option.some.inj hread ▸ hx

theorem mem_ids {x : Named} (h : (id, x) ∈ named) : id ∈ named.ids := List.mem_map_of_mem h

theorem exists_of_mem_ids (h : id ∈ named.ids) : ∃ x, (id, x) ∈ named := by
  obtain ⟨⟨id', x⟩, hx, rfl⟩ := List.mem_map.1 h
  exact ⟨x, hx⟩

end NamedTypes

/-! ## What a consistent state knows -/

section Looked

variable {t : Interner} {named : NamedTypes} (hd : named.ids.Nodup)
  (hfits : ∀ x ∈ named, x.2.Fits t x.1) {id : Nat} {name : String} {declaration : DeclId}
  {arguments : List TypeId}
include hd hfits

/-- A reading of all entries that fit a type finds something once the type is worked out. -/
theorem isSome_read_iff {α : Type} {read : Named → Option α}
    (hread : ∀ x : Named, x.Fits t id → (read x).isSome = true) :
    ((named.lookup id).bind read).isSome = true ↔ id ∈ named.ids := by
  refine ⟨fun h => ?_, fun hmem => ?_⟩
  · obtain ⟨y, hy⟩ := Option.isSome_iff_exists.1 h
    obtain ⟨x, hx, -⟩ := NamedTypes.mem_of_read hy
    exact NamedTypes.mem_ids hx
  · obtain ⟨x, hx⟩ := NamedTypes.exists_of_mem_ids hmem
    rw [NamedTypes.read_of_mem hd hx]
    exact hread x (hfits _ hx)

/-- The members of an interface can be looked up once it is worked out. -/
theorem isSome_shape?_iff (hid : t.get? id = some (.interface name declaration arguments)) :
    (named.shape? id).isSome = true ↔ id ∈ named.ids :=
  isSome_read_iff hd hfits fun x hx => by
    cases x with
    | members _ => rfl
    | target _ =>
      obtain ⟨⟨_, _, _, hid'⟩, -⟩ := hx
      exact absurd (hid.symm.trans hid') nofun

/-- So can what an alias stands for. -/
theorem isSome_target?_iff (hid : t.get? id = some (.synonym name declaration arguments)) :
    (named.target? id).isSome = true ↔ id ∈ named.ids :=
  isSome_read_iff hd hfits fun x hx => by
    cases x with
    | members _ =>
      obtain ⟨⟨_, _, _, hid'⟩, -⟩ := hx
      exact absurd (hid.symm.trans hid') nofun
    | target _ => rfl

end Looked

/-- Whatever is true of object types and of the members of interfaces is true of the properties of
every type. -/
theorem forall_propertiesOf {t : Interner} {named : NamedTypes} {P : Shape → Prop} (hnil : P [])
    (hobjects : ∀ id shape, t.get? id = some (.object shape) → P shape)
    (hmembers : ∀ id shape, named.shape? id = some shape → P shape) (levels : Nat) (id : TypeId) :
    P (propertiesOf t named levels id) := by
  induction levels generalizing id with
  | zero => exact hnil
  | succ levels ih =>
    unfold propertiesOf
    split
    · rename_i shape hid
      exact hobjects id shape hid
    · cases hshape : named.shape? id with
      | none => exact hnil
      | some shape => exact hmembers id shape hshape
    · split
      · exact ih _
      · exact hnil
    · exact hnil

namespace State.Consistent

variable {sources : Sources} {st : State} (h : st.Consistent sources)
include h

theorem knows_of_target? {id target : TypeId} (ht : st.named.target? id = some target) :
    st.Knows target :=
  (h.named _ (NamedTypes.mem_of_target? ht)).2

/-- The properties of a type have known types. -/
theorem knows_propertiesOf (levels : Nat) (id : TypeId) :
    ∀ p ∈ Check.propertiesOf st.interner st.named levels id, st.Knows p.type :=
  forall_propertiesOf (P := fun shape => ∀ p ∈ shape, st.Knows p.type)
    (fun _ hp => absurd hp List.not_mem_nil)
    (fun id _ hid p hp => (h.closed id _ hid p.type (List.mem_map_of_mem hp)).2)
    (fun _ _ hshape => (h.named _ (NamedTypes.mem_of_shape? hshape)).2) levels id

omit h in
/-- The keys of a type are known types. -/
theorem knows_literalKeys (levels : Nat) (found : List (String × TypeId)) (id : TypeId)
    (hfound : ∀ k ∈ found, st.Knows k.2) :
    ∀ k ∈ Check.literalKeys st.interner st.named levels found id, st.Knows k.2 := by
  induction levels generalizing found id with
  | zero => exact hfound
  | succ levels ih =>
    have hadd (text : String) {s : Structure} (hid : st.interner.get? id = some s) :
        ∀ k ∈ (if found.any (·.1 == text) then found else found ++ [(text, id)]), st.Knows k.2 := by
      split
      · exact hfound
      · intro k hk
        rcases List.mem_append.1 hk with hk | hk
        · exact hfound k hk
        · exact List.mem_singleton.1 hk ▸ .of_get? hid
    have hfold (members : List TypeId) : ∀ found : List (String × TypeId),
        (∀ k ∈ found, st.Knows k.2) → ∀ k ∈ members.foldl
          (Check.literalKeys st.interner st.named levels) found, st.Knows k.2 := by
      induction members with
      | nil => exact fun _ hfound => hfound
      | cons x xs ihx => exact fun found hfound => ihx _ (ih found x hfound)
    unfold Check.literalKeys
    split
    · rename_i text hid
      exact hadd text hid
    · rename_i text hid
      exact hadd text hid
    · exact hfold _ found hfound
    · split
      · exact ih found _ hfound
      · exact hfound
    · exact hfound

end State.Consistent

/-! ## Basic actions -/

section Actions

variable {sources : Sources} (st : State)

theorem grows_intern (s : Structure) : st.Grows (intern s st).2 :=
  ⟨st.interner.grows_intern s, fun _ _ h => h, List.suffix_refl _, List.suffix_refl _⟩

theorem grows_union (ids : List TypeId) : st.Grows (union ids st).2 :=
  ⟨st.interner.grows_union ids, fun _ _ h => h, List.suffix_refl _, List.suffix_refl _⟩

theorem grows_warn (w : Warning) : st.Grows (warn w st).2 :=
  ⟨refl _, fun _ _ h => h, List.suffix_refl _, List.suffix_cons w _⟩

theorem knows_intern (s : Structure) : (intern s st).2.Knows (intern s st).1 :=
  st.interner.known_intern s

/-- A structure of known types that names none may be interned. -/
theorem State.Consistent.intern {st : State} (h : st.Consistent sources) {s : Structure}
    (hs : ¬s.IsNamed) (hm : ∀ x ∈ s.mentions, st.Knows x) :
    (Check.intern s st).2.Consistent sources := by
  refine ⟨Interner.closed_intern h.closed hm, h.sites, h.distinct, h.fresh, fun x hx => ?_, ?_⟩
  · exact (h.named x hx).mono (st.interner.grows_intern s)
  · intro id s' hid hs'
    rcases Interner.get?_intern_cases hid with hold | ⟨rfl, -⟩
    · exact h.covered id s' hold hs'
    · exact absurd hs' hs

/-- The structure of a named type can be read back once it is entered. -/
theorem interned_named {st u : State} {s : Structure} {id : TypeId} (hs : s.IsNamed)
    (hrun : Check.intern s st = (id, u)) : st.Grows u ∧ u.interner.get? id = some s := by
  obtain rfl : (Check.intern s st).1 = id := by rw [hrun]
  obtain rfl : (Check.intern s st).2 = u := by rw [hrun]
  refine ⟨grows_intern st s, Interner.get?_intern fun name heq => ?_⟩
  subst heq
  exact hs

/-- Unions are formed of known types. -/
theorem State.Consistent.union {st : State} (h : st.Consistent sources) {ids : List TypeId}
    (hids : ∀ id ∈ ids, st.Knows id) : (Check.union ids st).2.Consistent sources := by
  refine ⟨Interner.closed_union h.closed hids, h.sites, h.distinct, h.fresh, fun x hx => ?_, ?_⟩
  · exact (h.named x hx).mono (st.interner.grows_union ids)
  · intro id s' hid hs'
    rcases Interner.get?_union_cases hid with hold | rfl
    · exact h.covered id s' hold hs'
    · exact absurd hs' not_false

theorem State.Consistent.warn {st : State} (h : st.Consistent sources) (w : Warning) :
    (Check.warn w st).2.Consistent sources :=
  ⟨h.closed, h.sites, h.distinct, h.fresh, h.named, h.covered⟩

/-- What is done to record the type of an optional property. -/
theorem widen_run (id : TypeId) :
    widen id st = (if st.widened.contains id = true then pure () else do
    let wide ← union [id, TypeId.undefined]
    modify fun st => { st with widened := st.widened.insert id wide } : Checking Unit) st := rfl

/-- Recording the type of an optional property is interning a union, or nothing. -/
theorem widen_cases (id : TypeId) : (widen id st).2 = st ∨
    ∃ widened, (widen id st).2 = { (union [id, TypeId.undefined] st).2 with widened } := by
  rw [widen_run]
  split
  · exact .inl rfl
  · exact .inr ⟨_, rfl⟩

theorem grows_widen (id : TypeId) : st.Grows (widen id st).2 := by
  rcases widen_cases st id with h | ⟨widened, h⟩
  · rw [h]
    exact refl st
  · have hg := grows_union st [id, TypeId.undefined]
    rw [h]
    exact ⟨hg.interner, hg.sites, hg.named, hg.warnings⟩

theorem inProgress_widen (id : TypeId) : (widen id st).2.inProgress = st.inProgress := by
  rcases widen_cases st id with h | ⟨widened, h⟩
  · rw [h]
  · rw [h]
    rfl

theorem State.knows_pair {st : State} {id : TypeId} (h : st.Knows id) :
    ∀ x ∈ [id, TypeId.undefined], st.Knows x := by
  intro x hx
  rcases List.mem_pair.1 hx with rfl | rfl
  · exact h
  · exact st.interner.known_of_lt (show TypeId.undefined < intrinsicNames.length by decide)

theorem State.Consistent.widen {st : State} (h : st.Consistent sources) {id : TypeId}
    (hid : st.Knows id) : (Check.widen id st).2.Consistent sources := by
  rcases widen_cases st id with hrun | ⟨widened, hrun⟩
  · rw [hrun]
    exact h
  · have hu := h.union (State.knows_pair hid)
    rw [hrun]
    exact ⟨hu.closed, hu.sites, hu.distinct, hu.fresh, hu.named, hu.covered⟩

/-! ## Declarations -/

/-- The position of the site that a node has already. -/
def State.site? (st : State) (key : String) (node : NodeId) : Option DeclId :=
  st.sites.findIdx? fun s => s.module == key && s.declaration.node == node

section Declare

variable (m : Module) (kind : DeclarationKind) (name : Option String) (node : NodeId)

/-- A node that has been declared keeps its number, -/
theorem declare_of_site? {d : DeclId} (h : st.site? m.key node = some d) :
    m.declare kind name node st = (d, st) :=
  declare_of_known h m.file.fileName kind name

/-- and one that has not gets the next. -/
theorem declare_of_new (h : st.site? m.key node = none) :
    m.declare kind name node st = (st.sites.size,
      { st with sites := st.sites.push ⟨m.key, ⟨kind, name, m.file.fileName, node⟩⟩ }) := by
  unfold State.site? at h
  simp only [Module.declare, declare, modifyGet, MonadStateOf.modifyGet, StateT.modifyGet, h, pure]

theorem grows_declare : st.Grows (m.declare kind name node st).2 := by
  cases h : st.site? m.key node with
  | some d =>
    rw [declare_of_site? st m kind name node h]
    exact refl st
  | none =>
    rw [declare_of_new st m kind name node h]
    refine ⟨refl _, fun d site hd => ?_, List.suffix_refl _, List.suffix_refl _⟩
    obtain ⟨hlt, -⟩ := Array.getElem?_eq_some_iff.1 hd
    exact (Array.getElem?_push_lt hlt).trans ((Array.getElem?_eq_getElem hlt).symm.trans hd)

theorem inProgress_declare : (m.declare kind name node st).2.inProgress = st.inProgress := by
  cases h : st.site? m.key node with
  | some d => rw [declare_of_site? st m kind name node h]
  | none => rw [declare_of_new st m kind name node h]

theorem interner_declare : (m.declare kind name node st).2.interner = st.interner := by
  cases h : st.site? m.key node with
  | some d => rw [declare_of_site? st m kind name node h]
  | none => rw [declare_of_new st m kind name node h]

theorem named_declare : (m.declare kind name node st).2.named = st.named := by
  cases h : st.site? m.key node with
  | some d => rw [declare_of_site? st m kind name node h]
  | none => rw [declare_of_new st m kind name node h]

end Declare

/-- A declaration is entered with what its node declares. -/
theorem State.Consistent.declare {st : State} (h : st.Consistent sources) {m : Module}
    (hm : m ∈ sources.modules) {kind : DeclarationKind} {name : Option String} {node : NodeId}
    (hdeclares : m.Declares kind name node) :
    (m.declare kind name node st).2.Consistent sources := by
  cases hsite : st.site? m.key node with
  | some d =>
    rw [declare_of_site? st m kind name node hsite]
    exact h
  | none =>
    rw [declare_of_new st m kind name node hsite]
    refine ⟨h.closed, fun d site hd => ?_, h.distinct, h.fresh, h.named, h.covered⟩
    rw [Array.getElem?_push] at hd
    split at hd
    · exact Option.some.inj hd ▸ ⟨m, hm, rfl, rfl, hdeclares⟩
    · exact h.sites d site hd

/-- Declaring a node answers the one site it has. -/
theorem site_declare {st : State} (hkeys : (sources.modules.map (·.key)).Nodup) {m : Module}
    (hm : m ∈ sources.modules) {kind : DeclarationKind} {name : Option String} {node : NodeId}
    (hdeclares : m.Declares kind name node) (hst : st.Consistent sources) :
    (m.declare kind name node st).2.sites[(m.declare kind name node st).1]? =
      some ⟨m.key, ⟨kind, name, m.file.fileName, node⟩⟩ := by
  cases h : st.site? m.key node with
  | none =>
    rw [declare_of_new st m kind name node h]
    exact Array.getElem?_push_size
  | some d =>
    rw [declare_of_site? st m kind name node h]
    obtain ⟨hlt, hsite, -⟩ := Array.findIdx?_eq_some_iff_getElem.1 h
    obtain ⟨hkey, hnode⟩ := Bool.and_eq_true_iff.1 hsite
    have hd : st.sites[d]? = some st.sites[d] := Array.getElem?_eq_getElem hlt
    obtain ⟨m', hm', hkey', hfile, hdeclares'⟩ := hst.sites d _ hd
    obtain rfl : m' = m := List.inj_on_of_nodup_map hkeys hm' hm (hkey'.trans (beq_iff_eq.1 hkey))
    rw [beq_iff_eq.1 hnode] at hdeclares'
    obtain ⟨hkind, hname⟩ := hdeclares.unique hdeclares'
    rcases hsite : st.sites[d] with ⟨key, kind', name', file, node'⟩
    rw [hsite] at hkey hnode hfile hkind hname
    rw [hd, hsite, ← beq_iff_eq.1 hkey, ← beq_iff_eq.1 hnode, hkind, hname, hfile]

end Actions

/-- The empty tables are consistent. -/
theorem consistent_empty (sources : Sources) : State.empty.Consistent sources := by
  refine ⟨fun id s h => ?_, fun d site hd => ?_, List.nodup_nil, fun id hid => ?_, fun x hx => ?_,
    fun id s h => ?_⟩
  · exact absurd h (by simp [State.empty, Interner.empty, Interner.get?])
  · exact absurd hd (by simp [State.empty])
  · exact absurd hid List.not_mem_nil
  · exact absurd hx List.not_mem_nil
  · exact absurd h (by simp [State.empty, Interner.empty, Interner.get?])

/-! ## Named types -/

section Named

variable {sources : Sources} {st u : State} (h : st.Consistent sources) {s : Structure}
  {id : TypeId} (hrun : Check.intern s st = (id, u)) (hm : ∀ x ∈ s.mentions, st.Knows x)
include h hrun hm

omit hm in
theorem State.Consistent.interned_fits :
    u.named.ids.Nodup ∧ ∀ x ∈ u.named, x.2.Fits u.interner x.1 := by
  obtain rfl : (Check.intern s st).2 = u := by rw [hrun]
  exact ⟨h.distinct, fun x hx => (h.named x hx).mono (st.interner.grows_intern s)⟩

/-- A named type that is entered already leaves the state consistent. -/
theorem State.Consistent.entered (hid : id ∈ u.named.ids ∨ id ∈ u.inProgress) :
    u.Consistent sources := by
  obtain rfl : (Check.intern s st).1 = id := by rw [hrun]
  obtain rfl : (Check.intern s st).2 = u := by rw [hrun]
  refine ⟨Interner.closed_intern h.closed hm, h.sites, h.distinct, h.fresh, fun x hx => ?_, ?_⟩
  · exact (h.named x hx).mono (st.interner.grows_intern s)
  · intro id s' hget hs'
    rcases Interner.get?_intern_cases hget with hold | ⟨rfl, -, rfl⟩
    · exact h.covered id s' hold hs'
    · exact hid

/-- A new named type counts as in progress. -/
theorem State.Consistent.opened (hnew : id ∉ u.named.ids) : (u.opened id).Consistent sources := by
  obtain rfl : (Check.intern s st).1 = id := by rw [hrun]
  obtain rfl : (Check.intern s st).2 = u := by rw [hrun]
  refine ⟨Interner.closed_intern h.closed hm, h.sites, h.distinct, fun id hprogress => ?_,
    fun x hx => ?_, ?_⟩
  · rcases List.mem_cons.1 hprogress with rfl | hprogress
    · exact hnew
    · exact h.fresh id hprogress
  · exact (h.named x hx).mono (st.interner.grows_intern s)
  · intro id s' hget hs'
    rcases Interner.get?_intern_cases hget with hold | ⟨rfl, -, rfl⟩
    · exact (h.covered id s' hold hs').imp_right (List.mem_cons_of_mem _)
    · exact .inr List.mem_cons_self

end Named

/-- A named type that was in progress is worked out. -/
theorem State.Consistent.completed {sources : Sources} {st : State} (h : st.Consistent sources)
    {id : Nat} {others : List TypeId} (hprogress : st.inProgress = id :: others) (hid : id ∉ others)
    {x : Named} (hx : x.Fits st.interner id) : (st.completed id x).Consistent sources := by
  have hothers : (st.completed id x).inProgress = others := by
    show st.inProgress.erase id = others
    rw [hprogress, List.erase_cons_head]
  have hnew : id ∉ st.named.ids := h.fresh id (hprogress ▸ List.mem_cons_self)
  refine ⟨h.closed, h.sites, List.nodup_cons.2 ⟨hnew, h.distinct⟩, fun other hother => ?_, ?_, ?_⟩
  · rw [hothers] at hother
    intro hmem
    rcases List.mem_cons.1 hmem with rfl | hmem
    · exact hid hother
    · exact h.fresh other (hprogress ▸ List.mem_cons_of_mem id hother) hmem
  · exact List.forall_mem_cons.2 ⟨hx, h.named⟩
  · intro other s hget hs
    rw [hothers]
    rcases h.covered other s hget hs with hmem | hmem
    · exact .inl (List.mem_cons_of_mem id hmem)
    · rw [hprogress] at hmem
      rcases List.mem_cons.1 hmem with rfl | hmem
      · exact .inl List.mem_cons_self
      · exact .inr hmem

end TypeReify.Check
