import TypeReify.Proofs.Check.Again
import TypeReify.Proofs.Check.Callee

/-!
# Working out a type again

A node that was worked out comes to the same type whenever it is worked out later, in all
surroundings that bind the names in it alike. Named types are worked out at their first mention and
only looked up from then on, so what a reference to one answers is told by the tables; all other
nodes are worked out anew, from what their parts come to.

A named type is found again since `instantiate_interface` and `instantiate_alias` look into
`interface_shapes`, `alias_targets` and `in_progress` before they do anything.

Results:
* `interfaceType_repeats`, `aliasType_repeats`: a named type is found again.
* `resolveType_repeats`: working out a type may be repeated.
-/

namespace TypeReify.Check

open Syntax Scope
open TypeReify.Types

/-! ## Names below a node -/

/-- A type reference of this name stands in the tree below the node. -/
def Mentions (a : Arena) (r : Ref) (name : String) : Prop :=
  ∃ root ∈ r, ∃ n, Reaches a root n ∧ ∃ h reference arguments,
    a.content? (some n) = some (h, .typeReference reference arguments) ∧
      a.identifierText? reference = some name

/-- A name that is mentioned below a child is mentioned below the node. -/
theorem Mentions.of_child {a : Arena} {r c : Ref} {h : Header} {p : Payload Ref}
    (hr : a.content? r = some (h, p)) (hc : c ∈ p.children) {name : String}
    (hm : Mentions a c name) :
    Mentions a r name := by
  obtain ⟨k, rfl, n, hreach, hn⟩ := hm
  obtain _ | root := r
  · exact absurd hr nofun
  · have hk : k ∈ a.childrenOf (some root) := by
      rw [Arena.childrenOf, hr]
      exact List.mem_filterMap.2 ⟨some k, hc, rfl⟩
    exact ⟨root, rfl, n, .head hk hreach, hn⟩

/-- Both surroundings are surroundings of the module, and bind these names alike. -/
structure Surroundings.Agree (m : Module) (st : State) (names : String → Prop)
    (s s' : Surroundings) : Prop where
  left : s.Fits m.file st
  right : s'.Fits m.file st
  frames : s'.frames = s.frames
  get? : ∀ name, names name → s'.get? name = s.get? name

namespace Surroundings.Agree

variable {sources : Sources} {m : Module} {st : State} {names : String → Prop} {s s' : Surroundings}

theorem refl (h : s.Fits m.file st) : s.Agree m st names s := ⟨h, h, rfl, fun _ _ => rfl⟩

theorem later (h : s.Agree m st names s') {t : State} (ht : Later sources st t) :
    s.Agree m t names s' :=
  ⟨h.left.mono ht.grows, h.right.mono ht.grows, h.frames, h.get?⟩

theorem bind (h : s.Agree m st names s') (name : String) {id : TypeId} (hid : st.Knows id) :
    (s.bind name id).Agree m st names (s'.bind name id) := by
  refine ⟨h.left.bind name hid, h.right.bind name hid, h.frames, fun other hother => ?_⟩
  rw [get?_bind, get?_bind, h.get? other hother]

theorem child {r c : Ref} (h : s.Agree m st (Mentions m.file.arena r) s') {hd : Header}
    {p : Payload Ref} (hr : m.file.arena.content? r = some (hd, p)) (hc : c ∈ p.children) :
    s.Agree m st (Mentions m.file.arena c) s' :=
  ⟨h.left, h.right, h.frames, fun name hname => h.get? name (hname.of_child hr hc)⟩

end Surroundings.Agree

/-- Working out a node may be repeated wherever the names in it are bound alike. -/
def Resolve.Repeats (sources : Sources) (resolve : Resolve) : Prop :=
  ∀ m ∈ sources.modules, ∀ (s s' : Surroundings) (st : State), st.Sound sources → ∀ r,
    s.Agree m st (Mentions m.file.arena r) s' →
      Check.Repeats sources st (resolve m s r) (resolve m s' r) State.Knows

/-! ## Members -/

section Members

variable {strict : Bool} {sources : Sources} {resolve : Resolve} (hres : resolve.Repeats sources)
  {m : Module} (hm : m ∈ sources.modules) {s s' : Surroundings} {st : State}
  (hst : st.Sound sources)
include hres hm hst

theorem parameterType_repeats {r : Ref} (h : s.Agree m st (Mentions m.file.arena r) s') :
    Repeats sources st (parameterType resolve m s r) (parameterType resolve m s' r)
      fun u out => ∀ p ∈ out, u.Knows p.type := by
  unfold parameterType
  split
  · rename_i hd name ascription value hc
    have htype := hres m hm s s' st hst ascription (h.child hc (by simp [Payload.children]))
    refine htype.bind fun t type _ hknows => .pure fun p hp => ?_
    obtain rfl := Option.some.inj hp
    exact hknows
  · exact .pure fun _ hp => absurd hp (Option.not_mem_none _)

theorem functionShape_repeats {parameters : List Ref} {result : Ref}
    (hparameters : ∀ r ∈ parameters, s.Agree m st (Mentions m.file.arena r) s')
    (hresult : s.Agree m st (Mentions m.file.arena result) s') :
    Repeats sources st (functionShape resolve m s parameters result)
      (functionShape resolve m s' parameters result)
      fun u shape => ∀ x ∈ (Structure.function shape).mentions, u.Knows x := by
  have hall : Repeats sources st (parameters.filterMapM (parameterType resolve m s))
      (parameters.filterMapM (parameterType resolve m s')) fun u ps => ∀ p ∈ ps, u.Knows p.type :=
    .filterMapM (fun _ _ _ ht h => h.later ht)
      fun r hr t ht => parameterType_repeats hres hm (ht.sound hst) ((hparameters r hr).later ht)
  refine hall.bind fun t ps ht hps => ?_
  refine (hres m hm s s' t (ht.sound hst) result (hresult.later ht)).bind
    fun u type hu htype => .pure ?_
  intro x hx
  rcases List.mem_append.1 hx with hx | hx
  · obtain ⟨p, hp, rfl⟩ := List.mem_map.1 hx
    exact (hps p hp).later hu
  · exact List.mem_singleton.1 hx ▸ htype

/-- A member is worked out again with the same names around it. -/
theorem memberType_repeats (method : Bool) {parameters : Option (List Ref)} {ascription : Ref}
    (hparameters : ∀ r ∈ parameters.getD [], s.Agree m st (Mentions m.file.arena r) s')
    (hascription : s.Agree m st (Mentions m.file.arena ascription) s') :
    Repeats sources st (memberType resolve m s method parameters ascription)
      (memberType resolve m s' method parameters ascription) State.Knows := by
  unfold memberType
  cases method with
  | true =>
    refine (functionShape_repeats hres hm hst hparameters hascription).bind
      fun t shape ht hshape => ?_
    exact (Repeats.intern (ht.sound hst) (s := .function shape) not_false hshape).imp
      fun _ _ _ hid => ⟨_, hid⟩
  | false => exact hres m hm s s' st hst ascription hascription

/-- One more own member. -/
theorem addMember_repeats (hkeys : (sources.modules.map (·.key)).Nodup) {shape : Shape}
    (hshape : ∀ p ∈ shape, st.Knows p.type) {r : Ref}
    (h : s.Agree m st (Mentions m.file.arena r) s') :
    Repeats sources st (addMember strict resolve m s shape r)
      (addMember strict resolve m s' shape r)
      fun u shape => ∀ p ∈ shape, u.Knows p.type := by
  unfold addMember
  split
  · rename_i node hd name types parameters ascription hc
    split
    · exact .pure hshape
    · rename_i text htext
      have hdeclares : m.Declares (if (hd.kind == .form .methodSignature) =
        true then .methodSignature
          else .propertySignature) (some text) node := by
        rw [Module.Declares, hc]
        exact ⟨rfl, htext.symm⟩
      have hsite := Repeats.declare hst hkeys hm hdeclares
      refine hsite.bind fun t declaration ht _ => ?_
      have hshape' : ∀ p ∈ shape, t.Knows p.type := fun p hp => (hshape p hp).later ht
      -- A name that stands in the shape already is not worked out again.
      split
      · refine .pure fun p hp => ?_
        obtain ⟨q, hq, hpq⟩ := List.mem_map.1 hp
        have htype : p.type = q.type := by
          rw [← hpq]
          split <;> rfl
        exact htype ▸ hshape' q hq
      · have hparameters : ∀ r ∈ parameters.getD [], s.Agree m t (Mentions m.file.arena r) s' :=
          fun r hr => (h.child hc (by simp [Payload.children, hr])).later ht
        have hascription := (h.child (c := ascription) hc (by simp [Payload.children])).later ht
        have hmember := memberType_repeats hres hm (ht.sound hst)
          (hd.kind == .form .methodSignature) hparameters hascription
        refine hmember.bind fun u type hu htype => ?_
        have hadd {v : State} (hv : Later sources u v) (q : Property) (hq : q.type = type) :
            ∀ p ∈ shape ++ [q], v.Knows p.type := by
          intro p hp
          rcases List.mem_append.1 hp with hp | hp
          · exact ((hshape' p hp).later hu).later hv
          · rw [List.mem_singleton.1 hp, hq]
            exact htype.later hv
        dsimp only
        split
        · have hwiden : Repeats sources u (widen type) (widen type) fun _ _ => True :=
            .unit fun v hv => later_widen (htype.later hv)
          exact hwiden.bind fun v _ hv _ => .pure (hadd hv _ rfl)
        · exact .pure (hadd (refl u) _ rfl)
  · exact .pure hshape

end Members

/-! ## Named types -/

/-- What a reference to an alias shows of what the alias stands for. -/
def viewed (t : Interner) (id target : TypeId) : TypeId :=
  match t.get? target with
  | some (.object _) | some (.union _) | some (.function _) => id
  | _ => target

/-- What a reference to an alias comes to: an alias in progress stands for itself. -/
def State.aliased (st : State) (id : TypeId) : TypeId :=
  match st.named.target? id with
  | some target => viewed st.interner id target
  | none => id

theorem aliasView_run (id target : TypeId) (st : State) :
    aliasView id target st = (viewed st.interner id target, st) := by
  show (match st.interner.get? target with
    | some (.object _) | some (.union _) | some (.function _) => (pure id : Checking TypeId)
    | _ => pure target) st = _
  unfold viewed
  cases h : st.interner.get? target with
  | none => rfl
  | some s => cases s <;> rfl

/-- The id was entered for a declaration that is known. -/
def Entered (m : Module) (kind : DeclarationKind) (name : String) (node : NodeId) (u : State)
    (entered : DeclId → Structure) (id : TypeId) : Prop :=
  ∃ declaration, u.sites[declaration]? = some ⟨m.key, ⟨kind, some name, m.file.fileName, node⟩⟩ ∧
    u.interner.lookup id = some (entered declaration)

theorem Entered.mono {m : Module} {kind : DeclarationKind} {name : String} {node : NodeId}
    {u v : State} {entered : DeclId → Structure} {id : TypeId}
    (h : Entered m kind name node u entered id) (huv : u.Grows v) :
    Entered m kind name node v entered id := by
  obtain ⟨declaration, hsite, hid⟩ := h
  exact ⟨declaration, huv.sites _ _ hsite, huv.interner _ _ hid⟩

theorem Entered.unique {sources : Sources} {m : Module} {kind : DeclarationKind} {name : String}
    {node : NodeId} {u : State} (hu : u.Sound sources) {entered : DeclId → Structure}
    {id id' : TypeId} (h : Entered m kind name node u entered id)
    (h' : Entered m kind name node u entered id') : id = id' := by
  obtain ⟨declaration, hsite, hid⟩ := h
  obtain ⟨declaration', hsite', hid'⟩ := h'
  obtain rfl := hu.distinct.sites _ _ _ _ hsite hsite' rfl rfl
  exact hu.distinct.types _ _ _ hid hid'

/-- What a reference to an alias comes to stays the same. -/
theorem aliased_later {sources : Sources} {st t : State} (hst : st.Sound sources)
    (ht : Later sources st t) {id : TypeId} {name : String} {declaration : DeclId}
    {arguments : List TypeId}
    (hid : st.interner.lookup id = some (.synonym name declaration arguments)) :
    t.aliased id = st.aliased id := by
  have hget := Interner.get?_of_lookup hid nofun
  unfold State.aliased
  rw [target?_later hst ht hget]
  cases htarget : st.named.target? id with
  | none => rfl
  | some target =>
    have hknows := hst.consistent.knows_of_target? htarget
    simp only [viewed, get?_later ht hknows]

instance adds_resolveBases (strict : Bool) (sources : Sources) (levels heritage : Nat)
    (h : (resolveBases strict sources levels heritage).isSome = true) (m : Module)
    (s : Surroundings)
    (r : Ref) : Adds ((resolveBases strict sources levels heritage).get h m s r) := by
  cases heritage with
  | zero => exact absurd h Bool.false_ne_true
  | succ more => exact adds_resolveType strict sources levels more m s r

/-- The type that a declaration of a module stands for, applied to arguments. -/
inductive StandsFor (m : Module) (name : String) (arguments : List TypeId) (u : State) :
    TypeName → TypeId → Prop
  | interface {first id : Nat} {merged : List NodeId}
      (h : Entered m .interface name first u (.interface name · arguments) id) :
      StandsFor m name arguments u (.interface first merged) id
  | typeAlias {node id : Nat} (h : Entered m .typeAlias name node u
      (.synonym name · arguments) id) :
      StandsFor m name arguments u (.typeAlias node) (u.aliased id)

/-- The type that a name declared in a module, or imported there, stands for. There is none if what
is imported leads nowhere. -/
def Declared (sources : Sources) (m : Module) (name : String) (symbol : TypeName)
    (arguments : List TypeId) (u : State) (out : Option TypeId) : Prop :=
  match sources.followType importHops m name symbol with
  | some (m', name', symbol') => ∃ id, out = some id ∧ StandsFor m' name' arguments u symbol' id
  | none => out = none

/-- What is declared under a name that means this, applied to arguments. -/
def Meant (sources : Sources) (m : Module) (name : String) (arguments : List TypeId) (u : State) :
    Option Meaning → Option TypeId → Prop
  | some .parameter, out => ∃ id, out = some id ∧ u.interner.lookup id = some (.parameter name)
  | some (.declared symbol _), out => Declared sources m name symbol arguments u out
  | none, out => out = none

section Named

variable {strict : Bool} {sources : Sources} (hsources : sources.Proper) {levels : Nat}
  (hlevels : levels < typeDepth) (heritage : Nat) {m : Module} (hm : m ∈ sources.modules)
  {st : State} (hst : st.Sound sources) {frames : Frames} (hf : frames.Fits m.file)
  {arguments : List TypeId} (ha : ∀ x ∈ arguments, st.Knows x)
include hsources hlevels hm hst hf ha

/-- The type of an interface is told by its declaration and its arguments alone, so it does not
matter whether it was worked out in between. -/
theorem interfaceType_repeats {name : String} {first : NodeId} {merged : List NodeId}
    {statements : List Ref} (hscope : Scoped m.file statements)
    (hnodes : first :: merged = interfaces m.file.arena name statements) :
    Repeats sources st
      (interfaceType strict (resolveType strict sources levels heritage)
        (baseTypes (resolveBases strict sources levels heritage)) m name first merged
        frames arguments)
      (interfaceType strict (resolveType strict sources levels heritage)
        (baseTypes (resolveBases strict sources levels heritage)) m name first merged
        frames arguments)
      fun u => Entered m .interface name first u fun declaration =>
        .interface name declaration arguments := by
  have hworks : ∀ heritage, (resolveType strict sources levels heritage).Works strict sources :=
    resolveType_works hsources (Nat.le_of_lt hlevels)
  have hmem : first ∈ interfaces m.file.arena name statements := hnodes ▸ List.mem_cons_self
  have hdeclares := declares_interface (declaresInterface_of_mem hmem)
  refine .of_fact hst (fun _ _ _ _ _ htu h => h.mono htu.grows) (fun t x y ht => Entered.unique ht)
    fun t ht => ?_
  have ha' : ∀ x ∈ arguments, t.Knows x := fun x hx => (ha x hx).later ht
  have hrunworks := interfaceType_yields hworks hm (ht.sound hst).consistent hsources.keys hlevels
    heritage hscope hnodes hf ha'
  refine ⟨hrunworks.le.later (Adds.within t), ?_⟩
  have hsite := site_declare hsources.keys hm hdeclares (ht.sound hst).consistent
  rcases hdeclare : m.declare .interface (some name) first t with ⟨declaration, u⟩
  rw [hdeclare] at hsite
  rcases hintern : intern (.interface name declaration arguments) u with ⟨id, v⟩
  obtain ⟨huv, hget⟩ := interned_named (by exact trivial) hintern
  have hsite' := huv.sites _ _ hsite
  have hid := Interner.lookup_of_get? hget
  rw [interfaceType_run strict _ _ frames merged hdeclare hintern]
  split
  · exact ⟨declaration, hsite', hid⟩
  · exact .mono ⟨declaration, hsite', hid⟩ (trans_of State.Grows (grows_opened v id)
      (trans_of State.Grows (Adds.within _).grows (grows_completed _ id _)))

/-- An alias that was worked out is looked up, and one in progress stands for itself as before. -/
theorem aliasType_repeats {name : String} {node : NodeId}
    (hnode : DeclaresAlias m.file.arena name node) :
    Repeats sources st
      (aliasType (resolveType strict sources levels heritage) m name node frames arguments)
      (aliasType (resolveType strict sources levels heritage) m name node frames arguments)
      fun u x => (∃ id, Entered m .typeAlias name node u
        (fun declaration => .synonym name declaration arguments) id ∧ x = u.aliased id) ∧
        u.Knows x := by
  have hworks : ∀ heritage, (resolveType strict sources levels heritage).Works strict sources :=
    resolveType_works hsources (Nat.le_of_lt hlevels)
  have hdeclares := declares_typeAlias hnode
  have hrunworks (t : State) (ht : Later sources st t) :=
    aliasType_yields hworks hm (ht.sound hst).consistent heritage hnode hf
      fun x hx => (ha x hx).later ht
  refine .of_fact hst ?_ ?_ fun t ht =>
    ⟨(hrunworks t ht).le.later (Adds.within t), ?_, (hrunworks t ht).post⟩
  · rintro t u x _ ht htu ⟨⟨id, hid, rfl⟩, hknows⟩
    obtain ⟨declaration, hsite, hlookup⟩ := hid
    refine ⟨⟨id, .mono ⟨declaration, hsite, hlookup⟩ htu.grows, ?_⟩, hknows.later htu⟩
    exact (aliased_later ht htu hlookup).symm
  · rintro t x y ht ⟨⟨id, hid, rfl⟩, -⟩ ⟨⟨id', hid', rfl⟩, -⟩
    rw [hid.unique ht hid']
  · have hsite := site_declare hsources.keys hm hdeclares (ht.sound hst).consistent
    obtain ⟨hd, n, parameters, body, hc, -⟩ := hnode
    rcases hdeclare : m.declare .typeAlias (some name) node t with ⟨declaration, u⟩
    rw [hdeclare] at hsite
    rcases hintern : intern (.synonym name declaration arguments) u with ⟨id, v⟩
    obtain ⟨huv, hget⟩ := interned_named (by exact trivial) hintern
    have hsite' := huv.sites _ _ hsite
    have hid := Interner.lookup_of_get? hget
    rw [aliasType_run _ frames hc hdeclare hintern]
    cases htarget : v.named.target? id with
    | some target =>
      dsimp only
      rw [aliasView_run]
      exact ⟨id, ⟨declaration, hsite', hid⟩, by simp only [State.aliased, htarget]⟩
    | none =>
      dsimp only
      split
      · exact ⟨id, ⟨declaration, hsite', hid⟩, by simp only [State.aliased, htarget]⟩
      · rw [aliasView_run]
        refine ⟨id, .mono ⟨declaration, hsite', hid⟩ (trans_of State.Grows (grows_opened v id)
          (trans_of State.Grows (Adds.within _).grows (trans_of State.Grows (Adds.within _).grows
            (grows_completed _ id _)))), ?_⟩
        simp [State.aliased, State.completed, NamedTypes.target?, Named.target?]

/-- A declared type is what its declaration stands for, in the file that an import leads to. -/
theorem declaredType_repeats {name : String} {symbol : TypeName}
    (hsymbol : symbol.Fits m.file name) :
    Repeats sources st
      (declaredType strict (resolveType strict sources levels heritage) sources
        (baseTypes (resolveBases strict sources levels heritage)) m name symbol frames arguments)
      (declaredType strict (resolveType strict sources levels heritage) sources
        (baseTypes (resolveBases strict sources levels heritage)) m name symbol frames arguments)
      fun u out => Declared sources m name symbol arguments u out ∧ ∀ id ∈ out, u.Knows id := by
  let resolve := resolveType strict sources levels heritage
  have hinterface {m' : Module} (hm' : m' ∈ sources.modules) {frames' : Frames}
      (hf' : frames'.Fits m'.file) {name' : String} {first : NodeId} {merged : List NodeId}
      (hfits : (TypeName.interface first merged).Fits m'.file name') :
      let act := some <$> interfaceType strict resolve
        (baseTypes (resolveBases strict sources levels heritage)) m'
        name' first merged frames' arguments
      Repeats sources st act act fun u out =>
        (∃ id, out = some id ∧ StandsFor m' name' arguments u (.interface first merged) id) ∧
          ∀ id ∈ out, u.Knows id := by
    obtain ⟨statements, hscope, hnodes⟩ := hfits
    refine (interfaceType_repeats hsources hlevels heritage hm' hst hf' ha hscope hnodes).map
      fun u id hid => ⟨⟨id, rfl, .interface hid⟩, fun x hx => ?_⟩
    obtain ⟨_, _, hlookup⟩ := hid
    exact Option.some.inj hx ▸ ⟨_, hlookup⟩
  have halias {m' : Module} (hm' : m' ∈ sources.modules) {frames' : Frames}
      (hf' : frames'.Fits m'.file) {name' : String} {node : NodeId}
      (hfits : (TypeName.typeAlias node).Fits m'.file name') :
      let act := some <$> aliasType resolve m' name' node frames' arguments
      Repeats sources st act act fun u out =>
        (∃ id, out = some id ∧ StandsFor m' name' arguments u (.typeAlias node) id) ∧
          ∀ id ∈ out, u.Knows id := by
    refine (aliasType_repeats hsources hlevels heritage hm' hst hf' ha hfits).map ?_
    rintro u _ ⟨⟨id, hid, rfl⟩, hknows⟩
    exact ⟨⟨_, rfl, .typeAlias hid⟩, fun x hx => Option.some.inj hx ▸ hknows⟩
  unfold declaredType Declared
  cases symbol with
  | interface first merged => exact hinterface hm hf hsymbol
  | typeAlias node => exact halias hm hf hsymbol
  | imported module exported =>
    dsimp only
    cases hfollow : sources.followType importHops m name (.imported module exported) with
    | none => exact .pure ⟨rfl, fun _ hx => absurd hx nofun⟩
    | some target =>
      obtain ⟨m', name', symbol'⟩ := target
      obtain ⟨hm', hfits⟩ := Sources.followType_fits hsources.fits hm hsymbol hfollow
      have hnil := Frames.fits_nil m'.file
      cases symbol' with
      | interface first merged => exact hinterface hm' hnil hfits
      | typeAlias node => exact halias hm' hnil hfits
      | imported _ _ => exact absurd hfollow Sources.followType_ne_imported

end Named

/-! ## Type nodes -/

/-- One property of the same type for each key. -/
def recordShape (keys : List (String × TypeId)) (value : TypeId) : Shape :=
  keys.map fun k => computedProperty k.1 value

theorem builtinType_cases (name : String) (arguments : List TypeId) :
    (∃ element, arguments = [element] ∧
      builtinType name arguments = some <$> intern (.array element)) ∨
    (∃ keys value, arguments = [keys, value] ∧ builtinType name arguments = do
      some <$> intern (.object (recordShape ((← get).literalKeys keys) value))) ∨
    builtinType name arguments = pure none := by
  unfold builtinType
  split
  · exact .inl ⟨_, rfl, rfl⟩
  · exact .inl ⟨_, rfl, rfl⟩
  · exact .inr (.inl ⟨_, _, rfl, rfl⟩)
  · exact .inr (.inr rfl)

section Literals

variable {sources : Sources} {st : State} (hst : st.Sound sources)
include hst

theorem intern_repeats {s : Structure} (hs : ¬s.IsNamed) (hm : ∀ x ∈ s.mentions, st.Knows x) :
    Repeats sources st (intern s) (intern s) State.Knows :=
  (Repeats.intern hst hs hm).imp fun _ _ _ hid => ⟨s, hid⟩

omit hst in
theorem Repeats.constant {id : Nat} (h : id < intrinsicNames.length) :
    Repeats sources st (Pure.pure id) (Pure.pure id) State.Knows :=
  .pure (knows_of_lt st h)

theorem literalType_repeats (a : Arena) (r : Ref) :
    Repeats sources st (literalType a r) (literalType a r) State.Knows := by
  have hliteral (value : Literal) : Repeats sources st (intern (.literal value))
      (intern (.literal value)) State.Knows :=
    intern_repeats hst not_false fun _ hx => absurd hx List.not_mem_nil
  unfold literalType
  split
  · split
    · exact hliteral _
    · exact .constant (by decide)
  · split
    · exact hliteral _
    · exact .constant (by decide)
  all_goals exact .constant (by decide)

/-- The built-in `Record` comes to one property for each key of its first argument. -/
theorem builtinType_repeats (name : String) {arguments : List TypeId}
    (ha : ∀ x ∈ arguments, st.Knows x) :
    Repeats sources st (builtinType name arguments) (builtinType name arguments)
      fun u out => ∀ id ∈ out, u.Knows id := by
  have hsome {s : Structure} (hs : ¬s.IsNamed) (hm : ∀ x ∈ s.mentions, st.Knows x) :
      Repeats sources st (some <$> intern s) (some <$> intern s) fun u out =>
        ∀ id ∈ out, u.Knows id :=
    (intern_repeats hst hs hm).map fun _ _ hid _ hx => Option.some.inj hx ▸ hid
  rcases builtinType_cases name arguments with ⟨element, rfl, heq⟩ | ⟨keys, value, rfl, heq⟩ | heq
  · rw [heq]
    exact hsome (s := .array element) not_false ha
  · rw [heq]
    refine .get_bind (fun t => t.literalKeys keys)
      (fun found => some <$> intern (.object (recordShape found value)))
      (fun found => some <$> intern (.object (recordShape found value)))
      (fun t ht => literalKeys_later hst ht (ha keys List.mem_cons_self))
      (hsome (s := .object _) not_false fun x hx => ?_)
    obtain ⟨p, hp, rfl⟩ := List.mem_map.1 hx
    obtain ⟨k, -, rfl⟩ := List.mem_map.1 hp
    exact ha value (List.mem_cons_of_mem keys List.mem_cons_self)
  · rw [heq]
    exact .pure fun _ hx => absurd hx nofun

end Literals

section Nodes

variable {strict : Bool} {sources : Sources} {resolve : Resolve} (hres : resolve.Repeats sources)
  {m : Module} (hm : m ∈ sources.modules) {s s' : Surroundings} {st : State}
  (hst : st.Sound sources)
include hres hm hst

theorem mappedShape_repeats (parameter : String) {template : Ref} {keys : List (String × TypeId)}
    (hkeys : ∀ k ∈ keys, st.Knows k.2) (h : s.Agree m st (Mentions m.file.arena template) s') :
    Repeats sources st (mappedShape resolve m s parameter template keys)
      (mappedShape resolve m s' parameter template keys) fun u shape =>
        ∀ p ∈ shape, u.Knows p.type := by
  induction keys generalizing st with
  | nil => exact .pure fun _ hp => absurd hp List.not_mem_nil
  | cons key keys ih =>
    have hfirst := hres m hm _ _ st hst template (h.bind parameter (hkeys key List.mem_cons_self))
    refine hfirst.bind fun t type ht htype => ?_
    have hrest := ih (ht.sound hst) (fun k hk => (hkeys k (List.mem_cons_of_mem key hk)).later ht)
      (h.later ht)
    exact hrest.bind fun u rest hu hrest =>
      .pure (List.forall_mem_cons.2 ⟨htype.later hu, hrest⟩)

theorem mappedType_repeats {parameter template : Ref}
    (hparameter : s.Agree m st (Mentions m.file.arena parameter) s')
    (htemplate : s.Agree m st (Mentions m.file.arena template) s') :
    Repeats sources st (mappedType resolve m s parameter template)
      (mappedType resolve m s' parameter template) State.Knows := by
  unfold mappedType
  dsimp only
  split
  · rename_i hd name bound fallback hc
    split
    · rename_i text _
      have hbound := hres m hm s s' st hst bound (hparameter.child hc (by simp [Payload.children]))
      refine hbound.bind fun t keys ht hkeys => ?_
      refine .get_bind (fun t => t.literalKeys keys)
        (fun found => mappedShape resolve m s text template found >>= fun shape =>
          intern (.object shape))
        (fun found => mappedShape resolve m s' text template found >>= fun shape =>
          intern (.object shape))
        (fun u hu => literalKeys_later (ht.sound hst) hu hkeys) ?_
      have hshape := mappedShape_repeats hres hm (ht.sound hst) text
        (State.Consistent.knows_literalKeys typeDepth [] keys fun _ hk =>
          absurd hk List.not_mem_nil)
        (htemplate.later ht)
      refine hshape.bind fun u shape hu hshape => intern_repeats (hu.sound (ht.sound hst))
        (s := .object shape) not_false fun x hx => ?_
      obtain ⟨p, hp, rfl⟩ := List.mem_map.1 hx
      exact hshape p hp
    · exact .constant (by decide)
  · exact .constant (by decide)

end Nodes

/-- What comes of a reference: its arguments first, then what its name is bound to, what is declared
under it, or what is there without a declaration. -/
theorem referenceType_eq {strict : Bool} {resolve : Resolve} {sources : Sources}
    {bases : BasesIn Checking} {m : Module} {s : Surroundings} {name : Ref} {text : String}
    (hname : m.file.arena.identifierText? name = some text) (arguments : Option (List Ref)) :
    referenceType strict resolve sources bases m s name arguments = (do
      let ids ← (arguments.getD []).mapM (resolve m s)
      match s.get? text with
      | some bound => return bound
      | none =>
        match ← declaredAs strict resolve sources bases m s text ids with
        | some type => return type
        | none => (fun out : Option TypeId => out.getD TypeId.any) <$> (builtinType text ids)) := by
  unfold referenceType declaredAs
  rw [hname]
  dsimp only
  congr 1
  funext ids
  cases s.get? text with
  | some bound => rfl
  | none =>
    cases s.frames.lookup m.names.locals.types text with
    | none => rfl
    | some meaning => cases meaning <;> rfl

theorem mentions_self {a : Arena} {r name : Ref} {h : Header} {arguments : Option (List Ref)}
    (hc : a.content? r = some (h, .typeReference name arguments)) {text : String}
    (hname : a.identifierText? name = some text) : Mentions a r text := by
  obtain _ | node := r
  · exact absurd hc nofun
  · exact ⟨node, rfl, node, .refl, h, name, arguments, hc, hname⟩

section References

variable {strict : Bool} {sources : Sources} (hsources : sources.Proper) {levels : Nat}
  (hres : ∀ heritage, (resolveType strict sources levels heritage).Repeats sources)
  (hlevels : levels < typeDepth) (heritage : Nat) {m : Module} (hm : m ∈ sources.modules)
  {s s' : Surroundings} {st : State} (hst : st.Sound sources)
include hsources hlevels hm hst

/-- What is declared under a name is told by what the name means in its surroundings. -/
theorem declaredAs_repeats (hs : s.Fits m.file st) (hframes : s'.frames = s.frames) (text : String)
    {arguments : List TypeId} (ha : ∀ x ∈ arguments, st.Knows x) :
    Repeats sources st
      (declaredAs strict (resolveType strict sources levels heritage) sources
        (baseTypes (resolveBases strict sources levels heritage)) m s text arguments)
      (declaredAs strict (resolveType strict sources levels heritage) sources
        (baseTypes (resolveBases strict sources levels heritage)) m s' text arguments)
      fun u out => Meant sources m text arguments u
        (s.frames.lookup m.names.locals.types text) out ∧
        ∀ id ∈ out, u.Knows id := by
  unfold declaredAs
  rw [hframes]
  cases hlookup : s.frames.lookup m.names.locals.types text with
  | none => exact .pure ⟨rfl, fun _ hx => absurd hx nofun⟩
  | some meaning =>
    cases meaning with
    | parameter =>
      have hparameter := Repeats.intern hst (s := .parameter text) not_false
        fun _ hx => absurd hx List.not_mem_nil
      exact hparameter.map fun _ id hid =>
        ⟨⟨id, rfl, hid⟩, fun _ hx => Option.some.inj hx ▸ ⟨_, hid⟩⟩
    | declared symbol frames =>
      obtain ⟨hsymbol, hf⟩ := Frames.lookup_fits (hsources.fits m hm).1 hs.frames hlookup
      exact declaredType_repeats hsources hlevels heritage hm hst hf ha hsymbol

include hres

theorem referenceType_repeats {r : Ref} {h : Header} {name : Ref} {arguments : Option (List Ref)}
    (hc : m.file.arena.content? r = some (h, .typeReference name arguments))
    (hagree : s.Agree m st (Mentions m.file.arena r) s') :
    Repeats sources st
      (referenceType strict (resolveType strict sources levels heritage) sources
        (baseTypes (resolveBases strict sources levels heritage)) m s name arguments)
      (referenceType strict (resolveType strict sources levels heritage) sources
        (baseTypes (resolveBases strict sources levels heritage)) m s' name arguments)
        State.Knows := by
  cases hname : m.file.arena.identifierText? name with
  | none =>
    unfold referenceType
    rw [hname]
    exact .constant (by decide)
  | some text =>
    rw [referenceType_eq hname, referenceType_eq hname, hagree.get? text (mentions_self hc hname)]
    have hids : Repeats sources st
        ((arguments.getD []).mapM (resolveType strict sources levels heritage m s))
        ((arguments.getD []).mapM (resolveType strict sources levels heritage m s'))
        fun u ids => ∀ id ∈ ids, u.Knows id :=
      .mapM (fun _ _ _ ht h => h.later ht) fun x hx t ht =>
        hres heritage m hm s s' t (ht.sound hst) x
          ((hagree.child hc (by simp [Payload.children, hx])).later ht)
    refine hids.bind fun t ids ht hknows => ?_
    cases hbound : s.get? text with
    | some bound => exact .pure ((hagree.left.mono ht.grows).get? hbound)
    | none =>
      refine (declaredAs_repeats hsources hlevels heritage hm (ht.sound hst)
        (hagree.left.mono ht.grows) hagree.frames text hknows).bind
        fun u declared hu hdeclared => ?_
      cases declared with
      | some type => exact .pure (hdeclared.2 type rfl)
      | none =>
        have hbuiltin := builtinType_repeats (hu.sound (ht.sound hst)) text
          fun x hx => (hknows x hx).later hu
        exact hbuiltin.map fun v out hout => by
          cases out with
          | none => exact knows_any v
          | some id => exact hout id rfl

omit hm hst in
/-- Working out one node may be repeated if working out the nodes beneath it may. -/
theorem nodeType_repeats : Resolve.Repeats sources
    (nodeType strict (resolveType strict sources levels heritage) sources
      (baseTypes (resolveBases strict sources levels heritage))) := by
  intro m hm s s' st hst r h
  have hnode := hres heritage
  unfold nodeType
  split
  · exact .constant (by decide)
  · rename_i hd hheader
    split
    · refine .pure ?_
      split
      · exact knows_keywordType st _
      · exact knows_any st
    · rename_i hp _
      exact referenceType_repeats hsources hres hlevels heritage hm hst
        (Arena.content?_eq_some.2 ⟨hheader, hp⟩) h
    · exact literalType_repeats hst _ _
    · rename_i element hp _
      have hc := Arena.content?_eq_some.2 ⟨hheader, hp⟩
      have helement := hnode m hm s s' st hst element (h.child hc (by simp [Payload.children]))
      refine helement.bind fun t id ht hid => ?_
      exact intern_repeats (ht.sound hst) (s := .array id) not_false
        fun x hx => List.mem_singleton.1 hx ▸ hid
    · rename_i members hp _
      have hc := Arena.content?_eq_some.2 ⟨hheader, hp⟩
      have hmembers : Repeats sources st
          (members.mapM (resolveType strict sources levels heritage m s))
          (members.mapM (resolveType strict sources levels heritage m s'))
          fun u ids => ∀ id ∈ ids, u.Knows id :=
        .mapM (fun _ _ _ ht h => h.later ht) fun x hx t ht => hnode m hm s s' t (ht.sound hst) x
          ((h.child hc (by simpa [Payload.children] using hx)).later ht)
      exact hmembers.bind fun t ids ht hids =>
        (Repeats.union (ht.sound hst) hids).imp fun _ _ _ h => h.2
    · rename_i members hp _
      have hc := Arena.content?_eq_some.2 ⟨hheader, hp⟩
      have hmembers : Repeats sources st
          (members.foldlM (addMember strict (resolveType strict sources levels heritage) m s) [])
          (members.foldlM (addMember strict (resolveType strict sources levels heritage) m s') [])
          fun u shape => ∀ p ∈ shape, u.Knows p.type :=
        .foldlM (fun _ hp => absurd hp List.not_mem_nil) fun x hx t shape ht hshape =>
          addMember_repeats hnode hm (ht.sound hst) hsources.keys hshape
            ((h.child hc (by simpa [Payload.children] using hx)).later ht)
      refine hmembers.bind fun t shape ht hshape => intern_repeats (ht.sound hst)
        (s := .object shape) not_false fun x hx => ?_
      obtain ⟨p, hp, rfl⟩ := List.mem_map.1 hx
      exact hshape p hp
    · rename_i types parameters result hp _
      have hc := Arena.content?_eq_some.2 ⟨hheader, hp⟩
      refine (functionShape_repeats hnode hm hst
        (fun x hx => h.child hc (by simp [Payload.children, hx]))
        (h.child hc (by simp [Payload.children]))).bind fun t shape ht hshape => ?_
      exact
        intern_repeats (ht.sound hst) (s := .function shape) not_false hshape
    · rename_i parameter template hp _
      have hc := Arena.content?_eq_some.2 ⟨hheader, hp⟩
      exact mappedType_repeats hnode hm hst (h.child hc (by simp [Payload.children]))
        (h.child hc (by simp [Payload.children]))
    · exact .constant (by decide)

end References

/-- **Working out a type may be repeated**, at every depth and in all surroundings that bind the
names in the node alike: whenever it is worked out later, it comes to the same type. -/
theorem resolveType_repeats {strict : Bool} {sources : Sources} (hsources : sources.Proper)
    {levels : Nat} (hlevels : levels ≤ typeDepth) (heritage : Nat) :
    (resolveType strict sources levels heritage).Repeats sources := by
  induction levels generalizing heritage with
  | zero =>
    intro m hm s s' st hst r h
    cases r with
    | none => exact .constant (by decide)
    | some node =>
      have hwarn : Repeats sources st (warn (.typeDepth m.key)) (warn (.typeDepth m.key))
          fun _ _ => True := .unit fun t _ => later_warn _
      exact hwarn.bind fun t _ _ _ => .constant (by decide)
  | succ levels ih =>
    rw [resolveType_succ]
    exact nodeType_repeats hsources (ih (Nat.le_of_succ_le hlevels)) hlevels heritage

end TypeReify.Check
