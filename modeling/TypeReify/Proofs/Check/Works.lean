import TypeReify.Proofs.Check.Objects
import TypeReify.Proofs.Yields

/-!
# Work of the checker

Working out a type, the checker may work out any number of named types, one inside the other. What
it was in the middle of before, it is in the middle of afterwards, and of every interface it worked
out the table tells how: own members first, then for each base the properties that the base had when
the interface was finished (`State.Built`). A base that was itself in progress had none. All this
was done once, at the first reference to the interface, with as many levels as were left there. Of
every object type it is known where it came from (`State.Formed`).

It is what `resolve_type` may have done by the time it returns, wherever in a program it was called.

Results:
* `Works.intern` and its like: the basic actions are work.
* `Works.completed`: working out one named type is work.
-/

namespace TypeReify.Check

open Syntax Scope
open TypeReify.Types

/-! ## The declarations of an interface -/

/-- The type parameters of an interface declaration. -/
def Module.parametersOf (m : Module) (node : NodeId) : List Ref :=
  match m.file.arena.content? (some node) with
  | some (_, .interface _ parameters _ _) => parameters.getD []
  | _ => []

/-- The `extends` clauses of an interface declaration. -/
def Module.heritageOf (m : Module) (node : NodeId) : List Ref :=
  match m.file.arena.content? (some node) with
  | some (_, .interface _ _ heritage _) => heritage.getD []
  | _ => []

/-- The members that an interface declaration lists. -/
def Module.membersOf (m : Module) (node : NodeId) : List Ref :=
  match m.file.arena.content? (some node) with
  | some (_, .interface _ _ _ members) => members
  | _ => []

/-- The surroundings inside an interface declaration: its type parameters are bound to the
arguments. -/
def Inside (strict : Bool) (sources : Sources) (st : State) (m : Module) (frames : Frames)
    (arguments : List TypeId) (node : NodeId) (s : Surroundings) : Prop :=
  ∃ levels heritage, Answered sources st
    (bindArguments (resolveType strict sources levels heritage) m
    (m.parametersOf node) arguments (.ofFrames frames)) s

/-- The types that the `extends` clauses of an interface declaration name. -/
def BasesOf (strict : Bool) (sources : Sources) (st : State) (m : Module)
    (x : NodeId × Surroundings) (bases : List TypeId) : Prop :=
  ∃ levels heritage, List.Forall₂ (fun clause => Answered sources st
    (resolveType strict sources levels heritage m x.2 clause)) (m.heritageOf x.1) bases

/-- What some declarations of an interface come to: the members that they list, and the types that
their `extends` clauses name. -/
structure Gathered (strict : Bool) (sources : Sources) (st : State) (m : Module) (frames : Frames)
    (arguments : List TypeId) (around : List (NodeId × Surroundings)) (part : Shape × List TypeId) :
    Prop where
  inside : ∀ x ∈ around, Inside strict sources st m frames arguments x.1 x.2
  own : OwnMembers strict sources m st
    (around.flatMap fun x => (m.membersOf x.1).map (x.2, ·)) part.1
  known : ∀ base ∈ part.2, st.Knows base
  bases : st.warnings = [] → ∃ parts,
    List.Forall₂ (BasesOf strict sources st m) around parts ∧ part.2 = parts.flatten

/-- The type is an interface with these own members and bases: what all its declarations in one
scope come to. -/
def InterfaceOf (strict : Bool) (sources : Sources) (st : State) (id : TypeId) (own : Shape)
    (bases : List TypeId) : Prop :=
  ∃ m ∈ sources.modules, ∃ name declaration arguments first merged statements frames around,
    st.interner.get? id = some (.interface name declaration arguments) ∧
      st.sites[declaration]? = some ⟨m.key, ⟨.interface, some name, m.file.fileName, first⟩⟩ ∧
      Scoped m.file statements ∧ first :: merged = interfaces m.file.arena name statements ∧
      around.map (·.1) = first :: merged ∧
      Gathered strict sources st m frames arguments around (own, bases)

/-! ## What is worked out -/

/-- Own members, then the properties of each base that have no property of their name before them.
-/
def inheritAll (own : Shape) (bases : List TypeId) (properties : TypeId → Shape) : Shape :=
  bases.foldl (fun shape base => inherit shape (properties base)) own

theorem mem_inherit {shape base : Shape} {p : Property} (h : p ∈ inherit shape base) :
    p ∈ shape ∨ p ∈ base := by
  unfold inherit at h
  induction base generalizing shape with
  | nil => exact .inl h
  | cons q base ih =>
    rw [List.foldl_cons] at h
    rcases ih h with h | h
    · split at h
      · exact .inl h
      · rcases List.mem_append.1 h with h | h
        · exact .inl h
        · exact .inr (List.mem_cons.2 (.inl (List.mem_singleton.1 h)))
    · exact .inr (List.mem_cons_of_mem q h)

theorem mem_inheritAll {own : Shape} {bases : List TypeId} {properties : TypeId → Shape}
    {p : Property} (h : p ∈ inheritAll own bases properties) :
    p ∈ own ∨ ∃ base ∈ bases, p ∈ properties base := by
  unfold inheritAll at h
  induction bases generalizing own with
  | nil => exact .inl h
  | cons base bases ih =>
    rcases ih h with h | ⟨b, hb, h⟩
    · exact (mem_inherit h).imp_right fun h => ⟨base, List.mem_cons_self, h⟩
    · exact .inr ⟨b, List.mem_cons_of_mem base hb, h⟩

/-! ## First references -/

/-- How the types in `extends` clauses are worked out, through `heritage` clauses at most. -/
def resolveBases (strict : Bool) (sources : Sources) (levels : Nat) :
    (heritage : Nat) → Option Resolve
  | 0 => none
  | more + 1 => some (resolveType strict sources levels more)

theorem resolveType_succ (strict : Bool) (sources : Sources) (levels heritage : Nat) :
    resolveType strict sources (levels + 1) heritage =
      nodeType strict (resolveType strict sources levels heritage) sources
        (baseTypes (resolveBases strict sources levels heritage)) := by
  cases heritage <;> rfl

theorem exists_of_mem_resolveBases {strict : Bool} {sources : Sources} {levels heritage : Nat} :
    ∀ base ∈ resolveBases strict sources levels heritage,
      ∃ rest, base = resolveType strict sources levels rest := by
  intro base hbase
  cases heritage with
  | zero => exact absurd hbase.symm (Option.some_ne_none base)
  | succ more => exact ⟨more, (Option.some.inj hbase).symm⟩

/-- What some declarations of an interface come to: own members, and then the properties that their
bases have afterwards. -/
def interfaceShape (strict : Bool) (sources : Sources) (levels heritage : Nat) (m : Module)
    (name : String) (nodes : List NodeId) (frames : Frames) (arguments : List TypeId) :
    Checking Shape := do
  let (own, bases) ← nodes.foldlM (interfacePart strict (resolveType strict sources levels heritage)
    (baseTypes (resolveBases strict sources levels heritage)) m name frames arguments) ([], [])
  return inheritAll own bases (← get).propertiesOf

/-- The first reference to an interface: its declarations and arguments, the state in which they are
looked at, and how many levels and `extends` clauses are left there. -/
structure FirstReference where
  module : Module
  name : String
  nodes : List NodeId
  frames : Frames
  arguments : List TypeId
  state : State
  levels : Nat
  heritage : Nat

namespace FirstReference

/-- What the interface comes to if its members are given some levels, and the state it leaves. -/
def run (x : FirstReference) (strict : Bool) (sources : Sources) (levels : Nat) : Shape × State :=
  interfaceShape strict sources levels x.heritage x.module x.name x.nodes x.frames
    x.arguments x.state

/-- The interface is the type `id`: all its declarations in one scope are looked at, while it is in
progress. -/
structure To (sources : Sources) (st : State) (id : TypeId) (x : FirstReference) : Prop where
  module : x.module ∈ sources.modules
  nodes : ∃ statements, Scoped x.module.file statements ∧
    x.nodes = interfaces x.module.file.arena x.name statements
  type : ∃ declaration first, st.interner.get? id =
    some (.interface x.name declaration x.arguments) ∧
    x.nodes.head? = some first ∧ st.sites[declaration]? =
      some ⟨x.module.key, ⟨.interface, some x.name, x.module.file.fileName, first⟩⟩
  levels : x.levels < typeDepth
  consistent : x.state.Consistent sources
  inProgress : id ∈ x.state.inProgress

theorem To.mono {sources : Sources} {st st' : State} {id : TypeId} {x : FirstReference}
    (h : x.To sources st id) (hst : st.Grows st') : x.To sources st' id := by
  obtain ⟨declaration, first, hid, hfirst, hsite⟩ := h.type
  exact ⟨h.module, h.nodes, ⟨declaration, first, hst.interner.get?_of_some hid, hfirst,
    hst.sites _ _ hsite⟩, h.levels, h.consistent, h.inProgress⟩

end FirstReference

/-- Every interface in the table came to its own members and the properties its bases had when it
was entered, behind all that was worked out before, at the first reference to it. -/
def State.Built (strict : Bool) (sources : Sources) (st : State) : Prop :=
  ∀ after id shape before, st.named = after ++ (id, .members shape) :: before →
    ∃ (moment : State) (own : Shape) (bases : List TypeId),
      moment.Consistent sources ∧ moment.Grows st ∧ moment.named = before ∧
        InterfaceOf strict sources moment id own bases ∧
        shape = inheritAll own bases moment.propertiesOf ∧
        ∃ x : FirstReference, x.To sources moment id ∧
        x.run strict sources x.levels = (shape, moment)

/-- What is done in working out types. -/
structure Works (strict : Bool) (sources : Sources) (st st' : State) : Prop where
  grows : st.Grows st'
  inProgress : st'.inProgress = st.inProgress
  consistent : st.Consistent sources → st'.Consistent sources
  built : st.Consistent sources → st.Built strict sources → st'.Built strict sources
  formed : st.Formed strict sources → st'.Formed strict sources

variable {strict : Bool} {sources : Sources}

instance : IsPreorder State (Works strict sources) where
  refl _ := ⟨refl _, rfl, id, fun _ h => h, id⟩
  trans _ _ _ h h' := ⟨trans_of State.Grows h.grows h'.grows, h'.inProgress.trans h.inProgress,
    h'.consistent ∘ h.consistent, fun hst hb => h'.built (h.consistent hst) (h.built hst hb),
    h'.formed ∘ h.formed⟩

/-! ## What lasts -/

theorem Inside.mono {st st' : State} {m : Module} {frames : Frames} {arguments : List TypeId}
    {node : NodeId} {s : Surroundings} (h : Inside strict sources st m frames arguments node s)
    (hst : st.Grows st') : Inside strict sources st' m frames arguments node s := by
  obtain ⟨levels, heritage, hs⟩ := h
  exact ⟨levels, heritage, hs.mono hst⟩

theorem BasesOf.mono {st st' : State} {m : Module} {x : NodeId × Surroundings} {bases : List TypeId}
    (h : BasesOf strict sources st m x bases) (hst : st.Grows st') :
    BasesOf strict sources st' m x bases := by
  obtain ⟨levels, heritage, hbases⟩ := h
  exact ⟨levels, heritage, hbases.imp fun _ _ hb => hb.mono hst⟩

theorem Gathered.mono {st st' : State} {m : Module} {frames : Frames} {arguments : List TypeId}
    {around : List (NodeId × Surroundings)} {part : Shape × List TypeId}
    (h : Gathered strict sources st m frames arguments around part) (hst : st.Grows st') :
    Gathered strict sources st' m frames arguments around part := by
  refine ⟨fun x hx => (h.inside x hx).mono hst, h.own.mono hst,
    fun base hb => (h.known base hb).mono hst.interner, fun hw => ?_⟩
  obtain ⟨parts, hparts, hflat⟩ := h.bases (hst.warnings_nil hw)
  exact ⟨parts, hparts.imp fun _ _ hb => hb.mono hst, hflat⟩

theorem InterfaceOf.mono {st st' : State} {id : TypeId} {own : Shape} {bases : List TypeId}
    (h : InterfaceOf strict sources st id own bases) (hst : st.Grows st') :
    InterfaceOf strict sources st' id own bases := by
  obtain ⟨m, hm, name, declaration, arguments, first, merged, statements, frames,
    around, hid, hsite,
    hscope, hnodes, haround, hgathered⟩ := h
  exact ⟨m, hm, name, declaration, arguments, first, merged, statements, frames, around,
    hst.interner.get?_of_some hid, hst.sites _ _ hsite, hscope, hnodes, haround, hgathered.mono hst⟩

/-- As long as no further type is worked out, there is nothing to tell. -/
theorem State.Built.grow {st st' : State} (h : st.Built strict sources) (hst : st.Grows st')
    (hnamed : st'.named = st.named) : st'.Built strict sources := by
  intro after id shape before hsplit
  obtain ⟨moment, own, bases, hmoment, hgrows, hrest⟩ :=
    h after id shape before (hnamed.symm.trans hsplit)
  exact ⟨moment, own, bases, hmoment, trans_of State.Grows hgrows hst, hrest⟩

theorem built_empty : State.empty.Built strict sources := by
  intro after id shape before hsplit
  exact absurd (congrArg List.length hsplit) (by simp [State.empty])

/-! ## Basic actions -/

section Actions

variable {st : State}

theorem Works.intern {s : Structure} (hs : ¬s.IsNamed) (hm : ∀ x ∈ s.mentions, st.Knows x)
    (ho : ∀ shape, s = .object shape →
      ObjectOf strict sources (Check.intern s st).2 (Check.intern s st).1 shape) :
    Yields (Works strict sources) st (Check.intern s) fun st' id => st'.Knows id := by
  refine ⟨⟨grows_intern st s, rfl, fun h => h.intern hs hm,
    fun _ h => h.grow (grows_intern st s) rfl,
    fun h => h.grow (grows_intern st s) fun id shape hid => ?_⟩, knows_intern st s⟩
  rcases Interner.get?_intern_cases hid with hold | ⟨heq, -, rfl⟩
  · exact .inl hold
  · exact .inr (ho shape heq.symm)

theorem Works.union {ids : List TypeId} (hst : st.Consistent sources)
    (hids : ∀ id ∈ ids, st.Knows id) :
    Yields (Works strict sources) st (Check.union ids) fun st' id => st'.Knows id :=
  ⟨⟨grows_union st ids, rfl, fun h => h.union hids, fun _ h => h.grow (grows_union st ids) rfl,
    fun h => h.grow (grows_union st ids) fun _ _ hid =>
      (Interner.get?_union_cases hid).imp_right nofun⟩, Interner.known_union hst.closed hids⟩

theorem Works.widen {id : TypeId} (hid : st.Knows id) :
    Works strict sources st (Check.widen id st).2 := by
  refine ⟨grows_widen st id, inProgress_widen st id, fun h => h.widen hid,
    fun _ h => h.grow (grows_widen st id) ?_, fun h =>
      h.grow (grows_widen st id) fun x shape hx => ?_⟩
  · rcases widen_cases st id with hrun | ⟨widened, hrun⟩
    · rw [hrun]
    · rw [hrun]
      rfl
  · rcases widen_cases st id with hrun | ⟨widened, hrun⟩
    · exact .inl (hrun ▸ hx)
    · rw [hrun] at hx
      exact (Interner.get?_union_cases hx).imp_right nofun

theorem Works.warn (w : Warning) : Works strict sources st (Check.warn w st).2 :=
  ⟨grows_warn st w, rfl, fun h => h.warn w, fun _ h => h.grow (grows_warn st w) rfl,
    fun h => h.keep (grows_warn st w) rfl⟩

theorem Works.declare {m : Module} (hm : m ∈ sources.modules) {kind : DeclarationKind}
    {name : Option String} {node : NodeId} (hdeclares : m.Declares kind name node) :
    Works strict sources st (m.declare kind name node st).2 :=
  ⟨grows_declare st m kind name node, inProgress_declare st m kind name node,
    fun h => h.declare hm hdeclares,
    fun _ h => h.grow (grows_declare st m kind name node) (named_declare st m kind name node),
    fun h => h.keep (grows_declare st m kind name node) (interner_declare st m kind name node)⟩

end Actions

/-! ## One named type -/

section Named

variable {st u : State} {s : Structure} {id : TypeId} (hrun : Check.intern s st = (id, u))
  (hs : s.IsNamed) (hm : ∀ x ∈ s.mentions, st.Knows x)
include hrun hs hm

omit hrun hm in
/-- Entering a named type enters no object type. -/
theorem formed_named (h : st.Formed strict sources) :
    (Check.intern s st).2.Formed strict sources := by
  refine h.grow (grows_intern st s) fun other shape hother => ?_
  rcases Interner.get?_intern_cases hother with hold | ⟨rfl, -⟩
  · exact .inl hold
  · exact absurd hs not_false

/-- A named type that is known already is only looked up. -/
theorem Works.entered (hid : id ∈ u.named.ids ∨ id ∈ u.inProgress) :
    Works strict sources st u := by
  have hgrows := (interned_named hs hrun).1
  obtain rfl : (Check.intern s st).2 = u := by rw [hrun]
  exact ⟨hgrows, rfl, fun h => h.entered hrun hm hid, fun _ h => h.grow hgrows rfl,
    fun h => formed_named hs h⟩

/-- **A named type is worked out** by any work that is done while it is in progress. -/
theorem Works.completed {v : State} {x : Named} (hnew : id ∉ u.named.ids)
    (hidle : id ∉ u.inProgress)
    (hv : Works strict sources (u.opened id) v) (hx : x.Fits v.interner id)
    (hbuilt : ∀ shape, x = .members shape → ∃ own bases,
      InterfaceOf strict sources v id own bases ∧ shape = inheritAll own bases v.propertiesOf ∧
        ∃ y : FirstReference, y.To sources v id ∧ y.run strict sources y.levels = (shape, v)) :
    Works strict sources st (v.completed id x) := by
  have hopen : st.Grows (u.opened id) :=
    trans_of State.Grows (interned_named hs hrun).1 (grows_opened u id)
  have hclose : v.Grows (v.completed id x) := grows_completed v id x
  obtain rfl : (Check.intern s st).2 = u := by rw [hrun]
  have hprogress : v.inProgress = id :: st.inProgress := hv.inProgress
  refine ⟨trans_of State.Grows hopen (trans_of State.Grows hv.grows hclose), ?_, fun h => ?_,
    fun h hb => ?_, fun h => ?_⟩
  · show v.inProgress.erase id = st.inProgress
    rw [hprogress, List.erase_cons_head]
  · exact (hv.consistent (h.opened hrun hm hnew)).completed hprogress hidle hx
  · have hconsistent := hv.consistent (h.opened hrun hm hnew)
    have hold := hv.built (h.opened hrun hm hnew) (hb.grow hopen rfl)
    intro after other shape before hsplit
    have hsplit' : (id, x) :: v.named = after ++ (other, .members shape) :: before := hsplit
    -- The new entry is the one just worked out; those behind it were there before.
    cases after with
    | nil =>
      obtain ⟨hentry, rfl⟩ := List.cons.inj hsplit'
      obtain ⟨rfl, rfl⟩ := Prod.mk.inj hentry
      obtain ⟨own, bases, hof, hshape⟩ := hbuilt shape rfl
      exact ⟨v, own, bases, hconsistent, hclose, rfl, hof, hshape⟩
    | cons y after =>
      obtain ⟨-, hrest⟩ := List.cons.inj hsplit'
      obtain ⟨moment, own, bases, hmoment, hgrows, hmore⟩ := hold after other shape before hrest
      exact ⟨moment, own, bases, hmoment, trans_of State.Grows hgrows hclose, hmore⟩
  · exact (hv.formed ((formed_named hs h).keep (grows_opened _ id) rfl)).keep hclose rfl

end Named

end TypeReify.Check
