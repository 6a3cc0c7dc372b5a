import TypeReify.Proofs.Check.Interfaces

/-!
# The limit on depth

A type node that has no level left denotes `any`, and the checker warns of it. Where no node was cut
off so, more levels change nothing: neither the answer nor the state. But what an interface came to
at its first reference it keeps, and if members were cut off there, later references with more
levels find them cut off.

This is about `MAX_TYPE_RESOLUTION_DEPTH` in `resolve_type`, and about `interface_shapes`, which
keeps what `instantiate_interface` found at whatever depth it was first called.

Results:
* `resolveType_covers`: where nothing is cut off, more levels change nothing.
* `Program.properties_interface_levels`: the properties of an interface are those it came to at its
  first reference, and if nothing was cut off there, those it has with any more levels.

Out of scope: the other limit, `MAX_HERITAGE_DEPTH`, whose warnings do not count as cuts here.
-/

namespace TypeReify

open Check Scope Syntax
open TypeReify.Types

namespace Check

/-! ## Nodes that are cut off -/

/-- The warning is that a node was cut off. -/
def Warning.isTypeDepth : Warning → Bool
  | .typeDepth _ => true
  | .heritageDepth _ => false

/-- How many nodes were cut off so far. -/
def State.cuts (st : State) : Nat := st.warnings.countP Warning.isTypeDepth

/-- Warnings stay, those about the depth among them. -/
theorem State.Grows.cuts_le {st st' : State} (h : st.Grows st') : st.cuts ≤ st'.cuts :=
  h.warnings.sublist.countP_le

/-- Where `act` cuts no node off, `act'` does the same. -/
structure Covers {α : Type} (act act' : Checking α) : Prop where
  cuts_le : ∀ st, st.cuts ≤ (act st).2.cuts
  same : ∀ st, (act st).2.cuts = st.cuts → act' st = act st

namespace Covers

variable {α β : Type}

/-- An action that does not look at the levels covers itself. -/
theorem of_grows {act : Checking α} (h : ∀ st : State, st.Grows (act st).2) : Covers act act :=
  ⟨fun st => (h st).cuts_le, fun _ _ => rfl⟩

theorem pure (x : α) : Covers (Pure.pure x : Checking α) (Pure.pure x) :=
  .of_grows fun st => refl st

theorem get : Covers (MonadState.get : Checking State) MonadState.get :=
  .of_grows fun st => refl st

/-- If the first action cuts nothing off, the second starts from the same tables. -/
theorem bind {act act' : Checking α} {f f' : α → Checking β} (h : Covers act act')
    (hf : ∀ x, Covers (f x) (f' x)) : Covers (act >>= f) (act' >>= f') := by
  refine ⟨fun st => Nat.le_trans (h.cuts_le st) ((hf _).cuts_le _), fun st hcuts => ?_⟩
  -- What is cut off stays so, so neither part cut anything off.
  have hmid : (act st).2.cuts = st.cuts :=
    Nat.le_antisymm (Nat.le_trans ((hf _).cuts_le _) (Nat.le_of_eq hcuts)) (h.cuts_le st)
  have hrest : f' (act st).1 (act st).2 = f (act st).1 (act st).2 :=
    (hf _).same _ (hcuts.trans hmid.symm)
  show f' (act' st).1 (act' st).2 = f (act st).1 (act st).2
  rw [h.same st hmid, hrest]

theorem map {act act' : Checking α} (g : α → β) (h : Covers act act') :
    Covers (g <$> act) (g <$> act') :=
  ⟨h.cuts_le, fun st hcuts => congrArg (Prod.map g id) (h.same st hcuts)⟩

theorem mapM {f f' : α → Checking β} (h : ∀ x, Covers (f x) (f' x)) (xs : List α) :
    Covers (xs.mapM f) (xs.mapM f') := by
  induction xs with
  | nil => exact .pure []
  | cons x xs ih =>
    rw [List.mapM_cons, List.mapM_cons]
    exact (h x).bind fun y => ih.bind fun ys => .pure (y :: ys)

theorem filterMapM {f f' : α → Checking (Option β)} (h : ∀ x, Covers (f x) (f' x)) (xs : List α) :
    Covers (xs.filterMapM f) (xs.filterMapM f') := by
  induction xs with
  | nil => exact .pure []
  | cons x xs ih =>
    rw [List.filterMapM_cons, List.filterMapM_cons]
    refine (h x).bind fun out => ?_
    cases out with
    | none => exact ih
    | some y => exact ih.bind fun ys => .pure (y :: ys)

theorem foldlM {f f' : β → α → Checking β} (h : ∀ y x, Covers (f y x) (f' y x))
    (xs : List α) (y : β) :
    Covers (xs.foldlM f y) (xs.foldlM f' y) := by
  induction xs generalizing y with
  | nil => exact .pure y
  | cons x xs ih =>
    rw [List.foldlM_cons, List.foldlM_cons]
    exact (h y x).bind ih

/-! ## Basic actions -/

theorem intern (s : Structure) : Covers (Check.intern s) (Check.intern s) :=
  .of_grows fun st => grows_intern st s

theorem declare (m : Module) (kind : DeclarationKind) (name : Option String) (node : NodeId) :
    Covers (m.declare kind name node) (m.declare kind name node) :=
  .of_grows fun st => grows_declare st m kind name node

theorem warn (w : Warning) : Covers (Check.warn w) (Check.warn w) :=
  .of_grows fun st => grows_warn st w

theorem widen (id : TypeId) : Covers (Check.widen id) (Check.widen id) :=
  .of_grows fun st => grows_widen st id

theorem start (id : TypeId) : Covers (Check.start id) (Check.start id) :=
  .of_grows fun st => grows_opened st id

theorem finish (id : TypeId) : Covers (Check.finish id) (Check.finish id) :=
  .of_grows fun _ => ⟨refl _, fun _ _ h => h, List.suffix_refl _, List.suffix_refl _⟩

theorem setShape (id : TypeId) (shape : Shape) :
    Covers (Check.setShape id shape) (Check.setShape id shape) :=
  .of_grows fun _ => ⟨refl _, fun _ _ h => h, List.suffix_cons _ _, List.suffix_refl _⟩

theorem setAlias (id target : TypeId) :
    Covers (Check.setAlias id target) (Check.setAlias id target) :=
  .of_grows fun _ => ⟨refl _, fun _ _ h => h, List.suffix_cons _ _, List.suffix_refl _⟩

theorem union (ids : List TypeId) : Covers (Check.union ids) (Check.union ids) :=
  .of_grows fun st => grows_union st ids

end Covers

/-- Where the first cuts nothing off, the second answers the same of every node. -/
def Resolve.Covers (resolve resolve' : Resolve) : Prop :=
  ∀ m s r, Check.Covers (resolve m s r) (resolve' m s r)

/-- So of the types that `extends` clauses lead to. -/
def BasesIn.Covers (bases bases' : BasesIn Checking) : Prop :=
  ∀ m name s clauses, Check.Covers (bases m name s clauses) (bases' m name s clauses)

section Nodes

variable {strict : Bool} {resolve resolve' : Resolve} (hres : resolve.Covers resolve') (m : Module)
  (s : Surroundings)
include hres

/-! ## Members -/

theorem parameterType_covers (r : Ref) :
    Covers (parameterType resolve m s r) (parameterType resolve' m s r) := by
  unfold parameterType
  split
  · exact (hres m s _).bind fun _ => .pure _
  · exact .pure none

theorem functionShape_covers (parameters : List Ref) (result : Ref) :
    Covers (functionShape resolve m s parameters result)
      (functionShape resolve' m s parameters result) :=
  (Covers.filterMapM (parameterType_covers hres m s) parameters).bind fun _ =>
    (hres m s result).bind fun _ => .pure _

theorem memberType_covers (method : Bool) (parameters : Option (List Ref)) (ascription : Ref) :
    Covers (memberType resolve m s method parameters ascription)
      (memberType resolve' m s method parameters ascription) := by
  unfold memberType
  split
  · exact (functionShape_covers hres m s _ ascription).bind fun _ => .intern _
  · exact hres m s ascription

theorem addMember_covers (shape : Shape) (member : Ref) :
    Covers (addMember strict resolve m s shape member)
      (addMember strict resolve' m s shape member) := by
  unfold addMember
  split
  · split
    · exact .pure shape
    · refine (Covers.declare m _ _ _).bind fun declaration => ?_
      split
      · exact .pure _
      · refine (memberType_covers hres m s _ _ _).bind fun type => ?_
        dsimp only
        split
        · exact (Covers.widen type).bind fun _ => .pure _
        · exact .pure _
  · exact .pure shape

/-! ## Named types -/

theorem bindParameter_covers (r : Ref) (argument : Option TypeId) :
    Covers (bindParameter resolve m s r argument) (bindParameter resolve' m s r argument) := by
  have hargument (name : String) (fallback : Ref) :
      Covers (parameterArgument resolve m s name fallback argument)
        (parameterArgument resolve' m s name fallback argument) := by
    unfold parameterArgument
    split
    · exact .pure _
    · split
      · exact hres m s _
      · exact .intern _
  unfold bindParameter
  split
  · split
    · exact (hargument _ _).bind fun _ => .pure _
    · exact .pure s
  · exact .pure s

theorem bindArguments_covers (parameters : List Ref) (arguments : List TypeId) :
    Covers (bindArguments resolve m parameters arguments s)
      (bindArguments resolve' m parameters arguments s) := by
  induction parameters generalizing arguments s with
  | nil => exact .pure s
  | cons r rs ih => exact (bindParameter_covers hres m s r _).bind fun s' => ih s' _

variable {bases bases' : BasesIn Checking} (hbases : bases.Covers bases')

omit s in
include hbases in
theorem interfacePart_covers (name : String) (frames : Frames) (arguments : List TypeId)
    (part : Shape × List TypeId) (node : NodeId) :
    Covers (interfacePart strict resolve bases m name frames arguments part node)
      (interfacePart strict resolve' bases' m name frames arguments part node) := by
  unfold interfacePart
  split
  · refine (bindArguments_covers hres m _ _ _).bind fun s => ?_
    refine (Covers.foldlM (addMember_covers hres m s) _ _).bind fun shape => ?_
    exact (hbases m name s _).bind fun _ => .pure _
  · exact .pure part

omit s in
include hbases in
/-- An interface in the tables is answered whatever the levels; else it is worked out with them. -/
theorem interfaceType_covers (name : String) (first : NodeId) (merged : List NodeId)
    (frames : Frames) (arguments : List TypeId) :
    Covers (interfaceType strict resolve bases m name first merged frames arguments)
      (interfaceType strict resolve' bases' m name first merged frames arguments) := by
  refine (Covers.declare m _ _ _).bind fun declaration => (Covers.intern _).bind fun id =>
    Covers.get.bind fun st => ?_
  split
  · exact .pure id
  · refine (Covers.start id).bind fun _ => ?_
    refine (Covers.foldlM (interfacePart_covers hres m hbases name frames arguments) _ _).bind
      fun part => Covers.get.bind fun st => ?_
    exact (Covers.setShape id _).bind fun _ => (Covers.finish id).bind fun _ => .pure id

omit s hres in
theorem aliasView_covers (id target : TypeId) :
    Covers (aliasView id target) (aliasView id target) := by
  refine Covers.get.bind fun st => ?_
  split <;> exact .pure _

omit s in
theorem aliasType_covers (name : String) (node : NodeId) (frames : Frames)
    (arguments : List TypeId) :
    Covers (aliasType resolve m name node frames arguments)
      (aliasType resolve' m name node frames arguments) := by
  refine (Covers.declare m _ _ _).bind fun declaration => (Covers.intern _).bind fun id =>
    Covers.get.bind fun st => ?_
  split
  · exact aliasView_covers id _
  · split
    · exact .pure id
    · split
      · refine (Covers.start id).bind fun _ => ?_
        refine (bindArguments_covers hres m _ _ _).bind fun s => (hres m s _).bind fun target => ?_
        exact (Covers.setAlias id target).bind fun _ => (Covers.finish id).bind fun _ =>
          aliasView_covers id target
      · exact .pure _

omit s in
include hbases in
theorem declaredType_covers (sources : Sources) (name : String) (symbol : TypeName)
    (frames : Frames) (arguments : List TypeId) :
    Covers (declaredType strict resolve sources bases m name symbol frames arguments)
      (declaredType strict resolve' sources bases' m name symbol frames arguments) := by
  have hinterface (m : Module) (name : String) (first : NodeId) (merged : List NodeId)
      (frames : Frames) : Covers
        (some <$> interfaceType strict resolve bases m name first merged frames arguments)
        (some <$> interfaceType strict resolve' bases' m name first merged frames arguments) :=
    (interfaceType_covers hres m hbases name first merged frames arguments).map some
  have halias (m : Module) (name : String) (node : NodeId) (frames : Frames) :=
    (aliasType_covers hres m name node frames arguments).map some
  unfold declaredType
  cases symbol with
  | interface first merged => exact hinterface m name first merged frames
  | typeAlias node => exact halias m name node frames
  | imported module exported =>
    dsimp only
    split
    · rename_i m' name' symbol' _
      cases symbol' with
      | interface first merged => exact hinterface m' name' first merged []
      | typeAlias node => exact halias m' name' node []
      | imported _ _ => exact .pure none
    · exact .pure none

omit hres m s in
theorem builtinType_covers (name : String) (arguments : List TypeId) :
    Covers (builtinType name arguments) (builtinType name arguments) := by
  unfold builtinType
  split
  · exact (Covers.intern _).map some
  · exact (Covers.intern _).map some
  · exact Covers.get.bind fun st => (Covers.intern _).map some
  · exact .pure none

omit hres m s in
theorem literalType_covers (a : Arena) (r : Ref) : Covers (literalType a r) (literalType a r) := by
  unfold literalType
  split
  · split
    · exact .intern _
    · exact .pure _
  · split
    · exact .intern _
    · exact .pure _
  · exact .pure _
  · exact .pure _
  · exact .pure _
  · exact .pure _

include hbases in
theorem referenceType_covers (sources : Sources) (name : Ref) (arguments : Option (List Ref)) :
    Covers (referenceType strict resolve sources bases m s name arguments)
      (referenceType strict resolve' sources bases' m s name arguments) := by
  unfold referenceType
  split
  · exact .pure _
  · rename_i text _
    refine (Covers.mapM (hres m s) _).bind fun ids => ?_
    split
    · exact .pure _
    · dsimp only
      split
      case' h_1 => refine Covers.bind ((Covers.intern _).map some) fun declared => ?_
      case' h_2 =>
        refine Covers.bind (declaredType_covers hres m hbases sources text _ _ ids)
          fun declared => ?_
      case' h_3 => refine Covers.bind (.pure none) fun declared => ?_
      -- What is not declared may be there without a declaration.
      all_goals
        cases declared with
        | some type => exact .pure type
        | none => exact (builtinType_covers text ids).bind fun _ => .pure _

/-! ## Type nodes -/

theorem mappedType_covers (parameter template : Ref) :
    Covers (mappedType resolve m s parameter template)
      (mappedType resolve' m s parameter template) := by
  have hshape (name : String) (keys : List (String × TypeId)) :
      Covers (mappedShape resolve m s name template keys)
        (mappedShape resolve' m s name template keys) := by
    induction keys with
    | nil => exact .pure []
    | cons key keys ih => exact (hres m _ template).bind fun _ => ih.bind fun _ => .pure _
  unfold mappedType
  dsimp only
  split
  · split
    · exact (hres m s _).bind fun _ => Covers.get.bind fun _ => (hshape _ _).bind fun _ => .intern _
    · exact .pure _
  · exact .pure _

omit m s in
include hbases in
/-- One node is worked out alike if the nodes beneath it are. -/
theorem nodeType_covers (sources : Sources) :
    Resolve.Covers (nodeType strict resolve sources bases)
    (nodeType strict resolve' sources bases') := by
  intro m s r
  unfold nodeType
  split
  · exact .pure _
  · split
    · exact .pure _
    · exact referenceType_covers hres m s hbases sources _ _
    · exact literalType_covers _ _
    · exact (hres m s _).bind fun _ => .intern _
    · exact (Covers.mapM (hres m s) _).bind fun ids => .union ids
    · exact (Covers.foldlM (addMember_covers hres m s) _ _).bind fun _ => .intern _
    · exact (functionShape_covers hres m s _ _).bind fun _ => .intern _
    · exact mappedType_covers hres m s _ _
    · exact .pure _

end Nodes

/-! ## Any number of levels -/

/-- Cutting a node off counts. -/
theorem cuts_warn (module : String) (st : State) :
    (warn (.typeDepth module) st).2.cuts = st.cuts + 1 :=
  List.countP_cons_of_pos rfl

/-- Levels more are levels more for the bases as well, on every line of heritage. -/
theorem baseTypes_covers {strict : Bool} {sources : Sources} {levels more : Nat}
    (h : ∀ heritage, (resolveType strict sources levels heritage).Covers
      (resolveType strict sources more heritage)) (heritage : Nat) :
    BasesIn.Covers (baseTypes (resolveBases strict sources levels heritage))
      (baseTypes (resolveBases strict sources more heritage)) := by
  intro m name s clauses
  cases clauses with
  | nil => cases heritage <;> exact .pure []
  | cons r rs =>
    cases heritage with
    | zero => exact (Covers.warn _).bind fun _ => .pure []
    | succ rest => exact Covers.mapM (h rest m s) (r :: rs)

/-- **Where nothing is cut off, more levels change nothing.** -/
theorem resolveType_covers (strict : Bool) (sources : Sources) {levels more : Nat}
    (h : levels ≤ more) (heritage : Nat) :
    (resolveType strict sources levels heritage).Covers
      (resolveType strict sources more heritage) := by
  induction levels generalizing more heritage with
  | zero =>
    intro m s r
    cases r with
    | none =>
      have hnone : resolveType strict sources more heritage m s none = pure TypeId.any := by
        cases more <;> rfl
      rw [hnone]
      exact .pure _
    | some node =>
      refine ⟨fun st => (grows_warn st _).cuts_le, fun st hcuts => absurd hcuts ?_⟩
      exact Nat.ne_of_gt (Nat.lt_of_lt_of_eq (Nat.lt_succ_self _) (cuts_warn m.key st).symm)
  | succ levels ih =>
    obtain ⟨more, rfl⟩ := Nat.exists_eq_add_of_le' h
    have hbelow : levels ≤ more + levels := Nat.le_add_left levels more
    have hres (heritage : Nat) := ih hbelow heritage
    rw [← Nat.add_assoc, resolveType_succ, resolveType_succ]
    exact nodeType_covers (hres heritage) (baseTypes_covers hres heritage) sources

/-- So a shape that is worked out with nothing cut off is the one that more levels give. -/
theorem interfaceShape_covers (strict : Bool) (sources : Sources) {levels more : Nat}
    (h : levels ≤ more) (heritage : Nat) (m : Module) (name : String) (nodes : List NodeId)
    (frames : Frames) (arguments : List TypeId) :
    Covers (interfaceShape strict sources levels heritage m name nodes frames arguments)
      (interfaceShape strict sources more heritage m name nodes frames arguments) :=
  have hres := resolveType_covers strict sources h
  have hpart := interfacePart_covers (hres heritage) m (baseTypes_covers hres heritage) name frames
    arguments
  (Covers.foldlM hpart nodes ([], [])).bind fun _ => Covers.get.bind fun _ => .pure _

end Check

/-- **The properties of an interface** of a checked program are those it came to at the first
reference to it. If nothing was cut off there, they are those it has with any more levels as well,
and with them the checker goes on from the same state. -/
theorem Program.properties_interface_levels (options : CheckOptions) (files : List SourceFile)
    {id : TypeId} {name : String} {declaration : DeclId} {arguments : List TypeId}
    (hid : (Program.ofFiles options files).interner.get? id =
      some (.interface name declaration arguments)) :
    let p := Program.ofFiles options files
    let sources := Sources.ofFiles files
    ∃ x : FirstReference, x.To sources p.state id ∧
      (x.run options.strictNullChecks sources x.levels).1 = p.oracle.properties id ∧
      (x.run options.strictNullChecks sources x.levels).2.Grows p.state ∧
      ((x.run options.strictNullChecks sources x.levels).2.cuts = x.state.cuts →
        ∀ levels ≥ x.levels, x.run options.strictNullChecks sources levels =
          x.run options.strictNullChecks sources x.levels) := by
  intro p sources
  have hbuilt := (works_ofFiles options files).built (consistent_empty _) built_empty
  obtain ⟨after, before, hsplit⟩ := exists_entry options files hid
  obtain ⟨moment, own, bases, -, hgrows, -, -, -, x, hx, hrun⟩ := hbuilt after id _ before hsplit
  refine ⟨x, hx.mono hgrows, ?_, ?_, fun hcuts levels hlevels => ?_⟩
  · rw [hrun]
  · rw [hrun]
    exact hgrows
  · exact (interfaceShape_covers _ _ hlevels _ _ _ _ _ _).same x.state hcuts

/-- `interface D { x: string; }`, then `keys<D[]…[]>();` with `depth` pairs of brackets, and
`keys<D>();`. -/
def deepFile (depth : Nat) : SourceFile :=
  let act : Drafting Unit := do
    let text ← Draft.build (Build.token .stringKeyword)
    let member ← Draft.build (Draft.property "x" text)
    let _ ← Draft.interfaceNamed "D" [member]
    let innermost ← Draft.build (Draft.typeNamed "D" [])
    let deep ← (List.range depth).foldlM
      (fun type _ => Draft.build (Build.arrayType type)) innermost
    let _ ← Draft.expression (← Draft.build (Draft.callNamed "keys" [deep]))
    let type ← Draft.build (Draft.typeNamed "D" [])
    let _ ← Draft.expression (← Draft.build (Draft.callNamed "keys" [type]))
  (act .empty).2.finish "/app/main.ts"

theorem Program.properties_interface_levels_deepFile :
    let p := Program.ofFiles .default [deepFile 1]
    let sources := Sources.ofFiles [deepFile 1]
    p.interner.get? 100 = some (.interface "D" 0 []) ∧
    ∃ x : FirstReference, x.To sources p.state 100 ∧
      (x.run false sources x.levels).1 = p.oracle.properties 100 ∧
      (x.run false sources x.levels).2.Grows p.state ∧
      ((x.run false sources x.levels).2.cuts = x.state.cuts →
        ∀ levels ≥ x.levels, x.run false sources levels = x.run false sources x.levels) :=
  have hid : (Program.ofFiles .default [deepFile 1]).interner.get? 100 =
      some (.interface "D" 0 []) := by decide +kernel
  ⟨hid, properties_interface_levels .default [deepFile 1] hid⟩

/-- With one more pair of brackets the member is cut off, and `D` goes without its type for good. A
reference with all levels left would have found it. -/
theorem Program.properties_interface_cut :
    let p := Program.ofFiles .default [deepFile 63]
    let f := deepFile 63
    let whole := interfaceShape false (Sources.ofFiles [f]) (typeDepth - 1) heritageDepth
      (Sources.moduleOf [f] f) "D" (interfaces f.arena "D" f.statements) [] [] .empty
    p.interner.get? 100 = some (.interface "D" 0 []) ∧
      (p.oracle.properties 100).map (fun x => (x.name, x.type)) = [("x", TypeId.any)] ∧
      whole.1.map (fun x => (x.name, x.type)) = [("x", TypeId.string)] ∧ whole.2.cuts = 0 := by
  decide +kernel

end TypeReify
