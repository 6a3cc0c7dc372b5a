import TypeReify.Program
import TypeReify.Proofs.Check.Works

/-!
# Actions that only add

Whatever the checker does, and in whatever state, it takes nothing back: known ids keep their types,
sites their places, and a type that was widened stays so. Nor does it enter one structure twice, or
one node. `Adds` says so of an action; it is a class, since every action of the checker has it.

In the source this is what `CheckerState` does with its own fields: ids, declarations, shapes, alias
targets and optional types are inserted and never removed; only `in_progress` loses what it was
given.

Results:
* `State.Grows.antisymm`: states that grow out of each other say the same.
* `adds_resolveType`, `adds_fileFacts`: working out a type only adds, and so does a walk over a
  file.
-/

namespace TypeReify.Check

open Syntax Scope
open TypeReify.Types

/-- No structure has two ids, and no node two sites. -/
structure State.Distinct (st : State) : Prop where
  types : st.interner.Distinct
  sites : ∀ (d d' : Nat) (site site' : Site), st.sites[d]? = some site →
    st.sites[d']? = some site' →
    site.module = site'.module → site.declaration.node = site'.declaration.node → d = d'

/-- Whatever `st` says, `st'` says as well. -/
structure State.Within (st st' : State) : Prop where
  grows : st.Grows st'
  widened : ∀ id ∈ st.widened, id ∈ st'.widened
  distinct : st.Distinct → st'.Distinct

instance : IsPreorder State State.Within where
  refl _ := ⟨refl _, fun _ h => h, id⟩
  trans _ _ _ h h' := ⟨trans_of State.Grows h.grows h'.grows,
    fun id hid => h'.widened id (h.widened id hid), h'.distinct ∘ h.distinct⟩

/-- States that grow out of each other say the same. -/
theorem State.Grows.antisymm {st st' : State} (h : st.Grows st') (h' : st'.Grows st) :
    st'.interner = st.interner ∧ st'.sites = st.sites ∧ st'.named = st.named :=
  ⟨h.interner.antisymm h'.interner,
    Array.ext_getElem? fun d => Option.ext fun site => ⟨h'.sites d site, h.sites d site⟩,
    h'.named.eq_of_length_le h.named.length_le⟩

theorem distinct_empty : State.empty.Distinct :=
  ⟨Interner.distinct_empty, fun _ _ _ _ h => absurd h (by simp [State.empty])⟩

/-- The action only adds, in whatever state. -/
class Adds {α : Type} (act : Checking α) : Prop where
  within : ∀ st : State, st.Within (act st).2

namespace Adds

variable {α β : Type}

instance pure (x : α) : Adds (Pure.pure x : Checking α) := ⟨fun st => refl st⟩

instance get : Adds (MonadState.get : Checking State) := ⟨fun st => refl st⟩

theorem seq {act : Checking α} {f : α → Checking β} (h : Adds act) (hf : ∀ x, Adds (f x)) :
    Adds (act >>= f) :=
  ⟨fun st => trans_of State.Within (h.within st) ((hf (act st).1).within _)⟩

instance bind {act : Checking α} {f : α → Checking β} [h : Adds act] [hf : ∀ x, Adds (f x)] :
    Adds (act >>= f) := h.seq hf

instance map {act : Checking α} {g : α → β} [h : Adds act] : Adds (g <$> act) :=
  ⟨fun st => h.within st⟩

instance ite {c : Prop} [Decidable c] {act act' : Checking α} [Adds act] [Adds act'] :
    Adds (if c then act else act') := by
  split <;> infer_instance

instance mapM {f : α → Checking β} [∀ x, Adds (f x)] (xs : List α) : Adds (xs.mapM f) := by
  induction xs with
  | nil => exact .pure []
  | cons x xs ih =>
    rw [List.mapM_cons]
    infer_instance

instance filterMapM {f : α → Checking (Option β)} [∀ x, Adds (f x)] (xs : List α) :
    Adds (xs.filterMapM f) := by
  induction xs with
  | nil => exact .pure []
  | cons x xs ih =>
    rw [List.filterMapM_cons]
    refine .seq inferInstance fun out => ?_
    cases out <;> infer_instance

instance foldlM {f : β → α → Checking β} [∀ y x, Adds (f y x)] (xs : List α) (y : β) :
    Adds (xs.foldlM f y) := by
  induction xs generalizing y with
  | nil => exact .pure y
  | cons x xs ih =>
    rw [List.foldlM_cons]
    infer_instance

/-! ## Basic actions -/

instance intern (s : Structure) : Adds (Check.intern s) :=
  ⟨fun st => ⟨grows_intern st s, fun _ h => h,
    fun h => ⟨Interner.distinct_intern h.types s, h.sites⟩⟩⟩

instance union (ids : List TypeId) : Adds (Check.union ids) :=
  ⟨fun st => ⟨grows_union st ids, fun _ h => h,
    fun h => ⟨Interner.distinct_union h.types ids, h.sites⟩⟩⟩

instance warn (w : Warning) : Adds (Check.warn w) :=
  ⟨fun st => ⟨grows_warn st w, fun _ h => h, fun h => ⟨h.types, h.sites⟩⟩⟩

instance start (id : TypeId) : Adds (Check.start id) :=
  ⟨fun st => ⟨grows_opened st id, fun _ h => h, fun h => ⟨h.types, h.sites⟩⟩⟩

instance finish (id : TypeId) : Adds (Check.finish id) :=
  ⟨fun _ => ⟨⟨refl _, fun _ _ h => h, List.suffix_refl _, List.suffix_refl _⟩, fun _ h => h,
    fun h => ⟨h.types, h.sites⟩⟩⟩

instance setShape (id : TypeId) (shape : Shape) : Adds (Check.setShape id shape) :=
  ⟨fun _ => ⟨⟨refl _, fun _ _ h => h, List.suffix_cons _ _, List.suffix_refl _⟩, fun _ h => h,
    fun h => ⟨h.types, h.sites⟩⟩⟩

instance setAlias (id target : TypeId) : Adds (Check.setAlias id target) :=
  ⟨fun _ => ⟨⟨refl _, fun _ _ h => h, List.suffix_cons _ _, List.suffix_refl _⟩, fun _ h => h,
    fun h => ⟨h.types, h.sites⟩⟩⟩

theorem within_record (st : State) (id wide : TypeId) :
    st.Within { st with widened := st.widened.insert id wide } :=
  ⟨⟨refl _, fun _ _ h => h, List.suffix_refl _, List.suffix_refl _⟩,
    fun _ h => Std.TreeMap.mem_insert.2 (.inr h), fun h => ⟨h.types, h.sites⟩⟩

instance widen (id : TypeId) : Adds (Check.widen id) := by
  refine .seq .get fun st => ?_
  split
  · exact .pure ()
  · exact .seq (.union _) fun wide => ⟨fun st => within_record st id wide⟩

/-- A node is entered only where it has no site. -/
instance declare (m : Module) (kind : DeclarationKind) (name : Option String) (node : NodeId) :
    Adds (m.declare kind name node) := by
  refine ⟨fun st => ⟨grows_declare st m kind name node, fun id hid => ?_, fun h => ?_⟩⟩
  · cases hsite : st.site? m.key node with
    | some d => rwa [declare_of_site? st m kind name node hsite]
    | none => rwa [declare_of_new st m kind name node hsite]
  · refine ⟨(interner_declare st m kind name node).symm ▸ h.types, ?_⟩
    cases hsite : st.site? m.key node with
    | some d =>
      rw [declare_of_site? st m kind name node hsite]
      exact h.sites
    | none =>
      rw [declare_of_new st m kind name node hsite]
      intro d d' site site' hd hd' hkey hnode
      have hfresh : ∀ (e : Nat) (old : Site), st.sites[e]? = some old →
          ¬(old.module = m.key ∧ old.declaration.node = node) := by
        intro e old he hold
        have hmem := Array.findIdx?_eq_none_iff.1 hsite old (Array.mem_of_getElem? he)
        simp [hold.1, hold.2] at hmem
      have hcases {e : Nat} {x : Site} (he : (st.sites.push
          ⟨m.key, ⟨kind, name, m.file.fileName, node⟩⟩)[e]? = some x) :
          st.sites[e]? = some x ∨ e = st.sites.size ∧ x.module = m.key ∧
            x.declaration.node = node := by
        rw [Array.getElem?_push] at he
        split at he
        · rename_i heq
          obtain rfl := Option.some.inj he
          exact .inr ⟨heq, rfl, rfl⟩
        · exact .inl he
      rcases hcases hd with h₁ | ⟨rfl, hk, hn⟩
      · rcases hcases hd' with h₂ | ⟨rfl, hk', hn'⟩
        · exact h.sites d d' site site' h₁ h₂ hkey hnode
        · exact absurd ⟨hkey.trans hk', hnode.trans hn'⟩ (hfresh d site h₁)
      · rcases hcases hd' with h₂ | ⟨rfl, -, -⟩
        · exact absurd ⟨hkey.symm.trans hk, hnode.symm.trans hn⟩ (hfresh d' site' h₂)
        · rfl

instance tables : Adds Check.tables := .get

instance lift {α : Type} (act : Checking α) [h : Adds act] : Adds (liftM act : Checking α) := h

end Adds

/-! ## The checker -/

section Nodes

variable (strict : Bool) (resolve : Resolve) [hres : ∀ m s r, Adds (resolve m s r)] (m : Module)
  (s : Surroundings)

instance adds_parameterType (r : Ref) : Adds (parameterType resolve m s r) := by
  unfold parameterType
  split <;> infer_instance

instance adds_functionShape (parameters : List Ref) (result : Ref) :
    Adds (functionShape resolve m s parameters result) := by
  unfold functionShape
  infer_instance

instance adds_memberType (method : Bool) (parameters : Option (List Ref)) (ascription : Ref) :
    Adds (memberType resolve m s method parameters ascription) := by
  unfold memberType
  infer_instance

instance adds_addMember (shape : Shape) (member : Ref) :
    Adds (addMember strict resolve m s shape member) := by
  unfold addMember
  split
  · split
    · infer_instance
    · dsimp only
      infer_instance
  · infer_instance

instance adds_parameterArgument (name : String) (fallback : Ref) (argument : Option TypeId) :
    Adds (parameterArgument resolve m s name fallback argument) := by
  unfold parameterArgument
  split
  · infer_instance
  · split <;> infer_instance

instance adds_bindParameter (r : Ref) (argument : Option TypeId) :
    Adds (bindParameter resolve m s r argument) := by
  unfold bindParameter
  split
  · split <;> infer_instance
  · infer_instance

instance adds_bindArguments (parameters : List Ref) (arguments : List TypeId) :
    Adds (bindArguments resolve m parameters arguments s) := by
  induction parameters generalizing arguments s with
  | nil => exact .pure s
  | cons r rs ih =>
    unfold bindArguments
    infer_instance

variable (bases : BasesIn Checking) [hbases : ∀ m name s clauses, Adds (bases m name s clauses)]

instance adds_interfacePart (name : String) (frames : Frames) (arguments : List TypeId)
    (part : Shape × List TypeId) (node : NodeId) :
    Adds (interfacePart strict resolve bases m name frames arguments part node) := by
  unfold interfacePart
  split <;> infer_instance

instance adds_interfaceType (name : String) (first : NodeId) (merged : List NodeId)
    (frames : Frames) (arguments : List TypeId) :
    Adds (interfaceType strict resolve bases m name first merged frames arguments) := by
  refine .seq inferInstance fun declaration => .seq inferInstance fun id =>
    .seq .tables fun st => ?_
  split
  · exact .pure id
  · refine .seq (.start id) fun _ => .seq inferInstance fun part => .seq .tables fun st => ?_
    exact .seq (.setShape id _) fun _ => .seq (.finish id) fun _ => .pure id

instance adds_aliasView (id target : TypeId) : Adds (aliasView id target) := by
  refine .seq .get fun st => ?_
  split <;> infer_instance

instance adds_aliasType (name : String) (node : NodeId) (frames : Frames)
    (arguments : List TypeId) :
    Adds (aliasType resolve m name node frames arguments) := by
  refine .seq inferInstance fun declaration => .seq inferInstance fun id =>
    .seq .tables fun st => ?_
  split
  · exact adds_aliasView id _
  · split
    · exact .pure id
    · split
      · refine .seq (.start id) fun _ => .seq inferInstance fun s =>
          .seq inferInstance fun target => ?_
        exact .seq (.setAlias id target) fun _ => .seq (.finish id) fun _ =>
          adds_aliasView id target
      · exact .pure _

instance adds_declaredType (sources : Sources) (name : String) (symbol : TypeName) (frames : Frames)
    (arguments : List TypeId) :
    Adds (declaredType strict resolve sources bases m name symbol frames arguments) := by
  unfold declaredType
  cases symbol with
  | interface first merged => exact .map
  | typeAlias node => exact .map
  | imported module exported =>
    dsimp only
    split
    · rename_i m' name' symbol' _
      cases symbol' with
      | interface first merged => exact .map
      | typeAlias node => exact .map
      | imported _ _ => exact .pure none
    · exact .pure none

instance adds_builtinType (name : String) (arguments : List TypeId) :
    Adds (builtinType name arguments) := by
  unfold builtinType
  split <;> infer_instance

instance adds_literalType (a : Arena) (r : Ref) : Adds (literalType a r) := by
  unfold literalType
  split
  · split <;> infer_instance
  · split <;> infer_instance
  all_goals infer_instance

instance adds_referenceType (sources : Sources) (name : Ref) (arguments : Option (List Ref)) :
    Adds (referenceType strict resolve sources bases m s name arguments) := by
  unfold referenceType
  split
  · exact .pure _
  · refine .seq inferInstance fun ids => ?_
    split
    · exact .pure _
    · dsimp only
      split
      case' h_1 => refine .seq inferInstance fun declared => ?_
      case' h_2 => refine .seq inferInstance fun declared => ?_
      case' h_3 => refine .seq (.pure none) fun declared => ?_
      all_goals cases declared <;> infer_instance

instance adds_mappedShape (parameter : String) (template : Ref) (keys : List (String × TypeId)) :
    Adds (mappedShape resolve m s parameter template keys) := by
  induction keys with
  | nil => exact .pure []
  | cons key keys ih => exact .seq inferInstance fun _ => .seq ih fun _ => .pure _

instance adds_mappedType (parameter template : Ref) :
    Adds (mappedType resolve m s parameter template) := by
  unfold mappedType
  dsimp only
  split
  · split
    · exact .seq inferInstance fun _ => .seq .tables fun _ => .seq inferInstance fun _ => .intern _
    · exact .pure _
  · exact .pure _

instance adds_nodeType (sources : Sources) (r : Ref) :
    Adds (nodeType strict resolve sources bases m s r) := by
  unfold nodeType
  split
  · exact .pure _
  · split <;> infer_instance

end Nodes

instance adds_baseTypes (base : Option Resolve)
    [hbase : ∀ b : base.isSome = true, ∀ m s r, Adds (base.get b m s r)] (m : Module)
    (name : String)
    (s : Surroundings) (clauses : List Ref) : Adds (baseTypes base m name s clauses) := by
  unfold baseTypes
  split
  · infer_instance
  · rename_i base _
    have hbase (r : Ref) : Adds (base m s r) := hbase rfl m s r
    infer_instance
  · infer_instance

/-- Working out a type only adds, at every depth. -/
instance adds_resolveType (strict : Bool) (sources : Sources) (levels heritage : Nat) (m : Module)
    (s : Surroundings) (r : Ref) : Adds (resolveType strict sources levels heritage m s r) := by
  induction levels generalizing heritage m s r with
  | zero =>
    cases r with
    | none => exact .pure _
    | some node => exact .seq (.warn _) fun _ => .pure _
  | succ levels ih =>
    have hbases (h : (resolveBases strict sources levels heritage).isSome = true) (m : Module)
        (s : Surroundings) (r : Ref) :
        Adds ((resolveBases strict sources levels heritage).get h m s r) := by
      cases heritage with
      | zero => exact absurd h Bool.false_ne_true
      | succ more => exact ih more m s r
    rw [resolveType_succ]
    infer_instance

/-! ## The walk -/

section Walk

variable (resolve : Resolve) [hres : ∀ m s r, Adds (resolve m s r)] (sources : Sources) (m : Module)

omit hres in
instance adds_callSignature (scopes : Scopes) (callee : Ref) :
    Adds (callSignature sources m scopes callee) := by
  unfold callSignature
  split <;> infer_instance

instance adds_recordType (scopes : Scopes) (facts : Facts) (r : Ref) :
    Adds (recordType resolve m scopes facts r) := by
  unfold recordType
  split <;> infer_instance

instance adds_recordNode (scopes : Scopes) (facts : Facts) (node : NodeId) (p : Payload Ref) :
    Adds (recordNode resolve sources m scopes facts node p) := by
  unfold recordNode
  split
  · refine .seq inferInstance fun signature => ?_
    cases signature <;> exact .foldlM _ _
  all_goals infer_instance

end Walk

section Files

variable (strict : Bool) (sources : Sources) (m : Module)

/-- So does a walk, since all it does is to work out types and to enter declarations. -/
instance adds_walkFile (levels : Nat) (scopes : Scopes) (facts : Facts) (node : NodeId) :
    Adds (walkFile strict sources m levels scopes facts node) := by
  induction levels generalizing scopes facts node with
  | zero => exact .pure facts
  | succ levels ih =>
    unfold walkFile walkNode
    dsimp only
    split <;> infer_instance

instance adds_fileFacts : Adds (fileFacts strict sources m) := by
  unfold fileFacts rootFacts
  split <;> infer_instance

end Files

instance adds_checkFiles (strict : Bool) (sources : Sources) (ms : List Module) :
    Adds (Program.checkFiles strict sources ms) := by
  induction ms with
  | nil => exact .pure []
  | cons m ms ih => exact .seq (adds_fileFacts strict sources m) fun _ => .seq ih fun _ => .pure _

end TypeReify.Check
