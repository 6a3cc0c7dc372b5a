import TypeReify.Proofs.Check.Works

/-!
# Working out types is work

Each function of the checker works on one node and leaves the nodes beneath to `resolve`. Where what
`resolve` does is work (`Works`) and answers a known type, so is what the function does, and so by
induction on the levels it is for every type node of a program.

There is a lemma for each function that `resolve_type` calls, and where it enters a named type the
lemma says what `interface_shapes` or `alias_targets` has afterwards.

Results:
* `addMember_yields`: one more own member.
* `interfaceType_yields`, `aliasType_yields`: a named type is worked out at most once.
* `referenceType_yields`, `mappedType_yields`: where computed properties come from.
* `resolveType_works`: working out a type is work, and answers a known type.
-/

namespace TypeReify.Check

open Syntax Scope
open TypeReify.Types

/-- The names of all modules agree with their files, and no two modules share a key. -/
structure Sources.Proper (sources : Sources) : Prop where
  fits : ∀ m ∈ sources.modules, Sources.Fits m
  keys : (sources.modules.map (·.key)).Nodup

theorem Sources.proper_ofFiles (files : List SourceFile) : (Sources.ofFiles files).Proper :=
  ⟨fun _ hm => fits_ofFiles hm, keys_nodup files⟩

/-- The frames around a place of a file agree with the file. -/
def Frames.Fits (f : SourceFile) (frames : Frames) : Prop := ∀ frame ∈ frames, frame.types.Fits f

theorem Frames.fits_nil (f : SourceFile) : Frames.Fits f [] :=
  fun _ hmem => absurd hmem List.not_mem_nil

/-- What is bound at a place of a file is known. -/
structure Surroundings.Fits (f : SourceFile) (st : State) (s : Surroundings) : Prop where
  frames : s.frames.Fits f
  bindings : ∀ b ∈ s.bindings, st.Knows b.2

theorem Surroundings.fits_ofFrames {f : SourceFile} {frames : Frames} (h : frames.Fits f)
    (st : State) :
    (Surroundings.ofFrames frames).Fits f st :=
  ⟨h, fun _ hb => absurd hb List.not_mem_nil⟩

/-- Surroundings stay fitting while the tables grow. -/
theorem Surroundings.Fits.mono {f : SourceFile} {st st' : State} {s : Surroundings}
    (h : s.Fits f st) (hst : st.Grows st') : s.Fits f st' :=
  ⟨h.frames, fun b hb => (h.bindings b hb).mono hst.interner⟩

theorem Surroundings.Fits.bind {f : SourceFile} {st : State} {s : Surroundings} (h : s.Fits f st)
    (name : String) {type : TypeId} (ht : st.Knows type) : (s.bind name type).Fits f st :=
  ⟨h.frames, List.forall_mem_cons.2 ⟨ht, h.bindings⟩⟩

theorem Surroundings.Fits.get? {f : SourceFile} {st : State} {s : Surroundings} (h : s.Fits f st)
    {name : String} {type : TypeId} (hget : s.get? name = some type) : st.Knows type := by
  obtain ⟨before, after, hsplit, -⟩ := List.lookup_eq_some_iff.1 hget
  exact h.bindings (name, type) (hsplit ▸ List.mem_append_right before List.mem_cons_self)

/-- Working out any type of the program is work, and answers a known type. -/
def Resolve.Works (strict : Bool) (sources : Sources) (resolve : Resolve) : Prop :=
  ∀ m ∈ sources.modules, ∀ (s : Surroundings) (st : State), st.Consistent sources →
    s.Fits m.file st →
    ∀ r, Yields (Check.Works strict sources) st (resolve m s r) fun st' id => st'.Knows id

section Types

variable {strict : Bool} {sources : Sources} {st : State}

/-- Keyword types are known from the start. -/
theorem knows_of_lt (st : State) {id : Nat} (h : id < intrinsicNames.length) : st.Knows id :=
  st.interner.known_of_lt h

theorem knows_any (st : State) : st.Knows TypeId.any :=
  knows_of_lt st (show TypeId.any < intrinsicNames.length by decide)

/-- A keyword type is known, and answering it is no work. -/
theorem Works.constant {id : Nat} (h : id < intrinsicNames.length) :
    Yields (Works strict sources) st (pure id : Checking TypeId) fun st' id => st'.Knows id :=
  .pure (knows_of_lt st h)

/-- What an action answers in a consistent state is an answer ever after. -/
theorem yields_answered {α : Type} {act : Checking α} {post : State → α → Prop}
    (h : Yields (Works strict sources) st act post) (hst : st.Consistent sources) :
    Yields (Works strict sources) st act fun st' x => post st' x ∧ Answered sources st' act x :=
  ⟨h.le, h.post, st, hst, rfl, refl _⟩

theorem knows_keywordType (st : State) (k : Token) : st.Knows (keywordType k) :=
  knows_of_lt st (keywordType_lt k)

/-- Literals mention no other types. -/
theorem literalType_yields (a : Arena) (r : Ref) :
    Yields (Works strict sources) st (literalType a r) fun st' id => st'.Knows id := by
  have hliteral (value : Literal) :
      Yields (Works strict sources) st (intern (.literal value)) fun st' id => st'.Knows id :=
    Works.intern not_false (fun _ hx => absurd hx List.not_mem_nil) nofun
  unfold literalType
  split
  · split
    · exact hliteral _
    · exact Works.constant (by decide)
  · split
    · exact hliteral _
    · exact Works.constant (by decide)
  · exact Works.constant (by decide)
  · exact Works.constant (by decide)
  · exact Works.constant (by decide)
  · exact Works.constant (by decide)

/-- A generic type that is there without a declaration. -/
theorem builtinType_yields (name : String) {arguments : List TypeId}
    (ha : ∀ x ∈ arguments, st.Knows x)
    (hcomputed : ∀ keys value id, name = "Record" → arguments = [keys, value] →
      (builtinType "Record" [keys, value] st).1 = some id →
        Computed strict sources (builtinType "Record" [keys, value] st).2 id) :
    Yields (Works strict sources) st (builtinType name arguments) fun st' out =>
      ∀ id ∈ out, st'.Knows id := by
  have hsome {s : Structure} (hs : ¬s.IsNamed) (hm : ∀ x ∈ s.mentions, st.Knows x)
      (ho : ∀ shape, s = .object shape →
        ObjectOf strict sources (intern s st).2 (intern s st).1 shape) :
      Yields (Works strict sources) st (some <$> intern s) fun st' out =>
        ∀ id ∈ out, st'.Knows id :=
    (Works.intern hs hm ho).map fun _ _ _ hid _ hx => Option.some.inj hx ▸ hid
  unfold builtinType
  split
  · exact hsome (s := .array _) not_false ha nofun
  · exact hsome (s := .array _) not_false ha nofun
  · rename_i keys value
    have horigin := hcomputed keys value _ rfl rfl rfl
    refine Yields.get.seq fun t x _ hread => ?_
    obtain ⟨rfl, rfl⟩ := hread
    refine hsome (s := .object _) not_false (fun x hx => ?_) fun shape heq => ?_
    · obtain ⟨p, hp, rfl⟩ := List.mem_map.1 hx
      obtain ⟨k, -, rfl⟩ := List.mem_map.1 hp
      exact ha value (List.mem_cons_of_mem keys List.mem_cons_self)
    · obtain rfl := Structure.object.inj heq
      refine .computed horigin ?_ fun p hp => ?_
      · rw [List.map_map]
        exact nodup_literalKeys typeDepth keys List.nodup_nil
      · obtain ⟨k, -, rfl⟩ := List.mem_map.1 hp
        rfl
  · exact .pure fun _ hx => absurd hx nofun

/-- Both what an alias is and what it stands for are known by the time it is looked at. -/
theorem aliasView_yields {id target : TypeId} (hid : st.Knows id) (ht : st.Knows target) :
    Yields (Works strict sources) st (aliasView id target) fun st' id => st'.Knows id := by
  unfold aliasView
  refine Yields.get.seq fun t x _ hread => ?_
  obtain ⟨rfl, rfl⟩ := hread
  split
  · exact .pure hid
  · exact .pure hid
  · exact .pure hid
  · exact .pure ht

end Types

/-! ## Members -/

section Members

variable {strict : Bool} {sources : Sources} {resolve : Resolve}
  (hres : resolve.Works strict sources)
  {m : Module} (hm : m ∈ sources.modules) {s : Surroundings} {st : State}
  (hst : st.Consistent sources) (hs : s.Fits m.file st)
include hres hm hst hs

theorem parameterType_yields (r : Ref) :
    Yields (Works strict sources) st (parameterType resolve m s r) fun st' out =>
      ∀ p ∈ out, st'.Knows p.type := by
  unfold parameterType
  split
  · exact (hres m hm s st hst hs _).seq fun t type _ htype =>
      .pure fun p hp => Option.some.inj hp ▸ htype
  · exact .pure fun _ hp => absurd hp nofun

theorem functionShape_yields (parameters : List Ref) (result : Ref) :
    Yields (Works strict sources) st (functionShape resolve m s parameters result) fun st' shape =>
      ∀ x ∈ (Structure.function shape).mentions, st'.Knows x := by
  have hparameters : Yields (Works strict sources) st
    (parameters.filterMapM (parameterType resolve m s))
      fun st' ps => ∀ p ∈ ps, st'.Knows p.type :=
    Yields.filterMapM (fun _ _ p ht hp => hp.mono ht.grows.interner) fun r _ t ht =>
      parameterType_yields hres hm (ht.consistent hst) (hs.mono ht.grows) r
  refine hparameters.bind (fun _ _ ps ht hps p hp => (hps p hp).mono ht.grows.interner)
    fun t ps ht _ => ?_
  refine (hres m hm s t (ht.consistent hst) (hs.mono ht.grows) result).seq fun u type _ htype =>
    .pure fun hps x hx => ?_
  rcases List.mem_append.1 hx with hx | hx
  · obtain ⟨p, hp, rfl⟩ := List.mem_map.1 hx
    exact hps p hp
  · exact List.mem_singleton.1 hx ▸ htype

/-- A method is interned as a function, whose parts are known then. -/
theorem memberType_yields (method : Bool) (parameters : Option (List Ref)) (ascription : Ref) :
    Yields (Works strict sources) st (memberType resolve m s method parameters ascription)
      fun st' id => st'.Knows id := by
  unfold memberType
  split
  · exact (functionShape_yields hres hm hst hs _ _).seq fun t shape _ hshape =>
      Works.intern not_false hshape nofun
  · exact hres m hm s st hst hs ascription

end Members

/-- One more own member. -/
theorem addMember_yields {strict : Bool} {sources : Sources} {levels heritage : Nat}
    (hres : (resolveType strict sources levels heritage).Works strict sources)
    (hkeys : (sources.modules.map (·.key)).Nodup) {m : Module} (hm : m ∈ sources.modules)
    {s : Surroundings} {st : State} (hst : st.Consistent sources) (hs : s.Fits m.file st)
    {members : List (Surroundings × Ref)} {shape : Shape}
    (hshape : OwnMembers strict sources m st members shape) (r : Ref) :
    Yields (Works strict sources) st
      (addMember strict (resolveType strict sources levels heritage) m s shape r) fun st' shape' =>
        OwnMembers strict sources m st' (members ++ [(s, r)]) shape' := by
  unfold addMember
  split
  · rename_i node h name types parameters ascription hc
    split
    · rename_i htext
      exact .pure (hshape.skip (by simp [member?, hc, htext]))
    · rename_i text htext
      have hr : member? m.file.arena s (some node) = some ⟨s, node, text⟩ := by
        simp [member?, hc, htext]
      have hh : m.file.arena.header? (some node) = some h := (Arena.content?_eq_some.1 hc).1
      have hkind : ((⟨s, node, text⟩ : Member).site m).declaration.kind =
          if (h.kind == .form .methodSignature) = true then .methodSignature
          else .propertySignature := by
        simp [Member.site, Arena.kind?, hh]
      have hdeclares : m.Declares
          (if (h.kind == .form .methodSignature) = true then .methodSignature
            else .propertySignature) (some text) node := by
        rw [Module.Declares, hc]
        exact ⟨rfl, htext.symm⟩
      have hdeclare : Yields (Works strict sources) st
          (m.declare (if (h.kind == .form .methodSignature) = true then .methodSignature
            else .propertySignature) (some text) node)
          fun st' d => st'.sites[d]? = some ((⟨s, node, text⟩ : Member).site m) := by
        refine ⟨.declare hm hdeclares, (site_declare hkeys hm hdeclares hst).trans ?_⟩
        rw [← hkind]
        rfl
      refine hdeclare.seq fun t d ht hd => ?_
      have hshape := hshape.mono ht.grows
      split
      · rename_i hold
        exact .pure (hshape.redeclare hr hold hd)
      · rename_i hnew
        have hmember := memberType_yields hres hm (ht.consistent hst) (hs.mono ht.grows)
          (h.kind == .form .methodSignature) parameters ascription
        refine (yields_answered hmember (ht.consistent hst)).seq fun u type hu htype => ?_
        have hadd {v : State} (hv : Check.Works strict sources u v) :
            OwnMembers strict sources m v (members ++ [(s, some node)]) (shape ++ [{
              name := text, type, optional := h.has .optional, readonly := h.has .readonly,
              method := h.kind == .form .methodSignature, declarations := [d] }]) := by
          refine ((hshape.mono hu.grows).mono hv.grows).add hr (by simpa using hnew)
            (hv.grows.sites d _ (hu.grows.sites d _ hd)) ?_ rfl (htype.1.mono hv.grows.interner)
          exact ⟨h, name, types, parameters, ascription, levels, heritage, hc, rfl, rfl, rfl, rfl,
            htype.2.mono hv.grows⟩
        dsimp only
        split
        · have hwiden : Yields (Works strict sources) u (widen type) fun _ _ => True :=
            ⟨.widen htype.1, trivial⟩
          exact hwiden.seq fun v _ hv _ => .pure (hadd hv)
        · exact .pure (hadd (refl u))
  · rename_i hnot
    refine .pure (hshape.skip ?_)
    unfold member?
    split
    · rename_i node h name types parameters ascription hc
      exact absurd hc (hnot node h name types parameters ascription rfl)
    · rfl

/-- A list of members, one after the other: the shape so far is made of the members so far. -/
theorem addMembers_yields {strict : Bool} {sources : Sources} {levels heritage : Nat}
    (hres : (resolveType strict sources levels heritage).Works strict sources)
    (hkeys : (sources.modules.map (·.key)).Nodup) {m : Module} (hm : m ∈ sources.modules)
    {s : Surroundings} {st : State} (hst : st.Consistent sources) (hs : s.Fits m.file st)
    {members : List (Surroundings × Ref)} {shape : Shape}
    (hshape : OwnMembers strict sources m st members shape) (rs : List Ref) :
    Yields (Works strict sources) st
      (rs.foldlM (addMember strict (resolveType strict sources levels heritage) m s) shape)
      fun st' shape' => OwnMembers strict sources m st' (members ++ rs.map (s, ·)) shape' := by
  have hnone : OwnMembers strict sources m st (members ++ [].map (s, ·)) shape := by
    rw [List.map_nil, List.append_nil]
    exact hshape
  refine Yields.foldlM_append
    (fun st' done shape => OwnMembers strict sources m st' (members ++ done.map (s, ·)) shape) hnone
    fun r _ t done shape' ht hshape' => ?_
  have hstep := addMember_yields hres hkeys hm (ht.consistent hst) (hs.mono ht.grows) hshape' r
  rwa [List.append_assoc, ← List.map_singleton, ← List.map_append] at hstep

/-! ## Type parameters -/

section Parameters

variable {strict : Bool} {sources : Sources} {resolve : Resolve}
  (hres : resolve.Works strict sources)
  {m : Module} (hm : m ∈ sources.modules) {st : State} (hst : st.Consistent sources)
include hres hm hst

theorem bindParameter_yields {s : Surroundings} (hs : s.Fits m.file st) (r : Ref)
    {argument : Option TypeId} (ha : ∀ x ∈ argument, st.Knows x) :
    Yields (Works strict sources) st (bindParameter resolve m s r argument) fun st' s' =>
      s'.Fits m.file st' := by
  unfold bindParameter
  split
  · split
    · rename_i text htext
      have hargument (fallback : Ref) : Yields (Works strict sources) st
          (parameterArgument resolve m s text fallback argument) fun st' type =>
            st'.Knows type := by
        unfold parameterArgument
        split
        · exact .pure (ha _ rfl)
        · split
          · exact hres m hm s st hst hs _
          · exact Works.intern not_false (fun _ hx => absurd hx List.not_mem_nil) nofun
      exact (hargument _).seq fun t type ht htype => .pure ((hs.mono ht.grows).bind text htype)
    · exact .pure hs
  · exact .pure hs

/-- Whether given, fallen back to or left open, what a type parameter is bound to is known. -/
theorem bindArguments_yields (parameters : List Ref) {arguments : List TypeId} {s : Surroundings}
    (hs : s.Fits m.file st) (ha : ∀ x ∈ arguments, st.Knows x) :
    Yields (Works strict sources) st (bindArguments resolve m parameters arguments s) fun st' s' =>
      s'.Fits m.file st' := by
  induction parameters generalizing arguments s st with
  | nil => exact .pure hs
  | cons r rs ih =>
    have hfirst : Yields (Works strict sources) st (bindParameter resolve m s r arguments.head?)
        fun st' s' => s'.Fits m.file st' :=
      bindParameter_yields hres hm hst hs r fun x hx => ha x (List.mem_of_mem_head? hx)
    refine hfirst.seq fun t s' ht hs' => ih (ht.consistent hst) hs' fun x hx => ?_
    exact (ha x (List.mem_of_mem_tail hx)).mono ht.grows.interner

end Parameters

/-! ## Named types -/

/-- What the binder takes for an interface is one, and has its name. -/
theorem declares_interface {m : Module} {name : String} {node : NodeId}
    (h : DeclaresInterface m.file.arena name node) : m.Declares .interface (some name) node := by
  obtain ⟨hd, n, _, _, _, hc, hn⟩ := h
  rw [Module.Declares, hc]
  exact ⟨rfl, hn.symm⟩

theorem declares_typeAlias {m : Module} {name : String} {node : NodeId}
    (h : DeclaresAlias m.file.arena name node) : m.Declares .typeAlias (some name) node := by
  obtain ⟨hd, n, _, _, hc, hn⟩ := h
  rw [Module.Declares, hc]
  exact ⟨rfl, hn.symm⟩

section Run

variable (strict : Bool) (resolve : Resolve) (bases : BasesIn Checking) {m : Module}
  {name : String} (frames : Frames) {arguments : List TypeId} {declaration : DeclId} {id : TypeId}
  {st t u : State}

/-- The run of an interface, with the entering of its declaration and of its type done already. It
is looked up if it is in the tables or in progress; else it is opened, worked out and completed. -/
theorem interfaceType_run {first : NodeId} (merged : List NodeId)
    (hdeclare : m.declare .interface (some name) first st = (declaration, t))
    (hintern : intern (.interface name declaration arguments) t = (id, u)) :
    interfaceType strict resolve bases m name first merged frames arguments st =
      if (u.named.shape? id).isSome || u.inProgress.contains id then (id, u)
      else
        let built := (first :: merged).foldlM
          (interfacePart strict resolve bases m name frames arguments) ([], []) (u.opened id)
        (id, built.2.completed id
          (.members (inheritAll built.1.1 built.1.2 built.2.propertiesOf))) := by
  by_cases h : ((u.named.shape? id).isSome || u.inProgress.contains id) = true
  · simp only [interfaceType, bind, StateT.bind, liftM_checking, tables_run, pure,
      hdeclare, hintern, if_pos h]
    rfl
  · simp only [interfaceType, bind, StateT.bind, liftM_checking, tables_run, pure,
      hdeclare, hintern, if_neg h]
    rfl

/-- The run of an alias in the same way: looked up, left to itself while it is in progress, or
worked out from its body. -/
theorem aliasType_run {node : NodeId} {h : Header} {n body : Ref} {parameters : Option (List Ref)}
    (hc : m.file.arena.content? (some node) = some (h, .typeAlias n parameters body))
    (hdeclare : m.declare .typeAlias (some name) node st = (declaration, t))
    (hintern : intern (.synonym name declaration arguments) t = (id, u)) :
    aliasType resolve m name node frames arguments st =
      match u.named.target? id with
      | some target => aliasView id target u
      | none =>
        if u.inProgress.contains id then (id, u)
        else
          let bound := bindArguments resolve m (parameters.getD []) arguments (.ofFrames frames)
            (u.opened id)
          let target := resolve m bound.1 body bound.2
          aliasView id target.1 (target.2.completed id (.target target.1)) := by
  cases htarget : u.named.target? id with
  | some target =>
    simp only [aliasType, bind, StateT.bind, liftM_checking, tables_run, hdeclare, hintern, htarget]
  | none =>
    by_cases hprogress : u.inProgress.contains id = true
    · simp only [aliasType, bind, StateT.bind, liftM_checking, tables_run, pure,
        hdeclare, hintern, htarget, if_pos hprogress]
      rfl
    · simp only [aliasType, bind, StateT.bind, liftM_checking, tables_run, pure,
        hdeclare, hintern, htarget, if_neg hprogress, hc]
      rfl

end Run

section Named

variable {strict : Bool} {sources : Sources} {levels : Nat}
  (hres : ∀ heritage, (resolveType strict sources levels heritage).Works strict sources)
  {m : Module} (hm : m ∈ sources.modules) {st : State} (hst : st.Consistent sources)
  {resolveBase : Option Resolve}
  (hbase : ∀ base ∈ resolveBase, ∃ rest, base = resolveType strict sources levels rest)
include hres hm hst

theorem resolveTypes_yields (heritage : Nat) {s : Surroundings} (hs : s.Fits m.file st)
    (rs : List Ref) :
    Yields (Works strict sources) st (rs.mapM (resolveType strict sources levels heritage m s))
      fun st' ids => (∀ id ∈ ids, st'.Knows id) ∧ List.Forall₂ (fun r =>
        Answered sources st' (resolveType strict sources levels heritage m s r)) rs ids := by
  have hall : Yields (Works strict sources) st
      (rs.mapM (resolveType strict sources levels heritage m s)) fun st' ids =>
        List.Forall₂ (fun r id => st'.Knows id ∧
          Answered sources st' (resolveType strict sources levels heritage m s r) id) rs ids :=
    Yields.mapM (fun _ _ _ _ ht h => ⟨h.1.mono ht.grows.interner, h.2.mono ht.grows⟩)
      fun r _ t ht => yields_answered
        (hres heritage m hm s t (ht.consistent hst) (hs.mono ht.grows) r) (ht.consistent hst)
  exact hall.mono fun _ _ _ h => ⟨forall_of_forall₂ h fun _ _ h => h.1, h.imp fun _ _ h => h.2⟩

/-- The bases of an interface, unless the `extends` clauses lead too deep. -/
theorem baseTypes_yields
    (hbase : ∀ base ∈ resolveBase, ∃ rest, base = resolveType strict sources levels rest)
    (name : String) {s : Surroundings} (hs : s.Fits m.file st) (clauses : List Ref) :
    Yields (Works strict sources) st (baseTypes resolveBase m name s clauses) fun st' bases =>
      (∀ base ∈ bases, st'.Knows base) ∧ (st'.warnings = [] → ∃ rest, List.Forall₂ (fun clause =>
        Answered sources st' (resolveType strict sources levels rest m s clause)) clauses
          bases) := by
  unfold baseTypes
  split
  · exact .pure ⟨fun _ hb => absurd hb List.not_mem_nil, fun _ => ⟨0, .nil⟩⟩
  · rename_i base hnil
    obtain ⟨rest, rfl⟩ := hbase base rfl
    exact (resolveTypes_yields hres hm hst rest hs clauses).mono
      fun _ _ _ h => ⟨h.1, fun _ => ⟨rest, h.2⟩⟩
  · refine ⟨.warn _, fun _ hb => absurd hb List.not_mem_nil, fun hw => ?_⟩
    exact absurd hw (List.cons_ne_nil _ _)

/-- One declaration of an interface: its members come behind those of the declarations before it,
and so do its bases. -/
theorem interfacePart_yields (hkeys : (sources.modules.map (·.key)).Nodup)
    (hbase : ∀ base ∈ resolveBase, ∃ rest, base = resolveType strict sources levels rest)
    (heritage : Nat) (name : String) {frames : Frames} (hf : frames.Fits m.file)
    {arguments : List TypeId} (ha : ∀ x ∈ arguments, st.Knows x)
    {around : List (NodeId × Surroundings)} {part : Shape × List TypeId}
    (hpart : Gathered strict sources st m frames arguments around part) {node : NodeId}
    (hnode : DeclaresInterface m.file.arena name node) :
    Yields (Works strict sources) st (interfacePart strict
      (resolveType strict sources levels heritage)
      (baseTypes resolveBase) m name frames arguments part node)
      fun st' part' => ∃ s,
        Gathered strict sources st' m frames arguments (around ++ [(node, s)]) part' := by
  obtain ⟨hd, n, parameters, clauses, members, hc, -⟩ := hnode
  have hparameters : m.parametersOf node = parameters.getD [] := by rw [Module.parametersOf, hc]
  have hheritage : m.heritageOf node = clauses.getD [] := by rw [Module.heritageOf, hc]
  have hmembers : m.membersOf node = members := by rw [Module.membersOf, hc]
  unfold interfacePart
  rw [hc]
  dsimp only
  refine (yields_answered (bindArguments_yields (hres heritage) hm hst (parameters.getD [])
    (Surroundings.fits_ofFrames hf st) ha) hst).seq fun t s ht hs => ?_
  have hstt := ht.consistent hst
  refine (addMembers_yields (hres heritage) hkeys hm hstt hs.1
    (hpart.own.mono ht.grows) members).seq
    fun u shape hu hshape => ?_
  refine (baseTypes_yields hres hm (hu.consistent hstt) hbase name (hs.1.mono hu.grows)
    (clauses.getD [])).seq fun v bases hv hnew => .pure ⟨s, ?_⟩
  have hpart := hpart.mono (trans_of State.Grows ht.grows (trans_of State.Grows hu.grows hv.grows))
  refine ⟨fun x hx => ?_, ?_, fun base hmem => ?_, fun hw => ?_⟩
  · rcases List.mem_append.1 hx with hx | hx
    · exact hpart.inside x hx
    · obtain rfl := List.mem_singleton.1 hx
      refine ⟨levels, heritage, ?_⟩
      rw [hparameters]
      exact hs.2.mono (trans_of State.Grows hu.grows hv.grows)
  · rw [List.flatMap_append, List.flatMap_singleton, hmembers]
    exact hshape.mono hv.grows
  · rcases List.mem_append.1 hmem with hmem | hmem
    · exact hpart.known base hmem
    · exact hnew.1 base hmem
  · obtain ⟨parts, hparts, hflat⟩ := hpart.bases hw
    obtain ⟨rest, hrest⟩ := hnew.2 hw
    refine ⟨parts ++ [bases], List.rel_append hparts (.cons ⟨levels, rest, ?_⟩ .nil), ?_⟩
    · rw [hheritage]
      exact hrest
    · rw [List.flatten_append, ← hflat, List.flatten_singleton]

/-- All declarations of an interface, first to last. Its own members and its bases are gathered
apart. -/
theorem interfaceParts_yields (hkeys : (sources.modules.map (·.key)).Nodup)
    (hbase : ∀ base ∈ resolveBase, ∃ rest, base = resolveType strict sources levels rest)
    (heritage : Nat) (name : String) {frames : Frames} (hf : frames.Fits m.file)
    {arguments : List TypeId} (ha : ∀ x ∈ arguments, st.Knows x) {nodes : List NodeId}
    (hnodes : ∀ node ∈ nodes, DeclaresInterface m.file.arena name node) :
    Yields (Works strict sources) st (nodes.foldlM (interfacePart strict
      (resolveType strict sources levels heritage) (baseTypes resolveBase) m name frames arguments)
      ([], []))
      fun st' part => ∃ around, around.map (·.1) = nodes ∧
        Gathered strict sources st' m frames arguments around part := by
  have hnone : Gathered strict sources st m frames arguments [] ([], []) :=
    ⟨fun _ hx => absurd hx List.not_mem_nil, .empty strict sources m st,
      fun _ hb => absurd hb List.not_mem_nil, fun _ => ⟨[], .nil, rfl⟩⟩
  have hstep (node : NodeId) (hnode : node ∈ nodes) (u : State) (done : List NodeId)
      (part : Shape × List TypeId) (hu : Works strict sources st u)
      (hpart : ∃ around, around.map (·.1) = done ∧
        Gathered strict sources u m frames arguments around part) :
      Yields (Works strict sources) u (interfacePart strict
        (resolveType strict sources levels heritage)
        (baseTypes resolveBase) m name frames arguments part node)
        fun v part' => ∃ around, around.map (·.1) = done ++ [node] ∧
          Gathered strict sources v m frames arguments around part' := by
    obtain ⟨around, rfl, hpart⟩ := hpart
    have hau : ∀ x ∈ arguments, u.Knows x := fun x hx => (ha x hx).mono hu.grows.interner
    refine (interfacePart_yields hres hm (hu.consistent hst) hkeys hbase heritage name hf hau hpart
      (hnodes node hnode)).mono fun v part' _ hpart' => ?_
    obtain ⟨s, hpart'⟩ := hpart'
    exact ⟨around ++ [(node, s)], by rw [List.map_append, List.map_singleton], hpart'⟩
  exact Yields.foldlM_append (fun u done part => ∃ around, around.map (·.1) = done ∧
    Gathered strict sources u m frames arguments around part) ⟨[], rfl, hnone⟩ hstep

/-- An interface is worked out unless it was before, or is in progress. -/
theorem interfaceType_yields (hkeys : (sources.modules.map (·.key)).Nodup)
    (hlevels : levels < typeDepth) (heritage : Nat) {name : String} {first : NodeId}
    {merged : List NodeId} {statements : List Ref} (hscope : Scoped m.file statements)
    (hnodes : first :: merged = interfaces m.file.arena name statements) {frames : Frames}
    (hf : frames.Fits m.file) {arguments : List TypeId} (ha : ∀ x ∈ arguments, st.Knows x) :
    Yields (Works strict sources) st (interfaceType strict
      (resolveType strict sources levels heritage)
      (baseTypes (resolveBases strict sources levels heritage)) m name
      first merged frames arguments) fun st' id => st'.Knows id := by
  have hdeclared : ∀ node ∈ first :: merged, DeclaresInterface m.file.arena name node :=
    fun node h => declaresInterface_of_mem (hnodes ▸ h)
  have hdeclares := declares_interface (hdeclared first List.mem_cons_self)
  have ht : Works strict sources st (m.declare .interface (some name) first st).2 :=
    .declare hm hdeclares
  have hsite := site_declare hkeys hm hdeclares hst
  rcases hdeclare : m.declare .interface (some name) first st with ⟨declaration, t⟩
  rw [hdeclare] at ht hsite
  dsimp only at ht hsite
  rcases hintern : intern (.interface name declaration arguments) t with ⟨id, u⟩
  have hrun := interfaceType_run strict (resolveType strict sources levels heritage)
    (baseTypes (resolveBases strict sources levels heritage)) frames merged hdeclare hintern
  have hct := ht.consistent hst
  have hs : (Structure.interface name declaration arguments).IsNamed := trivial
  have hmentions : ∀ x ∈ (Structure.interface name declaration arguments).mentions, t.Knows x :=
    fun x hx => (ha x hx).mono ht.grows.interner
  obtain ⟨htu, hget⟩ := interned_named hs hintern
  obtain ⟨hdistinct, hfits⟩ := hct.interned_fits hintern
  have hguard : ((u.named.shape? id).isSome || u.inProgress.contains id) = true ↔
      id ∈ u.named.ids ∨ id ∈ u.inProgress := by
    rw [Bool.or_eq_true_iff, isSome_shape?_iff hdistinct hfits hget, List.contains_iff_mem]
  -- In the tables or in progress: nothing is added. Else the type is opened, and whatever is worked
  -- out inside is worked out while it is in progress.
  by_cases hknown : id ∈ u.named.ids ∨ id ∈ u.inProgress
  · rw [if_pos (hguard.2 hknown)] at hrun
    have hu : Works strict sources t u := .entered hintern hs hmentions hknown
    exact .of_run hrun (trans_of (Works strict sources) ht hu) (.pure (.of_get? hget))
  · rw [if_neg (mt hguard.1 hknown)] at hrun
    obtain ⟨hnew, hidle⟩ := not_or.1 hknown
    have hopened : (u.opened id).Consistent sources := hct.opened hintern hmentions hnew
    have hau : ∀ x ∈ arguments, (u.opened id).Knows x := fun x hx =>
      (hmentions x hx).mono (trans_of State.Grows htu (grows_opened u id)).interner
    have hbase := @exists_of_mem_resolveBases strict sources levels heritage
    have hparts := interfaceParts_yields hres hm hopened hkeys hbase heritage name hf hau hdeclared
    dsimp only at hrun
    rcases hbuilt : (first :: merged).foldlM (interfacePart strict
      (resolveType strict sources levels heritage)
      (baseTypes (resolveBases strict sources levels heritage)) m name
      frames arguments) ([], []) (u.opened id) with ⟨⟨own, bases⟩, v⟩
    rw [hbuilt] at hrun
    obtain ⟨hv, around, haround, hgathered⟩ := hparts
    rw [hbuilt] at hv hgathered
    have hgrows : u.Grows v := trans_of State.Grows (grows_opened u id) hv.grows
    have hgetv := hgrows.interner.get?_of_some hget
    have hshape : (Named.members (inheritAll own bases v.propertiesOf)).Fits v.interner id := by
      refine ⟨⟨name, declaration, arguments, hgetv⟩, fun p hp => ?_⟩
      rcases mem_inheritAll hp with hp | ⟨base, -, hp⟩
      · exact hgathered.own.known p hp
      · exact (hv.consistent hopened).knows_propertiesOf typeDepth base p hp
    have hwhole : InterfaceOf strict sources v id own bases :=
      ⟨m, hm, name, declaration, arguments, first, merged, statements, frames, around, hgetv,
        hgrows.sites _ _ (htu.sites _ _ hsite), hscope, hnodes, haround, hgathered⟩
    -- This is the first reference, so the shape is what the tables keep from now on.
    let x : FirstReference :=
      ⟨m, name, first :: merged, frames, arguments, u.opened id, levels, heritage⟩
    have hx : x.To sources v id :=
      ⟨hm, ⟨statements, hscope, hnodes⟩, ⟨declaration, first, hgetv, rfl,
        hgrows.sites _ _ (htu.sites _ _ hsite)⟩, hlevels, hopened, List.mem_cons_self⟩
    have hxrun : x.run strict sources x.levels = (inheritAll own bases v.propertiesOf, v) := by
      simp only [x, FirstReference.run, interfaceShape, bind, StateT.bind, hbuilt]
      rfl
    have hworks : Works strict sources t (v.completed id _) :=
      .completed hintern hs hmentions hnew hidle hv hshape fun shape heq =>
        ⟨own, bases, hwhole, (Named.members.inj heq).symm, x, hx, Named.members.inj heq ▸ hxrun⟩
    exact .of_run hrun (trans_of (Works strict sources) ht hworks) (.pure (.of_get? hgetv))

/-- An alias is worked out unless it was before, or is in progress. -/
theorem aliasType_yields (heritage : Nat) {name : String} {node : NodeId}
    (hnode : DeclaresAlias m.file.arena name node) {frames : Frames} (hf : frames.Fits m.file)
    {arguments : List TypeId} (ha : ∀ x ∈ arguments, st.Knows x) :
    Yields (Works strict sources) st
      (aliasType (resolveType strict sources levels heritage) m name node
      frames arguments) fun st' id => st'.Knows id := by
  have hdeclares := declares_typeAlias hnode
  have ht : Works strict sources st (m.declare .typeAlias (some name) node st).2 :=
    .declare hm hdeclares
  obtain ⟨hd, n, parameters, body, hc, -⟩ := hnode
  rcases hdeclare : m.declare .typeAlias (some name) node st with ⟨declaration, t⟩
  rw [hdeclare] at ht
  dsimp only at ht
  rcases hintern : intern (.synonym name declaration arguments) t with ⟨id, u⟩
  have hct := ht.consistent hst
  have hs : (Structure.synonym name declaration arguments).IsNamed := trivial
  have hmentions : ∀ x ∈ (Structure.synonym name declaration arguments).mentions, t.Knows x :=
    fun x hx => (ha x hx).mono ht.grows.interner
  obtain ⟨htu, hget⟩ := interned_named hs hintern
  have hrun := aliasType_run (resolveType strict sources levels heritage) frames hc hdeclare hintern
  obtain ⟨hdistinct, hfits⟩ := hct.interned_fits hintern
  cases htarget : u.named.target? id with
  | some target =>
    have hmem : id ∈ u.named.ids := NamedTypes.mem_ids (NamedTypes.mem_of_target? htarget)
    have hu : Works strict sources t u := .entered hintern hs hmentions (.inl hmem)
    rw [htarget] at hrun
    refine Yields.of_run ?_ (trans_of (Works strict sources) ht hu)
      (aliasView_yields (.of_get? hget) ((hu.consistent hct).knows_of_target? htarget))
    exact hrun
  | none =>
    rw [htarget] at hrun
    dsimp only at hrun
    have hnew : id ∉ u.named.ids := by
      rw [← isSome_target?_iff hdistinct hfits hget, htarget]
      exact Bool.false_ne_true
    -- An alias that is in progress stands for itself.
    by_cases hprogress : id ∈ u.inProgress
    · rw [if_pos (List.contains_iff_mem.2 hprogress)] at hrun
      have hu : Works strict sources t u := .entered hintern hs hmentions (.inr hprogress)
      exact .of_run hrun (trans_of (Works strict sources) ht hu) (.pure (.of_get? hget))
    · rw [if_neg (mt List.contains_iff_mem.1 hprogress)] at hrun
      have hopened : (u.opened id).Consistent sources := hct.opened hintern hmentions hnew
      have hau : ∀ x ∈ arguments, (u.opened id).Knows x := fun x hx =>
        (hmentions x hx).mono (trans_of State.Grows htu (grows_opened u id)).interner
      have hbound := bindArguments_yields (hres heritage) hm hopened (parameters.getD [])
        (Surroundings.fits_ofFrames hf _) hau
      rcases hbind : bindArguments (resolveType strict sources levels heritage) m
        (parameters.getD []) arguments (.ofFrames frames) (u.opened id) with ⟨s, v⟩
      obtain ⟨hv, hsv⟩ := hbound
      rw [hbind] at hrun hv hsv
      have hbody := hres heritage m hm s v (hv.consistent hopened) hsv body
      dsimp only at hrun
      rcases hresolve : resolveType strict sources levels heritage m s body v with ⟨target, w⟩
      obtain ⟨hw, hknows⟩ := hbody
      rw [hresolve] at hrun hw hknows
      have hgrows : u.Grows w := trans_of State.Grows (grows_opened u id)
        (trans_of State.Grows hv.grows hw.grows)
      have hgetw := hgrows.interner.get?_of_some hget
      have hworks : Works strict sources t (w.completed id (.target target)) :=
        .completed hintern hs hmentions hnew hprogress (trans_of (Works strict sources) hv hw)
          ⟨⟨name, declaration, arguments, hgetw⟩, hknows⟩ fun shape heq => absurd heq nofun
      refine Yields.of_run ?_ (trans_of (Works strict sources) ht hworks)
        (aliasView_yields (.of_get? hgetw) hknows)
      exact hrun

/-- A declaration of the module itself, or one that an import leads to, applied to arguments. -/
theorem declaredType_yields (hsources : sources.Proper) (hlevels : levels < typeDepth)
    (heritage : Nat) {name : String} {symbol : TypeName} (hsymbol : symbol.Fits m.file name)
    {frames : Frames} (hf : frames.Fits m.file) {arguments : List TypeId}
    (ha : ∀ x ∈ arguments, st.Knows x) :
    Yields (Works strict sources) st (declaredType strict
      (resolveType strict sources levels heritage) sources
      (baseTypes (resolveBases strict sources levels heritage))
      m name symbol frames arguments) fun st' out => ∀ id ∈ out, st'.Knows id := by
  have hsome {act : Checking TypeId}
      (hact : Yields (Works strict sources) st act fun st' id => st'.Knows id) :
      Yields (Works strict sources) st (some <$> act) fun st' out => ∀ id ∈ out, st'.Knows id :=
    hact.map fun _ _ _ hid _ hx => Option.some.inj hx ▸ hid
  have hnone : Yields (Works strict sources) st (pure none : Checking (Option TypeId))
      fun st' out => ∀ id ∈ out, st'.Knows id := .pure fun _ hx => absurd hx nofun
  unfold declaredType
  cases symbol with
  | interface first merged =>
    obtain ⟨statements, hscope, hnodes⟩ := hsymbol
    exact hsome (interfaceType_yields hres hm hst hsources.keys hlevels heritage hscope
      hnodes hf ha)
  | typeAlias node =>
    exact hsome (aliasType_yields hres hm hst heritage hsymbol hf ha)
  | imported module exported =>
    dsimp only
    cases hfollow : sources.followType importHops m name (.imported module exported) with
    | none => exact hnone
    | some target =>
      obtain ⟨m', name', symbol'⟩ := target
      obtain ⟨hm', hfits⟩ := Sources.followType_fits hsources.fits hm hsymbol hfollow
      have hnil := Frames.fits_nil m'.file
      cases symbol' with
      | interface first merged =>
        obtain ⟨statements, hscope, hnodes⟩ := hfits
        exact hsome
          (interfaceType_yields hres hm' hst hsources.keys hlevels heritage hscope hnodes hnil ha)
      | typeAlias node =>
        exact hsome (aliasType_yields hres hm' hst heritage hfits hnil ha)
      | imported _ _ => exact hnone

end Named

/-! ## Type nodes -/

/-- What a type name denotes was declared in a scope around it. -/
theorem Frames.lookup_fits {f : SourceFile} {types : Types} (htypes : types.Fits f) {name : String}
    {frames : Frames} (hf : frames.Fits f) {symbol : TypeName} {around : Frames}
    (h : Frames.lookup types name frames = some (.declared symbol around)) :
    symbol.Fits f name ∧ around.Fits f := by
  induction frames with
  | nil =>
    obtain ⟨t, ht, h⟩ := Option.map_eq_some_iff.1 h
    obtain ⟨rfl, rfl⟩ := Meaning.declared.inj h
    exact ⟨htypes name t ht, hf⟩
  | cons frame outer ih =>
    unfold Frames.lookup at h
    split at h
    · rename_i t ht
      obtain ⟨rfl, rfl⟩ := Meaning.declared.inj (Option.some.inj h)
      exact ⟨hf frame List.mem_cons_self name t ht, hf⟩
    · split at h
      · exact absurd h nofun
      · exact ih (fun frame' hmem => hf frame' (List.mem_cons_of_mem frame hmem)) h

section Run

variable (strict : Bool) (resolve : Resolve) (sources : Sources) (bases : BasesIn Checking)
  (m : Module) (s : Surroundings) (st : State)

/-- What a type name is declared as, if anything. -/
def declaredAs (text : String) (arguments : List TypeId) : Checking (Option TypeId) :=
  match s.frames.lookup m.names.locals.types text with
  | some .parameter => some <$> intern (.parameter text)
  | some (.declared symbol frames) =>
    declaredType strict resolve sources bases m text symbol frames arguments
  | none => pure none

/-- The run of a type reference, arguments first. What the name is bound to comes before what it is
declared as, and the types that need no declaration come last. -/
theorem referenceType_run {name : Ref} {text : String}
    (hname : m.file.arena.identifierText? name = some text) (arguments : Option (List Ref)) :
    referenceType strict resolve sources bases m s name arguments st =
      let ids := (arguments.getD []).mapM (resolve m s) st
      match s.get? text with
      | some bound => (bound, ids.2)
      | none =>
        let declared := declaredAs strict resolve sources bases m s text ids.1 ids.2
        match declared.1 with
        | some type => (type, declared.2)
        | none =>
          let builtin := builtinType text ids.1 declared.2
          (builtin.1.getD TypeId.any, builtin.2) := by
  unfold referenceType declaredAs
  rw [hname]
  dsimp only
  cases s.get? text with
  | some bound => rfl
  | none =>
    cases s.frames.lookup m.names.locals.types text with
    | none => rfl
    | some meaning =>
      cases meaning with
      | parameter => rfl
      | declared symbol frames =>
        simp only [bind, StateT.bind, pure]
        rcases (arguments.getD []).mapM (resolve m s) st with ⟨ids, t⟩
        dsimp only
        rcases declaredType strict resolve sources bases m text symbol frames ids t with ⟨_ | _, u⟩
        · rfl
        · rfl

/-- The run of a mapped type: no type at all, or the keys, then the template for each, then the
object. -/
theorem mappedType_run (parameter template : Ref) :
    mappedType resolve m s parameter template st = (TypeId.any, st) ∨ ∃ bound text,
      let keys := resolve m s bound st
      let shape := mappedShape resolve m s text template (keys.2.literalKeys keys.1) keys.2
      mappedType resolve m s parameter template st = intern (.object shape.1) shape.2 := by
  cases hc : m.file.arena.content? parameter with
  | none => exact .inl (by rw [mappedType, hc]; rfl)
  | some content =>
    obtain ⟨h, p⟩ := content
    cases p with
    | typeParameter name bound fallback =>
      cases htext : m.file.arena.identifierText? name with
      | none => exact .inl (by rw [mappedType, hc]; dsimp only; rw [htext]; rfl)
      | some text =>
        exact .inr ⟨bound, text, by rw [mappedType, hc]; dsimp only; rw [htext]; rfl⟩
    | _ => exact .inl (by rw [mappedType, hc]; rfl)

variable {strict resolve sources bases m s}

theorem nodeType_reference {r : Ref} {h : Header} {name : Ref} {arguments : Option (List Ref)}
    (hc : m.file.arena.content? r = some (h, .typeReference name arguments)) :
    nodeType strict resolve sources bases m s r =
      referenceType strict resolve sources bases m s name arguments := by
  obtain ⟨hh, hp⟩ := Arena.content?_eq_some.1 hc
  have htoken := Arena.kind_ne_token hc (by simp [Payload.pool]) (by simp [Payload.pool])
  simp only [nodeType, hh, hp]

theorem nodeType_mapped {r : Ref} {h : Header} {parameter template : Ref}
    (hc : m.file.arena.content? r = some (h, .mappedType parameter template)) :
    nodeType strict resolve sources bases m s r = mappedType resolve m s parameter template := by
  obtain ⟨hh, hp⟩ := Arena.content?_eq_some.1 hc
  have htoken := Arena.kind_ne_token hc (by simp [Payload.pool]) (by simp [Payload.pool])
  simp only [nodeType, hh, hp]

end Run

section Mapped

variable {strict : Bool} {sources : Sources} {resolve : Resolve}
  (hres : resolve.Works strict sources)
  {m : Module} (hm : m ∈ sources.modules) {s : Surroundings} {st : State}
  (hst : st.Consistent sources) (hs : s.Fits m.file st)
include hres hm hst hs

/-- One property for each key. The key is known, so the surroundings with it bound still fit. -/
theorem mappedShape_yields (parameter : String) (template : Ref) {keys : List (String × TypeId)}
    (hkeys : ∀ k ∈ keys, st.Knows k.2) :
    Yields (Works strict sources) st (mappedShape resolve m s parameter template keys)
      fun st' shape => (∀ p ∈ shape, st'.Knows p.type) ∧ shape.map (·.name) = keys.map (·.1) ∧
        ∀ p ∈ shape, p.declarations = [] := by
  induction keys generalizing st with
  | nil =>
    exact .pure ⟨fun _ hp => absurd hp List.not_mem_nil, rfl, fun _ hp =>
      absurd hp List.not_mem_nil⟩
  | cons key keys ih =>
    have hfirst := hres m hm _ st hst (hs.bind parameter (hkeys key List.mem_cons_self)) template
    refine hfirst.bind (fun _ _ _ ht h => h.mono ht.grows.interner) fun t type ht _ => ?_
    have hrest := ih (ht.consistent hst) (hs.mono ht.grows)
      fun k hk => (hkeys k (List.mem_cons_of_mem key hk)).mono ht.grows.interner
    refine hrest.seq fun u rest _ hrest => .pure fun htype => ?_
    exact ⟨List.forall_mem_cons.2 ⟨htype, hrest.1⟩, congrArg (key.1 :: ·) hrest.2.1,
      List.forall_mem_cons.2 ⟨rfl, hrest.2.2⟩⟩

/-- A mapped type comes to one property for each key. -/
theorem mappedType_yields (parameter template : Ref)
    (horigin : Computed strict sources (mappedType resolve m s parameter template st).2
      (mappedType resolve m s parameter template st).1) :
    Yields (Works strict sources) st (mappedType resolve m s parameter template)
      fun st' id => st'.Knows id := by
  rcases mappedType_run resolve m s st parameter template with hrun | ⟨bound, text, hrun⟩
  · exact .of_run hrun (refl st) (Works.constant (by decide))
  · have hbound := hres m hm s st hst hs bound
    have hkeys : ∀ k ∈ (resolve m s bound st).2.literalKeys (resolve m s bound st).1,
        (resolve m s bound st).2.Knows k.2 :=
      State.Consistent.knows_literalKeys typeDepth [] _ fun _ hk => absurd hk List.not_mem_nil
    have hshape := mappedShape_yields hres hm (hbound.le.consistent hst) (hs.mono hbound.le.grows)
      text template hkeys
    rw [hrun] at horigin
    refine .of_run hrun (trans_of (Works strict sources) hbound.le hshape.le)
      (Works.intern (s := .object _) not_false (fun x hx => ?_) fun shape heq => ?_)
    · obtain ⟨p, hp, rfl⟩ := List.mem_map.1 hx
      exact hshape.post.1 p hp
    · obtain rfl := Structure.object.inj heq
      refine .computed horigin ?_ hshape.post.2.2
      have hnames := hshape.post.2.1
      exact hnames ▸ nodup_literalKeys typeDepth _ List.nodup_nil

end Mapped

/-- A reference that comes down to what is there without a declaration. The built-in `Record`
answers for the reference itself. -/
theorem builtinReference_yields {strict : Bool} {sources : Sources} {levels heritage : Nat}
    {m : Module}
    (hm : m ∈ sources.modules) {s : Surroundings} {st u : State} (hst : st.Consistent sources)
    (hu : u.Consistent sources) {node : NodeId} {h : Header} {name : Ref}
    {arguments : Option (List Ref)}
    (hc : m.file.arena.content? (some node) = some (h, .typeReference name arguments))
      {text : String}
    (hname : m.file.arena.identifierText? name = some text) {ids : List TypeId}
    (hids : ∀ x ∈ ids, u.Knows x)
    (hrun : resolveType strict sources levels heritage m s (some node) st =
      ((builtinType text ids u).1.getD TypeId.any, (builtinType text ids u).2)) :
    Yields (Works strict sources) u
      ((fun out : Option TypeId => out.getD TypeId.any) <$> builtinType text ids)
      fun st' id => st'.Knows id := by
  have horigin : ∀ keys value id, text = "Record" → ids = [keys, value] →
      (builtinType "Record" [keys, value] u).1 = some id →
        Computed strict sources (builtinType "Record" [keys, value] u).2 id := by
    rintro keys value id rfl rfl hid
    have hanswer : Answered sources (builtinType "Record" [keys, value] u).2
        (resolveType strict sources levels heritage m s (some node)) id := by
      refine ⟨st, hst, ?_, ?_⟩
      · rw [hrun]
        exact congrArg (fun out : Option TypeId => out.getD TypeId.any) hid
      · rw [hrun]
        exact refl _
    exact .record hm hc hname hanswer ⟨u, hu, hid, refl _⟩
  exact (builtinType_yields text hids horigin).map fun v out _ hout => by
    cases out with
    | none => exact knows_any v
    | some id => exact hout id rfl

section Nodes

variable {strict : Bool} {sources : Sources} (hsources : sources.Proper) {levels : Nat}
  (hres : ∀ heritage, (resolveType strict sources levels heritage).Works strict sources)
  (hlevels : levels < typeDepth) (heritage : Nat)
include hsources hres hlevels

/-- What a type name denotes: what is bound to it, what is declared under it, or what is there
without a declaration. -/
theorem declaredAs_yields {m : Module} (hm : m ∈ sources.modules) {s : Surroundings} {st : State}
    (hst : st.Consistent sources) (hs : s.Fits m.file st) (text : String) {arguments : List TypeId}
    (ha : ∀ x ∈ arguments, st.Knows x) :
    Yields (Works strict sources) st (declaredAs strict (resolveType strict sources levels heritage)
      sources (baseTypes (resolveBases strict sources levels heritage)) m s text arguments)
      fun st' out => ∀ id ∈ out, st'.Knows id := by
  unfold declaredAs
  split
  · have hparameter : Yields (Works strict sources) st (intern (.parameter text))
        fun st' id => st'.Knows id :=
      Works.intern not_false (fun _ hx => absurd hx List.not_mem_nil) nofun
    exact hparameter.map fun _ _ _ hid _ hx => Option.some.inj hx ▸ hid
  · rename_i symbol frames hlookup
    obtain ⟨hsymbol, hframes⟩ := Frames.lookup_fits (hsources.fits m hm).1 hs.frames hlookup
    exact declaredType_yields hres hm hst hsources hlevels heritage hsymbol hframes ha
  · exact .pure fun _ hx => absurd hx nofun

/-- A type reference leaves in the tables what its declaration comes to, however far the imports
lead. -/
theorem referenceType_yields {m : Module} (hm : m ∈ sources.modules) {s : Surroundings} {st : State}
    (hst : st.Consistent sources) (hs : s.Fits m.file st) {node : NodeId} {h : Header} {name : Ref}
    {arguments : Option (List Ref)}
    (hc : m.file.arena.content? (some node) = some (h, .typeReference name arguments)) :
    Yields (Works strict sources) st (referenceType strict
      (resolveType strict sources levels heritage) sources
      (baseTypes (resolveBases strict sources levels heritage))
      m s name arguments) fun st' id => st'.Knows id := by
  cases hname : m.file.arena.identifierText? name with
  | none =>
    unfold referenceType
    rw [hname]
    exact Works.constant (by decide)
  | some text =>
    have hrun := referenceType_run strict (resolveType strict sources levels heritage) sources
      (baseTypes (resolveBases strict sources levels heritage)) m s st hname arguments
    have hids := resolveTypes_yields hres hm hst heritage hs (arguments.getD [])
    rcases hmap : (arguments.getD []).mapM (resolveType strict sources levels heritage m s) st with
      ⟨ids, t⟩
    obtain ⟨ht, hknown, -⟩ := hids
    rw [hmap] at hrun ht hknown
    dsimp only at hrun ht hknown
    have hst' := hs.mono ht.grows
    cases hbound : s.get? text with
    | some bound =>
      rw [hbound] at hrun
      have hpure : Yields (Works strict sources) t (pure bound : Checking TypeId)
          fun st' id => st'.Knows id := .pure (hst'.get? hbound)
      exact .of_run hrun ht hpure
    | none =>
      rw [hbound] at hrun
      dsimp only at hrun
      obtain ⟨hu, hdeclared⟩ :=
        declaredAs_yields hsources hres hlevels heritage hm (ht.consistent hst) hst' text hknown
      rcases hdeclares : declaredAs strict (resolveType strict sources levels heritage) sources
        (baseTypes (resolveBases strict sources levels heritage)) m s text ids t with ⟨declared, u⟩
      rw [hdeclares] at hrun hu hdeclared
      have hwork := trans_of (Works strict sources) ht hu
      cases declared with
      | some type =>
        have hpure : Yields (Works strict sources) u (pure type : Checking TypeId)
            fun st' id => st'.Knows id := .pure (hdeclared type rfl)
        exact .of_run hrun hwork hpure
      | none =>
        have hnode : resolveType strict sources (levels + 1) heritage m s (some node) st =
            ((builtinType text ids u).1.getD TypeId.any, (builtinType text ids u).2) := by
          rw [resolveType_succ, nodeType_reference hc]
          exact hrun
        have hlast := builtinReference_yields hm hst (hwork.consistent hst) hc hname
          (fun x hx => (hknown x hx).mono hu.grows.interner) hnode
        exact .of_run (t := u) hrun hwork hlast

/-- Working out one node is work if working out the nodes beneath it is. -/
theorem nodeType_works : Resolve.Works strict sources
    (nodeType strict (resolveType strict sources levels heritage) sources
      (baseTypes (resolveBases strict sources levels heritage))) := by
  intro m hm s st hst hs r
  have hnode := hres heritage
  unfold nodeType
  split
  · exact Works.constant (by decide)
  · rename_i hd hheader
    obtain _ | node := r
    · exact absurd hheader nofun
    split
    · refine .pure ?_
      split
      · exact knows_keywordType st _
      · exact knows_any st
    · rename_i hp _
      exact referenceType_yields hsources hres hlevels heritage hm hst hs
        (Arena.content?_eq_some.2 ⟨hheader, hp⟩)
    · exact literalType_yields _ _
    · refine (hnode m hm s st hst hs _).seq fun t element _ helement => ?_
      exact Works.intern (s := .array _) not_false (fun x hx => List.mem_singleton.1 hx ▸ helement)
        nofun
    · exact (resolveTypes_yields hres hm hst heritage hs _).seq fun t ids ht hids =>
        Works.union (ht.consistent hst) hids.1
    · rename_i members hp _
      refine (addMembers_yields hnode hsources.keys hm hst hs
        (.empty strict sources m st) members).seq
        fun t shape _ hshape => Works.intern (s := .object _) not_false (fun x hx => ?_)
          fun shape' heq => ?_
      · obtain ⟨p, hp, rfl⟩ := List.mem_map.1 hx
        exact hshape.known p hp
      · obtain rfl := Structure.object.inj heq
        exact .literal s hm (Arena.content?_eq_some.2 ⟨hheader, hp⟩)
          (hshape.mono (grows_intern t _))
    · exact (functionShape_yields hnode hm hst hs _ _).seq fun t shape _ hshape =>
        Works.intern (s := .function _) not_false hshape nofun
    · rename_i parameter template hp _
      have hc := Arena.content?_eq_some.2 ⟨hheader, hp⟩
      have heq : resolveType strict sources (levels + 1) heritage m s (some node) =
          mappedType (resolveType strict sources levels heritage) m s parameter template := by
        rw [resolveType_succ, nodeType_mapped hc]
      have hanswer : Answered sources
          (mappedType (resolveType strict sources levels heritage) m s parameter template st).2
          (resolveType strict sources (levels + 1) heritage m s (some node))
          (mappedType (resolveType strict sources levels heritage) m s parameter template st).1 :=
        heq ▸ ⟨st, hst, rfl, refl _⟩
      exact mappedType_yields hnode hm hst hs parameter template (.mapped hm hc hanswer)
    · exact Works.constant (by decide)

end Nodes

/-- **Working out a type is work**, at every depth, and answers a known type. -/
theorem resolveType_works {strict : Bool} {sources : Sources} (hsources : sources.Proper)
    {levels : Nat} (hlevels : levels ≤ typeDepth) (heritage : Nat) :
    (resolveType strict sources levels heritage).Works strict sources := by
  induction levels generalizing heritage with
  | zero =>
    intro m hm s st hst hs r
    cases r with
    | none => exact Works.constant (by decide)
    | some node => exact ⟨.warn _, knows_any _⟩
  | succ levels ih =>
    rw [resolveType_succ]
    exact nodeType_works hsources (ih (Nat.le_of_succ_le hlevels)) hlevels heritage

end TypeReify.Check
