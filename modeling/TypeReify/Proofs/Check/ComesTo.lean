import TypeReify.Proofs.Check.Binders
import TypeReify.Proofs.Check.Members

/-!
# What type nodes come to, by the binders around them

`ComesTo` says of a type node and an id that the id is put together as the node is, and that every
type name in the node denotes what binds it. It goes as deep as the checker does, and below that
everything is `any`. A mapped type binds its parameter to each of its keys, one after the other.

Working out a node in surroundings that hold its binders answers an id that the node comes to, and
it comes to this id from then on (`Settled`).

`NodeComesTo` has a case for each arm of `resolve_type_inner`, and says of the id only what a reader
of the types could say, with the tables as they are in the end.

Results:
* `referenceType_lexical`: a type name denotes what binds it.
* `nodeType_lexical`: one node, from those beneath it.
* `resolveType_lexical`: a type node comes to what the checker works out.

Out of scope: which declaration a property of a type literal names first, and the order in which
types are numbered.
-/

namespace TypeReify.Check

open Syntax Scope
open TypeReify.Types

/-! ## Nodes and types -/

/-- A node that is a parameter of a function. -/
def isParameter (a : Arena) (r : Ref) : Bool :=
  match a.content? r with
  | some (_, .parameter ..) => true
  | _ => false

/-- The name of a member of an object type, if it has one. -/
def memberName? (a : Arena) (r : Ref) : Option String :=
  match a.content? r with
  | some (_, .signature name _ _ _) => a.nameText? name
  | _ => none

section

variable (files : List SourceFile) (f : SourceFile) (own : Binder) (u : State)
  (below : Binders → Ref → TypeId → Prop) (binders : Binders)

/-- A parameter has the name and the mark of its node, and the type of its ascription. -/
def ParameterComesTo (r : Ref) (p : Parameter) : Prop :=
  ∃ h name ascription value, f.arena.content? r = some (h, .parameter name ascription value) ∧
    p.name = (f.arena.identifierText? name).getD "_" ∧ p.optional = h.has .optional ∧
    below binders ascription p.type

/-- A function type has the parameters among the nodes of its list, in order, and its result. -/
def FunctionComesTo (parameters : List Ref) (result : Ref) (id : TypeId) : Prop :=
  ∃ shape, u.interner.lookup id = some (.function shape) ∧
    List.Forall₂ (ParameterComesTo f below binders) (parameters.filter (isParameter f.arena))
      shape.parameters ∧ below binders result shape.result

/-- The type of a method is that of a function, inside its own type parameters. -/
def MemberComesTo (r : Ref) (id : TypeId) : Prop :=
  ∃ h name types parameters ascription,
    f.arena.content? r = some (h, .signature name types parameters ascription) ∧
    let inner := bindersInside f.arena own binders (.signature name types parameters ascription)
    if h.kind == .form .methodSignature then
      FunctionComesTo f u below inner (parameters.getD []) ascription id
    else below inner ascription id

/-- Every name of a member is a property, and the first member of the name says what type it has. -/
structure MembersComeTo (members : List Ref) (shape : Shape) : Prop where
  names : shape.map (·.name) = (members.filterMap (memberName? f.arena)).eraseDups
  types : ∀ p ∈ shape, ∃ r, members.find? (memberName? f.arena · == some p.name) = some r ∧
    MemberComesTo f own u below binders r p.type

/-- A mapped type is an object with one property for each key, whose type the template comes to with
the parameter bound to this key. -/
def MappedComesTo (parameter template : Ref) (id : TypeId) : Prop :=
  match f.arena.content? parameter with
  | some (_, .typeParameter name bound _) =>
    match f.arena.identifierText? name with
    | some text => ∃ keys shape, below binders bound keys ∧
      u.interner.lookup id = some (.object shape) ∧
      List.Forall₂ (fun k p => p = computedProperty k.1 p.type ∧
        below ((text, .key k.2) :: binders) template p.type) (u.literalKeys keys) shape
    | none => id = TypeId.any
  | _ => id = TypeId.any

/-- A reference denotes what binds its name, with what its arguments come to. -/
def ReferenceComesTo (name : Ref) (arguments : Option (List Ref)) (id : TypeId) : Prop :=
  match f.arena.identifierText? name with
  | some text => ∃ ids, List.Forall₂ (below binders) (arguments.getD []) ids ∧
    Denotes files f u text ids (binders.lookup text) id
  | none => id = TypeId.any

/-- What the id of a node with this payload is, if the nodes beneath come to types by `below`. -/
def PayloadComesTo (p : Payload Ref) (id : TypeId) : Prop :=
  match p with
  | .typeReference name arguments => ReferenceComesTo files f u below binders name arguments id
  | .literalType literal => Again (Sources.ofFiles files) (literalType f.arena literal) u id
  | .arrayType element =>
    ∃ type, below binders element type ∧ u.interner.lookup id = some (.array type)
  | .union members =>
    ∃ ids, List.Forall₂ (below binders) members ids ∧ u.interner.union ids = (id, u.interner)
  | .typeLiteral members => ∃ shape, MembersComeTo f own u below binders members shape ∧
    u.interner.lookup id = some (.object shape)
  | .functionType _ parameters result =>
    FunctionComesTo f u below (bindersInside f.arena own binders p) parameters result id
  | .mappedType parameter template => MappedComesTo f u below binders parameter template id
  | _ => id = TypeId.any

/-- A keyword is itself, and any other node is told by its payload. -/
def NodeComesTo (r : Ref) (id : TypeId) : Prop :=
  match f.arena.kind? r, f.arena.content? r with
  | some (.token k), _ => id = if k.isTypeKeyword then keywordType k else TypeId.any
  | _, some (_, p) => PayloadComesTo files f own u below binders p id
  | _, none => id = TypeId.any

/-- **What a type node comes to**, where these bind the names in it. -/
def ComesTo : (levels : Nat) → Binders → Ref → TypeId → Prop
  | 0, _, _, id => id = TypeId.any
  | levels + 1, binders, r, id => NodeComesTo files f own u (ComesTo levels) binders r id

end

/-- A type name comes to what it denotes, with what its arguments come to. -/
theorem comesTo_reference_iff {files : List SourceFile} {f : SourceFile} {own : Binder} {u : State}
    {levels : Nat} {binders : Binders} {r name : Ref} {h : Header} {arguments : Option (List Ref)}
    {text : String} (hc : f.arena.content? r = some (h, .typeReference name arguments))
    (hname : f.arena.identifierText? name = some text) {id : TypeId} :
    ComesTo files f own u (levels + 1) binders r id ↔
      ∃ ids, List.Forall₂ (ComesTo files f own u levels binders) (arguments.getD []) ids ∧
        Denotes files f u text ids (binders.lookup text) id := by
  have hkind : f.arena.kind? r = some h.kind := by
    rw [Arena.kind?, (Arena.content?_eq_some.1 hc).1, Option.map_some]
  have htoken (k : Token) (heq : some h.kind = some (.token k)) : False :=
    Arena.kind_ne_token hc (by simp [Payload.pool]) (by simp [Payload.pool]) k (Option.some.inj heq)
  simp only [ComesTo, NodeComesTo, hkind, hc, PayloadComesTo, ReferenceComesTo, hname]

/-! ## From now on -/

/-- A known type that fits from now on. -/
structure Settled (sources : Sources) (fits : State → TypeId → Prop) (u : State) (id : TypeId) :
    Prop where
  knows : u.Knows id
  comes : ∀ v, Later sources u v → fits v id

theorem Settled.later {sources : Sources} {fits : State → TypeId → Prop} {u v : State} {id : TypeId}
    (h : Settled sources fits u id) (huv : Later sources u v) : Settled sources fits v id :=
  ⟨h.knows.later huv, fun w hw => h.comes w (trans_of (Later sources) huv hw)⟩

/-- Working out a node in surroundings that hold its binders answers a type that it comes to. -/
def Resolve.Lexical (files : List SourceFile) (f : SourceFile) (resolve : Resolve)
    (below : State → Binders → Ref → TypeId → Prop) : Prop :=
  ∀ (s : Surroundings) (binders : Binders) (st : State), st.Sound (Sources.ofFiles files) →
    s.Fits f st → s.Holds (Sources.moduleOf files f) binders → ∀ r,
      Yields (Later (Sources.ofFiles files)) st (resolve (Sources.moduleOf files f) s r)
        (Settled (Sources.ofFiles files) (below · binders r))

section Settled

variable {sources : Sources} {st : State}

theorem settled_any :
    Yields (Later sources) st (pure TypeId.any : Checking TypeId)
      (Settled sources fun _ id => id = TypeId.any) :=
  .pure ⟨knows_any st, fun _ _ => rfl⟩

/-- An id that was entered for what fits from here on is settled. -/
theorem intern_settled {x : Structure} {fits : State → TypeId → Prop} (hx : ¬x.IsNamed)
    (hm : ∀ y ∈ x.mentions, st.Knows y)
    (hfits : ∀ v id, Later sources st v → v.interner.lookup id = some x → fits v id) :
    Yields (Later sources) st (intern x) (Settled sources fits) := by
  have hle : Later sources st (intern x st).2 := later_intern hx hm
  have hid := Interner.lookup_intern st.interner x
  exact ⟨hle, ⟨x, hid⟩, fun v hv =>
    hfits v _ (trans_of (Later sources) hle hv) (hv.grows.interner _ _ hid)⟩

end Settled

section Nodes

variable {files : List SourceFile} {f : SourceFile} {resolve : Resolve}
  {below : State → Binders → Ref → TypeId → Prop} (hres : resolve.Lexical files f below)
  {s : Surroundings} {binders : Binders} {st : State} (hst : st.Sound (Sources.ofFiles files))
  (hs : s.Fits f st) (hb : s.Holds (Sources.moduleOf files f) binders)
include hres hst hs hb

theorem list_lexical (rs : List Ref) :
    Yields (Later (Sources.ofFiles files)) st (rs.mapM (resolve (Sources.moduleOf files f) s))
      fun u ids =>
        List.Forall₂ (fun r => Settled (Sources.ofFiles files) (below · binders r) u) rs ids :=
  .mapM (fun _ _ _ _ htu h => h.later htu) fun r _ t ht =>
    hres s binders t (ht.sound hst) (hs.mono ht.grows) hb r

/-! ## Functions -/

theorem parameterType_lexical (r : Ref) :
    Yields (Later (Sources.ofFiles files)) st
      (parameterType resolve (Sources.moduleOf files f) s r) fun u out =>
        out.isSome = isParameter f.arena r ∧ ∀ p ∈ out, u.Knows p.type ∧
          ∀ v, Later (Sources.ofFiles files) u v → ParameterComesTo f (below v) binders r p := by
  unfold parameterType
  rw [Sources.file_moduleOf]
  split
  · rename_i h name ascription value hc
    refine (hres s binders st hst hs hb ascription).seq fun t type _ htype =>
      .pure ⟨by simp [isParameter, hc], fun p hp => ?_⟩
    obtain rfl := Option.some.inj hp
    exact ⟨htype.knows, fun v hv => ⟨h, name, ascription, value, hc, rfl, rfl, htype.comes v hv⟩⟩
  · rename_i hnot
    refine .pure ⟨?_, fun _ hp => absurd hp (Option.not_mem_none _)⟩
    unfold isParameter
    split
    · rename_i hc
      exact absurd hc (hnot _ _ _ _)
    · rfl

/-- A function type, for a method as well. -/
theorem functionType_lexical (parameters : List Ref) (result : Ref) :
    Yields (Later (Sources.ofFiles files)) st
      (functionShape resolve (Sources.moduleOf files f) s parameters result >>= fun shape =>
        intern (.function shape)) (Settled (Sources.ofFiles files) fun v =>
          FunctionComesTo f v (below v) binders parameters result) := by
  unfold functionShape
  have hparameters : Yields (Later (Sources.ofFiles files)) st
      (parameters.filterMapM (parameterType resolve (Sources.moduleOf files f) s)) fun u ps =>
        List.Forall₂ (fun r p => u.Knows p.type ∧ ∀ v, Later (Sources.ofFiles files) u v →
          ParameterComesTo f (below v) binders r p) (parameters.filter (isParameter f.arena)) ps :=
    .filterMapM_filter (fun t u r p htu h =>
        ⟨h.1.later htu, fun v hv => h.2 v (trans_of (Later _) htu hv)⟩)
      fun r _ t ht => parameterType_lexical hres (ht.sound hst) (hs.mono ht.grows) hb r
  simp only [bind_assoc, pure_bind]
  refine hparameters.seq fun t ps ht hps => ?_
  refine (hres s binders t (ht.sound hst) (hs.mono ht.grows) hb result).seq
    fun u type hu htype => ?_
  refine intern_settled not_false (fun x hx => ?_) fun v id hv hid =>
    ⟨⟨ps, type⟩, hid, ?_, htype.comes v hv⟩
  · rcases List.mem_append.1 hx with hx | hx
    · obtain ⟨p, hp, rfl⟩ := List.mem_map.1 hx
      exact (forall_of_forall₂ hps (fun _ p h => h.1) p hp).later hu
    · exact List.mem_singleton.1 hx ▸ htype.knows
  · exact hps.imp fun r p h => h.2 v (trans_of (Later _) hu hv)

end Nodes

/-! ## Members -/

section Members

variable {f : SourceFile} {own : Binder} {u : State} {below : Binders → Ref → TypeId → Prop}
  {binders : Binders} {members : List Ref} {shape : Shape} {r : Ref}

theorem membersComeTo_nil : MembersComeTo f own u below binders [] [] :=
  ⟨rfl, fun _ hp => absurd hp List.not_mem_nil⟩

namespace MembersComeTo

variable (h : MembersComeTo f own u below binders members shape)
include h

theorem any_name {text : String} : shape.any (·.name == text) = true ↔
    text ∈ members.filterMap (memberName? f.arena) := by
  rw [← List.mem_eraseDups, ← h.names, List.any_eq_true, List.mem_map]
  simp only [beq_iff_eq]

/-- The first member of a name stays the first. -/
theorem types_append : ∀ p ∈ shape, ∃ r', (members ++ [r]).find?
    (memberName? f.arena · == some p.name) = some r' ∧
    MemberComesTo f own u below binders r' p.type := by
  intro p hp
  obtain ⟨r', hfind, hr'⟩ := h.types p hp
  exact ⟨r', by rw [List.find?_append, hfind, Option.some_or], hr'⟩

theorem skip (hr : memberName? f.arena r = none) :
    MembersComeTo f own u below binders (members ++ [r]) shape := by
  refine ⟨?_, h.types_append⟩
  rw [List.filterMap_append, List.filterMap_cons_none hr, List.filterMap_nil,
    List.append_nil, h.names]

variable {text : String} (hr : memberName? f.arena r = some text)
include hr

theorem redeclare (hold : shape.any (·.name == text) = true) (d : DeclId) :
    MembersComeTo f own u below binders (members ++ [r]) (Check.redeclare shape text d) := by
  have hlike (p : Property) : let q := if p.name == text then
      { p with declarations := p.declarations ++ [d] } else p
      q.name = p.name ∧ q.type = p.type := by
    dsimp only
    split <;> exact ⟨rfl, rfl⟩
  refine ⟨?_, fun q hq => ?_⟩
  · have hsame : (Check.redeclare shape text d).map (·.name) = shape.map (·.name) := by
      rw [Check.redeclare, List.map_map]
      exact List.map_congr_left fun p _ => (hlike p).1
    rw [hsame, List.filterMap_append, List.filterMap_cons_some hr, List.filterMap_nil,
      eraseDups_append_of_mem (h.any_name.1 hold), h.names]
  · obtain ⟨p, hp, rfl⟩ := List.mem_map.1 hq
    rw [(hlike p).1, (hlike p).2]
    exact h.types_append p hp

theorem add (hnew : shape.any (·.name == text) = false) {p : Property} (hname : p.name = text)
    (htype : MemberComesTo f own u below binders r p.type) :
    MembersComeTo f own u below binders (members ++ [r]) (shape ++ [p]) := by
  have hnot : text ∉ members.filterMap (memberName? f.arena) := by
    rw [← h.any_name, hnew]
    exact Bool.false_ne_true
  refine ⟨?_, fun q hq => ?_⟩
  · rw [List.map_append, List.map_singleton, List.filterMap_append, List.filterMap_cons_some hr,
      List.filterMap_nil, eraseDups_append_of_not_mem hnot, h.names, hname]
  · rcases List.mem_append.1 hq with hq | hq
    · exact h.types_append q hq
    · obtain rfl := List.mem_singleton.1 hq
      have hnone : members.find? (memberName? f.arena · == some q.name) = none := by
        refine List.find?_eq_none.2 fun r' hr' heq => hnot ?_
        exact List.mem_filterMap.2 ⟨r', hr', by rw [eq_of_beq heq, hname]⟩
      refine ⟨r, ?_, htype⟩
      rw [List.find?_append, hnone, Option.none_or, List.find?_singleton, hr, hname]
      simp

end MembersComeTo

end Members

section Nodes

variable {files : List SourceFile} (h : (files.map fileKey).Nodup) {f : SourceFile} (hf : f ∈ files)
  {strict : Bool} {resolve : Resolve} {below : State → Binders → Ref → TypeId → Prop}
  (hres : resolve.Lexical files f below) {s : Surroundings} {binders : Binders} {st : State}
  (hst : st.Sound (Sources.ofFiles files)) (hs : s.Fits f st)
  (hb : s.Holds (Sources.moduleOf files f) binders)
include hres hst hs hb

/-- A member is worked out in the surroundings of the type that it stands in. Its own type
parameters are not bound there, and the list of binders leaves open what they are. -/
theorem memberType_lexical {r : Ref} {hd : Header} {name ascription : Ref}
    {types parameters : Option (List Ref)}
    (hc : f.arena.content? r = some (hd, .signature name types parameters ascription)) :
    Yields (Later (Sources.ofFiles files)) st
      (memberType resolve (Sources.moduleOf files f) s
        (hd.kind == .form .methodSignature) parameters
        ascription)
      (Settled (Sources.ofFiles files) fun v =>
        MemberComesTo f .unknown v (below v) binders r) := by
  have hinner : s.Holds (Sources.moduleOf files f)
      (bindersInside f.arena .unknown binders (.signature name types parameters ascription)) :=
    hb.unknown _
  unfold memberType
  split
  · rename_i hmethod
    refine (functionType_lexical hres hst hs hinner (parameters.getD []) ascription).mono
      fun u id _ hid => ⟨hid.knows, fun v hv => ⟨hd, name, types, parameters, ascription, hc, ?_⟩⟩
    exact (if_pos hmethod).mpr (hid.comes v hv)
  · rename_i hproperty
    refine (hres s _ st hst hs hinner ascription).mono
      fun u id _ hid => ⟨hid.knows, fun v hv => ⟨hd, name, types, parameters, ascription, hc, ?_⟩⟩
    exact (if_neg hproperty).mpr (hid.comes v hv)

include h hf

/-- One more member. -/
theorem addMember_lexical {members : List Ref} {shape : Shape}
    (hknows : ∀ p ∈ shape, st.Knows p.type) (hshape : ∀ v, Later (Sources.ofFiles files) st v →
      MembersComeTo f .unknown v (below v) binders members shape) (r : Ref) :
    Yields (Later (Sources.ofFiles files)) st
      (addMember strict resolve (Sources.moduleOf files f) s shape r) fun u shape' =>
        (∀ p ∈ shape', u.Knows p.type) ∧ ∀ v, Later (Sources.ofFiles files) u v →
          MembersComeTo f .unknown v (below v) binders (members ++ [r]) shape' := by
  unfold addMember
  rw [Sources.file_moduleOf]
  split
  · rename_i node hd name types parameters ascription hc
    have hname : memberName? f.arena (some node) = f.arena.nameText? name := by
      simp only [memberName?, hc]
    split
    · rename_i htext
      exact .pure ⟨hknows, fun v hv => (hshape v hv).skip (hname.trans htext)⟩
    · rename_i text htext
      have hdeclares : (Sources.moduleOf files f).Declares
          (if (hd.kind == .form .methodSignature) = true then .methodSignature
            else .propertySignature) (some text) node := by
        rw [Module.Declares, Sources.file_moduleOf, hc]
        exact ⟨rfl, htext.symm⟩
      have hsite := Repeats.declare hst (Sources.keys_nodup files)
        (Sources.moduleOf_mem h hf) hdeclares
      refine hsite.seq fun t d ht _ => ?_
      have hknows' : ∀ p ∈ shape, t.Knows p.type := fun p hp => (hknows p hp).later ht
      split
      · rename_i hold
        refine .pure ⟨fun q hq => ?_, fun v hv =>
          (hshape v (trans_of (Later _) ht hv)).redeclare (hname.trans htext) hold d⟩
        obtain ⟨p, hp, rfl⟩ := List.mem_map.1 hq
        have hsame := hknows' p hp
        split
        · exact hsame
        · exact hsame
      · rename_i hnew
        refine (memberType_lexical hres (ht.sound hst) (hs.mono ht.grows) hb hc).seq
          fun u type hu htype => ?_
        -- The union with `undefined` is formed for later, and the property keeps its own type.
        have hadd {v : State} (hv : Later (Sources.ofFiles files) u v) (p : Property)
            (hp : p.name = text) (hptype : p.type = type) :
            (∀ q ∈ shape ++ [p], v.Knows q.type) ∧ ∀ w, Later (Sources.ofFiles files) v w →
              MembersComeTo f .unknown w (below w) binders (members ++ [some node])
              (shape ++ [p]) := by
          refine ⟨fun q hq => ?_, fun w hw => ?_⟩
          · rcases List.mem_append.1 hq with hq | hq
            · exact (hknows' q hq).later (trans_of (Later _) hu hv)
            · rw [List.mem_singleton.1 hq, hptype]
              exact htype.knows.later hv
          · have huw := trans_of (Later _) hv hw
            refine (hshape w (trans_of (Later _) ht (trans_of (Later _) hu huw))).add
              (hname.trans htext) (by simpa using hnew) hp ?_
            rw [hptype]
            exact htype.comes w huw
        dsimp only
        split
        · have hwiden : Yields (Later (Sources.ofFiles files)) u (widen type) fun _ _ => True :=
            ⟨later_widen htype.knows, trivial⟩
          exact hwiden.seq fun v _ hv _ => .pure (hadd hv _ rfl rfl)
        · exact .pure (hadd (refl u) _ rfl rfl)
  · rename_i member _ _ hnot
    refine .pure ⟨hknows, fun v hv => (hshape v hv).skip ?_⟩
    unfold memberName?
    split
    · rename_i hd name types parameters ascription hc
      cases member with
      | none => simp [Arena.content?, Arena.header?] at hc
      | some node => exact absurd hc (hnot node hd name types parameters ascription rfl)
    · rfl

/-- By induction on the members from the front: the first of a name says what the property is. -/
theorem members_lexical (members : List Ref) :
    Yields (Later (Sources.ofFiles files)) st
      (members.foldlM (addMember strict resolve (Sources.moduleOf files f) s) []) fun u shape =>
        (∀ p ∈ shape, u.Knows p.type) ∧ ∀ v, Later (Sources.ofFiles files) u v →
          MembersComeTo f .unknown v (below v) binders members shape := by
  let fits (u : State) (done : List Ref) (shape : Shape) : Prop := (∀ p ∈ shape, u.Knows p.type) ∧
    ∀ v, Later (Sources.ofFiles files) u v → MembersComeTo f .unknown v (below v) binders done shape
  have hnil : fits st [] [] := ⟨fun _ hp => absurd hp List.not_mem_nil, fun _ _ =>
    membersComeTo_nil⟩
  exact Yields.foldlM_append fits hnil fun r _ t done shape ht hfits =>
    addMember_lexical h hf hres (ht.sound hst) (hs.mono ht.grows) hb hfits.1 hfits.2 r

/-! ## Mapped types -/

omit hst hs hb h hf in
/-- By induction on the keys. What was worked out for the keys before stays as it was. -/
theorem mappedShape_lexical (text : String) (template : Ref) {keys : List (String × TypeId)}
    {st : State} (hst : st.Sound (Sources.ofFiles files)) (hs : s.Fits f st)
    (hb : s.Holds (Sources.moduleOf files f) binders) (hkeys : ∀ k ∈ keys, st.Knows k.2) :
    Yields (Later (Sources.ofFiles files)) st
      (mappedShape resolve (Sources.moduleOf files f) s text template keys) fun u shape =>
        List.Forall₂ (fun k p => p = computedProperty k.1 p.type ∧
          Settled (Sources.ofFiles files) (below · ((text, .key k.2) :: binders) template) u p.type)
          keys shape := by
  induction keys generalizing st with
  | nil => exact .pure .nil
  | cons k keys ih =>
    have hfirst := hres _ _ st hst (hs.bind text (hkeys k List.mem_cons_self))
      (hb.bind text k.2) template
    refine hfirst.bind (fun _ _ _ htu h => h.later htu) fun t type ht _ => ?_
    have hrest := ih (ht.sound hst) (hs.mono ht.grows)
      fun k' hk' => (hkeys k' (List.mem_cons_of_mem k hk')).later ht
    exact hrest.seq fun u shape _ hshape => .pure fun htype => .cons ⟨rfl, htype⟩ hshape

omit h hf in
/-- The keys are read off the tables in between; they are the same from then on. -/
theorem mappedType_lexical (parameter template : Ref) :
    Yields (Later (Sources.ofFiles files)) st
      (mappedType resolve (Sources.moduleOf files f) s parameter template)
      (Settled (Sources.ofFiles files) fun v =>
        MappedComesTo f v (below v) binders parameter template) := by
  unfold mappedType MappedComesTo
  rw [Sources.file_moduleOf]
  dsimp only
  rcases f.arena.content? parameter with _ | ⟨_, p⟩
  · exact settled_any
  cases p with
  | typeParameter name bound _ =>
    dsimp only
    cases f.arena.identifierText? name with
    | none => exact settled_any
    | some text =>
      refine (hres s binders st hst hs hb bound).seq fun t keys ht hkeys => ?_
      refine Yields.get.seq fun _ x _ hread => ?_
      obtain ⟨rfl, rfl⟩ := hread
      have hshape := mappedShape_lexical hres text template (ht.sound hst) (hs.mono ht.grows) hb <|
        State.Consistent.knows_literalKeys typeDepth [] keys fun _ hk => absurd hk List.not_mem_nil
      refine hshape.seq fun u shape hu hshape => ?_
      refine intern_settled not_false (fun x hx => ?_) fun v id hv hid =>
        ⟨keys, shape, hkeys.comes v (trans_of (Later _) hu hv), hid, ?_⟩
      · obtain ⟨p, hp, rfl⟩ := List.mem_map.1 hx
        exact forall_of_forall₂ hshape (fun _ p h => h.2.knows) p hp
      · -- The keys are the same in the end as they were when the template was worked out for each.
        rw [literalKeys_later (ht.sound hst) (trans_of (Later _) hu hv) hkeys.knows]
        exact hshape.imp fun k p h => ⟨h.1, h.2.comes v hv⟩
  | _ => exact settled_any

/-! ## References -/

omit hres hs hb h hf in
/-- What comes of a type name that nothing declares. -/
theorem builtinType_lexical (name : String) {arguments : List TypeId}
    (ha : ∀ x ∈ arguments, st.Knows x) :
    Yields (Later (Sources.ofFiles files)) st (builtinType name arguments) fun u out =>
      (∀ id ∈ out, u.Knows id) ∧ Undeclared u name arguments (out.getD TypeId.any) := by
  have hrun := builtinType_repeats hst name ha
  refine ⟨hrun.le, hrun.post.1, ?_⟩
  have hle := hrun.le
  unfold Undeclared
  unfold builtinType at hle ⊢
  split
  · exact Interner.lookup_intern _ _
  · exact Interner.lookup_intern _ _
  · rename_i keys value
    rw [literalKeys_later hst hle (ha keys List.mem_cons_self)]
    exact Interner.lookup_intern _ _
  · rename_i harray hreadonly hrecord
    split
    · exact absurd rfl (harray _ rfl)
    · exact absurd rfl (hreadonly _ rfl)
    · exact absurd rfl (hrecord _ _ rfl)
    · rfl

end Nodes

section Types

variable {files : List SourceFile} (h : (files.map fileKey).Nodup) {f : SourceFile} (hf : f ∈ files)
  {strict : Bool} {levels heritage : Nat} (hlevels : levels < typeDepth)
  {below : State → Binders → Ref → TypeId → Prop}
  (hres : (resolveType strict (Sources.ofFiles files) levels heritage).Lexical files f below)
include h hf hlevels hres

section At

variable {s : Surroundings} {binders : Binders} {st : State}
  (hst : st.Sound (Sources.ofFiles files))
  (hs : s.Fits f st) (hb : s.Holds (Sources.moduleOf files f) binders)
include hst hs hb

/-- **A type name denotes what binds it.** -/
theorem referenceType_lexical (name : Ref) (arguments : Option (List Ref)) :
    Yields (Later (Sources.ofFiles files)) st
      (referenceType strict (resolveType strict (Sources.ofFiles files) levels heritage)
        (Sources.ofFiles files) (baseTypes
          (resolveBases strict (Sources.ofFiles files) levels heritage))
        (Sources.moduleOf files f) s name arguments)
      (Settled (Sources.ofFiles files) fun v =>
        ReferenceComesTo files f v (below v) binders name arguments) := by
  unfold ReferenceComesTo
  cases hname : f.arena.identifierText? name with
  | none =>
    unfold referenceType
    rw [Sources.file_moduleOf, hname]
    exact settled_any
  | some text =>
    rw [referenceType_eq hname]
    refine (list_lexical hres hst hs hb (arguments.getD [])).seq fun t ids ht hids => ?_
    have hknows : ∀ x ∈ ids, t.Knows x := forall_of_forall₂ hids fun _ _ h => h.knows
    have hcome {v : State} (hv : Later (Sources.ofFiles files) t v) {id : TypeId}
        (hid : Denotes files f v text ids (binders.lookup text) id) :
        ∃ ids, List.Forall₂ (below v binders) (arguments.getD []) ids ∧
          Denotes files f v text ids (binders.lookup text) id :=
      ⟨ids, hids.imp fun _ _ h => h.comes v hv, hid⟩
    -- What the surroundings bind hides a declaration, and a declaration hides what is built in.
    cases hbound : s.get? text with
    | some bound =>
      refine .pure ⟨(hs.mono ht.grows).get? hbound, fun v hv => hcome hv ?_⟩
      rcases hb text with hunknown | hfound
      · rw [hunknown]
        trivial
      · rw [← hfound, Surroundings.binder?, hbound]
        rfl
    | none =>
      have hsound := ht.sound hst
      have hmem := Sources.moduleOf_mem h hf
      refine Yields.seq (declaredAs_repeats
        (Sources.proper_ofFiles files) hlevels heritage hmem hsound
        (hs.mono ht.grows) rfl text hknows) fun u out hu hout => ?_
      obtain ⟨⟨hmeant, hknown⟩, -⟩ := hout
      cases out with
      | some type =>
        refine .pure ⟨hknown type rfl, fun v hv => hcome (trans_of (Later _) hu hv) ?_⟩
        refine denotes_of_meant h hb hbound (hmeant.later (hu.sound hsound) hv) ?_ ?_
        · exact fun x hx => Option.some.inj hx
        · exact fun hnone => absurd hnone (Option.some_ne_none _)
      | none =>
        have hknows' : ∀ x ∈ ids, u.Knows x := fun x hx => (hknows x hx).later hu
        refine (builtinType_lexical (hu.sound hsound) text hknows').map fun v out hv hout =>
          ⟨?_, fun w hw => hcome (trans_of (Later _) hu (trans_of (Later _) hv hw)) ?_⟩
        · cases out with
          | none => exact knows_any v
          | some id => exact hout.1 id rfl
        · refine denotes_of_meant h hb hbound
            (hmeant.later (hu.sound hsound) (trans_of (Later _) hv hw)) ?_ fun _ => ?_
          · exact fun x hx => absurd hx (Option.not_mem_none x)
          · exact hout.2.later (hv.sound (hu.sound hsound)) (fun x hx => (hknows' x hx).later hv) hw

/-! ## Type nodes -/

omit h hf hlevels in
theorem arrayType_lexical (element : Ref) :
    Yields (Later (Sources.ofFiles files)) st
      (resolveType strict (Sources.ofFiles files) levels heritage
        (Sources.moduleOf files f) s element
        >>= fun type => intern (.array type))
      (Settled (Sources.ofFiles files) fun v id =>
        ∃ type, below v binders element type ∧ v.interner.lookup id = some (.array type)) := by
  refine (hres s binders st hst hs hb element).seq fun t type _ htype => ?_
  refine intern_settled not_false (fun x hx => ?_) fun v id hv hid => ⟨type, htype.comes v hv, hid⟩
  exact List.mem_singleton.1 hx ▸ htype.knows

omit h hf hlevels in
theorem unionType_lexical (members : List Ref) :
    Yields (Later (Sources.ofFiles files)) st
      (members.mapM (resolveType strict (Sources.ofFiles files) levels heritage
        (Sources.moduleOf files f) s) >>= union)
      (Settled (Sources.ofFiles files) fun v id => ∃ ids,
        List.Forall₂ (below v binders) members ids ∧ v.interner.union ids = (id, v.interner)) := by
  refine (list_lexical hres hst hs hb members).seq fun t ids ht hids => ?_
  have hknows : ∀ x ∈ ids, t.Knows x := forall_of_forall₂ hids fun _ _ h => h.knows
  refine Yields.mono (Repeats.union (ht.sound hst) hknows) fun u id hu hid =>
    ⟨hid.1.2, fun v hv => ⟨ids, hids.imp fun _ _ h => h.comes v (trans_of (Later _) hu hv), ?_⟩⟩
  exact union_later (hu.sound (ht.sound hst)) (fun x hx => (hknows x hx).later hu) hid.1.1 hv

omit hlevels in
theorem typeLiteral_lexical (members : List Ref) :
    Yields (Later (Sources.ofFiles files)) st
      (members.foldlM (addMember strict (resolveType strict (Sources.ofFiles files) levels heritage)
        (Sources.moduleOf files f) s) [] >>= fun shape => intern (.object shape))
      (Settled (Sources.ofFiles files) fun v id => ∃ shape,
        MembersComeTo f .unknown v (below v) binders members shape ∧
          v.interner.lookup id = some (.object shape)) := by
  refine (members_lexical h hf hres hst hs hb members).seq fun t shape _ hshape => ?_
  refine intern_settled not_false (fun x hx => ?_) fun v id hv hid => ⟨shape, hshape.2 v hv, hid⟩
  obtain ⟨p, hp, rfl⟩ := List.mem_map.1 hx
  exact hshape.1 p hp

end At

/-- One node, from those beneath it. -/
theorem nodeType_lexical : Resolve.Lexical files f
    (nodeType strict (resolveType strict (Sources.ofFiles files) levels heritage)
      (Sources.ofFiles files) (baseTypes
        (resolveBases strict (Sources.ofFiles files) levels heritage)))
    fun u => NodeComesTo files f .unknown u (below u) := by
  intro s binders st hst hs hb r
  unfold nodeType NodeComesTo
  simp only [Sources.file_moduleOf, Arena.kind?, Arena.content?]
  cases f.arena.header? r with
  | none => exact settled_any
  | some hd =>
    simp only [Option.map_some, Option.bind_eq_bind, Option.bind_some]
    generalize f.arena.payload? hd = payload
    cases hd.kind with
    | token k =>
      refine .pure ⟨?_, fun _ _ => rfl⟩
      split
      · exact knows_keywordType st _
      · exact knows_any st
    | form _ | unassigned _ =>
      cases payload with
      | none => exact settled_any
      | some p =>
        cases p with
        | typeReference name arguments =>
          exact referenceType_lexical h hf hlevels hres hst hs hb name arguments
        | literalType literal =>
          exact Yields.mono (literalType_repeats hst f.arena literal) fun u id _ hid =>
            ⟨hid.1, fun v hv => hid.2.mono hv⟩
        | arrayType element => exact arrayType_lexical hres hst hs hb element
        | union members => exact unionType_lexical hres hst hs hb members
        | typeLiteral members => exact typeLiteral_lexical h hf hres hst hs hb members
        | functionType types parameters result =>
          exact functionType_lexical hres hst hs (hb.unknown _) parameters result
        | mappedType parameter template =>
          exact mappedType_lexical hres hst hs hb parameter template
        | _ => exact settled_any

end Types

/-- **A type node comes to what the checker works out**, in surroundings that hold its binders. -/
theorem resolveType_lexical {files : List SourceFile} (h : (files.map fileKey).Nodup)
    {f : SourceFile} (hf : f ∈ files) {strict : Bool} {levels : Nat} (hlevels : levels ≤ typeDepth)
      (heritage : Nat) :
    (resolveType strict (Sources.ofFiles files) levels heritage).Lexical files f fun u =>
      ComesTo files f .unknown u levels := by
  induction levels generalizing heritage with
  | zero =>
    intro s binders st _ _ _ r
    cases r with
    | none => exact settled_any
    | some node =>
      have hwarn : Yields (Later (Sources.ofFiles files)) st
          (warn (.typeDepth (Sources.moduleOf files f).key)) fun _ _ => True :=
            ⟨later_warn _, trivial⟩
      exact hwarn.seq fun _ _ _ _ => settled_any
  | succ levels ih =>
    rw [resolveType_succ]
    exact nodeType_lexical h hf hlevels (ih (Nat.le_of_succ_le hlevels) heritage)

end TypeReify.Check
