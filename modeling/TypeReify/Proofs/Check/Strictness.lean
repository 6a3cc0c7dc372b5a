import TypeReify.Proofs.Check.Parallel

/-!
# Checking with and without strictness

The checker asks in one place whether it is strict: where it takes an optional member into a shape,
and then it only records a type. So a strict run does what a run without strictness does, for types
that are numbered otherwise. All functions of the checker are followed here, from the parameter of a
method up to a list of files.

The place is the end of `add_member`, under `strict_null_checks`.

Results:
* `nodeType_parallel`: a node is worked out in parallel if the nodes beneath it are.
* `resolveType_parallel`: so the same node is the same type in both runs.
* `checkFiles_parallel`: the runs over a list of files record the same facts.
-/

namespace TypeReify.Check

open Syntax Scope
open TypeReify.Types

/-- Run from alike states, in alike surroundings, both resolve a node to the same type. -/
def Resolve.Parallel (strict : Bool) (resolve resolve' : Resolve) : Prop :=
  ∀ m (s s' : Surroundings) r (st st' : State), st.Alike strict st' → s.Alike st st' s' →
    Check.Parallel strict st st' (resolve m s r) (resolve' m s' r) SameType

/-- Members of the same names, of the same types, and the second ones recorded. -/
abbrev SameShape (strict : Bool) (st st' : State) : Shape → Shape → Prop :=
  List.Forall₂ (SameProperty strict st st')

/-- Types that are the same, one by one. -/
abbrev SameTypes (st st' : State) : List TypeId → List TypeId → Prop :=
  List.Forall₂ (SameType st st')

/-- So do `extends` clauses to the same bases. -/
def BasesIn.Parallel (strict : Bool) (bases bases' : BasesIn Checking) : Prop :=
  ∀ m name (s s' : Surroundings) clauses (st st' : State), st.Alike strict st' → s.Alike st st' s' →
    Check.Parallel strict st st' (bases m name s clauses) (bases' m name s' clauses) SameTypes

theorem sameShape_any_name {strict : Bool} {st st' : State} {shape shape' : Shape}
    (h : SameShape strict st st' shape shape') (name : String) :
    shape.any (·.name == name) = shape'.any (·.name == name) :=
  any_eq_of_forall₂ (fun _ _ hp => by rw [hp.alike.name_eq]) h

/-- A shape can be interned. -/
theorem Parallel.internObject {strict : Bool} {st st' : State} (h : st.Alike strict st')
    {shape shape' : Shape} (hshape : SameShape strict st st' shape shape') :
    Parallel strict st st' (Check.intern (.object shape))
      (Check.intern (.object shape')) SameType :=
  .intern h (.object (hshape.imp fun _ _ hp => hp.alike))
    (forall_of_forall₂ hshape fun _ _ hp => hp.recorded)

section Nodes

variable {lenient strict : Bool} (hstrict : lenient = true → strict = true)
  {resolve resolve' : Resolve} (hres : resolve.Parallel strict resolve') (m : Module)
  {s s' : Surroundings} {st st' : State} (h : st.Alike strict st') (hs : s.Alike st st' s')

/-! ## Members -/

section Members

include hres h hs

theorem parameterType_parallel (r : Ref) :
    Parallel strict st st' (parameterType resolve m s r) (parameterType resolve' m s' r)
      fun t t' => Option.Rel (Parameter.Alike (SameType t t')) := by
  unfold parameterType
  split
  · exact (hres m s s' _ st st' h hs).bind fun t t' x x' _ _ halike hx =>
      .pure halike (.some ⟨hx, rfl⟩)
  · exact .pure h .none

/-- Parameters first and then the result, so what the parameters came to is compared again in the
states that the result leaves. -/
theorem functionShape_parallel (parameters : List Ref) (result : Ref) :
    Parallel strict st st' (functionShape resolve m s parameters result)
      (functionShape resolve' m s' parameters result) fun t t' f f' =>
        (Structure.function f).Alike (SameType t t') (.function f') := by
  have hparameters := Parallel.filterMapM
    (fun _ _ t t' p p' ht ht' (hp : p.Alike _ p') => hp.imp fun _ _ hx => SameType.mono ht ht' hx) h
    parameters fun r t t' ht ht' halike => parameterType_parallel hres m halike (hs.mono ht ht') r
  refine hparameters.bind fun t t' ps ps' ht ht' halike hps => ?_
  refine (hres m s s' result t t' halike (hs.mono ht ht')).bind fun u u' x x' hu hu' halike hx => ?_
  exact .pure halike (.function (hps.imp fun _ _ hp => hp.imp fun _ _ hx => hx.mono hu hu') hx)

theorem memberType_parallel (method : Bool) (parameters : Option (List Ref)) (ascription : Ref) :
    Parallel strict st st' (memberType resolve m s method parameters ascription)
      (memberType resolve' m s' method parameters ascription) SameType := by
  unfold memberType
  split
  · exact (functionShape_parallel hres m h hs _ ascription).bind fun t t' f f' _ _ halike hf =>
      .intern halike hf trivial
  · exact hres m s s' ascription st st' h hs

end Members

/-- A declaration added to the property of a name is added on both sides, or on neither. -/
theorem redeclare_same {shape shape' : Shape} (hshape : SameShape strict st st' shape shape')
    (name : String) {d : DeclId} (hd : d < st'.sites.size) :
    SameShape strict st st' (redeclare shape name d) (redeclare shape' name d) := by
  have hone : ∀ p p', SameProperty strict st st' p p' → SameProperty strict st st'
      (if p.name == name then { p with declarations := p.declarations ++ [d] } else p)
      (if p'.name == name then { p' with declarations := p'.declarations ++ [d] } else p') := by
    intro p p' hp
    rw [hp.alike.name_eq]
    split
    · refine ⟨⟨hp.alike.type, ?_⟩, fun e he => ?_, hp.recorded.widened⟩
      · rw [hp.alike.rest]
      · rcases List.mem_append.1 he with he | he
        · exact hp.recorded.declared e he
        · exact List.mem_singleton.1 he ▸ hd
    · exact hp
  exact List.forall₂_map_left_iff.2 (List.forall₂_map_right_iff.2 (hshape.imp hone))

include hstrict hres h hs in
/-- Taking in a member, strictness makes a difference in what is recorded only. -/
theorem addMember_parallel {shape shape' : Shape} (hshape : SameShape strict st st' shape shape')
    (member : Ref) :
    Parallel strict st st' (addMember lenient resolve m s shape member)
      (addMember strict resolve' m s' shape' member) fun t t' => SameShape strict t t' := by
  unfold addMember
  split
  · split
    · exact .pure h hshape
    · rename_i text _
      refine (Parallel.declare h m _ _ _).bind fun t t' d d' ht ht' halike hd' => ?_
      obtain ⟨rfl, hlt⟩ := hd'
      have hshape := sameProperties_mono ht ht' hshape
      rw [sameShape_any_name hshape text]
      split
      · exact .pure halike (redeclare_same hshape text hlt)
      · refine (memberType_parallel hres m halike (hs.mono ht ht') _ _ _).bind
          fun u u' x x' hu hu' halike hx => ?_
        refine .widen halike hx hstrict fun v v' hv hv' halike hwidened => .pure halike ?_
        have hshape := sameProperties_mono (trans_of State.Within hu hv)
          (trans_of State.Within hu' hv')
          hshape
        refine List.rel_append hshape (.cons ⟨⟨hx.mono hv hv', rfl⟩, ?_, hwidened⟩ .nil)
        intro e he
        obtain rfl := List.mem_singleton.1 he
        exact Nat.lt_of_lt_of_le hlt (trans_of State.Within hu' hv').grows.size_le
  · exact .pure h hshape

/-! ## Named types -/

section Parameters

include hres h hs

theorem parameterArgument_parallel (name : String) (fallback : Ref)
    {argument argument' : Option TypeId}
    (hargument : Option.Rel (SameType st st') argument argument') :
    Parallel strict st st' (parameterArgument resolve m s name fallback argument)
      (parameterArgument resolve' m s' name fallback argument') SameType := by
  cases hargument with
  | some hx => exact .pure h hx
  | none =>
    cases fallback with
    | some node => exact hres m s s' _ st st' h hs
    | none => exact .intern h (.parameter name) trivial

theorem bindParameter_parallel (r : Ref) {argument argument' : Option TypeId}
    (hargument : Option.Rel (SameType st st') argument argument') :
    Parallel strict st st' (bindParameter resolve m s r argument)
      (bindParameter resolve' m s' r argument') fun t t' u u' => u.Alike t t' u' := by
  unfold bindParameter
  split
  · split
    · rename_i text _
      refine (parameterArgument_parallel hres m h hs text _ hargument).bind
        fun t t' x x' ht ht' halike hx => ?_
      exact .pure halike ((hs.mono ht ht').bind text hx)
    · exact .pure h hs
  · exact .pure h hs

/-- By induction on the parameters; the arguments run out on both sides at once. -/
theorem bindArguments_parallel (parameters : List Ref) {arguments arguments' : List TypeId}
    (ha : SameTypes st st' arguments arguments') :
    Parallel strict st st' (bindArguments resolve m parameters arguments s)
      (bindArguments resolve' m parameters arguments' s') fun t t' u u' => u.Alike t t' u' := by
  induction parameters generalizing arguments arguments' s s' st st' with
  | nil => exact .pure h hs
  | cons r rs ih =>
    have hhead : Option.Rel (SameType st st') arguments.head? arguments'.head? := by
      cases ha with
      | nil => exact .none
      | cons hx _ => exact .some hx
    have htail : SameTypes st st' arguments.tail arguments'.tail := by
      cases ha with
      | nil => exact .nil
      | cons _ hrest => exact hrest
    refine (bindParameter_parallel hres m h hs r hhead).bind fun t t' u u' ht ht' halike hu => ?_
    exact ih halike hu (sameTypes_mono ht ht' htail)

end Parameters

section Bases

variable {bases bases' : BasesIn Checking} (hbases : bases.Parallel strict bases')
include hbases h

/-- The own members of an interface so far are alike, and so are its bases. -/
def SamePart (strict : Bool) (st st' : State) (part part' : Shape × List TypeId) : Prop :=
  SameShape strict st st' part.1 part'.1 ∧ SameTypes st st' part.2 part'.2

include hstrict hres

/-- The own members of one declaration, and then its bases. -/
theorem interfacePart_parallel (name : String) (frames : Frames)
    {arguments arguments' : List TypeId}
    (ha : SameTypes st st' arguments arguments') {part part' : Shape × List TypeId}
    (hpart : SamePart strict st st' part part') (node : NodeId) :
    Parallel strict st st' (interfacePart lenient resolve bases m name frames arguments part node)
      (interfacePart strict resolve' bases' m name frames arguments' part' node)
      (SamePart strict) := by
  unfold interfacePart
  split
  · rename_i parameters heritage members _
    refine (bindArguments_parallel hres m h (.ofFrames st st' frames) (parameters.getD []) ha).bind
      fun t t' u u' ht ht' halike hu => ?_
    have hmembers := Parallel.foldlM (SameShape strict) halike members
      (sameProperties_mono ht ht' hpart.1)
      fun r v v' shape shape' hv hv' halike hshape =>
        addMember_parallel hstrict hres m halike (hu.mono hv hv') hshape r
    refine hmembers.bind fun v v' shape shape' hv hv' halike hshape => ?_
    refine (hbases m name _ _ (heritage.getD []) v v' halike (hu.mono hv hv')).bind
      fun w w' ids ids' hw hw' halike hids => .pure halike ⟨sameProperties_mono hw hw' hshape, ?_⟩
    have hold := sameTypes_mono (trans_of State.Within ht (trans_of State.Within hv hw))
      (trans_of State.Within ht' (trans_of State.Within hv' hw')) hpart.2
    exact List.rel_append hold hids
  · exact .pure h hpart

omit hres hstrict hbases h in
/-- A property is taken over on both sides or on neither, since names are compared only. -/
theorem inherit_same {shape shape' base base' : Shape}
    (hshape : SameShape strict st st' shape shape') (hbase : SameShape strict st st' base base') :
    SameShape strict st st' (inherit shape base) (inherit shape' base') := by
  unfold inherit
  induction hbase generalizing shape shape' with
  | nil => exact hshape
  | cons hp _ ih =>
    refine ih ?_
    dsimp only
    rw [hp.alike.name_eq, sameShape_any_name hshape]
    split
    · exact hshape
    · exact List.rel_append hshape (.cons hp .nil)

omit hres hstrict hbases in
theorem inheritAll_same {own own' : Shape} (hown : SameShape strict st st' own own')
    {ids ids' : List TypeId} (hids : SameTypes st st' ids ids') :
    SameShape strict st st' (inheritAll own ids st.propertiesOf)
      (inheritAll own' ids' st'.propertiesOf) := by
  unfold inheritAll
  induction hids generalizing own own' with
  | nil => exact hown
  | cons hx _ ih => exact ih (inherit_same hown (h.propertiesOf hx))

/-- An interface is found in the tables on both sides or on neither: being in progress, or having
come to something, goes along with the type. -/
theorem interfaceType_parallel (name : String) (first : NodeId) (merged : List NodeId)
    (frames : Frames)
    {arguments arguments' : List TypeId} (ha : SameTypes st st' arguments arguments') :
    Parallel strict st st'
      (interfaceType lenient resolve bases m name first merged frames arguments)
      (interfaceType strict resolve' bases' m name first merged frames arguments') SameType := by
  refine (Parallel.declare h m _ _ _).bind fun t t' d d' ht ht' halike hd => ?_
  obtain ⟨rfl, hlt⟩ := hd
  have ha := sameTypes_mono ht ht' ha
  refine (Parallel.intern halike (.interface name d' ha) hlt).bind
    fun u u' id id' hu hu' halike hid => Parallel.get_bind ?_
  have hknown : ((u.named.shape? id).isSome || u.inProgress.contains id) =
      ((u'.named.shape? id').isSome || u'.inProgress.contains id') := by
    rw [halike.contains_inProgress hid]
    rcases rel_cases (halike.shape? hid) with ⟨hn, hn'⟩ | ⟨_, _, hn, hn', -⟩ <;> rw [hn, hn']
    rfl
  rw [hknown]
  split
  · exact .pure halike hid
  · refine (Parallel.start halike hid).bind fun v v' _ _ hv hv' halike _ => ?_
    have ha := sameTypes_mono (trans_of State.Within hu hv) (trans_of State.Within hu' hv') ha
    have hnone : SamePart strict v v' ([], []) ([], []) := ⟨.nil, .nil⟩
    have hparts := Parallel.foldlM (SamePart strict) halike (first :: merged) hnone
      fun node w w' part part' hw hw' halike hpart =>
        interfacePart_parallel hstrict hres m halike hbases name frames
          (sameTypes_mono hw hw' ha) hpart node
    refine hparts.bind fun w w' part part' hw hw' halike hpart => Parallel.get_bind ?_
    have hid := hid.mono (trans_of State.Within hv hw) (trans_of State.Within hv' hw')
    refine (Parallel.setShape halike hid (inheritAll_same halike hpart.1 hpart.2)).bind
      fun x x' _ _ hx hx' halike _ => ?_
    have hid := hid.mono hx hx'
    exact (Parallel.finish halike hid).bind fun y y' _ _ hy hy' halike _ =>
      .pure halike (hid.mono hy hy')

end Bases

/-- The form of what an alias stands for is the same on both sides, so it is shown on both or on
neither. -/
theorem aliasView_parallel (h : st.Alike strict st') {id id' aim aim' : TypeId}
    (hid : SameType st st' id id') (haim : SameType st st' aim aim') :
    Parallel strict st st' (aliasView id aim) (aliasView id' aim') SameType := by
  refine Parallel.get_bind ?_
  rcases haim.get?_cases with ⟨name, hn, hn'⟩ | ⟨s, s', hs, hs', alike⟩
  · rcases hn with hn | hn <;> rcases hn' with hn' | hn' <;>
      · rw [hn, hn']
        exact .pure h haim
  · rw [hs, hs']
    cases alike with
    | object _ | union _ | function _ _ => exact .pure h hid
    | _ => exact .pure h haim

include hres h in
theorem aliasType_parallel (name : String) (node : NodeId) (frames : Frames)
    {arguments arguments' : List TypeId} (ha : SameTypes st st' arguments arguments') :
    Parallel strict st st' (aliasType resolve m name node frames arguments)
      (aliasType resolve' m name node frames arguments') SameType := by
  refine (Parallel.declare h m _ _ _).bind fun t t' d d' ht ht' halike hd => ?_
  obtain ⟨rfl, hlt⟩ := hd
  have ha := sameTypes_mono ht ht' ha
  refine (Parallel.intern halike (.synonym name d' ha) hlt).bind
    fun u u' id id' hu hu' halike hid => Parallel.get_bind ?_
  have ha := sameTypes_mono hu hu' ha
  rcases rel_cases (halike.target? hid) with ⟨hn, hn'⟩ | ⟨aim, aim', hn, hn', haim⟩
  · rw [hn, hn', halike.contains_inProgress hid]
    dsimp only
    split
    · exact .pure halike hid
    · split
      · refine (Parallel.start halike hid).bind fun v v' _ _ hv hv' halike _ => ?_
        refine (bindArguments_parallel hres m halike (.ofFrames v v' frames) _
          (sameTypes_mono hv hv' ha)).bind fun w w' s s' hw hw' halike hs => ?_
        refine (hres m s s' _ w w' halike hs).bind fun x x' aim aim' hx hx' halike haim => ?_
        have hid := hid.mono (trans_of State.Within hv (trans_of State.Within hw hx))
          (trans_of State.Within hv' (trans_of State.Within hw' hx'))
        refine (Parallel.setAlias halike hid haim).bind fun y y' _ _ hy hy' halike _ => ?_
        refine (Parallel.finish halike (hid.mono hy hy')).bind fun z z' _ _ hz hz' halike _ => ?_
        have hyz := trans_of State.Within hy hz
        have hyz' := trans_of State.Within hy' hz'
        exact aliasView_parallel halike (hid.mono hyz hyz') (haim.mono hyz hyz')
      · exact .pure halike (same_any _ _)
  · rw [hn, hn']
    exact aliasView_parallel halike hid haim

section Declared

variable {bases bases' : BasesIn Checking} (hbases : bases.Parallel strict bases')
include hstrict hres h hbases

/-- Imports are followed through the files, which are the same. -/
theorem declaredType_parallel (sources : Sources) (name : String) (symbol : TypeName)
    (frames : Frames)
    {arguments arguments' : List TypeId} (ha : SameTypes st st' arguments arguments') :
    Parallel strict st st'
      (declaredType lenient resolve sources bases m name symbol frames arguments)
      (declaredType strict resolve' sources bases' m name symbol frames arguments')
      fun t t' => Option.Rel (SameType t t') := by
  have hinterface (m : Module) (name : String) (first : NodeId) (merged : List NodeId)
      (frames : Frames) :=
    (interfaceType_parallel hstrict hres m h hbases name first merged frames ha).map_some
  have halias (m : Module) (name : String) (node : NodeId) (frames : Frames) :=
    (aliasType_parallel hres m h name node frames ha).map_some
  unfold declaredType
  cases symbol with
  | interface first merged => exact hinterface m name first merged frames
  | typeAlias node => exact halias m name node frames
  | imported module exported =>
    dsimp only
    split
    · rename_i m' name' symbol' _
      cases symbol' with
      | interface first merged => exact hinterface m' name' first merged []
      | typeAlias node => exact halias m' name' node []
      | imported _ _ => exact .pure h .none
    · exact .pure h .none

omit hstrict hres hbases in
theorem builtinType_parallel (name : String) {arguments arguments' : List TypeId}
    (ha : SameTypes st st' arguments arguments') :
    Parallel strict st st' (builtinType name arguments) (builtinType name arguments')
      fun t t' => Option.Rel (SameType t t') := by
  have harray {x x' : TypeId} (hx : SameType st st' x x') :=
    (Parallel.intern h (.array hx) trivial).map_some
  unfold builtinType
  split
  · cases ha with
    | cons hx hrest => cases hrest; exact harray hx
  · cases ha with
    | cons hx hrest => cases hrest; exact harray hx
  · cases ha with
    | cons hk hrest =>
      cases hrest with
      | cons hx hrest =>
        cases hrest
        refine Parallel.get_bind (Parallel.internObject h ?_).map_some
        refine List.forall₂_map_left_iff.2 (List.forall₂_map_right_iff.2 ?_)
        refine (h.literalKeys hk).imp fun k k' hkey => ⟨⟨hx, ?_⟩, fun _ hd => ?_, fun _ ho => ?_⟩
        · rw [computedProperty, computedProperty, hkey.1]
        · exact absurd hd List.not_mem_nil
        · exact absurd ho Bool.false_ne_true
  · split
    · rename_i hnot _ _
      obtain ⟨_, _, -, hnil, rfl⟩ := List.forall₂_cons_right_iff.1 ha
      cases hnil
      exact (hnot _ rfl rfl).elim
    · rename_i _ hnot _
      obtain ⟨_, _, -, hnil, rfl⟩ := List.forall₂_cons_right_iff.1 ha
      cases hnil
      exact (hnot _ rfl rfl).elim
    · rename_i hnot
      obtain ⟨_, _, -, hrest, rfl⟩ := List.forall₂_cons_right_iff.1 ha
      obtain ⟨_, _, -, hnil, rfl⟩ := List.forall₂_cons_right_iff.1 hrest
      cases hnil
      exact (hnot _ _ rfl rfl).elim
    · exact .pure h .none

omit hstrict hres hbases in
theorem literalType_parallel (a : Arena) (r : Ref) :
    Parallel strict st st' (literalType a r) (literalType a r) SameType := by
  have hkeyword {x : TypeId} (hx : x < intrinsicNames.length) :
      Parallel strict st st' (pure x) (pure x) SameType := .pure h (.keyword _ _ hx)
  unfold literalType
  split
  · split
    · exact .intern h (.literal _) trivial
    · exact hkeyword (by decide)
  · split
    · exact .intern h (.literal _) trivial
    · exact hkeyword (by decide)
  all_goals exact hkeyword (by decide)

include hs in
/-- A name is bound on both sides or on neither, and what it is declared as is told from the files.
-/
theorem referenceType_parallel (sources : Sources) (name : Ref) (arguments : Option (List Ref)) :
    Parallel strict st st' (referenceType lenient resolve sources bases m s name arguments)
      (referenceType strict resolve' sources bases' m s' name arguments) SameType := by
  unfold referenceType
  split
  · exact .pure h (same_any st st')
  · rename_i text _
    have harguments := Parallel.mapM
      (fun _ _ t t' x x' ht ht' (hx : SameType _ _ x x') => hx.mono ht ht')
      h (arguments.getD []) fun r t t' ht ht' halike => hres m s s' r t t' halike (hs.mono ht ht')
    refine harguments.bind fun t t' ids ids' ht ht' halike hids => ?_
    have hs := hs.mono ht ht'
    rw [hs.frames]
    rcases rel_cases (hs.get? text) with ⟨hn, hn'⟩ | ⟨bound, bound', hn, hn', hbound⟩
    · rw [hn, hn']
      dsimp only
      split
      case' h_1 =>
        refine (Parallel.intern halike (.parameter text) trivial).map_some.bind
          fun u u' declared declared' hu hu' halike hdeclared => ?_
      case' h_2 =>
        refine (declaredType_parallel hstrict hres m halike hbases sources text _ _ hids).bind
          fun u u' declared declared' hu hu' halike hdeclared => ?_
      case' h_3 =>
        have hnone : Parallel strict t t' (pure none) (pure none)
            fun u u' => Option.Rel (SameType u u') := .pure halike .none
        refine hnone.bind
          fun u u' declared declared' hu hu' halike hdeclared => ?_
      -- What is not declared may be there without a declaration.
      all_goals
        cases hdeclared with
        | some hx => exact .pure halike hx
        | none =>
          refine (builtinType_parallel halike text (sameTypes_mono hu hu' hids)).bind
            fun v v' out out' _ _ halike hout => .pure halike ?_
          cases hout with
          | none => exact same_any v v'
          | some hx => exact hx
    · rw [hn, hn']
      exact .pure halike hbound

end Declared

/-! ## Type nodes -/

section Types

include hres h hs

/-- By induction on the keys, of which there are the same in the same order. -/
theorem mappedShape_parallel (parameter : String) (template : Ref)
    {keys keys' : List (String × TypeId)} (hkeys : SameKeys st st' keys keys') :
    Parallel strict st st' (mappedShape resolve m s parameter template keys)
      (mappedShape resolve' m s' parameter template keys') (SameShape strict) := by
  induction keys generalizing keys' st st' with
  | nil =>
    cases hkeys
    exact .pure h .nil
  | cons key keys ih =>
    cases hkeys with
    | @cons _ key' _ _ hkey hkeys =>
      obtain ⟨name, k⟩ := key
      obtain ⟨name', k'⟩ := key'
      obtain ⟨rfl, hk⟩ := hkey
      refine (hres m _ _ template st st' h (hs.bind parameter hk)).bind
        fun t t' x x' ht ht' halike hx => ?_
      refine (ih halike (hs.mono ht ht') (hkeys.imp fun _ _ hk => ⟨hk.1, hk.2.mono ht ht'⟩)).bind
        fun u u' rest rest' hu hu' halike hrest =>
          .pure halike (.cons ⟨⟨hx.mono hu hu', rfl⟩, ?_⟩ hrest)
      exact ⟨fun _ hd => absurd hd List.not_mem_nil, fun _ ho => absurd ho Bool.false_ne_true⟩

theorem mappedType_parallel (parameter template : Ref) :
    Parallel strict st st' (mappedType resolve m s parameter template)
      (mappedType resolve' m s' parameter template) SameType := by
  unfold mappedType
  dsimp only
  split
  · split
    · rename_i text _
      refine (hres m s s' _ st st' h hs).bind fun t t' keys keys' ht ht' halike hkeys => ?_
      refine Parallel.get_bind ?_
      refine (mappedShape_parallel hres m halike (hs.mono ht ht') text template
        (halike.literalKeys hkeys)).bind fun u u' shape shape' _ _ halike hshape => ?_
      exact .internObject halike hshape
    · exact .pure h (same_any st st')
  · exact .pure h (same_any st st')

end Types

include hstrict hres in
/-- **A node is worked out in parallel** if the nodes beneath it are. -/
theorem nodeType_parallel {bases bases' : BasesIn Checking} (hbases : bases.Parallel strict bases')
    (sources : Sources) : Resolve.Parallel strict (nodeType lenient resolve sources bases)
      (nodeType strict resolve' sources bases') := by
  intro m s s' r st st' h hs
  unfold nodeType
  split
  · exact .pure h (same_any st st')
  · split
    · refine .pure h ?_
      split
      · exact .keyword _ _ (keywordType_lt _)
      · exact same_any st st'
    · exact referenceType_parallel hstrict hres m h hs hbases sources _ _
    · exact literalType_parallel h _ _
    · exact (hres m s s' _ st st' h hs).bind fun t t' x x' _ _ halike hx =>
        .intern halike (.array hx) trivial
    · rename_i members _ _
      have hmembers := Parallel.mapM
        (fun _ _ t t' x x' ht ht' (hx : SameType _ _ x x') => hx.mono ht ht')
        h members fun r t t' ht ht' halike => hres m s s' r t t' halike (hs.mono ht ht')
      exact hmembers.bind fun t t' ids ids' _ _ halike hids => .union halike hids
    · rename_i members _ _
      have hmembers := Parallel.foldlM (SameShape strict) h members .nil
        fun r t t' shape shape' ht ht' halike hshape =>
          addMember_parallel hstrict hres m halike (hs.mono ht ht') hshape r
      exact hmembers.bind fun t t' shape shape' _ _ halike hshape => .internObject halike hshape
    · exact (functionShape_parallel hres m h hs _ _).bind fun t t' f f' _ _ halike hf =>
        .intern halike hf trivial
    · exact mappedType_parallel hres m h hs _ _
    · exact .pure h (same_any st st')

end Nodes

theorem baseTypes_none_parallel (strict : Bool) :
    BasesIn.Parallel strict (baseTypes none) (baseTypes none) := by
  intro m name s s' clauses st st' h _
  cases clauses with
  | nil => exact .pure h .nil
  | cons _ _ => exact (Parallel.warn h _).bind fun _ _ _ _ _ _ halike _ => .pure halike .nil

theorem baseTypes_some_parallel {strict : Bool} {resolve resolve' : Resolve}
    (hres : resolve.Parallel strict resolve') :
    BasesIn.Parallel strict (baseTypes (some resolve)) (baseTypes (some resolve')) := by
  intro m name s s' clauses st st' h hs
  cases clauses with
  | nil => exact .pure h .nil
  | cons clause clauses =>
    exact .mapM (fun _ _ t t' x x' ht ht' (hx : SameType _ _ x x') => hx.mono ht ht') h _
      fun r t t' ht ht' halike => hres m s s' r t t' halike (hs.mono ht ht')

/-- **A node is the same type in both runs**, at every depth. -/
theorem resolveType_parallel {lenient strict : Bool} (hstrict : lenient = true → strict = true)
    (sources : Sources) (levels heritage : Nat) :
    (resolveType lenient sources levels heritage).Parallel strict
      (resolveType strict sources levels heritage) := by
  induction levels generalizing heritage with
  | zero =>
    intro m s s' r st st' h _
    cases r with
    | none => exact .pure h (same_any st st')
    | some node =>
      exact (Parallel.warn h _).bind fun t t' _ _ _ _ halike _ => .pure halike (same_any t t')
  | succ levels ih =>
    have hbases : BasesIn.Parallel strict (baseTypes (resolveBases lenient sources levels heritage))
        (baseTypes (resolveBases strict sources levels heritage)) := by
      cases heritage with
      | zero => exact baseTypes_none_parallel strict
      | succ more => exact baseTypes_some_parallel (ih more)
    rw [resolveType_succ, resolveType_succ]
    exact nodeType_parallel hstrict (ih heritage) hbases sources

/-! ## The walk -/

/-- The facts are the same: the same signatures, of declarations that are entered, and the same
types. -/
structure SameFacts (st st' : State) (facts facts' : Facts) : Prop where
  signatures : facts'.signatures = facts.signatures
  declared : ∀ (node : Nat) (s : Signature), facts.signatures[node]? = some s →
    ∀ d ∈ s.declaration, d < st'.sites.size
  types : ∀ node : Nat, Option.Rel (SameType st st') facts.types[node]? facts'.types[node]?

theorem SameFacts.mono {st st' t t' : State} {facts facts' : Facts}
    (h : SameFacts st st' facts facts')
    (hst : st.Within t) (hst' : st'.Within t') : SameFacts t t' facts facts' := by
  refine ⟨h.signatures, fun node s hs d hd => ?_, fun node => ?_⟩
  · exact Nat.lt_of_lt_of_le (h.declared node s hs d hd) hst'.grows.size_le
  · rcases rel_cases (h.types node) with ⟨hn, hn'⟩ | ⟨x, x', hn, hn', hx⟩
    · rw [hn, hn']
      exact .none
    · rw [hn, hn']
      exact .some (hx.mono hst hst')

theorem sameFacts_empty (st st' : State) : SameFacts st st' .empty .empty :=
  ⟨rfl, fun _ _ hs => absurd hs (by simp [Facts.empty]), fun _ => by simp [Facts.empty]⟩

section Walk

variable {lenient strict : Bool} (hstrict : lenient = true → strict = true) (sources : Sources)
  (m : Module) {st st' : State} (h : st.Alike strict st')
include h

theorem callSignature_parallel (scopes : Scopes) (callee : Ref) :
    Parallel strict st st' (callSignature sources m scopes callee)
    (callSignature sources m scopes callee)
      fun _ t' s s' => s' = s ∧ ∀ x ∈ s, ∀ d ∈ x.declaration, d < t'.sites.size := by
  unfold callSignature
  split
  · refine (Parallel.declare h _ _ _ _).bind fun t t' d d' _ _ halike hd => .pure halike ?_
    obtain ⟨rfl, hlt⟩ := hd
    refine ⟨rfl, fun x hx e he => ?_⟩
    obtain rfl := Option.some.inj hx
    obtain rfl := Option.some.inj he
    exact hlt
  · exact .pure h ⟨rfl, fun x hx => absurd hx (Option.not_mem_none x)⟩

include hstrict

theorem recordType_parallel (scopes : Scopes) {facts facts' : Facts}
    (hfacts : SameFacts st st' facts facts') (r : Ref) :
    Parallel strict st st' (recordType (resolveFully lenient sources) m scopes facts r)
      (recordType (resolveFully strict sources) m scopes facts' r) SameFacts := by
  unfold recordType
  cases r with
  | none => exact .pure h hfacts
  | some node =>
    refine (resolveType_parallel hstrict sources typeDepth heritageDepth m _ _ (some node) st st' h
      (.ofFrames st st' scopes.types)).bind fun t t' x x' ht ht' halike hx => .pure halike ?_
    have hfacts := hfacts.mono ht ht'
    refine ⟨hfacts.signatures, hfacts.declared, fun other => ?_⟩
    rw [Std.TreeMap.getElem?_insert, Std.TreeMap.getElem?_insert]
    split
    · exact .some hx
    · exact hfacts.types other

theorem recordNode_parallel (scopes : Scopes) {facts facts' : Facts}
    (hfacts : SameFacts st st' facts facts') (node : NodeId) (p : Payload Ref) :
    Parallel strict st st' (recordNode (resolveFully lenient sources) sources m scopes facts node p)
      (recordNode (resolveFully strict sources) sources m scopes facts' node p) SameFacts := by
  unfold recordNode
  split
  · rename_i callee types _
    refine (callSignature_parallel sources m h scopes callee).bind
      fun t t' s s' ht ht' halike hs => ?_
    obtain ⟨rfl, hdeclared⟩ := hs
    have hfacts := hfacts.mono ht ht'
    refine .foldlM SameFacts halike (types.getD []) ?_ fun r u u' facts facts' _ _ halike hfacts =>
      recordType_parallel hstrict sources m halike scopes hfacts r
    cases s' with
    | none => exact hfacts
    | some s =>
      refine ⟨by simp only [hfacts.signatures], fun other x hx d hd => ?_, hfacts.types⟩
      rw [Std.TreeMap.getElem?_insert] at hx
      split at hx
      · obtain rfl := Option.some.inj hx
        exact hdeclared _ rfl d hd
      · exact hfacts.declared other x hx d hd
  · exact recordType_parallel hstrict sources m h scopes hfacts _
  · exact recordType_parallel hstrict sources m h scopes hfacts _
  · exact .pure h hfacts

/-- Facts are recorded for the same nodes, in the same order. -/
theorem walkFile_parallel (levels : Nat) (scopes : Scopes) {facts facts' : Facts}
    (hfacts : SameFacts st st' facts facts') (node : NodeId) :
    Parallel strict st st' (walkFile lenient sources m levels scopes facts node)
      (walkFile strict sources m levels scopes facts' node) SameFacts := by
  induction levels generalizing scopes facts facts' node st st' with
  | zero => exact .pure h hfacts
  | succ levels ih =>
    unfold walkFile walkNode
    dsimp only
    split
    · refine (recordNode_parallel hstrict sources m h scopes hfacts node _).bind
        fun t t' facts facts' _ _ halike hfacts => ?_
      exact .foldlM SameFacts halike _ hfacts fun r u u' facts facts' _ _ halike hfacts =>
        ih halike _ hfacts r
    · exact .pure h hfacts

theorem fileFacts_parallel :
    Parallel strict st st' (fileFacts lenient sources m)
    (fileFacts strict sources m) SameFacts := by
  unfold fileFacts rootFacts
  split
  · exact walkFile_parallel hstrict sources m h _ _ (sameFacts_empty st st') _
  · exact .pure h (sameFacts_empty st st')

/-- **The runs over a list of files record the same facts.** -/
theorem checkFiles_parallel (ms : List Module) :
    Parallel strict st st' (Program.checkFiles lenient sources ms)
    (Program.checkFiles strict sources ms)
      fun t t' => List.Forall₂ fun x x' => x'.1 = x.1 ∧ SameFacts t t' x.2 x'.2 := by
  induction ms generalizing st st' with
  | nil => exact .pure h .nil
  | cons m ms ih =>
    unfold Program.checkFiles factsOf
    refine (fileFacts_parallel hstrict sources m h).bind fun t t' facts facts' _ _ halike hfacts =>
      ?_
    exact (ih halike).bind fun u u' rest rest' hu hu' halike hrest =>
      .pure halike (.cons ⟨rfl, hfacts.mono hu hu'⟩ hrest)

end Walk

end TypeReify.Check
