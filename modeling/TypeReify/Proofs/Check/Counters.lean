import TypeReify.Proofs.Check.Machine
import TypeReify.Proofs.Check.Repeat
import TypeReify.Syntax.Draft

/-!
# Counters are restored

With its counters the checker does what it does without them: it ends, with the same answer and the
same tables, and leaves the counters and the types in progress as it found them (`Mirrors`). Each
function of the checker works on one node; where `resolve` mirrors, so does the function, and so by
induction on the fuel does working out a type. Nothing is assumed of the arena, which may have
cycles, nor of the tables.

The counters are `depth` and `heritage_depth`, the types in progress are `in_progress`.
`resolve_type`, `instantiate_interface` and `instantiate_alias` each put back by hand what they
changed; nothing in the source checks it.

Results:
* `Mirrors.bind`, `Mirrors.counting`, `Mirrors.resolving`: mirroring actions are put together.
* `interfaceType_mirrors`, `aliasType_mirrors`: a named type is in progress only while it is worked
  out.
* `resolve_follows`: with counters, types are worked out as without.
* `counters_restored`: so the counters and the types in progress are restored, whatever is worked
  out.

Out of scope: the depth of the call stack.
-/

namespace TypeReify.Check

open Syntax Scope
open TypeReify.Types

/-- **Nothing is leaked**: the counters stay within their limits, a type that was worked out left
them and the types in progress as it found them, and at a node of a walk there is nothing in
progress. -/
def Event.Sound : Event → Prop
  | .counted k => k.Within
  | .resolved before after => after = before
  | .passed now => now = ⟨.zero, []⟩

/-- The action leaves the types in progress as they are. -/
structure Keeps {α : Type} (act : Checking α) : Prop where
  inProgress : ∀ st, (act st).2.inProgress = st.inProgress

/-- **With counters the action does what it does without**: where the counters are at `k` and the
types `l` are in progress, it ends with the same answer and the same tables, the counters are at `k`
again, and the types `l'` are in progress. -/
structure Mirrors {α : Type} (k : Counters) (l l' : List TypeId) (act : Running α)
    (spec : Checking α) :
    Prop where
  inProgress : ∀ st, st.inProgress = l → (spec st).2.inProgress = l'
  run : ∀ st log, st.inProgress = l → ∃ events,
    act ⟨st, k, log⟩ = some ((spec st).1, ⟨(spec st).2, k, events ++ log⟩) ∧ ∀ e ∈ events, e.Sound

namespace Mirrors

variable {α β : Type} {k : Counters} {l l' l'' : List TypeId} {act : Running α} {spec : Checking α}

/-- An action on the tables alone is its own specification, apart from what is in progress. -/
theorem lift (h : ∀ st, st.inProgress = l → (spec st).2.inProgress = l') :
    Mirrors k l l' (liftM spec : Running α) spec where
  inProgress := h
  run _ _ _ := ⟨[], rfl, fun _ he => absurd he List.not_mem_nil⟩

theorem keep (h : Keeps spec) : Mirrors k l l (liftM spec : Running α) spec :=
  .lift fun st hst => (h.inProgress st).trans hst

/-- The counters are known. -/
theorem read {f : Machine → Running α} (h : ∀ st log, Mirrors k l l' (f ⟨st, k, log⟩) spec) :
    Mirrors k l l' (get >>= f) spec where
  inProgress := (h .empty []).inProgress
  run st log hst := (h st log).run st log hst

theorem pure (x : α) : Mirrors k l l (Pure.pure x : Running α) (Pure.pure x) where
  inProgress _ h := h
  run _ _ _ := ⟨[], rfl, fun _ he => absurd he List.not_mem_nil⟩

/-- One action after the other: the second may use what the first has answered. -/
theorem bind {f : α → Running β} {g : α → Checking β} (h : Mirrors k l l' act spec)
    (hf : ∀ x, Mirrors k l' l'' (f x) (g x)) : Mirrors k l l'' (act >>= f) (spec >>= g) := by
  constructor
  · intro st hst
    exact (hf (spec st).1).inProgress _ (h.inProgress st hst)
  · intro st log hst
    obtain ⟨events, hrun, hsound⟩ := h.run st log hst
    obtain ⟨more, hrest, hmore⟩ :=
      (hf (spec st).1).run (spec st).2 (events ++ log) (h.inProgress st hst)
    refine ⟨more ++ events, ?_, List.forall_mem_append.2 ⟨hmore, hsound⟩⟩
    show (act ⟨st, k, log⟩).bind (fun out => f out.1 out.2) = _
    rw [hrun, List.append_assoc]
    exact hrest

/-- Actions that choose by an optional value mirror each other when the choices do. -/
theorem cases {f : Option α → Running β} {g : Option α → Checking β}
    (hnone : Mirrors k l l' (f none) (g none))
    (hsome : ∀ x, Mirrors k l l' (f (some x)) (g (some x)))
    (x : Option α) : Mirrors k l l' (f x) (g x) := by
  cases x with
  | none => exact hnone
  | some x => exact hsome x

theorem map (f : α → β) (h : Mirrors k l l' act spec) :
    Mirrors k l l' (f <$> act) (f <$> spec) := by
  constructor
  · intro st hst
    exact h.inProgress st hst
  · intro st log hst
    obtain ⟨events, hrun, hsound⟩ := h.run st log hst
    refine ⟨events, ?_, hsound⟩
    show (act ⟨st, k, log⟩).bind (fun out => some (f out.1, out.2)) = _
    rw [hrun]
    rfl

theorem mapM {f : α → Running β} {g : α → Checking β} (h : ∀ x, Mirrors k l l (f x) (g x))
    (xs : List α) : Mirrors k l l (xs.mapM f) (xs.mapM g) := by
  induction xs with
  | nil => exact .pure []
  | cons x xs ih =>
    rw [List.mapM_cons, List.mapM_cons]
    exact (h x).bind fun y => ih.bind fun ys => .pure (y :: ys)

theorem filterMapM {f : α → Running (Option β)} {g : α → Checking (Option β)}
    (h : ∀ x, Mirrors k l l (f x) (g x)) (xs : List α) :
    Mirrors k l l (xs.filterMapM f) (xs.filterMapM g) := by
  induction xs with
  | nil => exact .pure []
  | cons x xs ih =>
    rw [List.filterMapM_cons, List.filterMapM_cons]
    refine (h x).bind fun out => ?_
    cases out with
    | none => exact ih
    | some y => exact ih.bind fun ys => .pure (y :: ys)

theorem foldlM {f : β → α → Running β} {g : β → α → Checking β}
    (h : ∀ y x, Mirrors k l l (f y x) (g y x)) (xs : List α) (y : β) :
    Mirrors k l l (xs.foldlM f y) (xs.foldlM g y) := by
  induction xs generalizing y with
  | nil => exact .pure y
  | cons x xs ih =>
    rw [List.foldlM_cons, List.foldlM_cons]
    exact (h y x).bind ih

/-- Counting up and down again keeps the counters, and they stay within their limits. -/
theorem counting {up down : Counters → Counters} (hdown : down (up k) = k) (hk : k.Within)
    (hup : (up k).Within) (h : Mirrors (up k) l l' act spec) :
    Mirrors k l l' (Counted.counting up down act) spec where
  inProgress := h.inProgress
  run st log hst := by
    obtain ⟨events, hrun, hsound⟩ := h.run st (.counted (up k) :: log) hst
    refine ⟨.counted k :: (events ++ [.counted (up k)]), ?_, List.forall_mem_cons.2 ⟨hk, ?_⟩⟩
    · show (act ⟨st, up k, .counted (up k) :: log⟩).bind (fun out => some (out.1, Machine.mk
        out.2.state (down out.2.counters) (.counted (down out.2.counters) :: out.2.log))) = _
      rw [hrun]
      simp [hdown]
    · exact List.forall_mem_append.2 ⟨hsound, List.forall_mem_singleton.2 hup⟩

/-- What is worked out left things as it found them. -/
theorem resolving (h : Mirrors k l l act spec) : Mirrors k l l (Counted.resolving act) spec where
  inProgress := h.inProgress
  run st log hst := by
    obtain ⟨events, hrun, hsound⟩ := h.run st log hst
    refine ⟨.resolved ⟨k, l⟩ ⟨k, l⟩ :: events, ?_, List.forall_mem_cons.2 ⟨rfl, hsound⟩⟩
    show (act ⟨st, k, log⟩).bind (fun out => some (out.1,
      { out.2 with log := .resolved ⟨k, st.inProgress⟩ out.2.snapshot :: out.2.log })) = _
    rw [hrun]
    simp [Machine.snapshot, h.inProgress st hst, hst]

/-- A pass begins with the counters at zero and comes back to them. -/
theorem passing (h : Mirrors .zero [] [] act spec) :
    Mirrors .zero [] [] (Counted.passing act) spec where
  inProgress := h.inProgress
  run st log hst := by
    obtain ⟨events, hrun, hsound⟩ := h.run st (.passed ⟨.zero, []⟩ :: log) hst
    refine ⟨.passed ⟨.zero, []⟩ :: (events ++ [.passed ⟨.zero, []⟩]), ?_,
      List.forall_mem_cons.2 ⟨rfl, ?_⟩⟩
    · show (act ⟨st, .zero, .passed ⟨.zero, st.inProgress⟩ :: log⟩).bind (fun out => some (out.1,
        { out.2 with log := .passed out.2.snapshot :: out.2.log })) = _
      rw [hst, hrun]
      simp [Machine.snapshot, h.inProgress st hst]
    · exact List.forall_mem_append.2 ⟨hsound, List.forall_mem_singleton.2 rfl⟩

end Mirrors

/-! ## Type nodes -/

/-- With counters at `k`, types are worked out as without. -/
def Follows (k : Counters) (resolve : ResolveIn Running) (spec : Resolve) : Prop :=
  ∀ l m s r, Mirrors k l l (resolve m s r) (spec m s r)

/-- So are the types in `extends` clauses. -/
def FollowsBases (k : Counters) (bases : BasesIn Running) (spec : BasesIn Checking) : Prop :=
  ∀ l m name s clauses, Mirrors k l l (bases m name s clauses) (spec m name s clauses)

section Nodes

variable {k : Counters} {l : List TypeId} {strict : Bool} {resolve : ResolveIn Running}
  {spec : Resolve} (h : Follows k resolve spec)

theorem intern_mirrors (s : Structure) :
    Mirrors k l l (liftM (intern s) : Running TypeId) (intern s) :=
  .keep ⟨fun _ => rfl⟩

theorem declare_mirrors (m : Module) (kind : DeclarationKind) (name : Option String)
    (node : NodeId) :
    Mirrors k l l (liftM (m.declare kind name node) : Running DeclId) (m.declare kind name node) :=
  .keep ⟨fun st => inProgress_declare st m kind name node⟩

theorem tables_mirrors : Mirrors k l l (liftM tables : Running State) (get : Checking State) :=
  .keep ⟨fun _ => rfl⟩

theorem aliasView_mirrors (id target : TypeId) :
    Mirrors k l l (liftM (aliasView id target) : Running TypeId) (aliasView id target) :=
  .keep ⟨fun st => by rw [aliasView_run]⟩

theorem literalType_mirrors (a : Arena) (r : Ref) :
    Mirrors k l l (liftM (literalType a r) : Running TypeId) (literalType a r) := by
  refine .keep ?_
  unfold literalType
  split
  · split <;> exact ⟨fun _ => rfl⟩
  · split <;> exact ⟨fun _ => rfl⟩
  · exact ⟨fun _ => rfl⟩
  · exact ⟨fun _ => rfl⟩
  · exact ⟨fun _ => rfl⟩
  · exact ⟨fun _ => rfl⟩

theorem builtinType_mirrors (name : String) (arguments : List TypeId) :
    Mirrors k l l (liftM (builtinType name arguments) : Running (Option TypeId))
      (builtinType name arguments) := by
  refine .keep ?_
  unfold builtinType
  split
  · exact ⟨fun _ => rfl⟩
  · exact ⟨fun _ => rfl⟩
  · exact ⟨fun _ => rfl⟩
  · exact ⟨fun _ => rfl⟩

/-- Starting on an interface puts it on top of what is in progress, -/
theorem start_mirrors (id : TypeId) :
    Mirrors k l (id :: l) (liftM (start id) : Running Unit) (start id) :=
  .lift fun _ hst => congrArg (id :: ·) hst

/-- and finishing it takes it off again. -/
theorem finish_mirrors (id : TypeId) :
    Mirrors k (id :: l) l (liftM (finish id) : Running Unit) (finish id) :=
  .lift fun st hst => by
    show st.inProgress.erase id = l
    rw [hst, List.erase_cons_head]

include h

theorem parameterType_mirrors (m : Module) (s : Surroundings) (r : Ref) :
    Mirrors k l l (parameterType resolve m s r) (parameterType spec m s r) := by
  unfold parameterType
  cases m.file.arena.content? r with
  | none => exact .pure none
  | some content =>
    obtain ⟨hd, p⟩ := content
    cases p with
    | parameter name ascription _ => exact (h l m s ascription).bind fun type => .pure _
    | _ => exact .pure none

theorem functionShape_mirrors (m : Module) (s : Surroundings) (parameters : List Ref)
    (result : Ref) :
    Mirrors k l l (functionShape resolve m s parameters result)
      (functionShape spec m s parameters result) :=
  (Mirrors.filterMapM (parameterType_mirrors h m s) parameters).bind fun _ =>
    (h l m s result).bind fun _ => .pure _

theorem memberType_mirrors (m : Module) (s : Surroundings) (method : Bool)
    (parameters : Option (List Ref)) (ascription : Ref) :
    Mirrors k l l (memberType resolve m s method parameters ascription)
      (memberType spec m s method parameters ascription) := by
  unfold memberType
  cases method with
  | true => exact (functionShape_mirrors h m s _ _).bind fun shape => intern_mirrors _
  | false => exact h l m s ascription

/-- Members of every kind leave the counters as they were. -/
theorem addMember_mirrors (m : Module) (s : Surroundings) (shape : Shape) (member : Ref) :
    Mirrors k l l (addMember strict resolve m s shape member)
      (addMember strict spec m s shape member) := by
  unfold addMember
  cases member with
  | none => exact .pure shape
  | some node =>
    cases m.file.arena.content? (some node) with
    | none => exact .pure shape
    | some content =>
      obtain ⟨hd, p⟩ := content
      cases p with
      | signature name types parameters ascription =>
        dsimp only
        cases m.file.arena.nameText? name with
        | none => exact .pure shape
        | some text =>
          refine (declare_mirrors m _ _ node).bind fun declaration => ?_
          split
          · exact .pure _
          · refine (memberType_mirrors h m s _ parameters ascription).bind fun type => ?_
            split
            · exact (Mirrors.keep ⟨fun st => inProgress_widen st type⟩).bind fun _ => .pure _
            · exact .pure _
      | _ => exact .pure shape

theorem bindParameter_mirrors (m : Module) (s : Surroundings) (r : Ref) (argument : Option TypeId) :
    Mirrors k l l (bindParameter resolve m s r argument)
      (bindParameter spec m s r argument) := by
  have hargument (text : String) (fallback : Ref) :
      Mirrors k l l (parameterArgument resolve m s text fallback argument)
        (parameterArgument spec m s text fallback argument) := by
    cases argument with
    | some type => exact .pure type
    | none =>
      cases fallback with
      | some node => exact h l m s (some node)
      | none => exact intern_mirrors _
  unfold bindParameter
  cases m.file.arena.content? r with
  | none => exact .pure s
  | some content =>
    obtain ⟨hd, p⟩ := content
    cases p with
    | typeParameter name bound fallback =>
      dsimp only
      cases m.file.arena.identifierText? name with
      | some text => exact (hargument text fallback).bind fun _ => .pure _
      | none => exact .pure s
    | _ => exact .pure s

theorem bindArguments_mirrors (m : Module) (parameters : List Ref) (arguments : List TypeId)
    (s : Surroundings) :
    Mirrors k l l (bindArguments resolve m parameters arguments s)
      (bindArguments spec m parameters arguments s) := by
  induction parameters generalizing arguments s with
  | nil => exact .pure s
  | cons r rs ih => exact (bindParameter_mirrors h m s r arguments.head?).bind (ih arguments.tail)

variable {bases : BasesIn Running} {specBases : BasesIn Checking}
  (hbases : FollowsBases k bases specBases)

include hbases in
/-- A part of an interface has parameters, members and bases, and each of them leaves the counters
as they were. -/
theorem interfacePart_mirrors (m : Module) (name : String) (frames : Frames)
    (arguments : List TypeId) (part : Shape × List TypeId) (node : NodeId) :
    Mirrors k l l (interfacePart strict resolve bases m name frames arguments part node)
      (interfacePart strict spec specBases m name frames arguments part node) := by
  unfold interfacePart
  cases m.file.arena.content? (some node) with
  | none => exact .pure part
  | some content =>
    obtain ⟨hd, p⟩ := content
    cases p with
    | interface n parameters heritage members =>
      exact (bindArguments_mirrors h m _ arguments _).bind fun s =>
        (Mirrors.foldlM (addMember_mirrors h m s) members part.1).bind fun shape =>
          (hbases l m name s _).bind fun inherited => .pure _
    | _ => exact .pure part

include hbases in
/-- An interface is in progress while its members are worked out, and no longer. -/
theorem interfaceType_mirrors (m : Module) (name : String) (first : NodeId) (merged : List NodeId)
    (frames : Frames) (arguments : List TypeId) :
    Mirrors k l l (interfaceType strict resolve bases m name first merged frames arguments)
      (interfaceType strict spec specBases m name first merged frames arguments) := by
  refine (declare_mirrors m _ _ first).bind fun declaration => ?_
  refine (intern_mirrors _).bind fun id => ?_
  refine tables_mirrors.bind fun st => ?_
  split
  · exact .pure id
  · refine (start_mirrors id).bind fun _ => ?_
    refine (Mirrors.foldlM (interfacePart_mirrors h hbases m name frames arguments) _ _).bind
      fun part => ?_
    refine tables_mirrors.bind fun st => ?_
    refine (Mirrors.keep ⟨fun _ => rfl⟩).bind fun _ => ?_
    exact (finish_mirrors id).bind fun _ => .pure id

/-- An alias that has been looked at is read from the tables, any other is worked out. -/
theorem aliasType_mirrors (m : Module) (name : String) (node : NodeId) (frames : Frames)
    (arguments : List TypeId) :
    Mirrors k l l (aliasType resolve m name node frames arguments)
      (aliasType spec m name node frames arguments) := by
  refine (declare_mirrors m _ _ node).bind fun declaration => ?_
  refine (intern_mirrors _).bind fun id => ?_
  refine tables_mirrors.bind fun st => ?_
  cases st.named.target? id with
  | some target => exact aliasView_mirrors id target
  | none =>
    dsimp only
    split
    · exact .pure id
    · cases m.file.arena.content? (some node) with
      | none => exact .pure _
      | some content =>
        obtain ⟨hd, p⟩ := content
        cases p with
        | typeAlias n parameters body =>
          refine (start_mirrors id).bind fun _ => ?_
          refine (bindArguments_mirrors h m _ arguments _).bind fun s => ?_
          refine (h _ m s body).bind fun target => ?_
          refine (Mirrors.keep ⟨fun _ => rfl⟩).bind fun _ => ?_
          exact (finish_mirrors id).bind fun _ => aliasView_mirrors id target
        | _ => exact .pure _

include hbases in
/-- A name that is declared, whatever declares it. -/
theorem declaredType_mirrors (sources : Sources) (m : Module) (name : String) (symbol : TypeName)
    (frames : Frames) (arguments : List TypeId) :
    Mirrors k l l (declaredType strict resolve sources bases m name symbol frames arguments)
      (declaredType strict spec sources specBases m name symbol frames arguments) := by
  unfold declaredType
  cases symbol with
  | interface first merged =>
    exact (interfaceType_mirrors h hbases m name first merged _ _).map some
  | typeAlias node => exact (aliasType_mirrors h m name node _ _).map some
  | imported module exported =>
    dsimp only
    cases sources.followType importHops m name (.imported module exported) with
    | none => exact .pure none
    | some target =>
      obtain ⟨m, name, symbol⟩ := target
      cases symbol with
      | interface first merged =>
        exact (interfaceType_mirrors h hbases m name first merged _ _).map some
      | typeAlias node => exact (aliasType_mirrors h m name node _ _).map some
      | imported _ _ => exact .pure none

include hbases in
theorem referenceType_mirrors (sources : Sources) (m : Module) (s : Surroundings) (name : Ref)
    (arguments : Option (List Ref)) :
    Mirrors k l l (referenceType strict resolve sources bases m s name arguments)
      (referenceType strict spec sources specBases m s name arguments) := by
  unfold referenceType
  cases m.file.arena.identifierText? name with
  | none => exact .pure _
  | some text =>
    refine (Mirrors.mapM (h l m s) _).bind fun types => ?_
    cases s.get? text with
    | some bound => exact .pure bound
    | none =>
      dsimp only
      have hbuiltin : Mirrors k l l
          (do return (← (builtinType text types : Running _)).getD TypeId.any)
          (do return (← builtinType text types).getD TypeId.any) :=
        (builtinType_mirrors text types).bind fun _ => .pure _
      cases s.frames.lookup m.names.locals.types text with
      | none => exact (Mirrors.pure none).bind (.cases hbuiltin fun type => .pure type)
      | some meaning =>
        cases meaning with
        | parameter =>
          exact ((intern_mirrors _).map some).bind (.cases hbuiltin fun type => .pure type)
        | declared symbol frames =>
          exact (declaredType_mirrors h hbases sources m text symbol frames types).bind
            (.cases hbuiltin fun type => .pure type)

theorem mappedType_mirrors (m : Module) (s : Surroundings) (parameter template : Ref) :
    Mirrors k l l (mappedType resolve m s parameter template)
      (mappedType spec m s parameter template) := by
  have hshape (text : String) (keys : List (String × TypeId)) :
      Mirrors k l l (mappedShape resolve m s text template keys)
        (mappedShape spec m s text template keys) := by
    induction keys with
    | nil => exact .pure []
    | cons key keys ih => exact (h l m _ template).bind fun type => ih.bind fun rest => .pure _
  unfold mappedType
  dsimp only
  cases m.file.arena.content? parameter with
  | none => exact .pure _
  | some content =>
    obtain ⟨hd, p⟩ := content
    cases p with
    | typeParameter name bound _ =>
      dsimp only
      cases m.file.arena.identifierText? name with
      | none => exact .pure _
      | some text =>
        exact (h l m s bound).bind fun keys => tables_mirrors.bind fun st =>
          (hshape text _).bind fun shape => intern_mirrors _
    | _ => exact .pure _

include hbases in
/-- The type of one node. -/
theorem nodeType_mirrors (sources : Sources) :
    Follows k (nodeType strict resolve sources bases) (nodeType strict spec sources specBases) := by
  intro l m s r
  unfold nodeType
  cases m.file.arena.header? r with
  | none => exact .pure _
  | some hd =>
    dsimp only
    cases hd.kind with
    | token t => exact .pure _
    | form _ | unassigned _ =>
      cases m.file.arena.payload? hd with
      | none => exact .pure _
      | some p =>
        cases p with
        | typeReference name arguments =>
          exact referenceType_mirrors h hbases sources m s name arguments
        | literalType literal => exact literalType_mirrors _ literal
        | arrayType element => exact (h l m s element).bind fun type => intern_mirrors _
        | union members =>
          exact (Mirrors.mapM (h l m s) members).bind fun types => .keep ⟨fun _ => rfl⟩
        | typeLiteral members =>
          exact (Mirrors.foldlM (addMember_mirrors h m s) members []).bind fun shape =>
            intern_mirrors _
        | functionType _ parameters result =>
          exact (functionShape_mirrors h m s parameters result).bind fun shape => intern_mirrors _
        | mappedType parameter template => exact mappedType_mirrors h m s parameter template
        | _ => exact .pure _

end Nodes

section Bases

variable {k : Counters} {resolve : ResolveIn Running}

/-- Where the counter has come to its limit, no `extends` clause is followed. -/
theorem baseTypes_mirrors_none (hlimit : heritageDepth ≤ k.heritage) :
    FollowsBases k (Counted.baseTypes resolve) (baseTypes none) := by
  intro l m name s clauses
  cases clauses with
  | nil => exact .pure []
  | cons clause clauses =>
    refine .read fun st log => ?_
    rw [if_pos hlimit]
    exact (Mirrors.keep ⟨fun _ => rfl⟩).bind fun _ => .pure []

/-- Elsewhere all of them are, with the counter up by one. -/
theorem baseTypes_mirrors_some (hk : k.Within) (hlimit : k.heritage < heritageDepth)
    {spec : Resolve} (h : Follows k.extended resolve spec) :
    FollowsBases k (Counted.baseTypes resolve) (baseTypes (some spec)) := by
  intro l m name s clauses
  have hmap : Mirrors k l l (Counted.baseTypes resolve m name s clauses)
    (clauses.mapM (spec m s)) := by
    induction clauses with
    | nil => exact .pure []
    | cons clause clauses ih =>
      rw [List.mapM_cons]
      refine .read fun st log => ?_
      rw [if_neg (Nat.not_le.2 hlimit)]
      refine (Mirrors.counting k.reduced_extended hk ⟨hk.depth, hlimit⟩ (h l m s clause)).bind
        fun type => ih.bind fun types => .pure (type :: types)
  cases clauses with
  | nil => exact hmap
  | cons clause clauses => exact hmap

end Bases

/-- **With counters types are worked out as without**, where the fuel lasts for the levels that are
left. By induction on the fuel: a type inside a type has one level less, and one unit of fuel less.
-/
theorem resolve_follows (strict : Bool) (sources : Sources) (fuel : Nat) {k : Counters}
    (hk : k.Within) (hfuel : typeDepth - k.depth < fuel) :
    Follows k (Counted.resolve strict sources fuel)
      (resolveType strict sources (typeDepth - k.depth) (heritageDepth - k.heritage)) := by
  induction fuel generalizing k with
  | zero => exact absurd hfuel (Nat.not_lt_zero _)
  | succ fuel ih =>
    intro l m s r
    refine .resolving (.read fun st log => ?_)
    by_cases hdepth : typeDepth ≤ k.depth
    · rw [if_pos hdepth, Nat.sub_eq_zero_of_le hdepth]
      cases r with
      | none => exact .keep ⟨fun _ => rfl⟩
      | some node => exact .keep ⟨fun _ => rfl⟩
    · have hlevels : typeDepth - k.depth = typeDepth - k.deeper.depth + 1 := by
        show _ = typeDepth - (k.depth + 1) + 1
        omega
      have hdeeper : k.deeper.Within := ⟨Nat.lt_of_not_le hdepth, hk.heritage⟩
      have hlasts : typeDepth - k.deeper.depth < fuel := by omega
      rw [if_neg hdepth, hlevels, resolveType_succ]
      refine .counting k.shallower_deeper hk hdeeper ?_
      refine nodeType_mirrors (ih hdeeper hlasts) ?_ sources l m s r
      by_cases hheritage : heritageDepth ≤ k.heritage
      · rw [Nat.sub_eq_zero_of_le hheritage]
        exact baseTypes_mirrors_none hheritage
      · have hclauses :
            heritageDepth - k.heritage = heritageDepth - k.deeper.extended.heritage + 1 := by
          show _ = heritageDepth - (k.heritage + 1) + 1
          omega
        have hheritage : k.heritage < heritageDepth := Nat.lt_of_not_le hheritage
        rw [hclauses]
        exact baseTypes_mirrors_some hdeeper hheritage (ih ⟨hdeeper.depth, hheritage⟩ hlasts)

/-! ## Files -/

section Files

variable {strict : Bool} {sources : Sources} {fuel : Nat} (hfuel : typeDepth < fuel) {m : Module}
include hfuel

theorem recordType_mirrors (scopes : Scopes) (facts : Facts) (r : Ref) :
    Mirrors .zero [] [] (recordType (Counted.resolve strict sources fuel) m scopes facts r)
      (recordType (resolveFully strict sources) m scopes facts r) := by
  cases r with
  | none => exact .pure facts
  | some node =>
    exact (resolve_follows strict sources fuel Counters.within_zero hfuel [] m _ _).bind fun type =>
      .pure _

theorem recordNode_mirrors (scopes : Scopes) (facts : Facts) (node : NodeId) (p : Payload Ref) :
    Mirrors .zero [] [] (recordNode (Counted.resolve strict sources fuel) sources m scopes
      facts node p)
      (recordNode (resolveFully strict sources) sources m scopes facts node p) := by
  cases p with
  | call callee types _ =>
    have hsignature : Keeps (callSignature sources m scopes callee) := by
      unfold callSignature
      split
      · exact ⟨fun st => inProgress_declare st _ _ _ _⟩
      · exact ⟨fun _ => rfl⟩
    exact (Mirrors.keep hsignature).bind fun signature =>
      Mirrors.foldlM (recordType_mirrors hfuel scopes) _ _
  | variableDeclaration _ ascription _ => exact recordType_mirrors hfuel scopes facts ascription
  | parameter _ ascription _ => exact recordType_mirrors hfuel scopes facts ascription
  | _ => exact .pure facts

/-- Before and after every node of a walk both counters are zero, and nothing is in progress. -/
theorem walkFile_mirrors (levels : Nat) (scopes : Scopes) (facts : Facts) (node : NodeId) :
    Mirrors .zero [] [] (Counted.walkFile strict sources fuel m levels scopes facts node)
      (walkFile strict sources m levels scopes facts node) := by
  induction levels generalizing scopes facts node with
  | zero => exact .pure facts
  | succ levels ih =>
    refine .passing ?_
    unfold walkFile walkNode
    dsimp only
    cases m.file.arena.content? (some node) with
    | none => exact .pure facts
    | some content =>
      obtain ⟨hd, p⟩ := content
      exact (recordNode_mirrors hfuel scopes facts node p).bind fun facts =>
        Mirrors.foldlM (fun facts child => ih _ facts child) _ facts

/-- All files, one after the other, each from counters at zero. -/
theorem checkFiles_mirrors (ms : List Module) :
    Mirrors .zero [] [] (Counted.checkFiles strict sources fuel ms)
      (Program.checkFiles strict sources ms) := by
  have hfile (m : Module) : Mirrors .zero [] [] (Counted.fileFacts strict sources fuel m)
      (fileFacts strict sources m) := by
    unfold Counted.fileFacts fileFacts rootFacts
    cases m.file.root with
    | none => exact .pure Facts.empty
    | some root => exact walkFile_mirrors hfuel _ _ _ root
  induction ms with
  | nil => exact .pure []
  | cons m ms ih => exact (hfile m).bind fun facts => ih.bind fun rest => .pure _

end Files

/-- **The counters and the types in progress are restored.** Working out a type, from whatever state
and in whatever arena, ends: the fuel that it takes is at most one more than the levels that are
left. It answers what `resolveType` does, with these levels, and leaves the counters and the types
in progress as it found them; and so does every type that is worked out inside it, none of which
takes a counter beyond its limit. Checking files works out types in this way only, and before and
after every node that it walks to both counters are zero and nothing is in progress. -/
theorem counters_restored (strict : Bool) (sources : Sources) :
    (∀ (fuel : Nat) (m : Module) (s : Surroundings) (r : Ref) (k : Machine), k.counters.Within →
      typeDepth - k.counters.depth < fuel → ∃ type state events,
        Counted.resolve strict sources fuel m s r k =
            some (type, ⟨state, k.counters, events ++ k.log⟩) ∧
          resolveType strict sources (typeDepth - k.counters.depth)
            (heritageDepth - k.counters.heritage) m s r k.state = (type, state) ∧
          state.inProgress = k.state.inProgress ∧ ∀ e ∈ events, e.Sound) ∧
      ∀ (fuel : Nat) (ms : List Module), typeDepth < fuel → ∃ facts state events,
        Counted.checkFiles strict sources fuel ms .idle = some (facts, ⟨state, .zero, events⟩) ∧
          Program.checkFiles strict sources ms .empty = (facts, state) ∧
          state.inProgress = [] ∧ ∀ e ∈ events, e.Sound := by
  constructor
  · intro fuel m s r k hk hfuel
    have h := resolve_follows strict sources fuel hk hfuel k.state.inProgress m s r
    obtain ⟨events, hrun, hsound⟩ := h.run k.state k.log rfl
    exact ⟨_, _, events, hrun, rfl, h.inProgress k.state rfl, hsound⟩
  · intro fuel ms hfuel
    have h : Mirrors .zero [] [] (Counted.checkFiles strict sources fuel ms)
        (Program.checkFiles strict sources ms) := checkFiles_mirrors hfuel ms
    obtain ⟨events, hrun, hsound⟩ := h.run .empty [] rfl
    rw [List.append_nil] at hrun
    exact ⟨_, _, events, hrun, rfl, h.inProgress .empty rfl, hsound⟩

/-- `type Loop = Loop[];` and `f<Loop>();`, and in front of them, in no statement, an array type
whose elements are this type itself. -/
def loopFile : SourceFile :=
  let act : Drafting Unit := do
    let _ ← Draft.build (Build.arrayType (some 0))
    let element ← Draft.build (Draft.typeNamed "Loop" [])
    let body ← Draft.build (Build.arrayType element)
    let _ ← Draft.aliasNamed "Loop" body
    let argument ← Draft.build (Draft.typeNamed "Loop" [])
    let call ← Draft.build (Draft.callNamed "f" [argument])
    let _ ← Draft.expression call
  (act .empty).2.finish "/app/main.ts"

theorem counters_restored_loopFile :
    let sources := Sources.ofFiles [loopFile]
    let m := Sources.moduleOf [loopFile] loopFile
    Machine.idle.counters.Within ∧ typeDepth < 65 ∧
      (∃ type state events,
        Counted.resolve true sources 65 m (.ofFrames []) (some 0) .idle =
            some (type, ⟨state, .zero, events ++ []⟩) ∧
          resolveType true sources typeDepth heritageDepth m (.ofFrames []) (some 0) .empty =
            (type, state) ∧
          state.inProgress = [] ∧ ∀ e ∈ events, e.Sound) ∧
      ∃ facts state events,
        Counted.checkFiles true sources 65 [m] .idle = some (facts, ⟨state, .zero, events⟩) ∧
          Program.checkFiles true sources [m] .empty = (facts, state) ∧
          state.inProgress = [] ∧ ∀ e ∈ events, e.Sound :=
  ⟨Counters.within_zero, by decide,
    (counters_restored true (Sources.ofFiles [loopFile])).1 65 _ _ _ .idle Counters.within_zero
      (by decide),
    (counters_restored true (Sources.ofFiles [loopFile])).2 65 _ (by decide)⟩

/-- The array type that holds itself takes the counter to the limit, and then back. -/
example :
    let m := Sources.moduleOf [loopFile] loopFile
    ((Counted.resolve true (Sources.ofFiles [loopFile]) 3 m (.ofFrames []) (some 0)
      ⟨.empty, ⟨62, 0⟩, []⟩).map fun out => out.2.log) = some [
        .resolved ⟨⟨62, 0⟩, []⟩ ⟨⟨62, 0⟩, []⟩, .counted ⟨62, 0⟩,
        .resolved ⟨⟨63, 0⟩, []⟩ ⟨⟨63, 0⟩, []⟩, .counted ⟨63, 0⟩,
        .resolved ⟨⟨64, 0⟩, []⟩ ⟨⟨64, 0⟩, []⟩, .counted ⟨64, 0⟩, .counted ⟨63, 0⟩] := by
  decide +kernel

end TypeReify.Check
