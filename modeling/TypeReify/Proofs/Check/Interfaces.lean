import TypeReify.Proofs.Check.Signatures
import TypeReify.Syntax.Draft

/-!
# The properties of interfaces

An interface is worked out once, with the properties that its bases have at that moment. A base that
was worked out before has all its properties then, and keeps them. A base that is still being worked
out itself has none: the interface was reached from a member of this base, and goes without what it
would inherit from it.

This is about `instantiate_interface`, which asks `collect_properties` for the properties of the
bases and stores what it comes to in `interface_shapes` for good.

**`Program.properties_interface`**: of a checked program, the properties of an interface are its own
members, and then those of the bases that were worked out before it.

Results:
* `propertiesOf_of_grows`: what the properties of a type at a moment have to do with those in the
  end.
* `properties_interface_late`: what an interface lacks that is reached from a member of its base.

Out of scope: what it would take to bring the missing properties in later.
-/

namespace TypeReify

open Check Syntax
open TypeReify.Types

namespace Check

/-- The entries behind that of a named type: what was worked out before it. -/
def NamedTypes.behind (named : NamedTypes) (id : TypeId) : NamedTypes :=
  (named.dropWhile fun x => x.1 != id).tail

/-- Followed through these entries, the type has its properties: it is worked out, or needs not be.
-/
def settles (t : Interner) (named : NamedTypes) : (levels : Nat) → TypeId → Bool
  | 0, _ => true
  | levels + 1, id =>
    match t.get? id with
    | some (.interface ..) => (named.shape? id).isSome
    | some (.synonym ..) =>
      match named.target? id with
      | some target => settles t named levels target
      | none => false
    | _ => true

theorem behind_of_split {named after before : NamedTypes} {id : Nat} {x : Named}
    (hd : named.ids.Nodup) (h : named = after ++ (id, x) :: before) : named.behind id = before := by
  subst h
  unfold NamedTypes.behind
  induction after with
  | nil => simp
  | cons y after ih =>
    obtain ⟨hy, hd⟩ := List.nodup_cons.1 hd
    have hne : y.1 ≠ id := by
      rintro rfl
      exact hy (List.mem_map.2 ⟨_, List.mem_append_right after List.mem_cons_self, rfl⟩)
    rw [List.cons_append, List.dropWhile_cons_of_pos (by simpa using hne)]
    exact ih hd

section Moment

variable {sources : Sources} {moment st : State} (hm : moment.Consistent sources)
  (hst : st.Consistent sources) (hg : moment.Grows st)
include hg

/-- What a named type has come to, it has come to for good. -/
theorem mem_of_grows {x : TypeId × Named} (hx : x ∈ moment.named) : x ∈ st.named :=
  hg.named.subset hx

include hm hst

/-- **At any moment** a type has the properties that it has in the end, if it is settled then, and
else it has none. -/
theorem propertiesOf_of_grows (levels : Nat) {id : Nat} (hid : moment.Knows id) :
    propertiesOf moment.interner moment.named levels id =
      if settles st.interner moment.named levels id then propertiesOf st.interner st.named levels id
      else [] := by
  induction levels generalizing id with
  | zero => rfl
  | succ levels ih =>
    have hget : st.interner.get? id = moment.interner.get? id := hg.interner.get? hid
    unfold propertiesOf settles
    rw [hget]
    cases moment.interner.get? id with
    | none => rfl
    | some s =>
      cases s with
      | interface name declaration arguments =>
        dsimp only
        cases hshape : moment.named.shape? id with
        | none => rfl
        | some shape =>
          have hmem := mem_of_grows hg (NamedTypes.mem_of_shape? hshape)
          rw [NamedTypes.shape?, NamedTypes.read_of_mem hst.distinct hmem]
          rfl
      | synonym name declaration arguments =>
        dsimp only
        cases htarget : moment.named.target? id with
        | none => rfl
        | some target =>
          have hmem := mem_of_grows hg (NamedTypes.mem_of_target? htarget)
          rw [NamedTypes.target?, NamedTypes.read_of_mem hst.distinct hmem]
          exact ih (hm.knows_of_target? htarget)
      | _ => rfl

end Moment

/-- Bases that had no properties when an interface was finished might as well not be there. -/
theorem inheritAll_filter {own : Shape} {bases : List TypeId} {before : TypeId → Bool}
    {earlier later : TypeId → Shape}
    (h : ∀ base ∈ bases, earlier base = if before base then later base else []) :
    inheritAll own bases earlier = inheritAll own (bases.filter before) later := by
  unfold inheritAll
  induction bases generalizing own with
  | nil => rfl
  | cons base bases ih =>
    have hbase := h base List.mem_cons_self
    rw [List.foldl_cons, hbase, ih fun b hb => h b (List.mem_cons_of_mem base hb)]
    cases hb : before base with
    | true =>
      rw [List.filter_cons_of_pos hb, List.foldl_cons]
      rfl
    | false =>
      rw [List.filter_cons_of_neg (by rw [hb]; exact Bool.false_ne_true)]
      rfl

end Check

/-- The type was worked out before the named type `id`. -/
def Program.workedOutBefore (p : Program) (id base : TypeId) : Bool :=
  settles p.interner (p.state.named.behind id) typeDepth base

/-- An interface of a checked program has an entry in the table, and the properties in this entry.
-/
theorem Program.exists_entry (options : CheckOptions) (files : List SourceFile) {id : TypeId}
    {name : String} {declaration : DeclId} {arguments : List TypeId}
    (hid : (Program.ofFiles options files).interner.get? id =
      some (.interface name declaration arguments)) :
    let p := Program.ofFiles options files
    ∃ after before,
      p.state.named = after ++ (id, .members (p.oracle.properties id)) :: before := by
  intro p
  have hworks := works_ofFiles options files
  have hst := hworks.consistent (consistent_empty _)
  have hprogress : p.state.inProgress = [] := hworks.inProgress
  have hmem : id ∈ p.state.named.ids := by
    rcases hst.covered id _ hid trivial with hmem | hmem
    · exact hmem
    · rw [hprogress] at hmem
      exact absurd hmem List.not_mem_nil
  obtain ⟨shape, hshape⟩ := Option.isSome_iff_exists.1
    ((isSome_shape?_iff hst.distinct hst.named hid).2 hmem)
  have hproperties : p.oracle.properties id = shape := by
    show propertiesOf p.state.interner p.state.named typeDepth id = shape
    unfold typeDepth propertiesOf
    rw [show p.state.interner.get? id = _ from hid]
    exact congrArg (·.getD []) hshape
  rw [hproperties]
  exact List.append_of_mem (NamedTypes.mem_of_shape? hshape)

/-- **The properties of an interface** of a checked program are its own members, and then, base by
base, the properties of the bases that were worked out before it, minus names that are there
already. A base that is worked out later is left out. -/
theorem Program.properties_interface (options : CheckOptions) (files : List SourceFile)
    {id : TypeId} {name : String} {declaration : DeclId} {arguments : List TypeId}
    (hid : (Program.ofFiles options files).interner.get? id =
      some (.interface name declaration arguments)) :
    let p := Program.ofFiles options files
    ∃ own bases, InterfaceOf options.strictNullChecks (Sources.ofFiles files) p.state id own bases ∧
      p.oracle.properties id =
        inheritAll own (bases.filter (p.workedOutBefore id)) p.oracle.properties := by
  intro p
  have hworks := works_ofFiles options files
  have hst := hworks.consistent (consistent_empty _)
  have hbuilt := hworks.built (consistent_empty _) built_empty
  obtain ⟨after, before, hsplit⟩ := exists_entry options files hid
  obtain ⟨moment, own, bases, hmoment, hgrows, hbefore, hof, heq, -⟩ :=
    hbuilt after id _ before hsplit
  refine ⟨own, bases, hof.mono hgrows, ?_⟩
  have hmoments : ∀ base ∈ bases, moment.propertiesOf base =
      if p.workedOutBefore id base then p.oracle.properties base else [] := by
    intro base hbase
    obtain ⟨m, -, _, _, _, _, _, _, _, _, -, -, -, -, -, hgathered⟩ := hof
    have hone := propertiesOf_of_grows hmoment hst hgrows typeDepth (hgathered.known base hbase)
    have hnamed : moment.named = p.state.named.behind id :=
      hbefore.trans (behind_of_split hst.distinct hsplit).symm
    unfold State.propertiesOf
    rw [hone, hnamed]
    rfl
  rw [heq, inheritAll_filter hmoments]

/-- `interface B { x: I; }` and `interface I extends B { }`, and then `keys<T>();` for some names.
-/
def heritageFile (names : List String) : SourceFile :=
  let act : Drafting Unit := do
    let mention ← Draft.build (Draft.typeNamed "I" [])
    let member ← Draft.build (Draft.property "x" mention)
    let _ ← Draft.interfaceNamed "B" [member]
    let base ← Draft.build (Draft.typeNamed "B" [])
    let _ ← Draft.statement do
      Build.interfaceDeclaration (← Build.identifier "I") none (some [base]) []
    for name in names do
      let type ← Draft.build (Draft.typeNamed name [])
      let _ ← Draft.expression (← Draft.build (Draft.callNamed "keys" [type]))
  (act .empty).2.finish "/app/main.ts"

theorem Program.properties_interface_heritageFile :
    let p := Program.ofFiles .default [heritageFile ["I"]]
    ∃ own bases, InterfaceOf false (Sources.ofFiles [heritageFile ["I"]]) p.state 100 own bases ∧
      p.oracle.properties 100 =
        inheritAll own (bases.filter (p.workedOutBefore 100)) p.oracle.properties :=
  have hid : (Program.ofFiles .default [heritageFile ["I"]]).interner.get? 100 =
      some (.interface "I" 0 []) := by decide +kernel
  properties_interface .default [heritageFile ["I"]] hid

/-- Where `B` comes first, `I` is reached from the member `x` and goes without it. -/
theorem Program.properties_interface_late :
    let p := Program.ofFiles .default [heritageFile ["B", "I"]]
    p.state.warnings = [] ∧ p.interner.get? 100 = some (.interface "B" 0 []) ∧
      p.interner.get? 101 = some (.interface "I" 2 []) ∧ p.workedOutBefore 101 100 = false ∧
      (p.oracle.properties 100).map (·.name) = ["x"] ∧ p.oracle.properties 101 = [] := by
  decide +kernel

end TypeReify
