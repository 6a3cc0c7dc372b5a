import TypeReify.Proofs.Check.Interfaces
import TypeReify.Proofs.Marker.Literal

/-!
# The names of properties

Properties get into a type in several ways: the members of type literals and interfaces, of merged
interfaces and overloads too, properties of bases, and one property for each key of a mapped type or
of `Record`. Each of these ways looks out for names that are there already, so a name stands for one
property, and all its declarations are members of that name (`Accounted`). Only computed properties
have no declaration.

The ways are `add_member`, the loop over bases in `instantiate_interface`, `resolve_mapped` and
`builtin_reference`; `collect_properties` only hands on what one of them has left, and `lower_keys`
lists it.

**`Program.properties_accounted`**: the properties of all types of a checked program are accounted
for, and the literals of a type argument list no name twice.

Results:
* `OwnMembers.accounted`, `ObjectOf.accounted`, `Accounted.inheritAll`: the ways into a type.
* `State.accounted`: the properties of every type are accounted for.
* `Reified.listed_tree`: the names that the literal of a value lists.
-/

namespace TypeReify

open Check Syntax
open TypeReify.Types

namespace Check

/-- The declaration is a property or method signature of this name in a file. -/
def DeclaresMember (sources : Sources) (st : State) (d : DeclId) (name : String) : Prop :=
  ∃ m ∈ sources.modules, ∃ node h n types parameters ascription,
    m.file.arena.content? (some node) = some (h, .signature n types parameters ascription) ∧
      m.file.arena.nameText? n = some name ∧
      st.sites[d]? = some ⟨m.key,
        ⟨if h.kind == .form .methodSignature then .methodSignature else .propertySignature,
          some name, m.file.fileName, node⟩⟩

/-- No name stands for two properties, the declarations of a property are members of its name, and a
property without declarations was computed. -/
structure Accounted (strict : Bool) (sources : Sources) (st : State) (shape : Shape) : Prop where
  names : (shape.map (·.name)).Nodup
  declared : ∀ p ∈ shape, ∀ d ∈ p.declarations, DeclaresMember sources st d p.name
  computed : ∀ p ∈ shape, p.declarations = [] → ∃ id origin,
    st.interner.get? id = some (.object origin) ∧ p ∈ origin ∧ Computed strict sources st id

variable {strict : Bool} {sources : Sources} {st : State}

/-! ## The ways into a type -/

theorem Accounted.nil : Accounted strict sources st [] :=
  ⟨List.nodup_nil, fun _ hp => absurd hp List.not_mem_nil, fun _ hp => absurd hp List.not_mem_nil⟩

theorem declaresMember_of_site {m : Module} (hm : m ∈ sources.modules) {s : Surroundings} {r : Ref}
    {x : Member} (hr : member? m.file.arena s r = some x) {d : Nat}
    (hd : st.sites[d]? = some (x.site m)) : DeclaresMember sources st d x.name := by
  obtain ⟨node, h, n, types, parameters, ascription, hc, hr⟩ := content?_of_member? hr
  obtain ⟨name, hname, rfl⟩ := Option.map_eq_some_iff.1 hr
  refine ⟨m, hm, node, h, n, types, parameters, ascription, hc, hname, ?_⟩
  have hh : m.file.arena.header? (some node) = some h := (Arena.content?_eq_some.1 hc).1
  simpa [Member.site, Arena.kind?, hh] using hd

/-- Own members are declared where they stand. -/
theorem OwnMembers.accounted {m : Module} (hm : m ∈ sources.modules)
    {members : List (Surroundings × Ref)} {shape : Shape}
    (h : OwnMembers strict sources m st members shape) : Accounted strict sources st shape := by
  refine ⟨h.names ▸ nodup_eraseDups _, fun p hp d hd => ?_, fun p hp hnone => ?_⟩
  · have hmem : st.sites[d]? ∈ p.declarations.map (st.sites[·]?) := List.mem_map_of_mem hd
    rw [(h.described p hp).declarations] at hmem
    obtain ⟨x, hx, hsite⟩ := List.mem_map.1 hmem
    obtain ⟨hx, hname⟩ := List.mem_filter.1 hx
    obtain ⟨y, -, hy⟩ := List.mem_filterMap.1 hx
    exact beq_iff_eq.1 hname ▸ declaresMember_of_site hm hy hsite.symm
  · -- The first member of the name is a declaration.
    obtain ⟨⟨x, hfind, -⟩, hdeclarations⟩ := h.described p hp
    have hx : x ∈ (namedMembers m.file.arena members).filter (·.name == p.name) :=
      List.mem_filter.2 ⟨List.mem_of_find?_eq_some hfind, by simpa using List.find?_some hfind⟩
    have hmem := List.mem_map_of_mem (f := fun x => some (x.site m)) hx
    rw [← hdeclarations, hnone] at hmem
    exact absurd hmem List.not_mem_nil

theorem ObjectOf.accounted {id : TypeId} {shape : Shape}
    (hid : st.interner.get? id = some (.object shape)) (h : ObjectOf strict sources st id shape) :
    Accounted strict sources st shape := by
  cases h with
  | literal s module content own => exact own.accounted module
  | computed origin names undeclared =>
    refine ⟨names, fun p hp d hd => ?_, fun p hp _ => ⟨id, shape, hid, hp, origin⟩⟩
    rw [undeclared p hp] at hd
    exact absurd hd List.not_mem_nil

/-- A base adds the properties whose names are new. -/
theorem Accounted.inherit {shape base : Shape} (h : Accounted strict sources st shape)
    (hbase : Accounted strict sources st base) :
    Accounted strict sources st (Check.inherit shape base) := by
  refine ⟨?_, fun p hp => ?_, fun p hp => ?_⟩
  · exact List.foldlRecOn (motive := fun shape : Shape => (shape.map (·.name)).Nodup) base _ h.names
      fun shape hnames q _ => nodup_map_concat_of_new hnames q
  · exact (mem_inherit hp).elim (h.declared p) (hbase.declared p)
  · exact (mem_inherit hp).elim (h.computed p) (hbase.computed p)

theorem Accounted.inheritAll {own : Shape} {bases : List TypeId} {properties : TypeId → Shape}
    (hown : Accounted strict sources st own)
    (hbases : ∀ base, Accounted strict sources st (properties base)) :
    Accounted strict sources st (Check.inheritAll own bases properties) :=
  List.foldlRecOn bases _ hown fun _ hshape base _ => hshape.inherit (hbases base)

/-! ## The properties of a type -/

section State

variable (hformed : st.Formed strict sources) (hbuilt : st.Built strict sources)
include hformed hbuilt

/-- The members of an interface are accounted for if those of the interfaces before it are. -/
theorem accounted_of_suffix {named : NamedTypes} (hsuffix : named <:+ st.named) {id : TypeId}
    {shape : Shape} (hmem : (id, .members shape) ∈ named) : Accounted strict sources st shape := by
  induction named generalizing id shape with
  | nil => exact absurd hmem List.not_mem_nil
  | cons x before ih =>
    have hbefore := @ih ((List.suffix_cons x before).trans hsuffix)
    rcases List.mem_cons.1 hmem with rfl | hmem
    · obtain ⟨after, hsplit⟩ := hsuffix
      obtain ⟨moment, own, bases, -, hgrows, hnamed, hof, rfl, -⟩ :=
        hbuilt after id shape before hsplit.symm
      obtain ⟨m, hm, _, _, _, _, _, _, _, _, -, -, -, -, -, hgathered⟩ := hof.mono hgrows
      refine (hgathered.own.accounted hm).inheritAll fun base =>
        forall_propertiesOf .nil (fun id shape hid => ?_) (fun id shape hid => ?_) typeDepth base
      · have hid := hgrows.interner.get?_of_some hid
        exact (hformed id shape hid).accounted hid
      · exact hbefore (hnamed ▸ NamedTypes.mem_of_shape? hid)
    · exact hbefore hmem

/-- **The properties of every type** are accounted for. -/
theorem State.accounted (id : TypeId) : Accounted strict sources st (st.propertiesOf id) :=
  forall_propertiesOf .nil (fun id shape hid => (hformed id shape hid).accounted hid)
    (fun _ _ hid => accounted_of_suffix hformed hbuilt (List.suffix_refl _)
      (NamedTypes.mem_of_shape? hid)) typeDepth id

end State

end Check

/-! ## What literals list -/

namespace Syntax.Tree

/-- The name of an entry of a literal: a text, or the name of a property. -/
def entryName? : Option Tree → Option String
  | some (.node _ _ _ _ (some (.assignment name _))) =>
    (identifierText? name).or (literalText? name)
  | t => literalText? t

/-- The names that a literal lists, those of an array or those of an object. -/
def listed : Tree → List String
  | .node _ _ _ _ (some (.elements entries)) => entries.filterMap entryName?
  | _ => []

end Syntax.Tree

namespace Reified

/-- The names that a value lists. -/
def listed : Reified → List String
  | .names texts => texts
  | .members pairs => pairs.map (·.1)

/-- The literal of a value lists its names in order. -/
theorem listed_tree (value : Reified) : value.tree.listed = value.listed := by
  cases value with
  | names texts =>
    show (texts.map fun s => some (textTree s)).filterMap Tree.entryName? = texts
    rw [List.filterMap_map]
    exact List.filterMap_some
  | members pairs =>
    have hentry (p : String × String) :
        Tree.entryName? (some (assignmentTree p.1 p.2)) = some p.1 := by
      show (Tree.identifierText? (some (keyTree p.1))).or (Tree.literalText? (some (keyTree p.1))) =
        some p.1
      unfold keyTree
      split
      · rfl
      · rfl
    show (pairs.map fun p => some (assignmentTree p.1 p.2)).filterMap Tree.entryName? =
      pairs.map (·.1)
    rw [List.filterMap_map, ← List.filterMap_eq_map]
    exact List.filterMap_congr fun p _ => hentry p

end Reified

/-- The members that are listed are the properties with a declaration. -/
theorem names_members (o : Oracle) (properties : List Property) :
    (properties.filterMap (Marker.member? o)).map (·.1) =
      (properties.filter (!·.declarations.isEmpty)).map (·.name) := by
  induction properties with
  | nil => rfl
  | cons q properties ih =>
    rw [List.filterMap_cons, List.filter_cons, Marker.member?]
    cases q.declarations with
    | nil => exact ih
    | cons d ds => exact congrArg (q.name :: ·) ih

/-- The literal of `keys` lists all properties, and that of `typeMembers` those with a declaration.
-/
theorem Marker.listed_literal (m : Marker) (o : Oracle) (properties : List Property) :
    (m.literal o properties).listed =
      match m with
      | .keys => properties.map (·.name)
      | .typeMembers => (properties.filter (!·.declarations.isEmpty)).map (·.name) := by
  cases m with
  | keys => exact Reified.listed_tree (.names (properties.map (·.name)))
  | typeMembers =>
    exact (Reified.listed_tree (.members (properties.filterMap (Marker.member? o)))).trans
      (names_members o properties)

namespace Program

/-- **The properties of a checked program are accounted for**, whatever the type is and however the
property got there. So of any type argument that a type is recorded for, the literal of `keys` lists
the name of every property of this type once, and that of `typeMembers` lists those names that have
a declaration, in the same order. Of other type arguments nothing is listed. -/
theorem properties_accounted (options : CheckOptions) (files : List SourceFile) :
    let p := ofFiles options files
    (∀ id, Accounted options.strictNullChecks (Sources.ofFiles files) p.state
      (p.oracle.properties id)) ∧
    (∀ fileName node id, p.oracle.typeAt? fileName node = some id →
      let names := (p.oracle.properties id).map (·.name)
      let declared := ((p.oracle.properties id).filter (!·.declarations.isEmpty)).map (·.name)
      (Marker.keys.value p.oracle fileName (some (some node))).tree.listed = names ∧ names.Nodup ∧
        (Marker.typeMembers.value p.oracle fileName (some (some node))).tree.listed = declared ∧
          declared.Sublist names ∧ declared.Nodup) ∧
    ∀ (m : Marker) fileName argument,
      (∀ slot ∈ argument, ∀ node ∈ slot, p.oracle.typeAt? fileName node = none) →
        (m.value p.oracle fileName argument).tree.listed = [] := by
  intro p
  have hworks := works_ofFiles options files
  have hall (id : TypeId) : Accounted options.strictNullChecks (Sources.ofFiles files) p.state
      (p.oracle.properties id) :=
    State.accounted (hworks.formed (formed_empty _ _))
      (hworks.built (consistent_empty _) built_empty) id
  refine ⟨hall, fun fileName node id hid => ?_, fun m fileName argument hnone => ?_⟩
  · intro names declared
    have hproperties : p.oracle.propertiesAt fileName (some node) = p.oracle.properties id := by
      simp only [Oracle.propertiesAt, hid]
    have hlisted (m : Marker) : (m.value p.oracle fileName (some (some node))).tree.listed =
        (m.literal p.oracle (p.oracle.properties id)).listed := by
      rw [Marker.tree_value, Option.map_some, Option.getD_some, hproperties]
    have hsub : declared.Sublist names := List.filter_sublist.map _
    exact ⟨(hlisted .keys).trans (Marker.listed_literal .keys _ _), (hall id).names,
      (hlisted .typeMembers).trans (Marker.listed_literal .typeMembers _ _), hsub,
      (hall id).names.sublist hsub⟩
  · have hproperties : (argument.map (p.oracle.propertiesAt fileName)).getD [] = [] := by
      rcases argument with _ | _ | node
      · rfl
      · rfl
      · simp [Oracle.propertiesAt, hnone (some node) rfl node rfl]
    rw [Marker.tree_value, hproperties, Marker.listed_literal]
    cases m <;> rfl

/-- `B` has the property `x`, and this is what its literals list. -/
theorem properties_accounted_heritageFile :
    let p := ofFiles .default [heritageFile ["B"]]
    p.oracle.typeAt? "/app/main.ts" 11 = some 100 ∧
      (p.oracle.properties 100).map (·.name) = ["x"] ∧
      let names := (p.oracle.properties 100).map (·.name)
      let declared := ((p.oracle.properties 100).filter (!·.declarations.isEmpty)).map (·.name)
      (Marker.keys.value p.oracle "/app/main.ts" (some (some 11))).tree.listed = names ∧
        names.Nodup ∧
        (Marker.typeMembers.value p.oracle "/app/main.ts" (some (some 11))).tree.listed =
          declared ∧ declared.Sublist names ∧ declared.Nodup := by
  have hid : (ofFiles .default [heritageFile ["B"]]).oracle.typeAt? "/app/main.ts" 11 =
    some 100 := by
    decide +kernel
  exact ⟨hid, by decide +kernel,
    (properties_accounted .default [heritageFile ["B"]]).2.1 "/app/main.ts" 11 100 hid⟩

end Program

end TypeReify
