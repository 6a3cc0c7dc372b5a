import TypeReify.Marker.Reified
import TypeReify.Marker.Reifier
import TypeReify.Proofs.Syntax.Visit

/-!
# The literal of a marker call

`Reified.tree` is the literal that stands for a value, as a tree: an array of texts for names, an
object of texts for members, every node marked as synthesized. Building the value in an arena gives
this tree and leaves the rest of the arena alone. The literal holds neither calls nor imports, so a
walk that goes over it again finds nothing to rewrite.

`Marker.literal` is the literal that stands for a call of a marker, told by the properties of the
type of its type argument: what `lower_keys` and `lower_type_members` make of them.

Here `lower_keys` and `lower_type_members` are taken apart: what they read, and what they build of
it.

Results:
* `Marker.tree_value`: the value of a call has this literal.
* `Reified.build_yields`: the nodes built for a value are its literal.
* `Reifier.walk_inert`: a walk leaves a tree without calls and imports as it is.
-/

namespace TypeReify

open Syntax Syntax.Arena
open TypeReify.Types

/-! ## Literals as trees -/

namespace Reified

def textTree (s : String) : Tree := .synthesized (.token .stringLiteral) (.literal s)

/-- A property name, quoted where it has to be. -/
def keyTree (name : String) : Tree :=
  if Text.isIdentifierText name then .synthesized (.token .identifier) (.identifier name)
  else textTree name

/-- One property of an object literal. -/
def assignmentTree (name type : String) : Tree :=
  .synthesized (.form .propertyAssignment)
    (.assignment (some (keyTree name)) (some (textTree type)))

/-- The literal that stands for a value. -/
def tree : Reified → Tree
  | .names texts =>
    .synthesized (.form .arrayLiteral) (.elements (texts.map fun s => some (textTree s)))
  | .members pairs =>
    .synthesized (.form .objectLiteral)
      (.elements (pairs.map fun p => some (assignmentTree p.1 p.2)))

end Reified

/-! ## What a call stands for -/

/-- The properties of the type that is known of a type argument. Of an argument for which no type is
known there are none. -/
def Oracle.propertiesAt (o : Oracle) (fileName : String) (argument : Ref) : List Property :=
  let type :=
    match argument with
    | some node => o.typeAt? fileName node
    | none => o.typeAtNone? fileName
  match type with
  | some id => o.properties id
  | none => []

/-- The literal in the place of a call of the marker: the names of the properties in an array, or
in an object those that are declared, each with the text of the type that it reads as where it is
declared first. -/
def Marker.literal (m : Marker) (o : Oracle) (properties : List Property) : Tree :=
  match m with
  | .keys => (Reified.names (properties.map (·.name))).tree
  | .typeMembers =>
    (Reified.members <| properties.filterMap fun p =>
      p.declarations.head?.map fun d => (p.name, o.typeText (o.propertyType p d))).tree

/-- A call without type argument stands for a literal that lists nothing. -/
theorem Marker.tree_value (m : Marker) (o : Oracle) (fileName : String) (argument : Option Ref) :
    (m.value o fileName argument).tree =
      m.literal o ((argument.map (o.propertiesAt fileName)).getD []) := by
  have hproperties : Marker.argumentProperties o fileName argument =
      (argument.map (o.propertiesAt fileName)).getD [] := by
    have hcases (type : Option TypeId) : (type.map o.properties).getD [] =
        match type with
        | some id => o.properties id
        | none => [] := by cases type <;> rfl
    rcases argument with _ | _ | node
    · rfl
    · exact hcases _
    · exact hcases _
  cases m <;> rw [Marker.value, hproperties] <;> rfl

namespace Reified

/-! ## Building a literal -/

/-- The node at `i` is the root of the tree `t`, which shares no node with `old`. -/
structure Builds (old a : Arena) (t : Tree) (i : NodeId) : Prop where
  wellFormed : a.WellFormed
  settled : Settled old (fun _ => False) a (some i)
  tree : a.tree (some i) = some t

theorem Builds.has {old a : Arena} {t : Tree} {i : NodeId} (h : Builds old a t i) :
    a.Has (some i) :=
  h.settled.has

theorem Builds.mono {old a b : Arena} {t : Tree} {i : NodeId} (h : Builds old a t i)
    (hab : Appends old a b) : Builds old b t i :=
  ⟨hab.wellFormed h.wellFormed, h.settled.mono hab.toExtends h.wellFormed,
    by rw [hab.toExtends.tree h.wellFormed h.has, h.tree]⟩

/-- Marking the node that was just built is building it with the mark. -/
theorem synthesized_node (kind : Kind) (x : Payload Ref) (a : Arena) :
    synthesized (Build.node kind x) a = a.pushRebuilt ⟨kind, .synthesized, 0, 0, none⟩ x := by
  have hlast : (a.headers.push (.fresh kind (some (a.entries x.pool).size))).modify a.headers.size
      (fun h => { h with flags := h.flags.union .synthesized }) =
      a.headers.push ⟨kind, .synthesized, 0, 0, some (a.entries x.pool).size⟩ := by
    refine Array.ext_getElem? fun i => ?_
    rw [Array.getElem?_modify, Array.getElem?_push, Array.getElem?_push]
    by_cases hi : i = a.headers.size
    · have hflags : Flags.empty.union .synthesized = .synthesized := by decide
      rw [if_pos hi.symm, if_pos hi, if_pos hi, Option.map_some, Header.fresh, hflags]
    · rw [if_neg (Ne.symm hi), if_neg hi, if_neg hi]
  exact congrArg (fun headers => (a.size, { (a.addPayload x).2 with headers })) hlast

/-- Where a pass over `old` may put a literal. -/
structure Open (old a : Arena) : Prop where
  wellFormed : a.WellFormed
  size_le : old.size ≤ a.size

theorem Open.mono {old a b : Arena} (h : Open old a) (hab : Appends old a b) : Open old b :=
  ⟨hab.wellFormed h.wellFormed, Nat.le_trans h.size_le hab.toExtends.size_le⟩

variable {old a : Arena}

theorem synthesized_yields (ha : Open old a) {kind : Kind} {x : Payload Ref}
    (hkind : kind ∈ literalKinds) (hk : kind.pool? = some x.pool)
    (hx : ∀ r ∈ x.children, Settled old (fun _ => False) a r) :
    Yields (Appends old) a (synthesized (Build.node kind x)) fun b i =>
      Builds old b (.synthesized kind (x.map a.tree)) i := by
  have hhas : ∀ r ∈ x.children, a.Has r := fun r hr => (hx r hr).has
  have hb : (a.pushRebuilt ⟨kind, .synthesized, 0, 0, none⟩ x).2.WellFormed :=
    ha.wellFormed.pushRebuilt hk hhas
  have hext := extends_pushRebuilt a ⟨kind, .synthesized, 0, 0, none⟩ x
  have hnew := content?_pushRebuilt a (h := ⟨kind, .synthesized, 0, 0, none⟩) hk
  constructor
  · rw [synthesized_node]
    exact .node (.inr ⟨hkind, rfl, rfl, rfl⟩) hk hhas
  · rw [synthesized_node]
    refine ⟨hb, .of_content? hnew (fun hlt => absurd hlt (Nat.not_lt.2 ha.size_le)) fun r hr =>
      (hx r hr).mono hext ha.wellFormed, ?_⟩
    have hmap := Payload.map_congr fun r hr => hext.tree ha.wellFormed (hhas r hr)
    show Arena.tree _ (some a.size) = _
    rw [tree_of_content? hb hnew, hmap]
    rfl

theorem text_yields (ha : Open old a) (s : String) :
    Yields (Appends old) a (text s) fun b i => Builds old b (textTree s) i :=
  synthesized_yields ha (by decide) rfl (by simp [Payload.children])

theorem key_yields (ha : Open old a) (name : String) :
    Yields (Appends old) a (key name) fun b i => Builds old b (keyTree name) i := by
  unfold key keyTree
  split
  · exact synthesized_yields ha (by decide) rfl (by simp [Payload.children])
  · exact text_yields ha name

theorem assignment_yields (ha : Open old a) (name type : String) :
    Yields (Appends old) a (assignment name type) fun b i =>
      Builds old b (assignmentTree name type) i := by
  have lasts (t : Tree) (b c : Arena) (i : NodeId) (hbc : Appends old b c)
      (h : Builds old b t i) : Builds old c t i := h.mono hbc
  refine (key_yields ha name).bind (lasts _) fun b k hb hk => ?_
  refine (text_yields (ha.mono hb) type).bind (lasts _) fun c v hc hv => ?_
  have hk := hk.mono hc
  refine (synthesized_yields ((ha.mono hb).mono hc) (by decide) rfl ?_).mono fun d i _ h _ _ => ?_
  · intro r hr
    rcases List.mem_pair.1 hr with rfl | rfl
    · exact hk.settled
    · exact hv.settled
  · have hmap : (Payload.assignment (some k) (some v)).map c.tree =
        .assignment (some (keyTree name)) (some (textTree type)) := by
      rw [← hk.tree, ← hv.tree]
      rfl
    rw [hmap] at h
    exact h

/-- The nodes of a list, put below one parent. -/
theorem elements_yields {α : Type} (ha : Open old a) {one : α → Build NodeId} {tree : α → Tree}
    (hone : ∀ {b : Arena} (x : α), Open old b →
      Yields (Appends old) b (one x) fun c i => Builds old c (tree x) i)
    {kind : Kind} (hkind : kind ∈ literalKinds) (hk : kind.pool? = some .elements) (xs : List α) :
    Yields (Appends old) a (do
      let items ← xs.mapM one
      synthesized (Build.node kind (.elements (items.map some)))) fun b i =>
        Builds old b (.synthesized kind (.elements (xs.map fun x => some (tree x)))) i := by
  have hitems : Yields (Appends old) a (xs.mapM one) fun b items =>
      List.Forall₂ (fun x i => Builds old b (tree x) i) xs items :=
    Yields.mapM (fun b c x i hbc h => h.mono hbc) fun x _ b hb => hone x (ha.mono hb)
  refine hitems.bind (fun b c items hbc => List.Forall₂.imp fun _ _ h => h.mono hbc)
    fun b items hb hall => ?_
  have htrees : (∀ r ∈ items.map some, Settled old (fun _ => False) b r) ∧
      (items.map some).map b.tree = xs.map fun x => some (tree x) := by
    clear hitems
    induction hall with
    | nil => exact ⟨by simp, rfl⟩
    | cons h _ ih =>
      exact ⟨List.forall_mem_cons.2 ⟨h.settled, ih.1⟩, congrArg₂ List.cons h.tree ih.2⟩
  have hmap : (Payload.elements (items.map some)).map b.tree =
      .elements (xs.map fun x => some (tree x)) := congrArg Payload.elements htrees.2
  have hnode := synthesized_yields (x := .elements (items.map some)) (ha.mono hb) hkind hk htrees.1
  rw [hmap] at hnode
  exact hnode.mono fun c i _ h _ => h

/-- The nodes built for a value are its literal. -/
theorem build_yields (ha : Open old a) (value : Reified) :
    Yields (Appends old) a value.build fun b i => Builds old b value.tree i := by
  cases value with
  | names texts => exact elements_yields ha (fun s hb => text_yields hb s) (by decide) rfl texts
  | members pairs =>
    exact elements_yields ha (fun p hb => assignment_yields hb p.1 p.2) (by decide) rfl pairs

end Reified

/-! ## Nothing to rewrite in a literal -/

namespace Syntax

/-- No call and no import stands in the tree. -/
inductive Tree.Inert : Option Tree → Prop
  | none : Inert none
  | node {kind : Kind} {flags : Flags} {start stop : Nat} {payload : Option (Payload (Option Tree))}
      (call : kind ≠ .form .call) (importDeclaration : kind ≠ .form .importDeclaration)
      (below : ∀ p, payload = some p → ∀ t ∈ p.children, Inert t) :
      Inert (some (.node kind flags start stop payload))

/-- Calls have a pool of their own, and so have imports. -/
theorem Kind.eq_of_pool? {f : Form} (hf : f = .call ∨ f = .importDeclaration) {k : Kind}
    (h : k.pool? = (Kind.form f).pool?) : k = .form f := by
  rcases hf with rfl | rfl
  all_goals
    cases k with
    | token t => cases t <;> exact absurd h (by decide)
    | unassigned _ => exact absurd h (by simp [Kind.pool?])
    | form g => cases g <;> first | rfl | exact absurd h (by decide)

theorem Tree.inert_synthesized {kind : Kind} {p : Payload (Option Tree)} (hc : kind ≠ .form .call)
    (hi : kind ≠ .form .importDeclaration) (h : ∀ t ∈ p.children, Inert t) :
    Inert (some (.synthesized kind p)) :=
  .node hc hi fun _ e => Option.some.inj e ▸ h

end Syntax

namespace Reified

theorem inert_textTree (s : String) : Tree.Inert (some (textTree s)) :=
  Tree.inert_synthesized (by decide) (by decide) (by simp [Payload.children])

theorem inert_keyTree (name : String) : Tree.Inert (some (keyTree name)) := by
  unfold keyTree
  split
  · exact Tree.inert_synthesized (by decide) (by decide) (by simp [Payload.children])
  · exact inert_textTree name

theorem inert_assignmentTree (name type : String) :
    Tree.Inert (some (assignmentTree name type)) := by
  refine Tree.inert_synthesized (by decide) (by decide) fun t ht => ?_
  rcases List.mem_pair.1 ht with rfl | rfl
  · exact inert_keyTree name
  · exact inert_textTree type

theorem inert_tree (value : Reified) : Tree.Inert (some value.tree) := by
  cases value with
  | names texts =>
    refine Tree.inert_synthesized (by decide) (by decide) fun t ht => ?_
    obtain ⟨s, -, rfl⟩ := List.mem_map.1 ht
    exact inert_textTree s
  | members pairs =>
    refine Tree.inert_synthesized (by decide) (by decide) fun t ht => ?_
    obtain ⟨p, -, rfl⟩ := List.mem_map.1 ht
    exact inert_assignmentTree p.1 p.2

end Reified

namespace Reifier

variable {r : Reifier} {fileName : String} {a : Arena}

theorem importsMarkers_of_kind? {n : Ref} (h : a.kind? n ≠ some (.form .importDeclaration)) :
    r.importsMarkers a fileName n = false := by
  have hs : Scope.specifier? a n = none := by
    unfold Scope.specifier?
    split
    · rename_i hd clause specifier hc
      have hk := Kind.eq_of_pool? (.inr rfl) (pool_of_content? hc)
      exact absurd (by rw [Arena.kind?, (content?_eq_some.1 hc).1, Option.map_some, hk]) h
    · rfl
  rw [importsMarkers, hs]

theorem markerOf?_of_kind? {n : Ref} (h : a.kind? n ≠ some (.form .call)) :
    r.markerOf? a fileName n = none := by
  have hcallee : Marker.callee? r.oracle a fileName n = none := by
    cases n with
    | none => rfl
    | some i =>
      have hcall : (a.kind? (some i) == some (.form .call)) = false := beq_false_of_ne h
      show (guard (a.kind? (some i) == some (.form .call)) >>= fun _ => _) = none
      rw [hcall]
      rfl
  refine List.find?_eq_none.2 fun m _ => ?_
  simp [Marker.isCall, hcallee]

theorem kind?_of_inert (ha : a.WellFormed) {n : Ref} (h : Tree.Inert (a.tree n)) :
    a.kind? n ≠ some (.form .call) ∧ a.kind? n ≠ some (.form .importDeclaration) := by
  cases n with
  | none => exact ⟨nofun, nofun⟩
  | some i =>
    cases hi : a.header? (some i) with
    | none => simp [Arena.kind?, hi]
    | some hd =>
      rw [tree_of_header? ha hi] at h
      cases h with
      | node call importDeclaration _ =>
        simpa [Arena.kind?, hi] using ⟨call, importDeclaration⟩

/-- What is neither an import of the markers nor a call of one is kept. -/
theorem rewrite_of_none {n : Ref} (hi : r.importsMarkers a fileName n = false)
    (hm : r.markerOf? a fileName n = none) : r.rewrite fileName n a = (.keep, a) := by
  simp only [rewrite, get, getThe, MonadStateOf.get, StateT.get, bind, StateT.bind, pure, hi, hm,
    Bool.false_eq_true, if_false]
  rfl

theorem rewrite_of_kind? {n : Ref} (hi : a.kind? n ≠ some (.form .importDeclaration))
    (hc : a.kind? n ≠ some (.form .call)) : r.rewrite fileName n a = (.keep, a) :=
  rewrite_of_none (importsMarkers_of_kind? hi) (markerOf?_of_kind? hc)

theorem inert_of_mem_children (ha : a.WellFormed) {n c : Ref} (h : Tree.Inert (a.tree n))
    {hd : Header} {p : Payload Ref} (hn : a.content? n = some (hd, p)) (hc : c ∈ p.children) :
    Tree.Inert (a.tree c) := by
  cases n with
  | none => exact absurd hn nofun
  | some i =>
    rw [tree_of_content? ha hn] at h
    cases h with
    | node _ _ below =>
      refine below _ rfl _ ?_
      rw [Payload.children_map]
      exact List.mem_map_of_mem hc

/-- A walk leaves a tree without calls and imports as it is. -/
theorem walk_inert (ha : a.WellFormed) {n : Ref} (h : Tree.Inert (a.tree n)) (levels : Nat) :
    walk (r.rewrite fileName) levels n a = (some n, a) := by
  refine walk_eq_self (S := fun n => Tree.Inert (a.tree n))
    (fun _ _ _ hn hc _ => inert_of_mem_children ha hn hc) (fun n hn => ?_) levels n h
  have hkind := kind?_of_inert ha hn
  exact rewrite_of_kind? hkind.2 hkind.1

theorem rebuild_inert (ha : a.WellFormed) {n : Ref} (h : Tree.Inert (a.tree n)) (levels : Nat) :
    rebuild (walk (r.rewrite fileName) levels) n a = (n, a) :=
  rebuild_eq_self fun _ _ hn _ hc => walk_inert ha (inert_of_mem_children ha h hn hc) levels

end Reifier

end TypeReify
