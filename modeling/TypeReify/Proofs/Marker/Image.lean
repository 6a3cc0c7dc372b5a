import TypeReify.Program
import TypeReify.Proofs.Marker.Literal
import TypeReify.Syntax.Draft
import TypeReify.Syntax.Print

/-!
# A rewrite as a function on trees

`Reifier.image` says what a rewrite makes of the tree below a slot, without an arena that changes.
Of the declarations those are erased that import the markers: their specifier loads the
implementation (`LoadsMarkers`). A call of a marker, `keys` tried before `typeMembers`, becomes the
literal that the properties of its first type argument give (`literal?`). Every other node keeps its
header over the images of its children. All this is asked of the arena that is rewritten, as it was
before.

The walk of `NodeRewriter` asks the same questions of an arena it has already added to, and it goes
over the literals it put in. Neither makes a difference: what it asks about an old node stays as it
was, and a literal holds nothing to rewrite.

Results:
* `image_eq`: the image of a slot by the images of the slots below it.
* `Stands.inPlace`: the image of a node stands where the node stood.
* `walk_yields`: what the walk of a tree leaves is the image of the tree.
* `tree_transform`: the tree of a rewritten file is the image of the tree of the file.

Out of scope: where the nodes of a rewritten tree lie in the arena, and which of them are shared
with the tree that was rewritten.
-/

namespace TypeReify.Reifier

open Syntax Syntax.Arena
open TypeReify.Types

variable (r : Reifier) (fileName : String) (a : Arena)

/-! ## What a rewrite looks for -/

/-- **The node is an import of the markers**: the text of its specifier is resolved to a file, and
this file is the implementation of the markers. -/
def LoadsMarkers (n : Ref) : Prop :=
  ∃ h clause specifier text path,
    a.content? n = some (h, .importDeclaration clause specifier) ∧
      a.literalText? specifier = some text ∧
      Modules.Loader.resolveImport r.disk r.loader text fileName = .ok path ∧
      Path.same path r.marker.implementation = true

/-- The properties that a call lists: those of the type of the head of its type arguments. -/
def listed (n : Ref) : List Property :=
  match a.content? n with
  | some (_, .call _ (some (argument :: _)) _) => r.oracle.propertiesAt fileName argument
  | _ => []

/-- **The literal in the place of a call**: that of `keys` if it is a call of `keys`, and else that
of `typeMembers` if it is a call of `typeMembers`. -/
def literal? (n : Ref) : Option Tree :=
  let isCall (m : Marker) := m.isCall r.oracle r.disk r.marker.declaration a fileName n
  if isCall .keys then some (Marker.keys.literal r.oracle (r.listed fileName a n))
  else if isCall .typeMembers then
    some (Marker.typeMembers.literal r.oracle (r.listed fileName a n))
  else none

variable {r fileName a}

theorem importsMarkers_iff {n : Ref} :
    r.importsMarkers a fileName n = true ↔ r.LoadsMarkers fileName a n := by
  constructor
  · intro h
    unfold importsMarkers Scope.specifier? at h
    split at h
    · cases h
    · rename_i text hs
      split at hs
      · rename_i hd clause specifier hc
        split at h
        · rename_i path hpath
          exact ⟨hd, clause, specifier, text, path, hc, hs, hpath, h⟩
        · cases h
      · cases hs
  · rintro ⟨hd, clause, specifier, text, path, hc, hs, hpath, hsame⟩
    have hspecifier : Scope.specifier? a n = some text := by
      simp only [Scope.specifier?, hc, hs]
    simp only [importsMarkers, hspecifier, hpath, hsame]

instance (n : Ref) : Decidable (r.LoadsMarkers fileName a n) :=
  decidable_of_iff _ importsMarkers_iff

/-- The type argument that is read off a call is the head of its type arguments. -/
theorem listed_eq (n : Ref) :
    r.listed fileName a n = ((typeArgument? a n).map (r.oracle.propertiesAt fileName)).getD [] := by
  unfold listed typeArgument?
  cases a.content? n with
  | none => rfl
  | some c =>
    obtain ⟨hd, p⟩ := c
    cases p with
    | call callee types arguments => rcases types with _ | _ | ⟨argument, types⟩ <;> rfl
    | _ => rfl

/-- What is built for a call lists the properties of its first type argument. -/
theorem literal_listed (m : Marker) (n : Ref) : m.literal r.oracle (r.listed fileName a n) =
    (m.value r.oracle fileName (typeArgument? a n)).tree := by
  rw [Marker.tree_value, listed_eq]

/-- What is built in the place of a call is its literal. -/
theorem literal?_eq (n : Ref) : r.literal? fileName a n =
    (r.markerOf? a fileName n).map fun m =>
      (m.value r.oracle fileName (typeArgument? a n)).tree := by
  have hvalue (m : Marker) : (m.value r.oracle fileName (typeArgument? a n)).tree =
      m.literal r.oracle (r.listed fileName a n) := (literal_listed m n).symm
  unfold literal? markerOf? Marker.all
  by_cases hkeys : Marker.keys.isCall r.oracle r.disk r.marker.declaration a fileName n = true
  · simp [hkeys, hvalue]
  · by_cases hmembers :
        Marker.typeMembers.isCall r.oracle r.disk r.marker.declaration a fileName n = true
    · simp [hkeys, hmembers, hvalue]
    · simp [hkeys, hmembers]

/-! ## The image -/

variable (r fileName a)

/-- What becomes of a slot where `below` says what becomes of the slots below it. -/
def imageOver (below : Ref → Image) (n : Ref) : Image :=
  if r.LoadsMarkers fileName a n then none
  else
    match r.literal? fileName a n with
    | some literal => some (some literal)
    | none => some ((a.header? n).map fun h => .ofHeader h ((a.payload? h).map (·.image below)))

/-- What becomes of a slot, read `levels` nodes deep. -/
def imageAt : (levels : Nat) → Ref → Image
  | 0, _ => some none
  | levels + 1, n => r.imageOver fileName a (imageAt levels) n

/-- **What a rewrite makes of the tree below a slot.** In a well-formed arena no tree is deeper than
there are nodes. -/
def image (n : Ref) : Image := r.imageAt fileName a a.size n

variable {r fileName a}

/-! ## The image by the images below -/

/-- The image as the walk decides on it. -/
theorem imageOver_eq (below : Ref → Image) (n : Ref) : r.imageOver fileName a below n =
    if r.importsMarkers a fileName n = true then none
    else
      match r.markerOf? a fileName n with
      | some m => some (some (m.value r.oracle fileName (typeArgument? a n)).tree)
      | none => some ((a.header? n).map fun h =>
        .ofHeader h ((a.payload? h).map (·.image below))) := by
  simp only [imageOver, ← importsMarkers_iff, literal?_eq]
  cases r.markerOf? a fileName n <;> rfl

/-- A slot without node stays empty. -/
theorem imageOver_of_header?_none {n : Ref} (h : a.header? n = none) (below : Ref → Image) :
    r.imageOver fileName a below n = some none := by
  have hk : ∀ k, a.kind? n ≠ some k := fun k => by simp [Arena.kind?, h]
  rw [imageOver_eq, importsMarkers_of_kind? (hk _), markerOf?_of_kind? (hk _), h]
  rfl

theorem imageAt_of_header?_none {n : Ref} (h : a.header? n = none) (levels : Nat) :
    r.imageAt fileName a levels n = some none := by
  cases levels with
  | zero => rfl
  | succ levels => exact imageOver_of_header?_none h _

@[simp] theorem image_none : r.image fileName a none = some none := imageAt_of_header?_none rfl _

theorem imageOver_congr {f g : Ref → Image} {n : Ref}
    (h : ∀ hd p, a.content? n = some (hd, p) → ∀ c ∈ p.children, f c = g c) :
    r.imageOver fileName a f n = r.imageOver fileName a g n := by
  rw [imageOver_eq, imageOver_eq]
  cases hn : a.header? n with
  | none => rfl
  | some hd =>
    cases hp : a.payload? hd with
    | none => simp only [Option.map_some, hp, Option.map_none]
    | some p =>
      have hfg := Payload.image_congr (h hd p (content?_eq_some.2 ⟨hn, hp⟩))
      simp only [Option.map_some, hp, hfg]

/-- Levels beyond the position of a node do not matter. -/
theorem imageAt_eq (ha : a.WellFormed) : ∀ i levels levels' : Nat, i < levels → i < levels' →
    r.imageAt fileName a levels (some i) = r.imageAt fileName a levels' (some i) := by
  intro i
  induction i using Nat.strongRecOn with
  | ind i ih =>
    intro levels levels' hl hl'
    obtain ⟨l, rfl⟩ : ∃ l, levels = l + 1 := ⟨levels - 1, by omega⟩
    obtain ⟨l', rfl⟩ : ∃ l', levels' = l' + 1 := ⟨levels' - 1, by omega⟩
    refine imageOver_congr fun hd p hp c hc => ?_
    cases c with
    | none => rw [imageAt_of_header?_none rfl, imageAt_of_header?_none rfl]
    | some j =>
      have hj := ha.lt_of_mem_children hp hc
      exact ih j hj l l' (by omega) (by omega)

theorem imageAt_eq_image (ha : a.WellFormed) {i levels : Nat} (h : i < levels) :
    r.imageAt fileName a levels (some i) = r.image fileName a (some i) := by
  by_cases hi : i < a.size
  · exact imageAt_eq ha i levels a.size h hi
  · have hnone : a.header? (some i) = none := Array.getElem?_eq_none (Nat.le_of_not_lt hi)
    rw [image, imageAt_of_header?_none hnone, imageAt_of_header?_none hnone]

/-- The image of a slot by the images of the slots below it. -/
theorem image_eq (ha : a.WellFormed) (n : Ref) :
    r.image fileName a n = r.imageOver fileName a (r.image fileName a) n := by
  cases n with
  | none => rw [image_none, imageOver_of_header?_none rfl]
  | some i =>
    rw [← imageAt_eq_image ha (Nat.lt_succ_self i)]
    refine imageOver_congr fun hd p hp c hc => ?_
    cases c with
    | none => rw [imageAt_of_header?_none rfl, image_none]
    | some j => exact imageAt_eq_image ha (ha.lt_of_mem_children hp hc)

/-! ## Nodes that stand -/

variable (r fileName a) in
/-- A rewrite comes to the node: all nodes on the way to it are kept. -/
inductive Stands (root : NodeId) : NodeId → Prop
  | root : Stands root root
  | child {n c : NodeId} {h : Header} {p : Payload Ref} (hn : Stands root n)
      (hi : r.importsMarkers a fileName (some n) = false)
      (hm : r.markerOf? a fileName (some n) = none)
      (hp : a.content? (some n) = some (h, p)) (hc : some c ∈ p.children) : Stands root c

variable (r fileName a) in
/-- **The tree `t` stands in `u` where `c` stands below `root`.** One goes down from the root and
from `u` in step: wherever one comes to a node, the tree there holds the images of its children. -/
inductive InPlace (root : NodeId) (u : Tree) : NodeId → Tree → Prop
  | root : InPlace root u root u
  | child {n c : NodeId} {h : Header} {p : Payload Ref} {t : Tree}
      (hn : InPlace root u n (.ofHeader h (some (p.image (r.image fileName a)))))
      (hp : a.content? (some n) = some (h, p)) (hc : some c ∈ p.children)
      (ht : r.image fileName a (some c) = some (some t)) : InPlace root u c t

theorem InPlace.part {root c : NodeId} {t u : Tree} (h : InPlace r fileName a root u c t) :
    t.Part u := by
  induction h with
  | root => exact .whole
  | child _ _ hc ht ih => exact .trans (.inside (Payload.mem_children_image hc ht) .whole) ih

/-- What a node that stands has become is where the node was. -/
theorem Stands.inPlace (ha : a.WellFormed) {root c : NodeId} (h : Stands r fileName a root c)
    {t u : Tree} (hu : r.image fileName a (some root) = some (some u))
    (ht : r.image fileName a (some c) = some (some t)) : InPlace r fileName a root u c t := by
  induction h generalizing t with
  | root =>
    obtain rfl := Option.some.inj (Option.some.inj (ht.symm.trans hu))
    exact .root
  | @child n c hd p _ hi hm hp hc ih =>
    obtain ⟨hh, hpayload⟩ := content?_eq_some.1 hp
    have hn : r.image fileName a (some n) =
        some (some (.ofHeader hd (some (p.image (r.image fileName a))))) := by
      rw [image_eq ha, imageOver_eq, hi, hm, hh, Option.map_some, hpayload]
      rfl
    exact .child (ih hn) hp hc ht

/-! ## Calls -/

section Call

variable (r fileName) (ha : a.WellFormed) {c : NodeId} (hc : a.kind? (some c) = some (.form .call))
include ha hc

theorem image_of_call : ∃ h, h.kind = .form .call ∧ r.image fileName a (some c) =
    match r.markerOf? a fileName (some c) with
    | some m => some (some (m.literal r.oracle (r.listed fileName a (some c))))
    | none => some (some (.ofHeader h ((a.payload? h).map (·.image (r.image fileName a))))) := by
  have hi : r.importsMarkers a fileName (some c) = false :=
    importsMarkers_of_kind? (by rw [hc]; decide)
  obtain ⟨h, hh, hk⟩ := Option.map_eq_some_iff.1 hc
  refine ⟨h, hk, ?_⟩
  rw [image_eq ha, imageOver_eq, hi, if_neg Bool.false_ne_true, hh]
  simp only [literal_listed, Option.map_some]

/-- A call is never erased. -/
theorem exists_image_call : ∃ t, r.image fileName a (some c) = some (some t) := by
  obtain ⟨h, -, himage⟩ := image_of_call r fileName ha hc
  rw [himage]
  cases r.markerOf? a fileName (some c) with
  | some m => exact ⟨_, rfl⟩
  | none => exact ⟨_, rfl⟩

/-- A call has become the literal of a marker just if it was taken for a call of this marker. -/
theorem image_eq_literal_iff {m : Marker} : r.image fileName a (some c) =
      some (some (m.literal r.oracle (r.listed fileName a (some c)))) ↔
    r.markerOf? a fileName (some c) = some m := by
  obtain ⟨h, hk, himage⟩ := image_of_call r fileName ha hc
  rw [himage]
  -- The literals of the markers are of different kinds, and neither is a call.
  cases r.markerOf? a fileName (some c) with
  | some m' => cases m <;> cases m' <;> simp [Marker.literal, Reified.tree, Tree.synthesized]
  | none => cases m <;> simp [Marker.literal, Reified.tree, Tree.synthesized, Tree.ofHeader, hk]

end Call

/-! ## Decisions outlast growth -/

/-- Of an arena it matters only whether the node is a call. -/
theorem markerOf?_congr (r : Reifier) (fileName : String) {b : Arena} {n : Ref}
    (h : b.kind? n = a.kind? n) : r.markerOf? b fileName n = r.markerOf? a fileName n := by
  unfold markerOf?
  congr 1
  funext m
  rw [Marker.isCall, Marker.callee?, h, ← Marker.callee?, ← Marker.isCall]

section Growth

variable (r fileName)
variable {b : Arena} (h : a.Extends b) {n : Ref} (hn : a.Has n)
include h hn

theorem markerOf?_of_extends : r.markerOf? b fileName n = r.markerOf? a fileName n :=
  markerOf?_congr r fileName (h.kind? hn)

variable (ha : a.WellFormed)
include ha

theorem typeArgument?_of_extends : typeArgument? b n = typeArgument? a n := by
  rw [typeArgument?, typeArgument?, h.content? ha hn]

theorem importsMarkers_of_extends :
    r.importsMarkers b fileName n = r.importsMarkers a fileName n := by
  have hs : Scope.specifier? b n = Scope.specifier? a n := by
    unfold Scope.specifier?
    rw [h.content? ha hn]
    cases n with
    | none => rfl
    | some i =>
      cases hc : a.content? (some i) with
      | none => rfl
      | some c =>
        obtain ⟨hd, p⟩ := c
        cases p with
        | importDeclaration clause specifier =>
          have hspec := ha.has_of_mem_children hc (r := specifier) (by simp [Payload.children])
          simp only [literalText?, h.content? ha hspec]
        | _ => rfl
  rw [importsMarkers, importsMarkers, hs]

end Growth

/-! ## The walk gives the image -/

variable (r fileName a) in
/-- The node is not taken for a call of a marker. -/
def NoMarker (i : NodeId) : Prop := r.markerOf? a fileName (some i) = none

/-- A node that is kept is left with its header over the images of its children. -/
theorem rebuild_image {b : Arena} (ha : a.WellFormed) (hab : Appends a a b) {i : Nat}
    (hi : i < a.size) (hm : NoMarker r fileName a i) {visit : Ref → Build (Option Ref)}
    (hvisit : ∀ hd p, a.content? (some i) = some (hd, p) → ∀ c ∈ p.children, ∀ b,
      Appends a a b → Yields (Appends a) b (visit c) fun d out =>
        Lands a (NoMarker r fileName a) d (r.image fileName a c) out) :
    Yields (Appends a) b (rebuild visit (some i)) fun c y =>
      Settled a (NoMarker r fileName a) c y ∧ c.tree y = (a.header? (some i)).map fun h =>
        .ofHeader h ((a.payload? h).map (·.image (r.image fileName a))) := by
  have hb := hab.wellFormed ha
  have hext := hab.toExtends
  have hold := has_some.2 hi
  obtain ⟨hd, hh⟩ := header?_of_lt hi
  rw [hh, Option.map_some]
  cases hp : a.payload? hd with
  | none =>
    have hc : a.content? (some i) = none := by simp [content?, hh, hp]
    have hcb : b.content? (some i) = none := (hext.content? ha hold).trans hc
    have hrun := rebuild_of_content?_eq_none visit hcb
    have htree : b.tree (some i) = some (.ofHeader hd none) := by
      rw [hext.tree ha hold, tree_of_header? ha hh, hp]
      rfl
    refine ⟨by rw [hrun]; exact refl b, ?_⟩
    rw [hrun]
    refine ⟨.node (has_some.1 (hold.mono hext)) (fun _ => hm) fun j hj => ?_, htree⟩
    rw [childrenOf, hcb] at hj
    exact absurd hj List.not_mem_nil
  | some p =>
    have hc : a.content? (some i) = some (hd, p) := content?_eq_some.2 ⟨hh, hp⟩
    have hcb := (hext.content? ha hold).trans hc
    refine rebuild_yields hb hext (by rw [image_none]; rfl) hh hcb hm fun c hmem d hbd => ?_
    exact hvisit hd p hc c hmem d (trans_of (Appends a) hab hbd)

/-- An empty slot stays empty. -/
theorem walk_none (r : Reifier) (fileName : String) (b : Arena) (levels : Nat) :
    walk (r.rewrite fileName) levels none b = (some none, b) := by
  cases levels with
  | zero => rfl
  | succ levels =>
    have hkeep : r.rewrite fileName none b = (.keep, b) := rewrite_of_kind? nofun nofun
    rw [walk_of_keep hkeep, rebuild_none]

theorem walk_none_yields (b : Arena) (levels : Nat) :
    Yields (Appends a) b (walk (r.rewrite fileName) levels none) fun c out =>
      Lands a (NoMarker r fileName a) c (r.image fileName a none) out := by
  have hrun := walk_none r fileName b levels
  refine ⟨by rw [hrun]; exact refl b, ?_⟩
  rw [hrun, image_none]
  exact ⟨fun _ h => Option.some.inj h ▸ .none, congrArg some (tree_none b)⟩

variable (r fileName) in
/-- The literal of a call is walked once more, and nothing in it is rewritten. -/
theorem replaced_yields {b : Arena} (ha : a.WellFormed) (hab : Appends a a b) (value : Reified)
    (levels : Nat) :
    Yields (Appends a) b (do
      let new ← value.build
      rebuild (walk (r.rewrite fileName) levels) (some new)) fun c y =>
        Settled a (NoMarker r fileName a) c y ∧ c.tree y = some value.tree := by
  have hopen : Reified.Open a b := ⟨hab.wellFormed ha, hab.toExtends.size_le⟩
  refine (Reified.build_yields hopen value).seq fun c i _ hi => ?_
  have hinert := Reified.inert_tree value
  rw [← hi.tree] at hinert
  have hrun : rebuild (walk (r.rewrite fileName) levels) (some i) c = (some i, c) :=
    rebuild_inert hi.wellFormed hinert levels
  refine ⟨by rw [hrun]; exact refl c, ?_⟩
  rw [hrun]
  exact ⟨hi.settled.imp fun _ => False.elim, hi.tree⟩

variable (r fileName) in
/-- What the walk of a tree leaves is the image of the tree. -/
theorem walk_yields (ha : a.WellFormed) : ∀ (i levels : Nat) (b : Arena), i < a.size → i < levels →
    Appends a a b → Yields (Appends a) b (walk (r.rewrite fileName) levels (some i)) fun c out =>
      Lands a (NoMarker r fileName a) c (r.image fileName a (some i)) out := by
  intro i
  induction i using Nat.strongRecOn with
  | ind i ih =>
    intro levels b hi hl hab
    obtain ⟨l, rfl⟩ : ∃ l, levels = l + 1 := ⟨levels - 1, by omega⟩
    have hold := has_some.2 hi
    have himports := importsMarkers_of_extends r fileName hab.toExtends hold ha
    have hmarker := markerOf?_of_extends r fileName hab.toExtends hold
    rw [image_eq ha, imageOver_eq]
    -- The walk asks in the arena that it has come to; the answers are those of the first one.
    cases him : r.importsMarkers a fileName (some i) with
    | true =>
      have hrun := walk_of_erase (rewrite_of_import (himports.trans him)) l
      refine ⟨by rw [hrun]; exact refl b, ?_⟩
      rw [hrun]
      exact ⟨nofun, rfl⟩
    | false =>
      rw [if_neg Bool.false_ne_true]
      cases hm : r.markerOf? a fileName (some i) with
      | some m =>
        have hrw := rewrite_of_call (himports.trans him) (hmarker.trans hm)
        rw [typeArgument?_of_extends hab.toExtends hold ha] at hrw
        have hrun := walk_of_replace hrw l
        have hlit := replaced_yields r fileName ha hab
          (m.value r.oracle fileName (typeArgument? a (some i))) l
        refine ⟨by rw [hrun]; exact hlit.le, ?_⟩
        rw [hrun]
        exact ⟨fun _ h => Option.some.inj h ▸ hlit.post.1, congrArg some hlit.post.2⟩
      | none =>
        have hrw := rewrite_of_none (himports.trans him) (hmarker.trans hm)
        have hrun := walk_of_keep hrw l
        have hnode := rebuild_image ha hab hi hm fun hd p hp c hc d had =>
          show Yields (Appends a) d (walk (r.rewrite fileName) l c) _ by
            cases c with
            | none => exact walk_none_yields d l
            | some j =>
              have hj := ha.lt_of_mem_children hp hc
              exact ih j hj l d (by omega) (by omega) had
        refine ⟨by rw [hrun]; exact hnode.le, ?_⟩
        rw [hrun]
        exact ⟨fun _ h => Option.some.inj h ▸ hnode.post.1, congrArg some hnode.post.2⟩

variable (r fileName a) in
/-- What becomes of a root: its image, but an import is not erased. -/
def rootImage (i : NodeId) : Option Tree :=
  match r.markerOf? a fileName (some i) with
  | some m => some (m.value r.oracle fileName (typeArgument? a (some i))).tree
  | none => (a.header? (some i)).map fun h =>
    .ofHeader h ((a.payload? h).map (·.image (r.image fileName a)))

theorem image_eq_rootImage (ha : a.WellFormed) {i : NodeId}
    (h : r.importsMarkers a fileName (some i) = false) :
    r.image fileName a (some i) = some (rootImage r fileName a i) := by
  rw [image_eq ha, imageOver_eq, h, if_neg Bool.false_ne_true, rootImage]
  cases r.markerOf? a fileName (some i) with
  | some m => rfl
  | none => rfl

/-- What is an import is no call. -/
theorem noMarker_of_importsMarkers {n : Ref} (h : r.importsMarkers a fileName n = true) :
    r.markerOf? a fileName n = none := by
  refine markerOf?_of_kind? fun hk => ?_
  rw [importsMarkers_of_kind? (by rw [hk]; decide)] at h
  exact absurd h Bool.false_ne_true

variable (r fileName) in
/-- A walk from the top leaves what becomes of the root. -/
theorem root_yields (ha : a.WellFormed) {i levels : Nat} (hi : i < a.size)
    (hl : a.size ≤ levels) :
    Yields (Appends a) a (walkRoot (r.rewrite fileName) levels (some i)) fun b y =>
      Settled a (NoMarker r fileName a) b y ∧ b.tree y = rootImage r fileName a i := by
  have hkept (hm : r.markerOf? a fileName (some i) = none) :=
    rebuild_image ha (refl a) hi hm fun hd p hp c hc d had =>
      show Yields (Appends a) d (walk (r.rewrite fileName) levels c) _ by
        cases c with
        | none => exact walk_none_yields d levels
        | some j =>
          have hj := Nat.lt_trans (ha.lt_of_mem_children hp hc) hi
          exact walk_yields r fileName ha j levels d hj (Nat.lt_of_lt_of_le hj hl) had
  -- The root is walked with the levels of its children, and is not erased.
  unfold rootImage
  cases him : r.importsMarkers a fileName (some i) with
  | true =>
    have hm := noMarker_of_importsMarkers him
    have hrun : walkRoot (r.rewrite fileName) levels (some i) a =
        rebuild (walk (r.rewrite fileName) levels) (some i) a := by
      simp only [walkRoot, bind, StateT.bind, rewrite_of_import him]
    rw [hm]
    refine ⟨by rw [hrun]; exact (hkept hm).le, ?_⟩
    rw [hrun]
    exact (hkept hm).post
  | false =>
    cases hm : r.markerOf? a fileName (some i) with
    | some m =>
      have hrun : walkRoot (r.rewrite fileName) levels (some i) a = (do
          let new ← (m.value r.oracle fileName (typeArgument? a (some i))).build
          rebuild (walk (r.rewrite fileName) levels) (some new) : Build Ref) a := by
        simp only [walkRoot, bind, StateT.bind, rewrite_of_call him hm]
        rfl
      have hlit := replaced_yields r fileName ha (refl a)
        (m.value r.oracle fileName (typeArgument? a (some i))) levels
      refine ⟨by rw [hrun]; exact hlit.le, ?_⟩
      rw [hrun]
      exact hlit.post
    | none =>
      have hrun : walkRoot (r.rewrite fileName) levels (some i) a =
          rebuild (walk (r.rewrite fileName) levels) (some i) a := by
        simp only [walkRoot, bind, StateT.bind, rewrite_of_none him hm]
      refine ⟨by rw [hrun]; exact (hkept hm).le, ?_⟩
      rw [hrun]
      exact (hkept hm).post

/-! ## Files -/

section Root

variable (r : Reifier) {f : SourceFile}

variable (ha : f.arena.WellFormed) (hroot : f.arena.kind? f.root = some (.form .sourceFile))
include ha hroot

theorem image_root :
    r.image f.fileName f.arena f.root = some ((f.arena.header? f.root).map fun h =>
      .ofHeader h ((f.arena.payload? h).map (·.image (r.image f.fileName f.arena)))) := by
  rw [image_eq ha, imageOver_eq, importsMarkers_of_kind? (by rw [hroot]; decide),
    markerOf?_of_kind? (by rw [hroot]; decide), if_neg Bool.false_ne_true]

omit hroot in
/-- A rewritten file has what became of its root, and old nodes below it are taken for no marker
calls. -/
theorem transform_yields {i : NodeId} (hi : f.root = some i) (hlt : i < f.arena.size) :
    Yields (Appends f.arena) f.arena
      (walkRoot (m := Build) (r.rewrite f.fileName) f.arena.levels f.root) fun b y =>
        Settled f.arena (NoMarker r f.fileName f.arena) b y ∧
          b.tree y = rootImage r f.fileName f.arena i := by
  have hlevels : f.arena.size ≤ f.arena.levels := by
    rw [levels]
    omega
  rw [hi]
  exact root_yields r f.fileName ha hlt hlevels

/-- A walk from the root goes deep enough to reach every node. -/
theorem walkRoot_yields :
    Yields (Appends f.arena) f.arena
      (walkRoot (m := Build) (r.rewrite f.fileName) f.arena.levels f.root) fun b y =>
        b.Has y ∧ r.image f.fileName f.arena f.root = some (b.tree y) := by
  obtain ⟨hd, hh, -⟩ := Option.map_eq_some_iff.1 hroot
  obtain ⟨i, hi, -⟩ := Option.bind_eq_some_iff.1 hh
  have hlt : i < f.arena.size := lt_of_header? (hi ▸ hh)
  have himports : r.importsMarkers f.arena f.fileName (some i) = false :=
    importsMarkers_of_kind? (by rw [← hi, hroot]; decide)
  have himage := image_eq_rootImage ha himports
  rw [← hi] at himage
  exact (transform_yields r ha hi hlt).mono fun b y _ h => ⟨h.1.has, by rw [himage, h.2]⟩

/-- What stands at the top of a rewritten file is the image of its root, -/
theorem image_top : r.image f.fileName f.arena f.root =
    some ((r.transform f).arena.tree (r.transform f).root) :=
  (walkRoot_yields r ha hroot).post.2

/-- and this is a tree. -/
theorem exists_top : ∃ t, (r.transform f).arena.tree (r.transform f).root = some t := by
  obtain ⟨hd, hh, -⟩ := Option.map_eq_some_iff.1 hroot
  have himage := image_root r ha hroot
  rw [image_top r ha hroot, hh, Option.map_some] at himage
  exact ⟨_, Option.some.inj himage⟩

/-- **The tree of a rewritten file is the image of the tree of the file**, and there is one: the
root is never erased. -/
theorem tree_transform : ∃ t, (r.transform f).arena.tree (r.transform f).root = some t ∧
    r.image f.fileName f.arena f.root = some (some t) := by
  obtain ⟨t, ht⟩ := exists_top r ha hroot
  exact ⟨t, ht, by rw [image_top r ha hroot, ht]⟩

end Root

end TypeReify.Reifier

namespace TypeReify

open Syntax

/-- `export declare function keys<T>(): string[];`, the file that declares the markers. -/
def declaringFile : SourceFile :=
  let act : Drafting Unit := do
    let result ← Draft.build (do Build.arrayType (← Build.token .stringKeyword))
    let _ ← Draft.declareFunction "keys" ["T"] result
  (act .empty).2.finish "/m/index.d.ts"

/-- `import { keys } from "/m/index"; interface P { x: string; } keys<P>();` -/
def listingFile : SourceFile :=
  let act : Drafting Unit := do
    let _ ← Draft.importNames ["keys"] "/m/index"
    let text ← Draft.build (Build.token .stringKeyword)
    let property ← Draft.build (Draft.property "x" text)
    let _ ← Draft.interfaceNamed "P" [property]
    let type ← Draft.build (Draft.typeNamed "P" [])
    let call ← Draft.build (Draft.callNamed "keys" [type])
    let _ ← Draft.expression call
  (act .empty).2.finish "/app/main.ts"

/-- `import { keys } from "/m/index"; keys<T>();` -/
def callingFile : SourceFile :=
  let act : Drafting Unit := do
    let _ ← Draft.importNames ["keys"] "/m/index"
    let type ← Draft.build (Draft.typeNamed "T" [])
    let call ← Draft.build (Draft.callNamed "keys" [type])
    let _ ← Draft.expression call
  (act .empty).2.finish "/app/main.ts"

/-- A disk with the two files of the module of the markers. -/
def markerDisk : Disk :=
  ⟨.directory [("m", .directory [("index.d.ts", .file .empty), ("index.js", .file .empty)])], ""⟩

/-- The import is erased, and the call has become the literal that lists `x`. -/
theorem Reifier.tree_transform_listingFile :
    let r : Reifier := .ofSettings (Program.ofFiles .default [declaringFile, listingFile]).oracle
      markerDisk ⟨.ofDirectory "/m", .default⟩
    listingFile.arena.WellFormed ∧
      listingFile.arena.kind? listingFile.root = some (.form .sourceFile) ∧
      r.LoadsMarkers listingFile.fileName listingFile.arena (some 5) ∧
      (r.listed listingFile.fileName listingFile.arena (some 14)).map (·.name) = ["x"] ∧
      (∃ t, (r.transform listingFile).arena.tree (r.transform listingFile).root = some t ∧
        r.image listingFile.fileName listingFile.arena listingFile.root = some (some t)) ∧
      (r.transform listingFile).text = "interface P \x7b\n    x: string;\n\x7d\n[\"x\"];\n" := by
  have ha : listingFile.arena.WellFormed := by decide +kernel
  have hroot : listingFile.arena.kind? listingFile.root = some (.form .sourceFile) := by
    decide +kernel
  exact ⟨ha, hroot, by decide +kernel, by decide +kernel, Reifier.tree_transform _ ha hroot,
    by decide +kernel⟩

end TypeReify
