import TypeReify.Proofs.Check.Signatures
import TypeReify.Proofs.Check.Strictness

/-!
# Checked programs are closed

While a program is checked, its tables run ahead of each other: a named type is entered before it is
worked out, and a type that mentions itself is met while it is in progress. When checking is done
nothing is left open (`Program.Closed`). What is known of types is what every step of the checker
keeps; what is known of declarations and of optional properties comes from following the run along
itself, since two runs stay alike only as long as all they mention is recorded.

The tables are the fields of the `CheckerOutput` that a `Program` takes over: `interner`,
`declarations`, `interface_shapes`, `alias_targets`, `optional_types` and the facts of the files.

Results:
* `Program.alike_ofFiles`: two runs over the same files end in alike states, with the same facts.
* `Program.closed_ofFiles`: a checked program is closed, whatever the files.
-/

namespace TypeReify

open Check
open Syntax (SourceFile NodeId)
open TypeReify.Types

namespace Check

theorem alike_empty (strict : Bool) : State.empty.Alike strict .empty where
  left := distinct_empty
  right := distinct_empty
  sites := rfl
  embeds := Interner.embeds_empty
  named := .nil
  inProgress := .nil
  founded _ s hs := by
    obtain ⟨name, rfl, -⟩ := Interner.lookup_empty hs
    trivial
  widened _ _ h := absurd h (by simp [State.empty])

end Check

namespace Program

/-- The program does not mention anything it does not know. Keyword types are always known; of the
declarations those are known that have been entered. -/
structure Closed (p : Program) : Prop where
  /-- The types recorded for nodes are known. -/
  types : ∀ x ∈ p.files, ∀ node id : Nat, x.2.types[node]? = some id → p.interner.Known id
  /-- A type mentions known types only, and these were there before it. -/
  mentions : p.interner.Closed
  /-- Every interface is worked out. -/
  interfaces : ∀ id name d arguments, p.interner.get? id = some (.interface name d arguments) →
    (p.state.named.shape? id).isSome = true
  /-- Every alias is worked out. -/
  synonyms : ∀ id name d arguments, p.interner.get? id = some (.synonym name d arguments) →
    (p.aliasTarget? id).isSome = true
  /-- The members of interfaces have known types. -/
  shapes : ∀ id shape, p.state.named.shape? id = some shape →
    p.interner.Known id ∧ ∀ q ∈ shape, p.interner.Known q.type
  /-- Aliases stand for known types. -/
  targets : ∀ id target, p.aliasTarget? id = some target →
    p.interner.Known id ∧ p.interner.Known target
  /-- The types of optional properties are known, with `undefined` and without. -/
  widened : ∀ id wide : Nat, p.state.widened[id]? = some wide →
    p.interner.Known id ∧ p.interner.Known wide
  /-- Calls resolve to declarations of the program. -/
  signatures : ∀ x ∈ p.files, ∀ (node : Nat) (s : Signature), x.2.signatures[node]? = some s →
    ∀ d ∈ s.declaration, d < p.declarations.length
  /-- Properties are declared by declarations of the program: those of object types, -/
  objects : ∀ id shape, p.interner.get? id = some (.object shape) →
    ∀ q ∈ shape, ∀ d ∈ q.declarations, d < p.declarations.length
  /-- and those of interfaces. -/
  members : ∀ id shape, p.state.named.shape? id = some shape →
    ∀ q ∈ shape, ∀ d ∈ q.declarations, d < p.declarations.length
  /-- Named types are declared by declarations of the program. -/
  named : ∀ id name d arguments, p.interner.get? id = some (.interface name d arguments) ∨
    p.interner.get? id = some (.synonym name d arguments) → d < p.declarations.length

/-- Two runs over the same files end in alike states, with the same facts. -/
theorem alike_ofFiles {lenient strict : Bool} (hstrict : lenient = true → strict = true)
    (files : List SourceFile) :
    (ofFiles ⟨lenient⟩ files).state.Alike strict (ofFiles ⟨strict⟩ files).state ∧
      List.Forall₂ (fun x x' => x'.1 = x.1 ∧
        SameFacts (ofFiles ⟨lenient⟩ files).state (ofFiles ⟨strict⟩ files).state x.2 x'.2)
        (ofFiles ⟨lenient⟩ files).files (ofFiles ⟨strict⟩ files).files :=
  have hrun := checkFiles_parallel hstrict (Sources.ofFiles files) (alike_empty strict)
    (Sources.ofFiles files).modules
  ⟨hrun.alike, hrun.post⟩

/-- The members of an interface are recorded in a state that is alike to some other. -/
theorem recorded_of_shape? {strict : Bool} {st st' : State} (h : st.Alike strict st') {id : TypeId}
    {shape : Shape} (hid : st'.named.shape? id = some shape) :
    ∀ q ∈ shape, Recorded strict st' q := by
  have hall : ∀ x ∈ st'.named, ∀ shape, x.2 = .members shape → ∀ q ∈ shape,
    Recorded strict st' q := by
    refine forall_of_forall₂ h.named fun x x' hx shape heq => ?_
    obtain ⟨id, n⟩ := x
    obtain ⟨id', n'⟩ := x'
    obtain ⟨-, hn⟩ := hx
    cases hn with
    | members hshape =>
      exact Named.members.inj heq ▸ forall_of_forall₂ hshape fun _ _ hq => hq.recorded
    | target _ => exact absurd heq nofun
  exact hall _ (NamedTypes.mem_of_shape? hid) shape rfl

/-- Where nothing is in progress any more, a consistent program whose run is alike to itself is
closed. -/
theorem closed_of_alike {p : Program} {strict : Bool} {sources : Sources}
    (hst : p.state.Consistent sources) (hdone : p.state.inProgress = [])
    (h : p.state.Alike strict p.state)
    (hfacts : ∀ x ∈ p.files, ∃ facts, SameFacts p.state p.state facts x.2) : p.Closed := by
  have hlength : p.declarations.length = p.state.sites.size := by
    rw [declarations, List.length_map, Array.length_toList]
  have hworked {id : TypeId} {s : Structure} (hid : p.interner.get? id = some s) (hs : s.IsNamed) :
      id ∈ p.state.named.ids := by
    rcases hst.covered id s hid hs with hmem | hmem
    · exact hmem
    · rw [hdone] at hmem
      exact absurd hmem List.not_mem_nil
  -- What stands in the tables is known by consistency, what is declared by the run being alike to
  -- itself.
  exact {
    types := by
      intro x hx node id hid
      obtain ⟨facts, hsame⟩ := hfacts x hx
      rcases rel_cases (hsame.types node) with ⟨-, hn⟩ | ⟨_, y, -, hn, hy⟩
      · rw [hid] at hn
        cases hn
      · rw [hid] at hn
        exact Option.some.inj hn ▸ hy.known_right
    mentions := hst.closed
    interfaces := fun id name d arguments hid =>
      (isSome_shape?_iff hst.distinct hst.named hid).2 (hworked hid trivial)
    synonyms := fun id name d arguments hid =>
      (isSome_target?_iff hst.distinct hst.named hid).2 (hworked hid trivial)
    shapes := by
      intro id shape hid
      obtain ⟨⟨name, d, arguments, hget⟩, hknown⟩ := hst.named _ (NamedTypes.mem_of_shape? hid)
      exact ⟨.of_get? hget, hknown⟩
    targets := by
      intro id target hid
      obtain ⟨⟨name, d, arguments, hget⟩, hknown⟩ := hst.named _ (NamedTypes.mem_of_target? hid)
      exact ⟨.of_get? hget, hknown⟩
    widened := by
      intro id wide hid
      obtain ⟨hknown, hunion⟩ := h.widened id wide hid
      have hwide := Interner.known_union hst.closed (State.knows_pair hknown)
      rw [hunion] at hwide
      exact ⟨hknown, hwide⟩
    signatures := by
      intro x hx node s hs d hd
      obtain ⟨facts, hsame⟩ := hfacts x hx
      rw [hsame.signatures] at hs
      exact hlength ▸ hsame.declared node s hs d hd
    objects := fun id shape hid q hq d hd =>
      hlength ▸ (h.founded id _ (Interner.lookup_of_get? hid) q hq).declared d hd
    members := fun id shape hid q hq d hd => hlength ▸ (recorded_of_shape? h hid q hq).declared d hd
    named := by
      intro id name d arguments hid
      rw [hlength]
      rcases hid with hid | hid
      · exact h.founded id _ (Interner.lookup_of_get? hid)
      · exact h.founded id _ (Interner.lookup_of_get? hid) }

/-- **A checked program is closed**: whatever the files are, and however they are checked, all types
and declarations that its tables mention are there. -/
theorem closed_ofFiles (options : CheckOptions) (files : List SourceFile) :
    (ofFiles options files).Closed := by
  obtain ⟨strict⟩ := options
  obtain ⟨halike, hfiles⟩ := alike_ofFiles (fun h : strict = true => h) files
  have hworks := works_ofFiles ⟨strict⟩ files
  exact closed_of_alike (hworks.consistent (consistent_empty _)) hworks.inProgress halike
    (forall_of_forall₂ hfiles fun x _ hx => ⟨x.2, hx.2⟩)

end Program

end TypeReify
