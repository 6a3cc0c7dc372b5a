import TypeReify.Proofs.Check.Callee
import TypeReify.Proofs.Yields
import TypeReify.Program

/-!
# Walks over files

A walk goes to every node of a tree with the scopes around it, and records facts there. What one
node keeps and gets done, said of the node and of what is around it, a walk keeps and gets done for
all nodes of the tree; and so for the files of a program, one after the other.

This is about `walk_node` and `walk_children`, whatever it is that is recorded on the way.

Results:
* `walkFile_visits`: a walk does at every node below what it does at one.
* `walkTree_visits`: from the root of a file the levels suffice.
* `checkFiles_forall₂`: what is known of the facts of every file.
-/

namespace TypeReify.Check

open Syntax Scope
open TypeReify.Types

section Walk

variable {S : Type} {inside : S → Payload Ref → S} {le : State → State → Prop} [IsPreorder State le]
  {lt : Facts → Facts → Prop} [IsPreorder Facts lt] {strict : Bool} {sources : Sources} {m : Module}
  {fits : State → Facts → Prop} {around : NodeId → S → Scopes → Prop}
    {done : NodeId → S → Facts → Prop}
  (lasts : ∀ n s facts facts', lt facts facts' → done n s facts → done n s facts')
  (step : ∀ (n c : Nat) (s : S) (scopes : Scopes) (h : Header) (p : Payload Ref),
    around n s scopes →
    m.file.arena.content? (some n) = some (h, p) → some c ∈ p.children →
      around c (inside s p) (scopes.inside m.file.arena p))
  (record : ∀ (n : Nat) (s : S) (scopes : Scopes) (h : Header) (p : Payload Ref) (st : State)
    (facts : Facts), around n s scopes → m.file.arena.content? (some n) = some (h, p) →
    fits st facts →
      Yields le st (recordNode (resolveFully strict sources) sources m scopes facts n p)
      fun st' facts' =>
        fits st' facts' ∧ lt facts facts' ∧ done n s facts')
include lasts step record

/-- **A walk does at every node below what it does at one.** -/
theorem walkFile_visits (levels : Nat) : ∀ (node : Nat) {s : S} {scopes : Scopes} {st : State}
    {facts : Facts}, around node s scopes → fits st facts →
      Yields le st (walkFile strict sources m levels scopes facts node) fun st' facts' =>
        fits st' facts' ∧ lt facts facts' ∧ (m.file.arena.WellFormed → node < levels →
          ∀ c s' h p, Descent m.file.arena inside node s c s' →
            m.file.arena.content? (some c) = some (h, p) → done c s' facts') := by
  induction levels with
  | zero =>
    intro node s scopes st facts _ hfits
    exact .pure ⟨hfits, refl facts, fun _ hlt => absurd hlt (Nat.not_lt_zero node)⟩
  | succ levels ih =>
    intro node s scopes st facts haround hfits
    unfold walkFile walkNode
    dsimp only
    cases hn : m.file.arena.content? (some node) with
    | none =>
      refine .pure ⟨hfits, refl facts, fun _ _ c s' h p hdown hc => ?_⟩
      cases hdown with
      | here => exact absurd (hc.symm.trans hn) (Option.some_ne_none _)
      | down hn' _ _ => exact absurd (hn'.symm.trans hn) (Option.some_ne_none _)
    | some content =>
      obtain ⟨h, p⟩ := content
      refine (record node s scopes h p st facts haround hn hfits).seq fun t facts₁ _ h₁ => ?_
      have hfold : Yields le t ((m.file.arena.childrenOf (some node)).foldlM
          (walkFile strict sources m levels (scopes.inside m.file.arena p)) facts₁)
          fun st' facts' => fits st' facts' ∧ lt facts₁ facts' ∧
            ∀ k ∈ m.file.arena.childrenOf (some node), m.file.arena.WellFormed → k < levels →
              ∀ c s' h' p', Descent m.file.arena inside k (inside s p) c s' →
                m.file.arena.content? (some c) = some (h', p') → done c s' facts' :=
        Yields.foldlM h₁.1 (fun _ _ _ hlt hdone ha hk c s' h' p' hdown hc =>
          lasts c s' _ _ hlt (hdone ha hk c s' h' p' hdown hc))
          fun k hk _ facts₂ _ hfits₂ =>
            ih k (step node k s scopes h p haround hn ((Arena.mem_childrenOf hn).1 hk)) hfits₂
      refine hfold.mono fun u facts₂ _ h₂ => ⟨h₂.1, trans_of lt h₁.2.1 h₂.2.1, ?_⟩
      intro ha hlt c s' h' p' hdown hc
      cases hdown with
      | here => exact lasts _ _ _ _ h₂.2.1 h₁.2.2
      | down hn' hk hrest =>
        obtain ⟨rfl, rfl⟩ := Prod.mk.inj (Option.some.inj (hn'.symm.trans hn))
        have hk' := (Arena.mem_childrenOf hn').2 hk
        have hlt' := Nat.lt_of_lt_of_le (ha.child_lt hk') (Nat.lt_succ_iff.1 hlt)
        exact h₂.2.2 _ hk' ha hlt' c s' h' p' hrest hc

/-- From the root of a file the levels suffice. -/
theorem walkTree_visits {root : Nat} {s : S} {scopes : Scopes} {st : State} {facts : Facts}
    (haround : around root s scopes) (hfits : fits st facts) :
    Yields le st (walkFile strict sources m m.file.arena.levels scopes facts root) fun st' facts' =>
      fits st' facts' ∧ (m.file.arena.WellFormed → ∀ c s' h p,
        Descent m.file.arena inside root s c s' →
        m.file.arena.content? (some c) = some (h, p) → done c s' facts') := by
  refine (walkFile_visits lasts step record m.file.arena.levels root haround hfits).mono
    fun st' facts' _ hpost => ⟨hpost.1, fun ha c s' h p hdown hc => ?_⟩
  -- A root outside the arena has no content, and nothing below it.
  have hlevels : m.file.arena.levels = 2 * m.file.arena.size + 8 := rfl
  have hlt : root < m.file.arena.size := by
    cases hdown with
    | here => exact Arena.lt_of_content? hc
    | down hn _ _ => exact Arena.lt_of_content? hn
  exact hpost.2.2 ha (Nat.lt_of_lt_of_le hlt (by rw [hlevels]; omega)) c s' h p hdown hc

end Walk

/-! ## Programs -/

/-- Of entries under different keys, the one of a file is found. -/
theorem lookup_of_forall₂ {R : SourceFile → Facts → Prop} {gs : List SourceFile}
    {out : List (String × Facts)} (hkeys : (gs.map fileKey).Nodup)
    (hall : List.Forall₂ (fun g x => x.1 = fileKey g ∧ R g x.2) gs out) {f : SourceFile}
      (hf : f ∈ gs) :
    ∃ facts, out.lookup (fileKey f) = some facts ∧ R f facts := by
  induction hall with
  | nil => exact absurd hf List.not_mem_nil
  | @cons g x gs out hx _ ih =>
    obtain ⟨hkey, hR⟩ := hx
    rw [List.map_cons, List.nodup_cons] at hkeys
    rcases List.mem_cons.1 hf with rfl | hf
    · exact ⟨x.2, by rw [List.lookup_cons, hkey, beq_self_eq_true], hR⟩
    · have hne : fileKey f ≠ fileKey g := fun e => hkeys.1 (e ▸ List.mem_map_of_mem hf)
      obtain ⟨facts, hfacts, hR⟩ := ih hkeys.2 hf
      exact ⟨facts, by rw [List.lookup_cons, hkey, beq_false_of_ne hne, hfacts], hR⟩

section Program

variable {files : List SourceFile} {le : State → State → Prop} [IsPreorder State le] {strict : Bool}
  {R : SourceFile → State → Facts → Prop}
  (lasts : ∀ g t u facts, le t u → R g t facts → R g u facts)
include lasts

/-- **What is known of the facts of every file**, when all files are checked. -/
theorem checkFiles_forall₂ {gs : List SourceFile} {st : State}
    (hfile : ∀ g ∈ gs, ∀ t, le st t →
      Yields le t (fileFacts strict (Sources.ofFiles files) (Sources.moduleOf files g)) (R g)) :
    Yields le st
      (Program.checkFiles strict (Sources.ofFiles files) (gs.map (Sources.moduleOf files)))
      fun st' out => List.Forall₂ (fun g x => x.1 = fileKey g ∧ R g st' x.2) gs out := by
  induction gs generalizing st with
  | nil => exact .pure .nil
  | cons g gs ih =>
    rw [List.map_cons, Program.checkFiles, factsOf]
    refine (hfile g List.mem_cons_self st (refl st)).bind (fun t u facts => lasts g t u facts)
      fun t facts ht _ => ?_
    refine (ih fun g' hg' u hu => hfile g' (List.mem_cons_of_mem g hg') u (trans_of le ht hu)).seq
      fun u out _ hout => .pure fun hfacts => ?_
    exact .cons ⟨rfl, hfacts⟩ hout

/-- The facts of all files of a program. -/
theorem checkFiles_ofFiles (h : (files.map fileKey).Nodup)
    (hfile : ∀ g ∈ files, ∀ t, le .empty t →
      Yields le t (fileFacts strict (Sources.ofFiles files) (Sources.moduleOf files g)) (R g)) :
    Yields le .empty
      (Program.checkFiles strict (Sources.ofFiles files) (Sources.ofFiles files).modules)
      fun st' out => List.Forall₂ (fun g x => x.1 = fileKey g ∧ R g st' x.2) files out := by
  have hrun := checkFiles_forall₂ lasts hfile
  rw [← Sources.modules_ofFiles h] at hrun
  exact hrun

/-- The facts that a program keeps for a file. -/
theorem facts?_of_fileFacts (h : (files.map fileKey).Nodup) (options : CheckOptions)
    (hfile : ∀ g ∈ files, ∀ t, le .empty t → Yields le t
      (fileFacts options.strictNullChecks (Sources.ofFiles files) (Sources.moduleOf files g)) (R g))
    {f : SourceFile} (hf : f ∈ files) :
    ∃ facts, (Program.ofFiles options files).facts? f.fileName = some facts ∧
      R f (Program.ofFiles options files).state facts := by
  have hall : List.Forall₂
      (fun g x => x.1 = fileKey g ∧ R g (Program.ofFiles options files).state x.2) files
      (Program.ofFiles options files).files := (checkFiles_ofFiles lasts h hfile).post
  exact lookup_of_forall₂ h hall hf

end Program

end TypeReify.Check
