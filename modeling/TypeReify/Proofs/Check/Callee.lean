import TypeReify.Check.Walk
import TypeReify.Proofs.Check.Sources
import TypeReify.Proofs.Scope.Declared
import TypeReify.Proofs.Syntax.Growth
import Mathlib.Data.List.Forall2
import Mathlib.Logic.Relation

/-!
# What a callee names

Which function a call calls, told from the files alone: the scopes around the call are listed as
declarations in source order, and a name means what the first declaration in the innermost scope
says that has it. `CallsFunction` lists the three ways in which a callee leads to a function.

This is about `resolve_call` with `lookup_value` and `signature_for_value`. The relation has no
scope that is filled step by step, no hash map and no stack of scopes.

Results:
* `Descent.unique`: where every node has one parent, a node has one list of scopes around it.
* `meaning?_lookupValue`: a name means what the checker finds in its scopes.
* `calledFunction?_iff`: the checker finds the function that the callee calls.

Out of scope: which declaration of an overloaded function a call would choose. The source takes the
first.
-/

namespace TypeReify.Check

open Syntax Scope

/-! ## Ways down a tree -/

section Descent

variable {S : Type}

/-- Going down from the node `n` with `s` around it leads to a node with `s'` around it. -/
inductive Descent (a : Arena) (inside : S → Payload Ref → S) : NodeId → S → NodeId → S → Prop
  | here {n : NodeId} {s : S} : Descent a inside n s n s
  | down {n k c : NodeId} {s s' : S} {h : Header} {p : Payload Ref}
      (hn : a.content? (some n) = some (h, p)) (hk : some k ∈ p.children)
      (hc : Descent a inside k (inside s p) c s') : Descent a inside n s c s'

/-- One node is reached from another by going down. -/
def Reaches (a : Arena) (root n : NodeId) : Prop :=
  Relation.ReflTransGen (fun n c => c ∈ a.childrenOf (some n)) root n

/-- No node of the tree has two parents. -/
def OneParent (a : Arena) (root : NodeId) : Prop :=
  ∀ n n' c, Reaches a root n → Reaches a root n' → c ∈ a.childrenOf (some n) →
    c ∈ a.childrenOf (some n') → n = n'

variable {a : Arena} {inside : S → Payload Ref → S} {n c : Nat} {s s' : S}

theorem Descent.step {k : NodeId} {h : Header} {p : Payload Ref}
    (hd : Descent a inside n s c s') (hc : a.content? (some c) = some (h, p))
    (hk : some k ∈ p.children) : Descent a inside n s k (inside s' p) := by
  induction hd with
  | here => exact .down hc hk .here
  | down hn hj _ ih => exact .down hn hj (ih hc)

theorem Descent.reaches (hd : Descent a inside n s c s') : Reaches a n c := by
  induction hd with
  | here => exact .refl
  | down hn hk _ ih => exact .head ((Arena.mem_childrenOf hn).2 hk) ih

/-- Whether a node has two parents can be told by going through all nodes. -/
theorem oneParent_of_forall {root : NodeId}
    (h : ∀ n < a.size, ∀ n' < a.size, ∀ c ∈ a.childrenOf (some n), c ∈ a.childrenOf (some n') →
      n = n') : OneParent a root := by
  have hlt {n c : Nat} (hc : c ∈ a.childrenOf (some n)) : n < a.size := by
    by_contra hn
    rw [Arena.childrenOf_of_le (Nat.le_of_not_lt hn)] at hc
    exact absurd hc List.not_mem_nil
  intro n n' c _ _ hc hc'
  exact h n (hlt hc) n' (hlt hc') c hc hc'

theorem Reaches.le (ha : a.WellFormed) (h : Reaches a n c) : c ≤ n := by
  induction h with
  | refl => exact Nat.le_refl n
  | tail _ hc ih => exact Nat.le_of_lt (Nat.lt_of_lt_of_le (ha.child_lt hc) ih)

/-- The last step of a way down. -/
theorem Descent.last (hd : Descent a inside n s c s') :
    (c = n ∧ s' = s) ∨ ∃ (k : NodeId) (t : S) (h : Header) (p : Payload Ref),
      Descent a inside n s k t ∧ a.content? (some k) = some (h, p) ∧ some c ∈ p.children ∧
        s' = inside t p := by
  induction hd with
  | here => exact .inl ⟨rfl, rfl⟩
  | down hn hk hc ih =>
    rcases ih with ⟨rfl, rfl⟩ | ⟨k', t, h', p', hk', hc', hmem, rfl⟩
    · exact .inr ⟨_, _, _, _, .here, hn, hk, rfl⟩
    · exact .inr ⟨k', t, h', p', .down hn hk hk', hc', hmem, rfl⟩

/-- Where no node has two parents, what is around a node does not depend on the way to it. -/
theorem Descent.unique (ha : a.WellFormed) (hone : OneParent a n) {t : S}
    (hd : Descent a inside n s c s') (hd' : Descent a inside n s c t) : s' = t := by
  induction hk : n - c using Nat.strongRecOn generalizing c s' t with
  | ind k ih =>
    have hbelow {k' : Nat} {u : S} (h : Descent a inside n s k' u) : k' ≤ n := h.reaches.le ha
    rcases hd.last with ⟨rfl, rfl⟩ | ⟨k₁, t₁, h₁, p₁, hk₁, hc₁, hmem₁, rfl⟩
    · rcases hd'.last with ⟨-, rfl⟩ | ⟨k₂, t₂, h₂, p₂, hk₂, hc₂, hmem₂, rfl⟩
      · rfl
      · exact absurd (ha.lt_of_mem_children hc₂ hmem₂) (Nat.not_lt.2 (hbelow hk₂))
    · rcases hd'.last with ⟨rfl, rfl⟩ | ⟨k₂, t₂, h₂, p₂, hk₂, hc₂, hmem₂, rfl⟩
      · exact absurd (ha.lt_of_mem_children hc₁ hmem₁) (Nat.not_lt.2 (hbelow hk₁))
      · obtain rfl : k₁ = k₂ := hone k₁ k₂ c hk₁.reaches hk₂.reaches
          ((Arena.mem_childrenOf hc₁).2 hmem₁) ((Arena.mem_childrenOf hc₂).2 hmem₂)
        obtain ⟨rfl, rfl⟩ := Prod.mk.inj (Option.some.inj (hc₁.symm.trans hc₂))
        have hlt := ha.lt_of_mem_children hc₁ hmem₁
        have hle := hbelow hk₁
        rw [ih (n - k₁) (by omega) hk₁ hk₂ rfl]

theorem Descent.invariant {P : S → Prop} (hP : ∀ s p, P s → P (inside s p))
    (hd : Descent a inside n s c s') (h : P s) : P s' := by
  induction hd with
  | here => exact h
  | down _ _ _ ih => exact ih (hP _ _ h)

/-- A way down carries along whatever goes with what is around the nodes. -/
theorem Descent.map {T : Type} {inside' : T → Payload Ref → T} {R : S → T → Prop}
    (hR : ∀ s t p, R s t → R (inside s p) (inside' t p)) (hd : Descent a inside n s c s') {t : T}
    (h : R s t) : ∃ t', Descent a inside' n t c t' ∧ R s' t' := by
  induction hd generalizing t with
  | here => exact ⟨t, .here, h⟩
  | down hn hk _ ih =>
    obtain ⟨t', hd, h'⟩ := ih (hR _ _ _ h)
    exact ⟨t', .down hn hk hd, h'⟩

end Descent

/-! ## Names at a place -/

/-- What a name means among lists of declarations: the first entry in the innermost list that has
one. -/
def meaning? (scopes : List Declarations) (name : String) : Option Value :=
  scopes.findSome? (·.lookup name)

/-- What is declared around the children of a node. -/
def declaredInside (a : Arena) (scopes : List Declarations) : Payload Ref → List Declarations
  | .function _ _ parameters _ _ => parameters.flatMap (declaredParameter a) :: scopes
  | .block statements => statements.flatMap (declaredValues a) :: scopes
  | _ => scopes

/-- The scopes between the root of a tree and a node, innermost first. -/
def Around (a : Arena) (root c : NodeId) (scopes : List Declarations) : Prop :=
  Descent a (declaredInside a) root [] c scopes

/-- Every node that is reached has scopes around it. -/
theorem exists_around {a : Arena} {root c : NodeId} (h : Reaches a root c) :
    ∃ ds, Around a root c ds := by
  induction h with
  | refl => exact ⟨[], .here⟩
  | @tail n c _ hc ih =>
    obtain ⟨ds, hds⟩ := ih
    obtain ⟨h, p, hn, hmem⟩ : ∃ h p, a.content? (some n) = some (h, p) ∧ some c ∈ p.children := by
      cases hn : a.content? (some n) with
      | none => simp [Arena.childrenOf, hn] at hc
      | some content => exact ⟨content.1, content.2, rfl, (Arena.mem_childrenOf hn).1 hc⟩
    exact ⟨_, hds.step hn hmem⟩

/-- Scopes of the checker hold what is listed. -/
def Scopes.Hold (scopes : Scopes) (ds : List Declarations) : Prop :=
  List.Forall₂ (fun names ds => ∀ name, names.meaning? name = ds.lookup name) scopes.values ds

theorem Scopes.hold_inside (a : Arena) (scopes : Scopes) (ds : List Declarations)
    (p : Payload Ref) (h : scopes.Hold ds) : (scopes.inside a p).Hold (declaredInside a ds p) := by
  cases p with
  | function _ _ parameters _ _ => exact .cons (meaning?_bindParameters a parameters) h
  | block statements => exact .cons (Enters.block (fun _ => rfl) (binds_statement a) statements) h
  | _ => exact h

variable {files : List SourceFile}

/-- The top-level values of a file. -/
def topValues (files : List SourceFile) (f : SourceFile) : Declarations :=
  declaredByFile f.arena (Sources.importedKey? files f) f.statements

/-- The values that a file exports. -/
def exportedValues (f : SourceFile) : Declarations := exportedByFile f.arena f.statements

theorem meaning?_findSome? {values : List Names} {ds : List Declarations}
    (h : List.Forall₂ (fun names ds => ∀ name, names.meaning? name = ds.lookup name) values ds)
    (name : String) :
    (values.findSome? (·.values[name]?)).map Value.head = meaning? ds name := by
  induction h with
  | nil => rfl
  | @cons names d values ds hd _ ih =>
    rw [meaning?, List.findSome?_cons, List.findSome?_cons]
    have hd := hd name
    rw [Names.meaning?] at hd
    cases hv : names.values[name]? with
    | none =>
      rw [hv] at hd
      rw [← hd]
      exact ih
    | some v =>
      rw [hv] at hd
      rw [← hd]
      rfl

/-- A name means what the checker finds in its scopes. -/
theorem meaning?_lookupValue {f : SourceFile} {scopes : Scopes} {ds : List Declarations}
    (h : scopes.Hold ds) (name : String) :
    (lookupValue (Sources.moduleOf files f) scopes name).map Value.head =
      meaning? (ds ++ [topValues files f]) name := by
  have htop : (Sources.moduleOf files f).names.locals.meaning? name =
      (topValues files f).lookup name :=
    Enters.locals (fun _ => rfl) (binds_statement f.arena)
      (binds_import f.arena (Sources.importedKey? files f)) f.statements name
  rw [lookupValue, Option.map_or, meaning?_findSome? h, meaning?, meaning?, List.findSome?_append]
  congr 1
  rw [List.findSome?_cons, List.findSome?_nil]
  refine htop.trans ?_
  rw [topValues]
  cases (declaredByFile f.arena (Sources.importedKey? files f) f.statements).lookup name with
  | none => rfl
  | some v => rfl

/-! ## Callees -/

/-- An expression without the parentheses around it. -/
inductive Unwraps (a : Arena) : Ref → Ref → Prop
  | bare {r : Ref} (h : ∀ hd inner, a.content? r ≠ some (hd, .parenthesized inner)) : Unwraps a r r
  | parentheses {r inner e : Ref} {hd : Header} (h : a.content? r = some (hd, .parenthesized inner))
      (he : Unwraps a inner e) : Unwraps a r e

theorem Unwraps.unique {a : Arena} {r e e' : Ref} (h : Unwraps a r e) (h' : Unwraps a r e') :
    e = e' := by
  induction h with
  | bare hr =>
    cases h' with
    | bare _ => rfl
    | parentheses hc _ => exact absurd hc (hr _ _)
  | parentheses hc _ ih =>
    cases h' with
    | bare hr => exact absurd hc (hr _ _)
    | parentheses hc' he' =>
      rw [hc] at hc'
      obtain rfl := Payload.parenthesized.inj (Prod.mk.inj (Option.some.inj hc')).2
      exact ih he'

/-- Enough levels unwrap every parenthesis. -/
theorem unwraps_calleeOf {a : Arena} (ha : a.WellFormed) {levels : Nat} {r : Ref}
    (h : ∀ i, r = some i → i < levels) : Unwraps a r (calleeOf a levels r) := by
  induction levels generalizing r with
  | zero =>
    cases r with
    | none => exact .bare fun _ _ => nofun
    | some i => exact absurd (h i rfl) (Nat.not_lt_zero i)
  | succ levels ih =>
    rw [calleeOf]
    split
    · rename_i hd inner hc
      refine .parentheses hc (ih fun j hj => ?_)
      cases r with
      | none => exact absurd hc nofun
      | some i =>
        have hlt := ha.lt_of_mem_children hc (j := j) (by simp [Payload.children, hj])
        exact Nat.lt_of_lt_of_le hlt (Nat.lt_succ_iff.1 (h i rfl))
    · rename_i hbare
      exact .bare hbare

/-- **The function that a callee calls.** The callee is unwrapped, and `scopes` lists what is
declared around it inside the file `f`. -/
inductive CallsFunction (files : List SourceFile) (f : SourceFile) (scopes : List Declarations)
    (callee : Ref) : SourceFile → NodeId → Prop
  /-- Its name stands for a function of the file. -/
  | own {h : Header} {name : String} {first : NodeId}
      (hc : f.arena.content? callee = some (h, .identifier name))
      (hname : meaning? (scopes ++ [topValues files f]) name = some (.function first [])) :
      CallsFunction files f scopes callee f first
  /-- Its name stands for a function that another file exports. -/
  | imported {h : Header} {name key exported : String} {g : SourceFile} {first : NodeId}
      (hc : f.arena.content? callee = some (h, .identifier name))
      (hname : meaning? (scopes ++ [topValues files f]) name = some (.imported (some key) exported))
      (hg : Sources.fileAt? files key = some g)
      (hfirst : (exportedValues g).lookup exported = some (.function first [])) :
      CallsFunction files f scopes callee g first
  /-- It names a function through all exports of another file. -/
  | member {h : Header} {object member : Ref} {space name key : String} {g : SourceFile}
      {first : NodeId} (hc : f.arena.content? callee = some (h, .access object member))
      (hobject : f.arena.identifierText? object = some space)
      (hmember : f.arena.identifierText? member = some name)
      (hspace : meaning? (scopes ++ [topValues files f]) space = some (.namespaceImport (some key)))
      (hg : Sources.fileAt? files key = some g)
      (hfirst : (exportedValues g).lookup name = some (.function first [])) :
      CallsFunction files f scopes callee g first

theorem named_around {a : Arena} {root c : NodeId} {ds : List Declarations}
    (h : Around a root c ds) : ∀ d ∈ ds, Declarations.Named a d := by
  refine h.invariant (P := fun ds => ∀ d ∈ ds, Declarations.Named a d) (fun ds p hds => ?_)
    fun _ hd => absurd hd List.not_mem_nil
  cases p with
  | function _ _ parameters _ _ => exact List.forall_mem_cons.2 ⟨named_parameters a parameters, hds⟩
  | block statements => exact List.forall_mem_cons.2 ⟨named_statements a statements, hds⟩
  | _ => exact hds

theorem mem_of_lookup {ds : Declarations} {name : String} {v : Value}
    (h : ds.lookup name = some v) : (name, v) ∈ ds := by
  obtain ⟨before, after, hsplit, -⟩ := List.lookup_eq_some_iff.1 h
  exact hsplit ▸ List.mem_append_right before List.mem_cons_self

/-- A name that means a function among scopes means one declared under it. -/
theorem declares_of_meaning? {f : SourceFile} {ds : List Declarations} {name : String}
    {first : NodeId} {more : List NodeId} (hds : ∀ d ∈ ds, Declarations.Named f.arena d)
    (h : meaning? (ds ++ [topValues files f]) name = some (.function first more)) :
    DeclaresFunction f.arena name first := by
  obtain ⟨d, hd, hlookup⟩ := List.exists_of_findSome?_eq_some h
  rcases List.mem_append.1 hd with hd | hd
  · exact hds d hd name first more (mem_of_lookup hlookup)
  · obtain rfl := List.mem_singleton.1 hd
    exact named_file f.arena _ f.statements name first more (mem_of_lookup hlookup)

/-- So does the name of an exported function. -/
theorem declares_of_exported {g : SourceFile} {name : String} {first : NodeId} {more : List NodeId}
    (h : (exportedValues g).lookup name = some (.function first more)) :
    DeclaresFunction g.arena name first :=
  named_statements g.arena _ name first more (mem_of_lookup h)

/-- What is called is a declared function of a file. -/
theorem CallsFunction.declares {files : List SourceFile} {f g : SourceFile} {ds : List Declarations}
    {callee : Ref} {first : NodeId} (h : CallsFunction files f ds callee g first)
    (hds : ∀ d ∈ ds, Declarations.Named f.arena d) (hf : f ∈ files) :
    g ∈ files ∧ ∃ name, DeclaresFunction g.arena name first := by
  cases h with
  | own hc hname => exact ⟨hf, _, declares_of_meaning? hds hname⟩
  | imported hc hname hg hfirst =>
    exact ⟨List.mem_of_find?_eq_some hg, _, declares_of_exported hfirst⟩
  | member hc hobject hmember hspace hg hfirst =>
    exact ⟨List.mem_of_find?_eq_some hg, _, declares_of_exported hfirst⟩

/-- A callee calls one function at most. -/
theorem CallsFunction.unique {f g g' : SourceFile} {ds : List Declarations} {callee : Ref}
    {first first' : NodeId} (h : CallsFunction files f ds callee g first)
    (h' : CallsFunction files f ds callee g' first') : g = g' ∧ first = first' := by
  -- The content of the callee tells the three ways apart.
  cases h with
  | own hc hname => cases h' <;> grind
  | imported hc hname hg hfirst => cases h' <;> grind
  | member hc hobject hmember hspace hg hfirst => cases h' <;> grind

/-! ## What the checker finds -/

section Found

theorem functionBehind?_of_function (s : Sources) (hops : Nat) (m : Module) (first : NodeId)
    (more : List NodeId) : functionBehind? s hops m (.function first more) = some (m, first) := by
  rw [functionBehind?, Sources.followValue_of_declared]

theorem functionBehind?_of_import (s : Sources) (hops : Nat) (m : Module) (module : Option String)
    (name : String) : functionBehind? s (hops + 1) m (.imported module name) =
      (module.bind s.find?).bind fun target =>
        target.names.exported.values[name]?.bind (functionBehind? s hops target) := by
  rw [functionBehind?, Sources.followValue]
  cases module with
  | none => rfl
  | some key =>
    simp only [Option.bind_eq_bind, Option.bind_some]
    cases s.find? key with
    | none => rfl
    | some target =>
      simp only [Option.bind_some]
      cases target.names.exported.values[name]? with
      | none => rfl
      | some v => rfl

theorem functionBehind?_of_other (s : Sources) (hops : Nat) (m : Module) {v : Value}
    (h : ∃ node, v = .variableDeclaration node ∨ v = .parameter node) :
    functionBehind? s hops m v = none := by
  obtain ⟨node, rfl | rfl⟩ := h
  · cases hops <;> rfl
  · cases hops <;> rfl

/-- An exported value leads to a function only if it is one. -/
theorem functionBehind?_exported {files : List SourceFile} (s : Sources) (g : SourceFile)
    (hops : Nat) (name : String) {t : Module} {first : NodeId} :
    (Sources.moduleOf files g).names.exported.values[name]?.bind
        (functionBehind? s hops (Sources.moduleOf files g)) = some (t, first) ↔
      t = Sources.moduleOf files g ∧
        (exportedValues g).lookup name = some (.function first []) := by
  have hm : (Sources.moduleOf files g).names.exported.meaning? name =
      (exportedValues g).lookup name :=
    Enters.exported (fun _ => rfl) (binds_statement g.arena) _ g.statements name
  rw [← hm, Names.meaning?]
  cases hv : (Sources.moduleOf files g).names.exported.values[name]? with
  | none => simp
  | some v =>
    cases v with
    | function first' more =>
      simp only [Option.bind_some, functionBehind?_of_function, Option.map_some, Value.head,
        Option.some.injEq, Prod.mk.injEq, Value.function.injEq, and_true]
      exact and_congr_left' eq_comm
    | variableDeclaration node | parameter node =>
      rw [Option.bind_some, functionBehind?_of_other s hops _ ⟨node, by simp⟩]
      simp [Value.head]
    | imported module exported =>
      have hmem := mem_of_lookup (hm.symm.trans (by rw [Names.meaning?, hv]; rfl))
      exact absurd rfl ((noImports_exported g.arena g.statements _ hmem).1 module exported)
    | namespaceImport module =>
      have hmem := mem_of_lookup (hm.symm.trans (by rw [Names.meaning?, hv]; rfl))
      exact absurd rfl ((noImports_exported g.arena g.statements _ hmem).2 module)

end Found

section Called

variable {files : List SourceFile} (h : (files.map fileKey).Nodup)
include h

/-- An import leads to a function if the file it names exports one. -/
theorem functionBehind?_import_iff {hops : Nat} {m t : Module} {module : Option String}
    {exported : String} {first : NodeId} :
    functionBehind? (Sources.ofFiles files) (hops + 1) m (.imported module exported) =
        some (t, first) ↔
      ∃ key g, module = some key ∧ Sources.fileAt? files key = some g ∧
        t = Sources.moduleOf files g ∧
          (exportedValues g).lookup exported = some (.function first []) := by
  rw [functionBehind?_of_import]
  cases module with
  | none => simp
  | some key =>
    rw [Option.bind_some, Sources.find?_ofFiles h]
    cases hg : Sources.fileAt? files key with
    | none => simp [hg]
    | some g =>
      rw [Option.map_some, Option.bind_some, functionBehind?_exported]
      constructor
      · rintro ⟨ht, hfirst⟩
        exact ⟨key, g, rfl, hg, ht, hfirst⟩
      · rintro ⟨key', g', hkey, hg', ht, hfirst⟩
        obtain rfl := Option.some.inj hkey
        obtain rfl := Option.some.inj (hg.symm.trans hg')
        exact ⟨ht, hfirst⟩

variable {f : SourceFile} {scopes : Scopes} {ds : List Declarations} (hold : scopes.Hold ds)
include hold

omit h in
/-- What the lists say of a name, the checker finds. -/
theorem exists_lookupValue {name : String} {v : Value}
    (hname : meaning? (ds ++ [topValues files f]) name = some v) :
    ∃ v', lookupValue (Sources.moduleOf files f) scopes name = some v' ∧ v'.head = v := by
  rw [← meaning?_lookupValue hold] at hname
  exact Option.map_eq_some_iff.1 hname

/-- **The checker finds the function that the callee calls.** -/
theorem calledFunction?_iff {callee : Ref} {t : Module} {first : NodeId} :
    calledFunction? (Sources.ofFiles files) (Sources.moduleOf files f) scopes callee =
        some (t, first) ↔
      ∃ g, t = Sources.moduleOf files g ∧
        CallsFunction files f ds (calleeOf f.arena f.arena.levels callee) g first := by
  have hfound {name : String} {v : Value}
      (hv : lookupValue (Sources.moduleOf files f) scopes name = some v) :
      meaning? (ds ++ [topValues files f]) name = some v.head := by
    rw [← meaning?_lookupValue hold, hv, Option.map_some]
  unfold calledFunction?
  simp only [Sources.file_moduleOf]
  -- A lookup answers more than the head of what a name means; no step below looks at the rest.
  constructor
  · intro hcalled
    split at hcalled
    · rename_i hd name hc
      obtain ⟨v, hv, hbehind⟩ := Option.bind_eq_some_iff.1 hcalled
      cases v with
      | function first' more =>
        rw [functionBehind?_of_function] at hbehind
        obtain ⟨rfl, rfl⟩ := Prod.mk.inj (Option.some.inj hbehind)
        exact ⟨f, rfl, .own hc (hfound hv)⟩
      | imported module exported =>
        obtain ⟨key, g, rfl, hg, ht, hfirst⟩ := (functionBehind?_import_iff h).1 hbehind
        exact ⟨g, ht, .imported hc (hfound hv) hg hfirst⟩
      | variableDeclaration node =>
        rw [functionBehind?_of_other _ _ _ ⟨node, .inl rfl⟩] at hbehind
        cases hbehind
      | parameter node =>
        rw [functionBehind?_of_other _ _ _ ⟨node, .inr rfl⟩] at hbehind
        cases hbehind
      | namespaceImport module => cases hbehind
    · rename_i hd object member hc
      obtain ⟨space, hspace, hcalled⟩ := Option.bind_eq_some_iff.1 hcalled
      obtain ⟨name, hname, hcalled⟩ := Option.bind_eq_some_iff.1 hcalled
      split at hcalled
      · rename_i module hv
        obtain ⟨⟨target, v⟩, hexported, hbehind⟩ := Option.bind_eq_some_iff.1 hcalled
        obtain ⟨key, hkey, hexported⟩ := Option.bind_eq_some_iff.1 hexported
        obtain ⟨target', htarget, hexported⟩ := Option.bind_eq_some_iff.1 hexported
        obtain ⟨v', hv', hexported⟩ := Option.bind_eq_some_iff.1 hexported
        obtain ⟨rfl, rfl⟩ := Prod.mk.inj (Option.some.inj hexported)
        rw [Sources.find?_ofFiles h] at htarget
        obtain ⟨g, hg, rfl⟩ := Option.map_eq_some_iff.1 htarget
        have hg' := (functionBehind?_exported (Sources.ofFiles files) g (importHops - 1) name).1
          (Option.bind_eq_some_iff.2 ⟨v', hv', hbehind⟩)
        have hspace' := hfound hv
        rw [hkey] at hspace'
        exact ⟨g, hg'.1, .member hc hspace hname hspace' hg hg'.2⟩
      · cases hcalled
    · cases hcalled
  · rintro ⟨g, rfl, hcalls⟩
    cases hcalls with
    | own hc hname =>
      obtain ⟨v, hv, hhead⟩ := exists_lookupValue hold hname
      obtain ⟨more, rfl⟩ : ∃ more, v = .function first more := by
        cases v <;> simp_all [Value.head]
      rw [hc]
      exact Option.bind_eq_some_iff.2 ⟨_, hv, functionBehind?_of_function _ _ _ _ _⟩
    | @imported _ _ key exported _ _ hc hname hg hfirst =>
      obtain ⟨v, hv, hhead⟩ := exists_lookupValue hold hname
      obtain rfl : v = .imported (some key) exported := by
        cases v <;> simp_all [Value.head]
      rw [hc]
      exact Option.bind_eq_some_iff.2
        ⟨_, hv, (functionBehind?_import_iff h).2 ⟨key, g, rfl, hg, rfl, hfirst⟩⟩
    | @member _ object member space name key _ _ hc hobject hmember hspace hg hfirst =>
      obtain ⟨v, hv, hhead⟩ := exists_lookupValue hold hspace
      obtain rfl : v = .namespaceImport (some key) := by
        cases v <;> simp_all [Value.head]
      obtain ⟨v, hv', hbehind⟩ := Option.bind_eq_some_iff.1
        ((functionBehind?_exported (Sources.ofFiles files) g (importHops - 1) name).2 ⟨rfl, hfirst⟩)
      rw [hc]
      refine Option.bind_eq_some_iff.2
        ⟨space, hobject, Option.bind_eq_some_iff.2 ⟨name, hmember, ?_⟩⟩
      rw [hv]
      refine Option.bind_eq_some_iff.2 ⟨(Sources.moduleOf files g, v), ?_, hbehind⟩
      refine Option.bind_eq_some_iff.2
        ⟨Sources.moduleOf files g, ?_, Option.bind_eq_some_iff.2 ⟨v, hv', rfl⟩⟩
      rw [Sources.find?_ofFiles h, hg, Option.map_some]

end Called

end TypeReify.Check
