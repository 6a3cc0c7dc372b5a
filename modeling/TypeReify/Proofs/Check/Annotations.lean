import TypeReify.Proofs.Check.ComesTo
import TypeReify.Proofs.Check.Signatures
import TypeReify.Syntax.Draft

/-!
# Recorded types

The walk over a file records the types of all annotations: of the ascriptions of variables and
parameters, and of the type arguments of calls. It goes to each with the scopes around it, so the
type that is recorded is what the annotation comes to by the binders around it.

It opens scopes for functions and blocks only. A parameter of a method or of a function type is an
annotated parameter too, and the type parameters of the interface or alias around it are not found:
there its name denotes a type of the file, or `any`.

This is about `type_nodes`, which `record_type_node` fills on the way of `walk_node`. The scopes
that are missing are those that `open_type_scope` is not called for.

Results:
* `recordNode_annotations`: one node.
* `fileFacts_annotations`: the facts of a file know the types of all its annotations.
* `typeAt?_lexical`: a recorded type is what its annotation comes to by the binders around it.
* `typeAt?_method`: a parameter of a method whose type parameter is recorded as `any`.

Out of scope: annotations of files that share a key with a later file, since nobody walks them.
-/

namespace TypeReify.Check

open Syntax Scope
open TypeReify.Types

/-- The annotations at a node. -/
def annotations : Payload Ref → List Ref
  | .call _ types _ => types.getD []
  | .variableDeclaration _ ascription _ | .parameter _ ascription _ => [ascription]
  | _ => []

/-- The type node `n` annotates the variable, parameter or call at `c`. -/
def Annotates (a : Arena) (c n : NodeId) : Prop :=
  ∃ h p, a.content? (some c) = some (h, p) ∧ some n ∈ annotations p

/-- Annotations are children. -/
theorem annotations_subset_children (p : Payload Ref) : annotations p ⊆ p.children := by
  cases p <;> simp [annotations, Payload.children]

theorem Annotates.child {a : Arena} {c n : NodeId} (h : Annotates a c n) :
    n ∈ a.childrenOf (some c) := by
  obtain ⟨_, p, hc, hn⟩ := h
  exact (Arena.mem_childrenOf hc).2 (annotations_subset_children p hn)

variable {files : List SourceFile} {f : SourceFile} {root : NodeId}

/-- The scopes of the checker at a node, and what binds type names there. -/
structure Placed (files : List SourceFile) (f : SourceFile) (root node : NodeId) (binders : Binders)
    (scopes : Scopes) : Prop where
  stands : ∃ ds, At f root node scopes ds
  enclosed : Enclosed files f .unknown root node binders
  holds : (Surroundings.ofFrames scopes.types).Holds (Sources.moduleOf files f) binders

/-- A child is walked inside what its parent opens. -/
theorem Placed.step {node c : NodeId} {binders : Binders} {scopes : Scopes} {h : Header}
    {p : Payload Ref} (hin : Placed files f root node binders scopes)
    (hn : f.arena.content? (some node) = some (h, p)) (hc : some c ∈ p.children) :
    Placed files f root c (bindersInside f.arena .unknown binders p) (scopes.inside f.arena p) := by
  obtain ⟨ds, hat⟩ := hin.stands
  exact ⟨⟨_, hat.step hn hc⟩, hin.enclosed.step hn hc, holds_inside hin.holds p⟩

/-- The node annotates a place of the file, and comes to the type by the binders there. -/
def AnnotationFits (files : List SourceFile) (f : SourceFile) (root : NodeId) (st : State)
    (n : NodeId) (id : TypeId) : Prop :=
  ∃ c binders, Enclosed files f .unknown root c binders ∧ Annotates f.arena c n ∧
    Settled (Sources.ofFiles files) (ComesTo files f .unknown · typeDepth binders (some n)) st id

/-- Whatever types are recorded so far are right. -/
structure TypesFit (files : List SourceFile) (f : SourceFile) (root : NodeId) (st : State)
    (facts : Facts) : Prop where
  sound : st.Sound (Sources.ofFiles files)
  types : ∀ (n : Nat) (id : TypeId), facts.types[n]? = some id → AnnotationFits files f root st n id

theorem TypesFit.later {st st' : State} {facts : Facts} (h : TypesFit files f root st facts)
    (hst : Later (Sources.ofFiles files) st st') : TypesFit files f root st' facts := by
  refine ⟨hst.sound h.sound, fun n id hn => ?_⟩
  obtain ⟨c, binders, henclosed, hannotates, hid⟩ := h.types n id hn
  exact ⟨c, binders, henclosed, hannotates, hid.later hst⟩

/-- No type is forgotten. -/
def Facts.KeepsTypes (facts facts' : Facts) : Prop := ∀ n, n ∈ facts.types → n ∈ facts'.types

instance : IsPreorder Facts Facts.KeepsTypes where
  refl _ _ h := h
  trans _ _ _ h h' n hn := h' n (h n hn)

/-- The facts of the file know the types of all its annotations. -/
def KnowsTypes (files : List SourceFile) (f : SourceFile) (st : State) (facts : Facts) : Prop :=
  ∀ root, f.root = some root → TypesFit files f root st facts ∧ (f.arena.WellFormed →
    ∀ c binders n, Enclosed files f .unknown root c binders → Annotates f.arena c n →
    n ∈ facts.types)

theorem knowsTypes_lasts (g : SourceFile) (t u : State) (facts : Facts)
    (htu : Later (Sources.ofFiles files) t u) (h : KnowsTypes files g t facts) :
    KnowsTypes files g u facts :=
  fun root hroot => ⟨(h root hroot).1.later htu, (h root hroot).2⟩

section Record

variable (strict : Bool) (h : (files.map fileKey).Nodup) (hf : f ∈ files)
include h hf

/-- One annotation at a node. -/
theorem recordType_annotations {c : NodeId} {binders : Binders} {scopes : Scopes}
    (hin : Placed files f root c binders scopes) {st : State} {facts : Facts}
    (hfacts : TypesFit files f root st facts) {r : Ref} (hr : ∀ n ∈ r, Annotates f.arena c n) :
    Yields (Later (Sources.ofFiles files)) st
      (recordType (resolveFully strict (Sources.ofFiles files))
        (Sources.moduleOf files f) scopes facts r)
      fun st' facts' => TypesFit files f root st' facts' ∧ facts.KeepsTypes facts' ∧
        ∀ n ∈ r, n ∈ facts'.types := by
  cases r with
  | none => exact .pure ⟨hfacts, refl facts, fun _ hn => absurd hn (Option.not_mem_none _)⟩
  | some node =>
    obtain ⟨ds, hat⟩ := hin.stands
    refine (resolveType_lexical h hf (Nat.le_refl _) heritageDepth _ binders st hfacts.sound
      (Surroundings.fits_ofFrames hat.types st) hin.holds (some node)).seq
      fun t id ht hid => .pure ⟨⟨ht.sound hfacts.sound, fun n id' hn => ?_⟩, fun n hn => ?_, ?_⟩
    · rw [Std.TreeMap.getElem?_insert] at hn
      split at hn
      · rename_i heq
        obtain rfl := Option.some.inj hn
        obtain rfl := Std.LawfulEqCmp.eq_of_compare heq
        exact ⟨c, binders, hin.enclosed, hr _ rfl, hid⟩
      · exact (hfacts.later ht).types n id' hn
    · exact Std.TreeMap.mem_insert.2 (.inr hn)
    · rintro n hn
      obtain rfl := Option.some.inj hn
      exact Std.TreeMap.mem_insert_self

/-- **What is recorded at a node is right**, and all its annotations are recorded. -/
theorem recordNode_annotations {c : NodeId} {binders : Binders} {scopes : Scopes}
    (hin : Placed files f root c binders scopes) {hd : Header} {p : Payload Ref}
    (hc : f.arena.content? (some c) = some (hd, p)) {st : State} {facts : Facts}
    (hfacts : TypesFit files f root st facts) :
    Yields (Later (Sources.ofFiles files)) st
      (recordNode (resolveFully strict (Sources.ofFiles files)) (Sources.ofFiles files)
        (Sources.moduleOf files f) scopes facts c p)
      fun st' facts' => TypesFit files f root st' facts' ∧ facts.KeepsTypes facts' ∧
        ∀ n, Annotates f.arena c n → n ∈ facts'.types := by
  have hannotates {n : NodeId} : Annotates f.arena c n ↔ some n ∈ annotations p := by
    constructor
    · rintro ⟨_, _, hc', hn⟩
      obtain ⟨rfl, rfl⟩ := Prod.mk.inj (Option.some.inj (hc'.symm.trans hc))
      exact hn
    · exact fun hn => ⟨hd, p, hc, hn⟩
  have hall {t : State} {facts₁ : Facts} (hfacts₁ : TypesFit files f root t facts₁)
      (hkeeps : facts.KeepsTypes facts₁) : Yields (Later (Sources.ofFiles files)) t
        ((annotations p).foldlM
          (recordType (resolveFully strict (Sources.ofFiles files))
            (Sources.moduleOf files f) scopes) facts₁)
        fun st' facts' => TypesFit files f root st' facts' ∧ facts.KeepsTypes facts' ∧
          ∀ n, Annotates f.arena c n → n ∈ facts'.types := by
    have hfold : Yields (Later (Sources.ofFiles files)) t
        ((annotations p).foldlM
          (recordType (resolveFully strict (Sources.ofFiles files))
            (Sources.moduleOf files f) scopes) facts₁)
        fun st' facts' => TypesFit files f root st' facts' ∧ facts₁.KeepsTypes facts' ∧
          ∀ r ∈ annotations p, ∀ n ∈ r, n ∈ facts'.types :=
      Yields.foldlM hfacts₁ (fun _ _ _ hkeeps hdone n hn => hkeeps n (hdone n hn))
        fun r hr u facts₂ _ hfacts₂ => recordType_annotations strict h hf hin hfacts₂
          fun n hn => hannotates.2 (hn ▸ hr)
    exact hfold.mono fun _ _ _ hpost => ⟨hpost.1, trans_of Facts.KeepsTypes hkeeps hpost.2.1,
      fun n hn => hpost.2.2 _ (hannotates.1 hn) n rfl⟩
  obtain ⟨ds, hat⟩ := hin.stands
  cases p with
  | call callee types arguments =>
    have hsignature : Later (Sources.ofFiles files) st (callSignature (Sources.ofFiles files)
        (Sources.moduleOf files f) scopes callee st).2 :=
      (callSignature_yields strict h hf hat.hold (named_around hat.around) callee
        hfacts.sound.consistent).le.later (Adds.within st)
    have hrun : Yields (Later (Sources.ofFiles files)) st (callSignature (Sources.ofFiles files)
        (Sources.moduleOf files f) scopes callee) fun _ _ => True := ⟨hsignature, trivial⟩
    refine hrun.seq fun t s ht _ => ?_
    have hfacts := hfacts.later ht
    cases s with
    | none => exact hall hfacts (refl facts)
    | some s => exact hall ⟨hfacts.sound, hfacts.types⟩ fun _ hn => hn
  | variableDeclaration _ ascription _ | parameter _ ascription _ =>
    have hone := hall hfacts (refl facts)
    simp only [annotations, List.foldlM_cons, List.foldlM_nil, bind_pure] at hone
    exact hone
  | _ => exact hall hfacts (refl facts)

/-- A file that is walked over comes to know the types of all its annotations. -/
theorem fileFacts_annotations {st : State} (hst : st.Sound (Sources.ofFiles files)) :
    Yields (Later (Sources.ofFiles files)) st
      (fileFacts strict (Sources.ofFiles files) (Sources.moduleOf files f))
      (KnowsTypes files f) := by
  unfold fileFacts rootFacts
  rw [Sources.file_moduleOf]
  cases hroot : f.root with
  | none => exact .pure fun root hroot' => absurd (hroot'.symm.trans hroot) (Option.some_ne_none _)
  | some root =>
    have hempty : TypesFit files f root st .empty :=
      ⟨hst, fun n id hn => absurd hn (by simp [Facts.empty])⟩
    have hin : Placed files f root root (topBinders files f) .file :=
      ⟨⟨[], .here, .nil, Frames.fits_nil f⟩, .here, holds_file files f⟩
    have hlasts (c : Nat) (_ : Binders) (facts facts' : Facts) (hkeeps : facts.KeepsTypes facts')
        (hdone : ∀ n, Annotates f.arena c n → n ∈ facts.types) :
        ∀ n, Annotates f.arena c n → n ∈ facts'.types := fun n hn => hkeeps n (hdone n hn)
    have hwalk := walkTree_visits hlasts
      (fun n c binders scopes hd p (hn : Placed files f root n binders scopes) => hn.step)
      (fun n binders scopes hd p t facts hn hc hfacts =>
        recordNode_annotations strict h hf hn hc hfacts) hin hempty
    refine hwalk.mono fun st' facts _ hpost root' hroot' => ?_
    obtain rfl := Option.some.inj (hroot.symm.trans hroot')
    refine ⟨hpost.1, fun ha c binders n hdown hn => ?_⟩
    obtain ⟨_, _, hc, -⟩ := id hn
    exact hpost.2 ha c binders _ _ hdown hc n hn

end Record

end TypeReify.Check

namespace TypeReify

open Check Syntax Scope
open TypeReify.Types

variable {files : List SourceFile} {f : SourceFile} {root c n : NodeId}

/-- **A recorded type is what its annotation comes to by the binders around it.** -/
theorem typeAt?_lexical (options : CheckOptions) (h : (files.map fileKey).Nodup) (hf : f ∈ files)
    (ha : f.arena.WellFormed) (hroot : f.root = some root) (hone : OneParent f.arena root)
    {binders : Binders} (henclosed : Enclosed files f .unknown root c binders)
    (hn : Annotates f.arena c n) :
    let p := Program.ofFiles options files
    ∃ id, p.oracle.typeAt? f.fileName n = some id ∧
      ComesTo files f .unknown p.state typeDepth binders (some n) id := by
  intro p
  obtain ⟨facts, hfacts, hknows⟩ := facts?_of_fileFacts knowsTypes_lasts h options (fun g hg t ht =>
    fileFacts_annotations options.strictNullChecks h hg (ht.sound (sound_empty _))) hf
  obtain ⟨hfits, hcomplete⟩ := hknows root hroot
  have hmem : n ∈ facts.types := hcomplete ha c binders n henclosed hn
  have hid : facts.types[n]? = some facts.types[n] := Std.TreeMap.getElem?_eq_some_getElem hmem
  refine ⟨facts.types[n], ?_, ?_⟩
  · show (p.facts? f.fileName).bind (·.types[n]?) = _
    rw [hfacts]
    exact hid
  · obtain ⟨c', binders', henclosed', hn', hsettled⟩ := hfits.types n _ hid
    -- The node has one parent, and there is one way down to it.
    obtain rfl : c' = c := hone c' c n henclosed'.reaches henclosed.reaches hn'.child hn.child
    obtain rfl := henclosed'.unique ha hone henclosed
    exact hsettled.comes p.state (refl _)

/-- `interface I<T> { m(p: T): void; }` and `function f<T>(q: T): void { }` -/
def genericFile : SourceFile :=
  let parameter (name : String) : Build NodeId := do
    let name ← Build.identifier name
    Build.parameter name (← Draft.typeNamed "T" []) none
  let act : Drafting Unit := do
    let _ ← Draft.statement do
      let type ← Draft.typeParameter "T"
      let p ← parameter "p"
      let member ← Build.methodSignature (← Build.identifier "m") [some p]
        (← Build.token .voidKeyword)
      Build.interfaceDeclaration (← Build.identifier "I") (some [some type]) none [some member]
    let _ ← Draft.statement do
      let type ← Draft.typeParameter "T"
      let q ← parameter "q"
      let result ← Build.token .voidKeyword
      let body ← Build.block []
      Build.functionDeclaration (← Build.identifier "f") (some [some type]) [some q] result body
  (act .empty).2.finish "/app/main.ts"

/-- What binds type names at a parameter of `genericFile`. -/
def genericBinders : Binders := [("T", .parameter), ("I", .declared (.interface 10 []))]

/-- The parameter `q` stands inside the type parameter of `f`. -/
theorem enclosed_function :
    Enclosed [genericFile] genericFile .unknown 21 16 genericBinders := by
  have hbinders : genericBinders = bindersInside genericFile.arena .unknown
      (topBinders [genericFile] genericFile)
      (.function (some 19) (some [some 12]) [some 16] (some 17) (some 18)) := by decide +kernel
  rw [hbinders]
  exact .down (h := .fresh (.form .sourceFile) (some 0))
      (p := .sourceFile "/app/main.ts" [some 10, some 20]) (by decide +kernel)
      (by decide : some 20 ∈ _) <|
    .down (h := .fresh (.form .functionDeclaration) (some 0))
      (p := .function (some 19) (some [some 12]) [some 16] (some 17) (some 18))
      (by decide +kernel) (by decide : some 16 ∈ _) .here

theorem typeAt?_lexical_genericFile :
    let p := Program.ofFiles .default [genericFile]
    ∃ id, p.oracle.typeAt? "/app/main.ts" 15 = some id ∧
      ComesTo [genericFile] genericFile .unknown p.state typeDepth genericBinders (some 15) id :=
  have hparameter : genericFile.arena.content? (some 16) =
      some (.fresh (.form .parameter) (some 1), .parameter (some 13) (some 15) none) := by
        decide +kernel
  have hkeys : ([genericFile].map fileKey).Nodup := List.nodup_singleton _
  typeAt?_lexical .default hkeys (List.mem_singleton_self _) (by decide +kernel) (by decide +kernel)
    (oneParent_of_forall (by decide +kernel)) enclosed_function
    ⟨_, _, hparameter, List.mem_singleton_self _⟩

/-- By the rules the parameter `p` stands inside the type parameter of `I`. Its type is recorded as
`any`, to which no type parameter comes. -/
theorem typeAt?_method :
    let p := Program.ofFiles .default [genericFile]
    (genericFile.arena.WellFormed ∧ OneParent genericFile.arena 21 ∧ genericFile.root = some 21) ∧
    Enclosed [genericFile] genericFile .parameter 21 5 genericBinders ∧
    Annotates genericFile.arena 5 4 ∧ p.oracle.typeAt? "/app/main.ts" 4 = some TypeId.any ∧
    ¬ ComesTo [genericFile] genericFile .parameter p.state typeDepth genericBinders (some 4)
      TypeId.any := by
  intro p
  have hbinders : genericBinders = bindersInside genericFile.arena .parameter
      (bindersInside genericFile.arena .parameter (topBinders [genericFile] genericFile)
        (.interface (some 9) (some [some 1]) none [some 8]))
      (.signature (some 6) none (some [some 5]) (some 7)) := by decide +kernel
  have hparameter : genericFile.arena.content? (some 5) =
      some (.fresh (.form .parameter) (some 0), .parameter (some 2) (some 4) none) := by
        decide +kernel
  refine ⟨⟨by decide +kernel, oneParent_of_forall (by decide +kernel), by decide +kernel⟩, ?_,
    ⟨_, _, hparameter, List.mem_singleton_self _⟩, by decide +kernel, fun hcomes => ?_⟩
  · rw [hbinders]
    exact .down (h := .fresh (.form .sourceFile) (some 0))
        (p := .sourceFile "/app/main.ts" [some 10, some 20]) (by decide +kernel)
        (by decide : some 10 ∈ _) <|
      .down (h := .fresh (.form .interfaceDeclaration) (some 0))
        (p := .interface (some 9) (some [some 1]) none [some 8])
        (by decide +kernel) (by decide : some 8 ∈ _) <|
      .down (h := .fresh (.form .methodSignature) (some 0))
        (p := .signature (some 6) none (some [some 5]) (some 7))
        (by decide +kernel) (by decide : some 5 ∈ _) .here
  · have hreference : genericFile.arena.content? (some 4) =
        some (.fresh (.form .typeReference) (some 0), .typeReference (some 3) none) := by
          decide +kernel
    have hname : genericFile.arena.identifierText? (some 3) = some "T" := by decide +kernel
    have hcomes' : ComesTo [genericFile] genericFile .parameter p.state
      (63 + 1) genericBinders (some 4)
        TypeId.any := hcomes
    obtain ⟨ids, -, hdenotes⟩ := (comesTo_reference_iff hreference hname).1 hcomes'
    have hlookup : some (Structure.intrinsic "any") = some (.parameter "T") := hdenotes
    cases hlookup

end TypeReify
