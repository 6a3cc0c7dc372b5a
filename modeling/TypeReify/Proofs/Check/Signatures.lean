import TypeReify.Proofs.Check.Resolve
import TypeReify.Proofs.Check.Walk

/-!
# Recorded signatures

The walk over a file records for every call the site of the function it calls. It goes to each node
with the scopes that are around it, so what it records can be told from the files: a call has a
signature just if it calls a function, and then the site of that function.

This is about `signatures`, which `walk_node` fills with what `resolve_call` answers.

Results:
* `recordNode_yields`: at a call the function it calls is recorded.
* `fileFacts_yields`: the facts of a file know all its calls.
* `facts?_ofFiles`: the facts a program keeps for a file know its calls.
* `works_ofFiles`: checking files is work.
-/

namespace TypeReify.Check

open Syntax Scope
open TypeReify.Types

variable {files : List SourceFile} {f : SourceFile} {root : NodeId}

/-- The node is a call, and calls the function at `first` in `g`, where `ds` is declared around it.
-/
def CallsAt (files : List SourceFile) (f : SourceFile) (ds : List Declarations) (node : NodeId)
    (g : SourceFile) (first : NodeId) : Prop :=
  ∃ h callee types arguments,
    f.arena.content? (some node) = some (h, .call callee types arguments) ∧
      CallsFunction files f ds (calleeOf f.arena f.arena.levels callee) g first

/-- The site of a function. -/
def functionSite (g : SourceFile) (name : String) (first : NodeId) : Site :=
  ⟨fileKey g, ⟨.function, some name, g.fileName, first⟩⟩

/-- A recorded signature names the site of the function that the call calls. -/
def SignatureFits (files : List SourceFile) (f : SourceFile) (root : NodeId) (st : State)
    (node : NodeId) (s : Signature) : Prop :=
  ∃ ds g first name d, Around f.arena root node ds ∧ CallsAt files f ds node g first ∧
    DeclaresFunction g.arena name first ∧ s = ⟨some d⟩ ∧
      st.sites[d]? = some (functionSite g name first)

/-- Whatever is recorded so far is right. -/
structure FactsFit (files : List SourceFile) (f : SourceFile) (root : NodeId) (st : State)
    (facts : Facts) : Prop where
  consistent : st.Consistent (Sources.ofFiles files)
  signatures : ∀ (node : Nat) (s : Signature), facts.signatures[node]? = some s →
    SignatureFits files f root st node s

/-- No call is forgotten. -/
def Facts.Keeps (facts facts' : Facts) : Prop :=
  ∀ node, node ∈ facts.signatures → node ∈ facts'.signatures

instance : IsPreorder Facts Facts.Keeps where
  refl _ _ h := h
  trans _ _ _ h h' node hn := h' node (h node hn)

/-- The scopes are those around the node. -/
structure At (f : SourceFile) (root node : NodeId) (scopes : Scopes) (ds : List Declarations) :
    Prop where
  around : Around f.arena root node ds
  hold : scopes.Hold ds
  types : scopes.types.Fits f

theorem SignatureFits.mono {st st' : State} {node : NodeId} {s : Signature}
    (h : SignatureFits files f root st node s) (hst : st.Grows st') :
    SignatureFits files f root st' node s := by
  obtain ⟨ds, g, first, name, d, haround, hcalls, hdeclares, hs, hd⟩ := h
  exact ⟨ds, g, first, name, d, haround, hcalls, hdeclares, hs, hst.sites d _ hd⟩

theorem FactsFit.mono {strict : Bool} {st st' : State} {facts : Facts}
    (h : FactsFit files f root st facts) (hst : Works strict (Sources.ofFiles files) st st') :
    FactsFit files f root st' facts :=
  ⟨hst.consistent h.consistent, fun node s hs => (h.signatures node s hs).mono hst.grows⟩

theorem At.step {node c : NodeId} {scopes : Scopes} {ds : List Declarations} {h : Header}
    {p : Payload Ref} (hat : At f root node scopes ds)
    (hn : f.arena.content? (some node) = some (h, p)) (hc : some c ∈ p.children) :
    At f root c (scopes.inside f.arena p) (declaredInside f.arena ds p) := by
  refine ⟨hat.around.step hn hc, Scopes.hold_inside f.arena scopes ds p hat.hold, ?_⟩
  cases p with
  | function _ types parameters _ _ => exact List.forall_mem_cons.2 ⟨fits_empty f, hat.types⟩
  | block statements => exact List.forall_mem_cons.2 ⟨fits_bindBlock hn, hat.types⟩
  | _ => exact hat.types

/-! ## One node -/

section Record

variable (strict : Bool) (h : (files.map fileKey).Nodup) (hf : f ∈ files)
include h hf

/-- What a call is given: the site of the function that it calls, or no signature where it calls
none. -/
def Given (files : List SourceFile) (f : SourceFile) (ds : List Declarations) (callee : Ref)
    (st : State) : Option Signature → Prop
  | none => ∀ g first, ¬CallsFunction files f ds callee g first
  | some s => ∃ g first name d, CallsFunction files f ds callee g first ∧
    DeclaresFunction g.arena name first ∧ s = ⟨some d⟩ ∧
      st.sites[d]? = some (functionSite g name first)

theorem callSignature_yields {scopes : Scopes} {ds : List Declarations}
    (hold : scopes.Hold ds) (hds : ∀ d ∈ ds, Declarations.Named f.arena d) (callee : Ref)
    {st : State} (hst : st.Consistent (Sources.ofFiles files)) :
    Yields (Works strict (Sources.ofFiles files)) st
      (callSignature (Sources.ofFiles files) (Sources.moduleOf files f) scopes callee)
      fun st' => Given files f ds (calleeOf f.arena f.arena.levels callee) st' := by
  have hiff := @calledFunction?_iff files h f scopes ds hold callee
  unfold callSignature
  cases hcalled : calledFunction? (Sources.ofFiles files)
    (Sources.moduleOf files f) scopes callee with
  | none =>
    refine .pure fun g first hcalls => ?_
    have hsome := hiff.2 ⟨g, rfl, hcalls⟩
    rw [hcalled] at hsome
    cases hsome
  | some target =>
    obtain ⟨t, first⟩ := target
    obtain ⟨g, rfl, hcalls⟩ := hiff.1 hcalled
    obtain ⟨hg, name, hdeclares⟩ := hcalls.declares hds hf
    obtain ⟨hd, n, types, parameters, result, body, hc, hname⟩ := hdeclares
    have hfunction : (Sources.moduleOf files g).functionName? first = some name := by
      rw [Module.functionName?, Sources.file_moduleOf, hc]
      exact hname
    have hsite : (Sources.moduleOf files g).Declares .function (some name) first := by
      rw [Module.Declares, Sources.file_moduleOf, hc]
      exact ⟨rfl, hname.symm⟩
    have hmem := Sources.moduleOf_mem h hg
    dsimp only
    rw [hfunction]
    exact ⟨.declare hmem hsite, g, first, name, _, hcalls,
      ⟨hd, n, types, parameters, result, body, hc, hname⟩, rfl,
      site_declare (Sources.keys_nodup files) hmem hsite hst⟩

/-- The type of a node leaves the signatures alone. -/
theorem recordType_yields {scopes : Scopes} (htypes : scopes.types.Fits f) {st : State}
    {facts : Facts} (hfacts : FactsFit files f root st facts) (r : Ref) :
    Yields (Works strict (Sources.ofFiles files)) st
      (recordType (resolveFully strict (Sources.ofFiles files))
        (Sources.moduleOf files f) scopes facts r)
      fun st' facts' => FactsFit files f root st' facts' ∧ facts.Keeps facts' := by
  cases r with
  | none => exact .pure ⟨hfacts, refl facts⟩
  | some node =>
    have hrun : Works strict (Sources.ofFiles files) st
        (resolveType strict (Sources.ofFiles files) typeDepth heritageDepth
          (Sources.moduleOf files f) (.ofFrames scopes.types) (some node) st).2 :=
      (resolveType_works (Sources.proper_ofFiles files) (Nat.le_refl _) heritageDepth _
        (Sources.moduleOf_mem h hf) _ st hfacts.consistent (Surroundings.fits_ofFrames htypes st)
        (some node)).le
    have hmono := hfacts.mono hrun
    exact ⟨hrun, ⟨hmono.consistent, hmono.signatures⟩, fun _ hn => hn⟩

theorem recordTypes_yields {scopes : Scopes} (htypes : scopes.types.Fits f) {st : State}
    {facts : Facts} (hfacts : FactsFit files f root st facts) (rs : List Ref) :
    Yields (Works strict (Sources.ofFiles files)) st
      (rs.foldlM (recordType (resolveFully strict (Sources.ofFiles files))
        (Sources.moduleOf files f) scopes) facts)
      fun st' facts' => FactsFit files f root st' facts' ∧ facts.Keeps facts' := by
  have hfold : Yields (Works strict (Sources.ofFiles files)) st
      (rs.foldlM (recordType (resolveFully strict (Sources.ofFiles files))
        (Sources.moduleOf files f) scopes) facts)
      fun st' facts' => FactsFit files f root st' facts' ∧ facts.Keeps facts' ∧ ∀ r ∈ rs, True :=
    Yields.foldlM hfacts (fun _ _ _ _ _ => trivial) fun r _ t facts _ hfacts =>
      (recordType_yields strict h hf htypes hfacts r).mono fun _ _ _ h => ⟨h.1, h.2, trivial⟩
  exact hfold.mono fun _ _ _ h => ⟨h.1, h.2.1⟩

/-- What is recorded at a node is right, and a call of a function is recorded. -/
theorem recordNode_yields {node : NodeId} {scopes : Scopes} {ds : List Declarations}
    (hat : At f root node scopes ds) {hd : Header} {p : Payload Ref}
    (hc : f.arena.content? (some node) = some (hd, p)) {st : State} {facts : Facts}
    (hfacts : FactsFit files f root st facts) :
    Yields (Works strict (Sources.ofFiles files)) st
      (recordNode (resolveFully strict (Sources.ofFiles files)) (Sources.ofFiles files)
        (Sources.moduleOf files f) scopes facts node p)
      fun st' facts' => FactsFit files f root st' facts' ∧ facts.Keeps facts' ∧
        ∀ g first, CallsAt files f ds node g first → node ∈ facts'.signatures := by
  have hother (hp : ∀ callee types arguments, p ≠ .call callee types arguments) (facts' : Facts) :
      ∀ g first, CallsAt files f ds node g first → node ∈ facts'.signatures := by
    rintro g first ⟨_, _, _, _, hc', -⟩
    rw [hc] at hc'
    exact absurd (Prod.mk.inj (Option.some.inj hc')).2 (hp _ _ _)
  cases p with
  | call callee types arguments =>
    have hsig :=
      callSignature_yields strict h hf hat.hold (named_around hat.around) callee hfacts.consistent
    refine hsig.seq fun t s ht hs => ?_
    have hfacts := hfacts.mono ht
    cases s with
    | none =>
      refine (recordTypes_yields strict h hf hat.types hfacts _).mono fun _ _ _ hrest => ?_
      refine ⟨hrest.1, hrest.2, ?_⟩
      rintro g first ⟨_, _, _, _, hc', hcalls⟩
      rw [hc] at hc'
      obtain ⟨rfl, -, -⟩ := Payload.call.inj (Prod.mk.inj (Option.some.inj hc')).2
      exact absurd hcalls (hs g first)
    | some s =>
      obtain ⟨g, first, name, d, hcalls, hdeclares, hsite⟩ := hs
      have hfits : SignatureFits files f root t node s :=
        ⟨ds, g, first, name, d, hat.around, ⟨hd, callee, types, arguments, hc, hcalls⟩, hdeclares,
          hsite⟩
      have hadded : FactsFit files f root t
          { facts with signatures := facts.signatures.insert node s } := by
        refine ⟨hfacts.consistent, fun node' s' hs' => ?_⟩
        rw [Std.TreeMap.getElem?_insert] at hs'
        split at hs'
        · rename_i heq
          obtain rfl := Option.some.inj hs'
          rwa [← Std.LawfulEqCmp.eq_of_compare heq]
        · exact hfacts.signatures node' s' hs'
      refine (recordTypes_yields strict h hf hat.types hadded _).mono fun _ _ _ hrest => ?_
      refine ⟨hrest.1, fun n hn => hrest.2 n ?_, fun _ _ _ => hrest.2 node ?_⟩
      · exact Std.TreeMap.mem_insert.2 (.inr hn)
      · exact Std.TreeMap.mem_insert_self
  | variableDeclaration _ ascription _ | parameter _ ascription _ =>
    exact (recordType_yields strict h hf hat.types hfacts ascription).mono
      fun _ _ _ h => ⟨h.1, h.2, hother nofun _⟩
  | _ => exact .pure ⟨hfacts, fun _ hn => hn, hother nofun _⟩

end Record

/-! ## Files and programs -/

/-- The facts of the file know its calls, and nothing else of them. -/
structure Knows (files : List SourceFile) (f : SourceFile) (st : State) (facts : Facts) : Prop where
  sound : ∀ (node : Nat) (s : Signature), facts.signatures[node]? = some s →
    ∃ root, f.root = some root ∧ SignatureFits files f root st node s
  complete : f.arena.WellFormed → ∀ root node ds g first, f.root = some root →
    Around f.arena root node ds → CallsAt files f ds node g first → node ∈ facts.signatures

theorem Knows.mono {st st' : State} {facts : Facts} (h : Knows files f st facts)
    (hst : st.Grows st') : Knows files f st' facts := by
  refine ⟨fun node s hs => ?_, h.complete⟩
  obtain ⟨root, hroot, hfits⟩ := h.sound node s hs
  exact ⟨root, hroot, hfits.mono hst⟩

section Program

variable (strict : Bool) (h : (files.map fileKey).Nodup)
include h

/-- **The facts of a file know all its calls.** -/
theorem fileFacts_yields (hf : f ∈ files) {st : State}
    (hst : st.Consistent (Sources.ofFiles files)) :
    Yields (Works strict (Sources.ofFiles files)) st
      (fileFacts strict (Sources.ofFiles files) (Sources.moduleOf files f)) fun st' facts =>
        st'.Consistent (Sources.ofFiles files) ∧ Knows files f st' facts := by
  unfold fileFacts rootFacts
  rw [Sources.file_moduleOf]
  cases hroot : f.root with
  | none =>
    refine .pure ⟨hst, fun node s hs => absurd hs (by simp [Facts.empty]), ?_⟩
    intro _ root _ _ _ _ hroot'
    exact absurd (hroot'.symm.trans hroot) (Option.some_ne_none _)
  | some root =>
    have hempty : FactsFit files f root st .empty :=
      ⟨hst, fun node s hs => absurd hs (by simp [Facts.empty])⟩
    have hat : At f root root .file [] := ⟨.here, .nil, Frames.fits_nil f⟩
    have hlasts (n : Nat) (ds : List Declarations) (facts facts' : Facts)
      (hkeeps : facts.Keeps facts')
        (hdone : ∀ g first, CallsAt files f ds n g first → n ∈ facts.signatures) :
        ∀ g first, CallsAt files f ds n g first → n ∈ facts'.signatures :=
      fun g first hcalls => hkeeps n (hdone g first hcalls)
    have hwalk := walkTree_visits hlasts
      (fun n c ds scopes hd p (hn : At f root n scopes ds) => hn.step)
      (fun n ds scopes hd p t facts hn hc hfacts => recordNode_yields strict h hf hn hc hfacts)
      hat hempty
    refine hwalk.mono fun st' facts _ hpost => ⟨hpost.1.consistent, fun node s hs => ?_, ?_⟩
    · exact ⟨root, hroot, hpost.1.signatures node s hs⟩
    · intro ha root' node ds g first hroot' haround hcalls
      obtain rfl := Option.some.inj (hroot.symm.trans hroot')
      obtain ⟨_, _, _, _, hc, -⟩ := id hcalls
      exact hpost.2 ha node ds _ _ haround hc g first hcalls

omit h in
theorem knows_lasts (g : SourceFile) (t u : State) (facts : Facts)
    (htu : Works strict (Sources.ofFiles files) t u) (hknows : Knows files g t facts) :
    Knows files g u facts :=
  hknows.mono htu.grows

/-- So it does in the course of checking all files. -/
theorem fileFacts_works (g : SourceFile) (hg : g ∈ files) (t : State)
    (ht : Works strict (Sources.ofFiles files) .empty t) :
    Yields (Works strict (Sources.ofFiles files)) t
      (fileFacts strict (Sources.ofFiles files) (Sources.moduleOf files g)) (Knows files g) :=
  (fileFacts_yields strict h hg (ht.consistent (consistent_empty _))).mono
    fun _ _ _ hpost => hpost.2

/-- The facts a program keeps for a file know its calls. -/
theorem facts?_ofFiles (options : CheckOptions) (hf : f ∈ files) :
    ∃ facts, (Program.ofFiles options files).facts? f.fileName = some facts ∧
      Knows files f (Program.ofFiles options files).state facts :=
  facts?_of_fileFacts (knows_lasts options.strictNullChecks) h options
    (fileFacts_works options.strictNullChecks h) hf

end Program

/-- **Checking files is work**, whatever files they are. -/
theorem works_ofFiles (options : CheckOptions) (files : List SourceFile) :
    Works options.strictNullChecks (Sources.ofFiles files) .empty
      (Program.ofFiles options files).state := by
  obtain ⟨kept, hkept, hsame⟩ := Sources.exists_distinct files
  have hrun := (checkFiles_ofFiles (knows_lasts options.strictNullChecks) hkept
    (fileFacts_works options.strictNullChecks hkept)).le
  rw [hsame] at hrun
  exact hrun

end TypeReify.Check
