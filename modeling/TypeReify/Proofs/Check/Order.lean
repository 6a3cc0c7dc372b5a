import TypeReify.Proofs.Check.Again
import TypeReify.Proofs.Check.Optional
import Mathlib.Data.List.Perm.Basic

/-!
# The order in which files are checked

A program finds its modules by their keys, so what a name means does not depend on the order of the
files. The tables do: every file is checked with what the files before it have left in them. Files
that come first therefore leave the same tables, whatever the order of the others
(`Program.ofFirst`), and as tables only grow, what is answered about them in the end is what could
be answered then.

`CheckerState::new` lists the files in `file_order`, and `check` goes through that list with one set
of tables. Names are looked up in `sources` and `file_scopes`, by key.

Results:
* `Sources.find?_perm`: whatever the order, the same module stands under a key.
* `resolveType_congr`, `fileFacts_congr`: what is worked out depends on the modules by their keys.
* `Program.ofFirst_perm`: the first files are checked alike, whatever the order of the others.
* `Program.precedes_ofFiles`: what is known of a type or a declaration then is known in the end.
* `Program.signature?_first`, `Program.typeAt?_first`: the facts of the first files in the end.

Out of scope: files with the same key, of which the last one counts.
-/

namespace TypeReify

open Check Scope Syntax
open TypeReify.Types

namespace Check

/-! ## Files in another order -/

namespace Sources

section Perm

variable {files files' : List SourceFile} (hperm : files'.Perm files)
  (h : (files.map fileKey).Nodup)
include h

/-- Of files with different keys, each stands under its own. -/
theorem fileAt?_eq_some_iff {key : String} {g : SourceFile} :
    fileAt? files key = some g ↔ g ∈ files ∧ fileKey g = key := by
  refine ⟨fun hg => ⟨List.mem_of_find?_eq_some hg, ?_⟩, fun ⟨hg, hkey⟩ => ?_⟩
  · have hkey := List.find?_some hg
    exact beq_iff_eq.1 hkey
  · obtain ⟨g', hg'⟩ : ∃ g', fileAt? files key = some g' :=
      Option.isSome_iff_exists.1 (List.find?_isSome.2 ⟨g, hg, beq_iff_eq.2 hkey⟩)
    have hkey' := List.find?_some hg'
    have heq := List.inj_on_of_nodup_map h (List.mem_of_find?_eq_some hg') hg
      ((beq_iff_eq.1 hkey').trans hkey.symm)
    exact heq ▸ hg'

include hperm

theorem keys_perm : (files'.map fileKey).Nodup := (hperm.map fileKey).nodup_iff.2 h

/-- Whatever the order, the same file stands under a key. -/
theorem fileAt?_perm : fileAt? files' = fileAt? files := by
  funext key
  refine Option.ext fun g => ?_
  rw [fileAt?_eq_some_iff h, fileAt?_eq_some_iff (keys_perm hperm h), hperm.mem_iff]

/-- So each file is bound alike, -/
theorem moduleOf_perm : moduleOf files' = moduleOf files := by
  funext f
  unfold moduleOf importedKey?
  rw [fileAt?_perm hperm h]

/-- and the same module stands under a key. -/
theorem find?_perm : (ofFiles files').find? = (ofFiles files).find? := by
  funext key
  rw [find?_ofFiles h, find?_ofFiles (keys_perm hperm h), fileAt?_perm hperm h,
    moduleOf_perm hperm h]

end Perm

end Sources

/-! ## Modules by their keys -/

section Congr

variable {sources sources' : Sources} (h : sources'.find? = sources.find?)
include h

theorem followType_congr : sources'.followType = sources.followType := by
  funext hops
  induction hops with
  | zero =>
    funext m name symbol
    cases symbol <;> rfl
  | succ hops ih =>
    funext m name symbol
    cases symbol with
    | imported module exported => simp only [Sources.followType, h, ih]
    | interface _ _ | typeAlias _ => rfl

theorem followValue_congr : sources'.followValue = sources.followValue := by
  funext hops
  induction hops with
  | zero =>
    funext m value
    cases value <;> rfl
  | succ hops ih =>
    funext m value
    cases value with
    | imported module exported => simp only [Sources.followValue, h, ih]
    | _ => rfl

/-- What a node denotes depends on the modules that the names in it are imported from. -/
theorem resolveType_congr (strict : Bool) (levels heritage : Nat) :
    resolveType strict sources' levels heritage = resolveType strict sources levels heritage := by
  induction levels generalizing heritage with
  | zero => rfl
  | succ levels ih =>
    have hbases : resolveBases strict sources' levels heritage =
        resolveBases strict sources levels heritage := by
      cases heritage with
      | zero => rfl
      | succ more => exact congrArg some (ih more)
    rw [resolveType_succ, resolveType_succ, ih, hbases]
    funext m s r
    unfold nodeType referenceType declaredType
    simp only [followType_congr h]

theorem callSignature_congr : callSignature sources' = callSignature sources := by
  funext m scopes callee
  unfold callSignature calledFunction? functionBehind? Sources.exportedValue?
  simp only [followValue_congr h, h]

theorem walkFile_congr (strict : Bool) (m : Module) (levels : Nat) :
    walkFile strict sources' m levels = walkFile strict sources m levels := by
  induction levels with
  | zero => rfl
  | succ levels ih =>
    funext scopes facts node
    unfold walkFile walkNode recordNode
    simp only [resolveFully, resolveType_congr h, callSignature_congr h, ih]

/-- So does what is recorded of a file. -/
theorem fileFacts_congr (strict : Bool) :
    fileFacts strict sources' = fileFacts strict sources := by
  funext m
  unfold fileFacts
  rw [show walkFile strict sources' m = walkFile strict sources m from
    funext (walkFile_congr h strict m)]

end Congr

/-- Modules are checked one after the other. -/
theorem factsOf_append (facts : Module → Checking Facts) (ms ms' : List Module) (st : State) :
    factsOf facts (ms ++ ms') st =
      let first := factsOf facts ms st
      let rest := factsOf facts ms' first.2
      (first.1 ++ rest.1, rest.2) := by
  induction ms generalizing st with
  | nil => rfl
  | cons m ms ih =>
    have hcons (ms : List Module) : factsOf facts (m :: ms) st =
        let own := facts m st
        let rest := factsOf facts ms own.2
        ((m.key, own.1) :: rest.1, rest.2) := rfl
    simp only [List.cons_append, hcons, ih]

end Check

namespace Program

/-! ## What stays the same -/

/-- The second program is what the first one has become by checking further files. -/
structure Precedes (sources : Sources) (q p : Program) : Prop where
  options : p.options = q.options
  later : Later sources q.state p.state
  within : q.state.Within p.state
  sound : q.state.Sound sources
  left : q.state.Alike q.options.strictNullChecks q.state
  right : p.state.Alike q.options.strictNullChecks p.state

namespace Precedes

variable {sources : Sources} {q p : Program} (h : q.Precedes sources p) {id : Nat}
include h

theorem propertiesOf (hid : q.state.Knows id) :
    p.oracle.properties id = q.oracle.properties id :=
  propertiesOf_later h.sound h.later hid

theorem typeText (hid : q.state.Knows id) : p.oracle.typeText id = q.oracle.typeText id :=
  ((Interner.Same.of_grows h.sound.consistent.closed h.later.grows.interner hid).render _).symm

theorem declaration? {d : DeclId} (hd : d < q.state.sites.size) :
    p.oracle.declaration? d = q.oracle.declaration? d := by
  have hsite := Array.getElem?_eq_getElem hd
  have hsite' := h.later.grows.sites d _ hsite
  simp only [oracle, hsite, hsite']

/-- What a property reads as is known, and stays the same. -/
theorem propertyType {x : Property} (hx : x ∈ q.oracle.properties id) (d : DeclId) :
    p.oracle.propertyType x d = q.oracle.propertyType x d ∧
      q.state.Knows (q.oracle.propertyType x d) := by
  have hknows : q.state.Knows x.type :=
    h.sound.consistent.knows_propertiesOf typeDepth id x hx
  show (if x.optional && p.options.strictNullChecks then _ else _) =
      (if x.optional && q.options.strictNullChecks then _ else _) ∧
    q.state.Knows (if x.optional && q.options.strictNullChecks then _ else _)
  rw [h.options]
  split
  · rename_i hstrict
    obtain ⟨ho, hstrict⟩ := Bool.and_eq_true_iff.1 hstrict
    have hmem := (h.left.recorded id x hx).widened hstrict ho
    obtain ⟨wide, hwide⟩ : ∃ wide, q.state.widened[x.type]? = some wide :=
      ⟨_, Std.TreeMap.getElem?_eq_some_getElem hmem⟩
    obtain ⟨wide', hwide'⟩ : ∃ wide, p.state.widened[x.type]? = some wide :=
      ⟨_, Std.TreeMap.getElem?_eq_some_getElem (h.within.widened _ hmem)⟩
    -- Both are the union with `undefined`, which is formed once.
    obtain ⟨-, hunion⟩ := h.left.widened x.type wide hwide
    obtain ⟨-, hunion'⟩ := h.right.widened x.type wide' hwide'
    have hagain := union_later h.sound (State.knows_pair hknows) hunion h.later
    have hsame : wide' = wide := congrArg Prod.fst (hunion'.symm.trans hagain)
    rw [hwide, hwide', hsame]
    refine ⟨rfl, ?_⟩
    have hwide := Interner.known_union h.sound.consistent.closed (State.knows_pair hknows)
    rwa [hunion] at hwide
  · exact ⟨rfl, hknows⟩

end Precedes

/-! ## The first files -/

/-- What is known when the first files of a program are checked. -/
def ofFirst (options : CheckOptions) (files first : List SourceFile) : Program :=
  let (facts, state) := checkFiles options.strictNullChecks (Sources.ofFiles files)
    (first.map (Sources.moduleOf files)) .empty
  { options, state, files := facts }

/-- **The first files are checked alike**, whatever the order of the others. -/
theorem ofFirst_perm (options : CheckOptions) {files files' : List SourceFile}
    (hperm : files'.Perm files) (h : (files.map fileKey).Nodup) (first : List SourceFile) :
    ofFirst options files' first = ofFirst options files first := by
  unfold ofFirst checkFiles
  rw [Sources.moduleOf_perm hperm h, fileFacts_congr (Sources.find?_perm hperm h)]

section First

variable (options : CheckOptions) {before after : List SourceFile}
  (h : ((before ++ after).map fileKey).Nodup)
include h

theorem ofFiles_append : ofFiles options (before ++ after) =
    let files := before ++ after
    let first := ofFirst options files before
    let rest := checkFiles options.strictNullChecks (Sources.ofFiles files)
      (after.map (Sources.moduleOf files)) first.state
    { options, state := rest.2, files := first.files ++ rest.1 } := by
  unfold ofFiles ofFirst checkFiles
  dsimp only
  rw [Sources.modules_ofFiles h, List.map_append, factsOf_append]
  rfl

/-- The run over the first files is work, and knows the calls in them. -/
theorem checkFiles_first_yields :
    Yields (Works options.strictNullChecks (Sources.ofFiles (before ++ after))) .empty
      (checkFiles options.strictNullChecks (Sources.ofFiles (before ++ after))
        (before.map (Sources.moduleOf (before ++ after))))
      fun st out => List.Forall₂ (fun g x => x.1 = fileKey g ∧ Knows (before ++ after) g st x.2)
        before out :=
  checkFiles_forall₂ (knows_lasts options.strictNullChecks) fun g hg =>
    fileFacts_works options.strictNullChecks h g (List.mem_append_left after hg)

omit h in
/-- It is alike to itself. -/
theorem checkFiles_first_parallel :
    let run := checkFiles options.strictNullChecks (Sources.ofFiles (before ++ after))
      (before.map (Sources.moduleOf (before ++ after)))
    Parallel options.strictNullChecks .empty .empty run run fun t t' =>
      List.Forall₂ fun x x' => x'.1 = x.1 ∧ SameFacts t t' x.2 x'.2 :=
  checkFiles_parallel (fun h => h) (Sources.ofFiles (before ++ after))
    (alike_empty options.strictNullChecks) (before.map (Sources.moduleOf (before ++ after)))

/-- A program is what the program of its first files has become. -/
theorem precedes_ofFiles : (ofFirst options (before ++ after) before).Precedes
    (Sources.ofFiles (before ++ after)) (ofFiles options (before ++ after)) := by
  have hfirst := (checkFiles_first_yields options h).le
  have hparallel := @checkFiles_first_parallel options before after
  have hrest := (checkFiles_forall₂ (knows_lasts options.strictNullChecks)
    fun g (hg : g ∈ after) t ht =>
      fileFacts_works options.strictNullChecks h g (List.mem_append_right before hg) t
        (trans_of (Works _ _) hfirst ht)).le
  have hwithin := (adds_checkFiles options.strictNullChecks (Sources.ofFiles (before ++ after))
    (after.map (Sources.moduleOf (before ++ after)))).within
      (ofFirst options (before ++ after) before).state
  have hright := (alike_ofFiles (fun h : options.strictNullChecks = true => h)
    (before ++ after)).1
  rw [ofFiles_append options h] at hright ⊢
  exact {
    options := rfl
    later := hrest.later hwithin
    within := hwithin
    sound := (hfirst.later hparallel.left).sound (sound_empty _)
    left := hparallel.alike
    right := hright }

/-- The facts of a file are kept, and what they mention is known. -/
theorem facts?_first {f : SourceFile} (hf : f ∈ before) :
    let q := ofFirst options (before ++ after) before
    ∃ facts, q.facts? f.fileName = some facts ∧
      (ofFiles options (before ++ after)).facts? f.fileName = some facts ∧
        SameFacts q.state q.state facts facts := by
  intro q
  have hkeys : (before.map fileKey).Nodup := by
    rw [List.map_append] at h
    exact h.of_append_left
  obtain ⟨facts, hlookup, -⟩ := lookup_of_forall₂ hkeys (checkFiles_first_yields options h).post hf
  have hfacts : q.files.lookup (fileKey f) = some facts := hlookup
  have hrel : Option.Rel (SameFacts q.state q.state) (q.files.lookup (fileKey f))
      (q.files.lookup (fileKey f)) :=
    rel_lookup (K := fun k k' => k' = k) (fun _ _ hk => by rw [hk])
      (checkFiles_first_parallel options).post
  rw [hfacts] at hrel
  refine ⟨facts, hfacts, ?_, ?_⟩
  · rw [ofFiles_append options h]
    show (q.files ++ _).lookup (fileKey f) = some facts
    rw [List.lookup_append, hfacts, Option.some_or]
  · cases hrel with
    | some hsame => exact hsame

/-- The signatures in the first files, and their declarations. -/
theorem signature?_first {f : SourceFile} (hf : f ∈ before) :
    let p := ofFiles options (before ++ after)
    let q := ofFirst options (before ++ after) before
    p.oracle.signature? f.fileName = q.oracle.signature? f.fileName ∧
      ∀ node s d, q.oracle.signature? f.fileName node = some s → s.declaration = some d →
        p.oracle.declaration? d = q.oracle.declaration? d := by
  intro p q
  obtain ⟨facts, hq, hp, hsame⟩ := facts?_first options h hf
  have hsignature (r : Program) (hr : r.facts? f.fileName = some facts) (node : NodeId) :
      r.oracle.signature? f.fileName node = facts.signatures[node]? := by
    show r.signature? f.fileName node = _
    rw [signature?, hr]
    rfl
  refine ⟨funext fun node => (hsignature p hp node).trans (hsignature q hq node).symm,
    fun node s d hs hd => (precedes_ofFiles options h).declaration? ?_⟩
  rw [hsignature q hq] at hs
  exact hsame.declared node s hs d hd

/-- The types in the first files are known when these are checked. -/
theorem typeAt?_first {f : SourceFile} (hf : f ∈ before) :
    let q := ofFirst options (before ++ after) before
    (ofFiles options (before ++ after)).oracle.typeAt? f.fileName = q.oracle.typeAt? f.fileName ∧
      ∀ node id, q.oracle.typeAt? f.fileName node = some id → q.state.Knows id := by
  intro q
  obtain ⟨facts, hq, hp, hsame⟩ := facts?_first options h hf
  have htype (r : Program) (hr : r.facts? f.fileName = some facts) (node : NodeId) :
      r.oracle.typeAt? f.fileName node = facts.types[node]? := by
    show r.typeAt? f.fileName node = _
    rw [typeAt?, hr]
    rfl
  refine ⟨funext fun node => (htype _ hp node).trans (htype q hq node).symm, fun node id hid => ?_⟩
  rw [htype q hq] at hid
  have hknown := hsame.types node
  rw [hid] at hknown
  cases hknown with
  | some hknown => exact hknown.known

end First

end Program

end TypeReify
