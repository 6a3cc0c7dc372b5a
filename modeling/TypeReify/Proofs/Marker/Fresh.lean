import TypeReify.Proofs.Marker.Again
import TypeReify.Proofs.Marker.Names
import Mathlib.Data.List.Pairwise

/-!
# A fresh program over a rewritten file

A program that is checked anew, with a rewritten file in the place of the old one, could find marker
calls where the first program found none: the imports of the markers are gone, and what they hid
might show. Where no two top-level declarations share a name they hid nothing. Then every call left
calls what it called before, which was no marker.

The second program is `with_options` over the rewritten files, and the second rewrite asks it as its
oracle.

Results:
* `exists_meaning?`: a name that means something in the rewritten file meant the same before.
* `CallsFunction.kept`: a call that was kept calls what it called.
* `transform_fresh`: a rewrite by the fresh program changes nothing.

Out of scope: files of which two declarations share a name; there an import that was erased may have
hidden a function.
-/

namespace TypeReify

open Check Scope Syntax Syntax.Arena

/-! ## Names declared once -/

/-- The name stands for a function. -/
def Scope.Value.isFunction : Value → Bool
  | .function _ _ => true
  | _ => false

/-- **No two declarations in the list share a name,** unless both declare functions: then the later
one is an overload of the earlier. -/
def Scope.Declarations.Distinct (ds : Declarations) : Prop :=
  ds.Pairwise fun d e => d.1 = e.1 → d.2.isFunction = true ∧ e.2.isFunction = true

instance (ds : Declarations) : Decidable ds.Distinct :=
  inferInstanceAs (Decidable (List.Pairwise _ ds))

namespace Reifier

/-- At the top of a file, functions are listed one by one. -/
theorem blank_of_isFunction {a : Arena} {resolve : String → Option String} {statements : List Ref}
    {d : String × Value} (hd : d ∈ declaredByFile a resolve statements)
    (h : d.2.isFunction = true) : d.2.blank = .function 0 [] := by
  obtain ⟨r, -, hr⟩ := List.mem_flatMap.1 hd
  unfold declaredAtTop at hr
  split at hr
  · rcases mem_declaredImport hr with ⟨_, _, hv⟩ | ⟨_, hv⟩
    · rw [hv] at h
      exact absurd h Bool.false_ne_true
    · rw [hv] at h
      exact absurd h Bool.false_ne_true
  · rcases mem_declaredValues hr with ⟨node, hv, -⟩ | ⟨node, hv⟩
    · rw [hv]
      rfl
    · rw [hv] at h
      exact absurd h Bool.false_ne_true

/-- Where names are declared once, every declaration of a name says the same of it. -/
theorem blank_eq_of_distinct {files : List SourceFile} {f : SourceFile}
    (h : (topValues files f).Distinct) {name : String} {v w : Value}
    (hv : (name, v) ∈ topValues files f) (hw : (name, w) ∈ topValues files f) :
    v.blank = w.blank := by
  let Agree (d e : String × Value) : Prop := d.1 = e.1 → d.2.blank = e.2.blank
  have : Std.Symm Agree := ⟨fun d e hde heq => (hde heq.symm).symm⟩
  have hpairs : (topValues files f).Pairwise Agree :=
    h.imp_of_mem fun hd he hfun heq => by
      rw [blank_of_isFunction hd (hfun heq).1, blank_of_isFunction he (hfun heq).2]
  have hagree : Agree (name, v) (name, w) :=
    List.Pairwise.forall_of_forall (fun _ _ _ => rfl) hpairs hv hw
  exact hagree rfl

/-- What is declared in a part of the list is declared alike in the list. -/
theorem exists_lookup_of_sublist {files files' : List SourceFile} {f f' : SourceFile}
    (h : (topValues files f).Distinct)
    (hsub : (topValues files' f').blank.Sublist (topValues files f).blank) {name : String}
    {v' : Value} (hv' : (topValues files' f').lookup name = some v') :
    ∃ v, (topValues files f).lookup name = some v ∧ v.blank = v'.blank := by
  have hmem : (name, v'.blank) ∈ (topValues files f).blank :=
    hsub.subset (List.mem_map.2 ⟨_, mem_of_lookup hv', rfl⟩)
  obtain ⟨⟨name', w⟩, hw, heq⟩ := List.mem_map.1 hmem
  obtain ⟨rfl, hblank⟩ : name' = name ∧ w.blank = v'.blank := Prod.mk.inj heq
  cases hv : (topValues files f).lookup name' with
  | none => exact absurd (List.lookup_eq_none_iff.1 hv _ hw) (by simp)
  | some v => exact ⟨v, rfl, (blank_eq_of_distinct h (mem_of_lookup hv) hw).trans hblank⟩

/-- A name that means something in the smaller scopes means the same in the larger ones. -/
theorem exists_meaning? {scopes scopes' : List Declarations} {top top' : Declarations}
    (hscopes : blankScopes scopes' = blankScopes scopes) {name : String}
    (htop : ∀ v', top'.lookup name = some v' → ∃ v, top.lookup name = some v ∧ v.blank = v'.blank)
    {v' : Value} (hv' : meaning? (scopes' ++ [top']) name = some v') :
    ∃ v, meaning? (scopes ++ [top]) name = some v ∧ v.blank = v'.blank := by
  have hinner : (meaning? scopes' name).map Value.blank = (meaning? scopes name).map
    Value.blank := by
    rw [← meaning?_blankScopes, hscopes, meaning?_blankScopes]
  rw [meaning?, List.findSome?_append] at hv' ⊢
  change (meaning? scopes' name).or _ = _ at hv'
  change ∃ v, (meaning? scopes name).or _ = _ ∧ _
  cases h' : meaning? scopes' name with
  | some w' =>
    rw [h'] at hv' hinner
    obtain ⟨w, hw, hblank⟩ := Option.map_eq_some_iff.1 hinner.symm
    obtain rfl := Option.some.inj hv'
    exact ⟨w, by rw [hw]; rfl, hblank⟩
  | none =>
    rw [h'] at hv' hinner
    have hnone : meaning? scopes name = none := Option.map_eq_none_iff.1 hinner.symm
    rw [hnone]
    simp only [Option.none_or, List.findSome?_cons, List.findSome?_nil] at hv' ⊢
    cases hlookup : top'.lookup name with
    | none =>
      rw [hlookup] at hv'
      exact absurd hv'.symm (Option.some_ne_none _)
    | some w' =>
      rw [hlookup] at hv'
      obtain rfl := Option.some.inj hv'
      obtain ⟨w, hw, hblank⟩ := htop w' hlookup
      exact ⟨w, by rw [hw], hblank⟩

/-! ## One file replaced -/

/-- The file `g'` has the name of `g` and exports what `g` exports. -/
structure SameExports (g g' : SourceFile) : Prop where
  fileName : g'.fileName = g.fileName
  exported : (exportedValues g').blank = (exportedValues g).blank

theorem SameExports.refl (g : SourceFile) : SameExports g g := ⟨rfl, rfl⟩

theorem exists_function_of_blank {v : Value} {first : NodeId}
    (h : v.blank = (Value.function first []).blank) : ∃ first, v = .function first [] := by
  cases v with
  | function first more => exact ⟨first, by rw [(Value.function.inj h).2]⟩
  | _ => cases h

theorem SameExports.exists_function {g g' : SourceFile} (h : SameExports g g') {name : String}
    {first' : NodeId} (hfirst : (exportedValues g').lookup name = some (.function first' [])) :
    ∃ first, (exportedValues g).lookup name = some (.function first []) := by
  have hlookup := congrArg (List.lookup name) h.exported
  rw [lookup_blank, lookup_blank, hfirst] at hlookup
  obtain ⟨v, hv, hblank⟩ := Option.map_eq_some_iff.1 hlookup.symm
  obtain ⟨first, rfl⟩ := exists_function_of_blank hblank
  exact ⟨first, hv⟩

section Replaced

variable (before after : List SourceFile) {f f' : SourceFile} (hkey : fileKey f' = fileKey f)
include hkey

theorem keys_replaced :
    (before ++ f' :: after).map fileKey = (before ++ f :: after).map fileKey := by
  rw [List.map_append, List.map_append, List.map_cons, List.map_cons, hkey]

/-- Under a key stands the same file as before, or the new file in the place of the old. -/
theorem fileAt?_replaced (key : String) :
    Sources.fileAt? (before ++ f' :: after) key = Sources.fileAt? (before ++ f :: after) key ∨
      Sources.fileAt? (before ++ f' :: after) key = some f' ∧
        Sources.fileAt? (before ++ f :: after) key = some f := by
  rw [Sources.fileAt?, Sources.fileAt?, List.find?_append, List.find?_append, List.find?_cons,
    List.find?_cons, hkey]
  cases before.find? (fileKey · == key) with
  | some g => exact .inl rfl
  | none =>
    cases fileKey f == key with
    | true => exact .inr ⟨rfl, rfl⟩
    | false => exact .inl rfl

theorem importedKey?_replaced : Sources.importedKey? (before ++ f' :: after) f' =
    Sources.importedKey? (before ++ f :: after) f := by
  have hfile : (fun key => (Sources.fileAt? (before ++ f' :: after) key).isSome) =
      fun key => (Sources.fileAt? (before ++ f :: after) key).isSome := by
    funext key
    rcases fileAt?_replaced before after hkey key with h | ⟨h', h⟩
    · rw [h]
    · rw [h, h']
      rfl
  funext specifier
  rw [Sources.importedKey?, Sources.importedKey?, hfile, hkey]

omit hkey in
theorem exists_fileAt? (h : SameExports f f') {key : String} {g' : SourceFile}
    (hg' : Sources.fileAt? (before ++ f' :: after) key = some g') :
    ∃ g, Sources.fileAt? (before ++ f :: after) key = some g ∧ SameExports g g' := by
  have hkey : fileKey f' = fileKey f := by rw [fileKey, h.fileName]
  rcases fileAt?_replaced before after hkey key with hsame | ⟨hnew, hold⟩
  · exact ⟨g', hsame ▸ hg', .refl g'⟩
  · obtain rfl := Option.some.inj (hnew.symm.trans hg')
    exact ⟨f, hold, h⟩

end Replaced

/-! ## Calls that were kept -/

section Calls

variable {r : Reifier} {fileName : String} {a b : Arena}

/-- A literal holds elements. -/
theorem pool_of_literal (hb : b.WellFormed) {y : NodeId} {value : Reified} {h : Header}
    {q : Payload Ref} (htree : b.tree (some y) = some value.tree)
    (hq : b.content? (some y) = some (h, q)) : q.pool = .elements := by
  have helements {kind : Kind} {items : List (Option Tree)}
      (heq : Tree.ofHeader h (some (q.map b.tree)) = .synthesized kind (.elements items)) :
      q.pool = .elements := by
    have hpayload := Option.some.inj (Tree.node.inj heq).2.2.2.2
    rw [← Payload.pool_map b.tree q, hpayload]
    rfl
  rw [tree_of_content? hb hq] at htree
  cases value with
  | names _ => exact helements (Option.some.inj htree)
  | members _ => exact helements (Option.some.inj htree)

/-- A callee goes back to one with as many parentheses, unless it is a literal. -/
theorem unwraps_kept (ha : a.WellFormed) (hb : b.WellFormed) {y e' : Ref} (h : Unwraps b y e')
    {hd' : Header} {q : Payload Ref} (hq : b.content? e' = some (hd', q))
    (hpool : q.pool ≠ .elements) {x : Ref} (hy : b.tree y = (r.image fileName a x).slot) :
    ∃ i j, e' = some j ∧ Unwraps a x (some i) ∧ Kept r fileName a b i j := by
  have hkept {y : Ref} {x : Ref} {hd' : Header} {q : Payload Ref}
    (hq : b.content? y = some (hd', q))
      (hpool : q.pool ≠ .elements) (hy : b.tree y = (r.image fileName a x).slot) :
      ∃ i j, y = some j ∧ x = some i ∧ Kept r fileName a b i j := by
    cases y with
    | none => exact absurd hq.symm (Option.some_ne_none _)
    | some j =>
      rcases kept_or_literal ha hb (lt_of_content? hq) hy.symm with
        ⟨i, hx, -, hkept⟩ | ⟨value, hvalue⟩
      · exact ⟨i, j, rfl, hx, hkept⟩
      · exact absurd (pool_of_literal hb hvalue hq) hpool
  induction h generalizing x with
  | bare hbare =>
    obtain ⟨i, j, rfl, rfl, hk⟩ := hkept hq hpool hy
    obtain ⟨hd, p, hp, -, -, hpq⟩ := hk.content? hb hq
    refine ⟨i, j, rfl, .bare fun hd₁ inner hp₁ => ?_, hk⟩
    obtain rfl := (Prod.mk.inj (Option.some.inj (hp.symm.trans hp₁))).2
    cases q with
    | parenthesized inner' => exact hbare _ _ hq
    | _ => cases hpq
  | parentheses hc _ ih =>
    obtain ⟨i, j, rfl, rfl, hk⟩ := hkept hc (by simp [Payload.pool]) hy
    obtain ⟨hd, p, hp, -, -, hpq⟩ := hk.content? hb hc
    cases p with
    | parenthesized inner =>
      obtain ⟨i', j', rfl, hunwraps, hk'⟩ := ih hq (Payload.parenthesized.inj hpq)
      exact ⟨i', j', rfl, .parentheses hp hunwraps, hk'⟩
    | _ => cases hpq

end Calls

section Program

variable {r : Reifier} {files files' : List SourceFile} {f f' : SourceFile}
  {ds ds' : List Declarations}

/-- **A call that was kept calls what it called.** -/
theorem CallsFunction.kept (ha : f.arena.WellFormed) (hb : f'.arena.WellFormed)
    (hds : ∀ d ∈ ds, Declarations.Named f.arena d) (hds' : ∀ d ∈ ds', Declarations.Named f'.arena d)
    (hself : f'.fileName = f.fileName)
    (hmeans : ∀ {name v'}, meaning? (ds' ++ [topValues files' f']) name = some v' →
      ∃ v, meaning? (ds ++ [topValues files f]) name = some v ∧ v.blank = v'.blank)
    (hfile : ∀ {key g'}, Sources.fileAt? files' key = some g' →
      ∃ g, Sources.fileAt? files key = some g ∧ SameExports g g')
    {e e' : NodeId} (hkept : Kept r f.fileName f.arena f'.arena e e') {g' : SourceFile}
    {first' : NodeId} (h : CallsFunction files' f' ds' (some e') g' first') :
    ∃ g first name, CallsFunction files f ds (some e) g first ∧ g'.fileName = g.fileName ∧
      DeclaresFunction g.arena name first ∧ DeclaresFunction g'.arena name first' := by
  -- The callee was kept with its form, so it has the same words, and these mean what they meant.
  cases h with
  | @own _ name _ hc hname =>
    obtain ⟨hd, p, hp, -, -, hpq⟩ := hkept.content? hb hc
    obtain ⟨v, hv, hblank⟩ := hmeans hname
    obtain ⟨first, rfl⟩ := exists_function_of_blank hblank
    cases p with
    | identifier text =>
      obtain rfl := Payload.identifier.inj hpq
      exact ⟨f, first, _, .own hp hv, hself, declares_of_meaning? hds hv,
        declares_of_meaning? hds' hname⟩
    | _ => cases hpq
  | @imported _ name key exported _ _ hc hname hg hfirst =>
    obtain ⟨hd, p, hp, -, -, hpq⟩ := hkept.content? hb hc
    obtain ⟨v, hv, hblank⟩ := hmeans hname
    obtain ⟨g, hg, hsame⟩ := hfile hg
    obtain ⟨first, hfirst'⟩ := hsame.exists_function hfirst
    obtain rfl : v = .imported (some key) exported := by
      cases v <;> first | exact hblank | cases hblank
    cases p with
    | identifier text =>
      obtain rfl := Payload.identifier.inj hpq
      exact ⟨g, first, _, .imported hp hv hg hfirst', hsame.fileName,
        declares_of_exported hfirst', declares_of_exported hfirst⟩
    | _ => cases hpq
  | @member _ object member space name key _ _ hc hobject hmember hspace hg hfirst =>
    obtain ⟨hd, p, hp, -, -, hpq⟩ := hkept.content? hb hc
    obtain ⟨v, hv, hblank⟩ := hmeans hspace
    obtain ⟨g, hg, hsame⟩ := hfile hg
    obtain ⟨first, hfirst'⟩ := hsame.exists_function hfirst
    obtain rfl : v = .namespaceImport (some key) := by
      cases v <;> first | exact hblank | cases hblank
    cases p with
    | access object₀ member₀ =>
      obtain ⟨htree₁, htree₂⟩ := Payload.access.inj hpq
      have hobject₀ := (texts_of_image ha hb htree₁).1.symm.trans hobject
      have hmember₀ := (texts_of_image ha hb htree₂).1.symm.trans hmember
      exact ⟨g, first, _, .member hp hobject₀ hmember₀ hv hg hfirst', hsame.fileName,
        declares_of_exported hfirst', declares_of_exported hfirst⟩
    | _ => cases hpq

/-- What calls a function is a name or an access. -/
theorem CallsFunction.content {g : SourceFile} {callee : Ref} {first : NodeId}
    (h : CallsFunction files f ds callee g first) :
    ∃ hd q, f.arena.content? callee = some (hd, q) ∧ q.pool ≠ .elements := by
  cases h with
  | own hc _ => exact ⟨_, _, hc, by simp [Payload.pool]⟩
  | imported hc _ _ _ => exact ⟨_, _, hc, by simp [Payload.pool]⟩
  | member hc _ _ _ _ _ => exact ⟨_, _, hc, by simp [Payload.pool]⟩

/-- A call of a marker in the rewritten file was kept, and called the marker before. -/
theorem CallsMarker.kept (ha : f.arena.WellFormed) (hb : f'.arena.WellFormed)
    (hself : f'.fileName = f.fileName)
    (htop : ∀ {name v'}, (topValues files' f').lookup name = some v' →
      ∃ v, (topValues files f).lookup name = some v ∧ v.blank = v'.blank)
    (hfile : ∀ {key g'}, Sources.fileAt? files' key = some g' →
      ∃ g, Sources.fileAt? files key = some g ∧ SameExports g g')
    {root root' : NodeId} (hroot : Kept r f.fileName f.arena f'.arena root root') {disk : Disk}
    {path : String} {n : NodeId} {m : Marker} (h : CallsMarker disk path files' f' root' n m) :
    ∃ c, Kept r f.fileName f.arena f'.arena c n ∧ CallsMarker disk path files f root c m := by
  obtain ⟨ds', hd', callee', types', arguments', e', g', first', canonical, haround', hc', he',
    hcalls', hdeclares', hcanonical, hsame⟩ := h
  rcases around_kept ha hb hroot haround' with ⟨c, ds, haround, hkept, hds⟩ | hinert
  · obtain ⟨hd, p, hp, -, -, hpq⟩ := hkept.content? hb hc'
    cases p with
    | call callee types arguments =>
      obtain ⟨hcallee, -, -⟩ := Payload.call.inj hpq
      obtain ⟨_, q, hq, hpool⟩ := CallsFunction.content hcalls'
      obtain ⟨e, j, rfl, he, hkepte⟩ := unwraps_kept ha hb he' hq hpool hcallee
      obtain ⟨g, first, name, hcalls, hname, hdeclares, hdeclares''⟩ :=
        CallsFunction.kept ha hb (named_around haround) (named_around haround') hself
          (exists_meaning? hds fun _ => htop) hfile hkepte hcalls'
      obtain rfl := hdeclares''.unique hdeclares'
      exact ⟨c, hkept, ds, hd, callee, types, arguments, some e, g, first, canonical, haround, hp,
        he, hcalls, hdeclares, hname ▸ hcanonical, hsame⟩
    | _ => cases hpq
  · have hk := Kind.eq_of_pool? (.inl rfl) (pool_of_content? hc')
    refine absurd ?_ (kind?_of_inert hb hinert).1
    rw [Arena.kind?, (content?_eq_some.1 hc').1, Option.map_some, hk]

end Program

/-! ## The fresh program -/

section Fresh

variable {before after : List SourceFile} {f : SourceFile} (disk : Disk) (settings : Settings)
  (options options' : CheckOptions)

/-- The fresh program takes nothing in the rewritten file for a marker call. -/
theorem markerOf?_fresh (h : ((before ++ f :: after).map fileKey).Nodup) (ha : f.arena.WellFormed)
    (hone : ∀ root, f.root = some root → OneParent f.arena root)
    (hnames : (topValues (before ++ f :: after) f).Distinct) {root' n : NodeId} :
    let r files options := ofSettings (Program.ofFiles options files).oracle disk settings
    let f' := (r (before ++ f :: after) options).transform f
    f'.root = some root' →
      NoMarker (r (before ++ f' :: after) options') f'.fileName f'.arena n := by
  intro r f' hroot'
  have hb : f'.arena.WellFormed := (transform_appends _ ha).wellFormed ha
  have hkey : fileKey f' = fileKey f := rfl
  have hnodup : ((before ++ f' :: after).map fileKey).Nodup := by
    rw [keys_replaced before after hkey]
    exact h
  refine Option.eq_none_iff_forall_ne_some.2 fun m hm => ?_
  obtain ⟨root'', hroot'', hcalls'⟩ := callsMarker_of_markerOf? disk settings options' hnodup
    (List.mem_append_right before List.mem_cons_self) hb hm
  obtain rfl := Option.some.inj (hroot'.symm.trans hroot'')
  rcases (transform_root _ ha hroot').1 with ⟨root, hroot, hkept⟩ | hinert
  · have hexports : SameExports f f' := ⟨rfl, exportedValues_image ha hb hroot hroot' hkept⟩
    have htop := topValues_image ha hb hroot hroot' hkept (importedKey?_replaced before after hkey)
    obtain ⟨c, hkeptc, hcalls⟩ := CallsMarker.kept ha hb rfl (exists_lookup_of_sublist hnames htop)
      (exists_fileAt? before after hexports) hkept hcalls'
    obtain ⟨ds, _, _, _, _, _, _, _, _, haround, -⟩ := id hcalls
    have hmarker := (markerOf?_ofFiles disk settings options h
      (List.mem_append_right before List.mem_cons_self) ha hroot (hone root hroot)
      haround.reaches).2 hcalls
    exact absurd (hkeptc.noMarker.symm.trans hmarker) (Option.some_ne_none m).symm
  · obtain ⟨ds', hd', _, _, _, _, _, _, _, haround', hc', -⟩ := hcalls'
    have hk := Kind.eq_of_pool? (.inl rfl) (pool_of_content? hc')
    refine absurd ?_ (kind?_of_inert hb (inert_of_reaches hb haround'.reaches hinert)).1
    rw [Arena.kind?, (content?_eq_some.1 hc').1, Option.map_some, hk]

/-- **A rewrite by a fresh program changes nothing.** The program is checked anew, under any
options, with the rewritten file in the place of the old one. -/
theorem transform_fresh (h : ((before ++ f :: after).map fileKey).Nodup) (ha : f.arena.WellFormed)
    (hone : ∀ root, f.root = some root → OneParent f.arena root)
    (hnames : (topValues (before ++ f :: after) f).Distinct) :
    let r files options := ofSettings (Program.ofFiles options files).oracle disk settings
    let f' := (r (before ++ f :: after) options).transform f
    (r (before ++ f' :: after) options').transform f' = f' := by
  intro r f'
  refine transform_eq_self fun root' hroot' => ⟨fun n _ => ?_, fun k n hk hn => ?_⟩
  · exact markerOf?_fresh disk settings options options' h ha hone hnames hroot'
  · rw [importsMarkers_ofSettings _ (Program.ofFiles options (before ++ f :: after)).oracle]
    exact importsMarkers_transform (r (before ++ f :: after) options) ha hroot' hk hn

end Fresh

theorem transform_fresh_callingFile :
    let r files options := ofSettings (Program.ofFiles options files).oracle markerDisk
      ⟨.ofDirectory "/m", .default⟩
    let f' := (r [declaringFile, callingFile] .default).transform callingFile
    ([declaringFile, callingFile].map fileKey).Nodup ∧ callingFile.arena.WellFormed ∧
      (∀ root, callingFile.root = some root → OneParent callingFile.arena root) ∧
      (topValues [declaringFile, callingFile] callingFile).Distinct ∧
      (r [declaringFile, f'] .default).transform f' = f' := by
  have hnodup : ([declaringFile, callingFile].map fileKey).Nodup := by decide +kernel
  have ha : callingFile.arena.WellFormed := by decide
  have hone : ∀ root, callingFile.root = some root → OneParent callingFile.arena root :=
    fun _ _ => oneParent_of_forall (by decide)
  have hnames : (topValues [declaringFile, callingFile] callingFile).Distinct := by decide +kernel
  have hfresh := @transform_fresh [declaringFile] [] callingFile markerDisk
    ⟨.ofDirectory "/m", .default⟩ .default .default hnodup ha hone hnames
  exact ⟨hnodup, ha, hone, hnames, hfresh⟩

end Reifier

end TypeReify
