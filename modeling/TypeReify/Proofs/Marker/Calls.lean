import TypeReify.Emit
import TypeReify.Proofs.Check.Signatures
import TypeReify.Proofs.Marker.Image

/-!
# Which calls are replaced

A rewrite asks the oracle of the checked program for the declaration of a call. Here the answer is
told from the files: `CallsMarker` says, without a checker, that a call calls a marker, by the
scopes around the call, the imports of its file and the place of the declaration on disk.

`is_marker_call` asks for `resolved_signature` and `declaration`, compares a name and loads a file.
`CallsMarker` names neither tables nor ids.

Results:
* `callee?_ofFiles`: the declaration that a program knows for a call.
* `markerOf?_ofFiles`: a call is taken for a marker call just if it calls a marker.
* `emit_replaces_iff`: a program is emitted with a literal in the place of the calls of markers, and
  of no other calls.

Out of scope: marker functions declared in several files. The settings name one.
-/

namespace TypeReify

open Check Syntax Scope
open TypeReify.Types

variable {files : List SourceFile} {f : SourceFile} {root c : NodeId}

/-! ## The declaration of a call -/

namespace Check

theorem CallsAt.unique {ds : List Declarations} {g g' : SourceFile} {first first' : NodeId}
    (h : CallsAt files f ds c g first) (h' : CallsAt files f ds c g' first') :
    g = g' ∧ first = first' := by
  obtain ⟨_, callee, _, _, hc, hcalls⟩ := h
  obtain ⟨_, callee', _, _, hc', hcalls'⟩ := h'
  obtain rfl := (Payload.call.inj (Prod.mk.inj (Option.some.inj (hc.symm.trans hc'))).2).1
  exact hcalls.unique hcalls'

theorem CallsAt.kind? {ds : List Declarations} {g : SourceFile} {first : NodeId}
    (h : CallsAt files f ds c g first) : f.arena.kind? (some c) = some (.form .call) := by
  obtain ⟨hd, _, _, _, hc, -⟩ := h
  have hk := Kind.eq_of_pool? (.inl rfl) (Arena.pool_of_content? hc)
  rw [Arena.kind?, (Arena.content?_eq_some.1 hc).1, Option.map_some, hk]

end Check

/-- A callee is known by the signature of the call, and its declaration. -/
theorem Marker.callee?_eq_some {o : Oracle} {a : Arena} {fileName : String} {d : Declaration}
    (h : callee? o a fileName (some c) = some d) :
    ∃ s id, o.signature? fileName c = some s ∧ s.declaration = some id ∧
      o.declaration? id = some d := by
  obtain ⟨_, -, h⟩ := Option.bind_eq_some_iff.1 h
  obtain ⟨s, hs, h⟩ := Option.bind_eq_some_iff.1 h
  obtain ⟨id, hid, hd⟩ := Option.bind_eq_some_iff.1 h
  exact ⟨s, id, hs, hid, hd⟩

section Program

variable (options : CheckOptions) (h : (files.map fileKey).Nodup) (hf : f ∈ files)
include h hf

/-- A recorded signature is that of the function the call calls, with the scopes on some way to the
call around it. -/
theorem signature?_ofFiles {s : Signature}
    (hs : (Program.ofFiles options files).oracle.signature? f.fileName c = some s) :
    ∃ root ds g first name id, f.root = some root ∧ Around f.arena root c ds ∧
      CallsAt files f ds c g first ∧ DeclaresFunction g.arena name first ∧ s = ⟨some id⟩ ∧
      (Program.ofFiles options files).oracle.declaration? id =
        some (functionSite g name first).declaration := by
  obtain ⟨facts, hfacts, hknows⟩ := facts?_ofFiles h options hf
  have hsignature : (Program.ofFiles options files).oracle.signature? f.fileName c =
      facts.signatures[c]? := by
    show ((Program.ofFiles options files).facts? f.fileName).bind _ = _
    rw [hfacts]
    rfl
  obtain ⟨root, hroot, ds, g, first, name, id, haround, hcalls, hdeclares, rfl, hid⟩ :=
    hknows.sound c s (hsignature.symm.trans hs)
  exact ⟨root, ds, g, first, name, id, hroot, haround, hcalls, hdeclares, rfl,
    congrArg (Option.map Site.declaration) hid⟩

/-- The declaration that a program knows for a call is that of a function which the call calls, with
the scopes on some way to the call around it. -/
theorem callee?_sound {a : Arena} {d : Declaration}
    (hd : Marker.callee? (Program.ofFiles options files).oracle a f.fileName (some c) = some d) :
    ∃ root ds g first name, f.root = some root ∧ Around f.arena root c ds ∧
      CallsAt files f ds c g first ∧ DeclaresFunction g.arena name first ∧
      d = (functionSite g name first).declaration := by
  obtain ⟨s, id, hs, hid, hd⟩ := Marker.callee?_eq_some hd
  obtain ⟨root, ds, g, first, name, id', hroot, haround, hcalls, hdeclares, rfl, hdeclaration⟩ :=
    signature?_ofFiles options h hf hs
  obtain rfl := Option.some.inj hid
  exact ⟨root, ds, g, first, name, hroot, haround, hcalls, hdeclares,
    Option.some.inj (hd.symm.trans hdeclaration)⟩

variable (ha : f.arena.WellFormed) (hroot : f.root = some root) (hone : OneParent f.arena root)
include ha hroot hone

/-- The declaration that a program knows for a call is that of the function the call calls. -/
theorem callee?_ofFiles {ds : List Declarations} (haround : Around f.arena root c ds)
    {d : Declaration} :
    Marker.callee? (Program.ofFiles options files).oracle f.arena f.fileName (some c) = some d ↔
      ∃ g first name, CallsAt files f ds c g first ∧ DeclaresFunction g.arena name first ∧
        d = (functionSite g name first).declaration := by
  constructor
  · intro hcallee
    obtain ⟨root', ds', g, first, name, hroot', haround', hcalls, hdeclares, rfl⟩ :=
      callee?_sound options h hf hcallee
    obtain rfl := Option.some.inj (hroot.symm.trans hroot')
    obtain rfl := haround.unique ha hone haround'
    exact ⟨g, first, name, hcalls, hdeclares, rfl⟩
  · rintro ⟨g, first, name, hcalls, hdeclares, rfl⟩
    obtain ⟨facts, hfacts, hknows⟩ := facts?_ofFiles h options hf
    have hmem := hknows.complete ha root c ds g first hroot haround hcalls
    obtain ⟨s, hrecorded⟩ : ∃ s, facts.signatures[c]? = some s :=
      ⟨_, Std.TreeMap.getElem?_eq_some_getElem hmem⟩
    have hs : (Program.ofFiles options files).oracle.signature? f.fileName c = some s :=
      Option.bind_eq_some_iff.2 ⟨facts, hfacts, hrecorded⟩
    -- Whatever is recorded for the call was recorded with the scopes around it.
    obtain ⟨root', ds', g', first', name', id, hroot', haround', hcalls', hdeclares', rfl,
      hdeclaration⟩ := signature?_ofFiles options h hf hs
    obtain rfl := Option.some.inj (hroot.symm.trans hroot')
    obtain rfl := haround.unique ha hone haround'
    obtain ⟨rfl, rfl⟩ := hcalls.unique hcalls'
    obtain rfl := hdeclares.unique hdeclares'
    change (guard (f.arena.kind? (some c) == some (.form .call)) : Option Unit) >>= _ = _
    rw [hcalls.kind?]
    change (((Program.ofFiles options files).oracle.signature? f.fileName c) >>= _) = _
    rw [hs]
    exact hdeclaration

end Program

/-! ## Calls of markers -/

/-- **The call at `c` calls the marker `m`**, as it is declared in the file at `path`. Without its
parentheses the callee names a function, by the scopes around the call or through an import; that
function is declared under the name of the marker, in a file which is that at `path`. -/
def CallsMarker (disk : Disk) (path : String) (files : List SourceFile) (f : SourceFile)
    (root c : NodeId) (m : Marker) : Prop :=
  ∃ ds h callee types arguments e g first canonical,
    Around f.arena root c ds ∧
      f.arena.content? (some c) = some (h, .call callee types arguments) ∧
      Unwraps f.arena callee e ∧ CallsFunction files f ds e g first ∧
      DeclaresFunction g.arena m.function first ∧
      Modules.Loader.resolveFile disk g.fileName = .ok canonical ∧ Path.same canonical path = true

theorem isDeclaredBy_functionSite {disk : Disk} {path name : String} {m : Marker} {g : SourceFile}
    {first : NodeId} : m.isDeclaredBy disk path (functionSite g name first).declaration = true ↔
      name = m.function ∧ ∃ canonical,
        Modules.Loader.resolveFile disk g.fileName = .ok canonical ∧
          Path.same canonical path = true := by
  unfold Marker.isDeclaredBy functionSite
  dsimp only
  cases Modules.Loader.resolveFile disk g.fileName with
  | error _ => simp
  | ok canonical => simp

/-- A call calls one marker at most. -/
theorem CallsMarker.unique {disk : Disk} {path : String} {m m' : Marker} (ha : f.arena.WellFormed)
    (hone : OneParent f.arena root) (h : CallsMarker disk path files f root c m)
    (h' : CallsMarker disk path files f root c m') : m = m' := by
  obtain ⟨ds, _, callee, _, _, e, g, first, _, haround, hc, he, hcalls, hdeclares, -⟩ := h
  obtain ⟨ds', _, callee', _, _, e', g', first', _, haround', hc', he', hcalls', hdeclares', -⟩ :=
    h'
  obtain rfl := haround.unique ha hone haround'
  obtain rfl := (Payload.call.inj (Prod.mk.inj (Option.some.inj (hc.symm.trans hc'))).2).1
  obtain rfl := he.unique he'
  obtain ⟨rfl, rfl⟩ := hcalls.unique hcalls'
  exact Marker.function_injective (hdeclares.unique hdeclares')

theorem Marker.mem_all (m : Marker) : m ∈ Marker.all := by
  cases m <;> decide

/-- A callee calls what it calls without its parentheses. -/
theorem callsAt_iff (ha : f.arena.WellFormed) {ds : List Declarations} {g : SourceFile}
    {first : NodeId} : CallsAt files f ds c g first ↔
      ∃ h callee types arguments e,
        f.arena.content? (some c) = some (h, .call callee types arguments) ∧
          Unwraps f.arena callee e ∧ CallsFunction files f ds e g first := by
  have hunwraps {h : Header} {callee : Ref} {types : Option (List Ref)} {arguments : List Ref}
      (hc : f.arena.content? (some c) = some (h, .call callee types arguments)) :
      Unwraps f.arena callee (calleeOf f.arena f.arena.levels callee) := by
    refine unwraps_calleeOf ha fun i hi => ?_
    have hlt := ha.lt_of_mem_children hc (j := i) (by simp [Payload.children, hi])
    have hsize := Arena.lt_of_content? hc
    have hlevels : f.arena.levels = 2 * f.arena.size + 8 := rfl
    exact Nat.lt_of_lt_of_le (Nat.lt_trans hlt hsize) (by rw [hlevels]; omega)
  constructor
  · rintro ⟨h, callee, types, arguments, hc, hcalls⟩
    exact ⟨h, callee, types, arguments, _, hc, hunwraps hc, hcalls⟩
  · rintro ⟨h, callee, types, arguments, e, hc, he, hcalls⟩
    obtain rfl := (hunwraps hc).unique he
    exact ⟨h, callee, types, arguments, hc, hcalls⟩

/-- A file with code is emitted as the text of its image. In it a call has become the literal of a
marker just if it is taken for a call of this marker. -/
theorem emit_image_call (disk : Disk) (settings : Settings) (options : CheckOptions)
    (hf : f ∈ files) (ha : f.arena.WellFormed) (hcode : f.isDeclarationFile = false)
    (hsource : f.arena.kind? f.root = some (.form .sourceFile))
    (hcall : f.arena.kind? (some c) = some (.form .call)) :
    let r := Reifier.ofSettings (Program.ofFiles options files).oracle disk settings
    ∃ (b : Arena) (top : Ref) (t u : Tree),
      (⟨f.fileName, b.textOf top⟩ : Emitted) ∈ emit disk settings options files ∧
      b.tree top = some u ∧ r.image f.fileName f.arena f.root = some (some u) ∧
      r.image f.fileName f.arena (some c) = some (some t) ∧
      (∀ i, f.root = some i → r.Stands f.fileName f.arena i c →
        r.InPlace f.fileName f.arena i u c t) ∧
      ∀ m, t = m.literal r.oracle (r.listed f.fileName f.arena (some c)) ↔
        r.markerOf? f.arena f.fileName (some c) = some m := by
  intro r
  have hemit : (⟨f.fileName, (r.transform f).text⟩ : Emitted) ∈ emit disk settings options files :=
    ofFile_mem_emit disk settings options hf hcode
  obtain ⟨u, hu⟩ := Reifier.exists_top r ha hsource
  have himage := Reifier.image_top r ha hsource
  rw [hu] at himage
  obtain ⟨t, ht⟩ := Reifier.exists_image_call r f.fileName ha hcall
  refine ⟨_, _, t, u, hemit, hu, himage, ht, fun i hi hstands => ?_, fun m => ?_⟩
  · rw [hi] at himage
    exact hstands.inPlace ha himage ht
  · have hliteral := Reifier.image_eq_literal_iff r f.fileName ha hcall (m := m)
    rwa [ht, Option.some.injEq, Option.some.injEq] at hliteral

section Program

variable (disk : Disk) (settings : Settings) (options : CheckOptions)
  (h : (files.map fileKey).Nodup) (hf : f ∈ files) (ha : f.arena.WellFormed)
include h hf ha

/-- What is taken for a marker call calls a marker. -/
theorem callsMarker_of_markerOf? {a : Arena} {m : Marker}
    (hm : (Reifier.ofSettings (Program.ofFiles options files).oracle disk settings).markerOf? a
      f.fileName (some c) = some m) : ∃ root, f.root = some root ∧
    CallsMarker disk (settings.marker.canonical disk).declaration files f root c m := by
  have hcall : m.isCall (Program.ofFiles options files).oracle disk
      (settings.marker.canonical disk).declaration a f.fileName (some c) = true := by
    unfold Reifier.markerOf? at hm
    have hfound := List.find?_some hm
    exact hfound
  unfold Marker.isCall at hcall
  obtain ⟨d, hd, hby⟩ := (Option.any_eq_true _ _).1 hcall
  obtain ⟨root, ds, g, first, name, hroot, haround, hcalls, hdeclares, rfl⟩ :=
    callee?_sound options h hf hd
  obtain ⟨rfl, canonical, hcanonical, hsame⟩ := isDeclaredBy_functionSite.1 hby
  obtain ⟨hd, callee, types, arguments, e, hc, he, hcalls⟩ := (callsAt_iff ha).1 hcalls
  exact ⟨root, hroot, ds, hd, callee, types, arguments, e, g, first, canonical, haround, hc, he,
    hcalls, hdeclares, hcanonical, hsame⟩

variable (hroot : f.root = some root) (hone : OneParent f.arena root)
include hroot hone

/-- **A call is taken for a marker call just if it calls a marker.** -/
theorem markerOf?_ofFiles (hc : Reaches f.arena root c) {m : Marker} :
    (Reifier.ofSettings (Program.ofFiles options files).oracle disk settings).markerOf? f.arena
        f.fileName (some c) = some m ↔
      CallsMarker disk (settings.marker.canonical disk).declaration files f root c m := by
  obtain ⟨ds, haround⟩ := exists_around hc
  have hsome {m : Marker} (hfound : (Reifier.ofSettings (Program.ofFiles options files).oracle disk
      settings).markerOf? f.arena f.fileName (some c) = some m) :
      CallsMarker disk (settings.marker.canonical disk).declaration files f root c m := by
    obtain ⟨root', hroot', hcalls⟩ := callsMarker_of_markerOf? disk settings options h hf ha hfound
    obtain rfl := Option.some.inj (hroot.symm.trans hroot')
    exact hcalls
  have hcall {m : Marker}
      (hcalls : CallsMarker disk (settings.marker.canonical disk).declaration files f root c m) :
      m.isCall (Program.ofFiles options files).oracle disk
        (settings.marker.canonical disk).declaration f.arena f.fileName (some c) = true := by
    obtain ⟨ds', hd, callee, types, arguments, e, g, first, canonical, haround', hc, he, hcalls,
      hdeclares, hcanonical, hsame⟩ := hcalls
    obtain rfl := haround.unique ha hone haround'
    have hcalls := (callsAt_iff ha).2 ⟨hd, callee, types, arguments, e, hc, he, hcalls⟩
    refine (Option.any_eq_true _ _).2 ⟨(functionSite g m.function first).declaration,
      (callee?_ofFiles options h hf ha hroot hone haround).2
        ⟨g, first, m.function, hcalls, hdeclares, rfl⟩, ?_⟩
    exact isDeclaredBy_functionSite.2 ⟨rfl, canonical, hcanonical, hsame⟩
  refine ⟨hsome, fun hcalls => ?_⟩
  cases hfound : (Reifier.ofSettings (Program.ofFiles options files).oracle disk
      settings).markerOf? f.arena f.fileName (some c) with
  | none => exact absurd (hcall hcalls) (List.find?_eq_none.1 hfound m m.mem_all)
  | some m' => rw [(hsome hfound).unique ha hone hcalls]

/-- **Calls of markers are replaced, and no other calls.** A file with code is emitted as the text
of a tree, which is the image of the tree of the file. In the place of a call, unless it lies inside
a call that is replaced or an import that is erased, there stands what the call has become, and this
is the literal of a marker just if the call calls this marker. -/
theorem emit_replaces_iff (hcode : f.isDeclarationFile = false)
    (hsource : f.arena.kind? f.root = some (.form .sourceFile)) (hc : Reaches f.arena root c)
    (hcall : f.arena.kind? (some c) = some (.form .call)) :
    let r := Reifier.ofSettings (Program.ofFiles options files).oracle disk settings
    ∃ (b : Arena) (top : Ref) (t u : Tree),
      (⟨f.fileName, b.textOf top⟩ : Emitted) ∈ emit disk settings options files ∧
      b.tree top = some u ∧ r.image f.fileName f.arena f.root = some (some u) ∧
      r.image f.fileName f.arena (some c) = some (some t) ∧
      (r.Stands f.fileName f.arena root c → r.InPlace f.fileName f.arena root u c t) ∧
      ∀ m, t = m.literal r.oracle (r.listed f.fileName f.arena (some c)) ↔
        CallsMarker disk (settings.marker.canonical disk).declaration files f root c m := by
  intro r
  obtain ⟨b, top, t, u, hemit, hu, himage, ht, hplace, hliteral⟩ :=
    emit_image_call disk settings options hf ha hcode hsource hcall
  exact ⟨b, top, t, u, hemit, hu, himage, ht, hplace root hroot, fun m =>
    (hliteral m).trans (markerOf?_ofFiles disk settings options h hf ha hroot hone hc)⟩

end Program

/-- The call has become the literal that lists `x`. -/
theorem emit_replaces_iff_listingFile :
    let settings : Settings := ⟨.ofDirectory "/m", .default⟩
    let files := [declaringFile, listingFile]
    let r := Reifier.ofSettings (Program.ofFiles .default files).oracle markerDisk settings
    let f := listingFile
    (∃ (b : Arena) (top : Ref) (t u : Tree),
      (⟨f.fileName, b.textOf top⟩ : Emitted) ∈ emit markerDisk settings .default files ∧
      b.tree top = some u ∧ r.image f.fileName f.arena f.root = some (some u) ∧
      r.image f.fileName f.arena (some 14) = some (some t) ∧
      (r.Stands f.fileName f.arena 16 14 → r.InPlace f.fileName f.arena 16 u 14 t) ∧
      ∀ m, t = m.literal r.oracle (r.listed f.fileName f.arena (some 14)) ↔
        CallsMarker markerDisk (settings.marker.canonical markerDisk).declaration files f 16 14 m) ∧
      (r.listed f.fileName f.arena (some 14)).map (·.name) = ["x"] ∧
      emit markerDisk settings .default files =
        [⟨"/app/main.ts", "interface P \x7b\n    x: string;\n\x7d\n[\"x\"];\n"⟩] :=
  ⟨emit_replaces_iff (c := 14) markerDisk _ .default (by decide +kernel) (by simp)
    (by decide +kernel) (by decide +kernel) (oneParent_of_forall (by decide +kernel))
    (by decide +kernel) (by decide +kernel)
    (.head (b := 15) (by decide +kernel) (.single (by decide +kernel))) (by decide +kernel),
    by decide +kernel, by decide +kernel⟩

end TypeReify
