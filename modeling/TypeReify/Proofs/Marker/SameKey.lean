import TypeReify.Proofs.Marker.Calls
import TypeReify.Proofs.Marker.Kept

/-!
# Files that share a key

A program keeps one tree for each file key. Two files whose names come to the same key are both
emitted, but only the last of them was walked, and what is known of its nodes is asked for the nodes
of both. So a call of the other file is replaced if the node of the same index calls a marker in the
tree of the last one, whatever the call itself calls.

The tables of a file are found by its `file_key`, both by the walk that fills them and by the oracle
that is asked for a file name.

Results:
* `markerOf?_last`: which nodes of a file are taken for marker calls.
* `emit_replaces_last`: which calls are replaced; a file that is the last of its key is judged by
  itself.
* `emit_same_key`: the call of a local function is replaced for the sake of another file.
-/

namespace TypeReify

open Check
open Syntax (SourceFile NodeId Ref Arena Tree Drafting Draft Build)

/-! ## What is asked of a file -/

/-- Of the files only those that count are checked. -/
theorem Program.ofFiles_kept (options : CheckOptions) (files : List SourceFile) :
    Program.ofFiles options (Sources.kept files) = Program.ofFiles options files := by
  unfold Program.ofFiles
  rw [Sources.ofFiles_kept]

/-- Files of one key are not told apart. -/
theorem Program.callee?_of_key (p : Program) {f g : SourceFile}
    (h : fileKey g = fileKey f) (a : Arena)
    (n : Ref) : Marker.callee? p.oracle a f.fileName n = Marker.callee? p.oracle a
      g.fileName n := by
  have hfacts : p.facts? f.fileName = p.facts? g.fileName :=
    congrArg (fun key => p.files.lookup key) h.symm
  have hsignature : p.oracle.signature? f.fileName = p.oracle.signature? g.fileName := by
    funext node
    show (p.facts? f.fileName).bind _ = (p.facts? g.fileName).bind _
    rw [hfacts]
  rw [Marker.callee?, hsignature, ← Marker.callee?]

section Last

variable {files : List SourceFile} {f g : SourceFile} {root c : NodeId} (disk : Disk)
  (settings : Settings) (options : CheckOptions)
  (hlast : Sources.last? files (fileKey f) = some g) (hg : g.arena.WellFormed)
  (hroot : g.root = some root) (hone : OneParent g.arena root)
include hlast hg hroot hone

/-- **What is taken for a marker call**, in any arena under the name of a file: a call whose index
is that of a marker call in the last file of the same key. -/
theorem markerOf?_last (a : Arena) {m : Marker} :
    (Reifier.ofSettings (Program.ofFiles options files).oracle disk settings).markerOf? a f.fileName
        (some c) = some m ↔
      a.kind? (some c) = some (.form .call) ∧
        CallsMarker disk (settings.marker.canonical disk).declaration
        (Sources.kept files) g root c m := by
  obtain ⟨hmem, hkey⟩ := Sources.mem_kept_of_last? hlast
  have hnodup := Sources.nodup_kept files
  -- The file is asked about as the last one of its key, among the files that count.
  have hname : (Reifier.ofSettings (Program.ofFiles options files).oracle disk settings).markerOf? a
      f.fileName (some c) = (Reifier.ofSettings
        (Program.ofFiles options (Sources.kept files)).oracle disk
        settings).markerOf? a g.fileName (some c) := by
    rw [Program.ofFiles_kept]
    unfold Reifier.markerOf? Marker.isCall Reifier.ofSettings
    rw [Program.callee?_of_key _ hkey]
  rw [hname]
  constructor
  · intro hm
    obtain ⟨root', hroot', hcalls⟩ :=
      callsMarker_of_markerOf? disk settings options hnodup hmem hg hm
    obtain rfl := Option.some.inj (hroot.symm.trans hroot')
    exact ⟨Reifier.kind?_of_markerOf? hm, hcalls⟩
  · rintro ⟨hkind, hcalls⟩
    obtain ⟨ds, _, _, _, _, _, _, _, _, haround, -⟩ := id hcalls
    have hm := (markerOf?_ofFiles disk settings options hnodup hmem hg hroot hone
      haround.reaches).2 hcalls
    rw [Reifier.markerOf?_congr _ _ (hkind.trans (Reifier.kind?_of_markerOf? hm).symm)]
    exact hm

variable (hf : f ∈ files) (ha : f.arena.WellFormed)
include hf ha

/-- **Which calls are replaced.** A file with code is emitted as the text of a tree, which is the
image of the tree of the file. There a call has become the literal of a marker just if the call of
the same index in the last file of the same key calls this marker. So a file which is itself the
last one of its key is judged by its own tree, and only such a file is. -/
theorem emit_replaces_last (hcode : f.isDeclarationFile = false)
    (hsource : f.arena.kind? f.root = some (.form .sourceFile))
    (hcall : f.arena.kind? (some c) = some (.form .call)) :
    let r := Reifier.ofSettings (Program.ofFiles options files).oracle disk settings
    ∃ (b : Arena) (top : Ref) (t u : Tree),
      (⟨f.fileName, b.textOf top⟩ : Emitted) ∈ emit disk settings options files ∧
      b.tree top = some u ∧ r.image f.fileName f.arena f.root = some (some u) ∧
      r.image f.fileName f.arena (some c) = some (some t) ∧
      (∀ i, f.root = some i → r.Stands f.fileName f.arena i c →
        r.InPlace f.fileName f.arena i u c t) ∧
      ∀ m, t = m.literal r.oracle (r.listed f.fileName f.arena (some c)) ↔
        CallsMarker disk (settings.marker.canonical disk).declaration (Sources.kept files) g root c
          m := by
  intro r
  obtain ⟨b, top, t, u, hemit, hu, himage, ht, hplace, hliteral⟩ :=
    emit_image_call disk settings options hf ha hcode hsource hcall
  refine ⟨b, top, t, u, hemit, hu, himage, ht, hplace, fun m => (hliteral m).trans ?_⟩
  rw [markerOf?_last disk settings options hlast hg hroot hone f.arena]
  exact and_iff_right hcall

end Last

/-- `export declare function keys<T>(): string[]; keys<T>();`, under another spelling of the name of
`callingFile`. -/
def localFile : SourceFile :=
  let act : Drafting Unit := do
    let result ← Draft.build (do Build.arrayType (← Build.token .stringKeyword))
    let _ ← Draft.declareFunction "keys" ["T"] result
    let type ← Draft.build (Draft.typeNamed "T" [])
    let call ← Draft.build (Draft.callNamed "keys" [type])
    let _ ← Draft.expression call
  (act .empty).2.finish "/app/./main.ts"

/-- `callingFile` is the last file of the key of `localFile`. -/
theorem last?_localFile :
    Sources.last? [declaringFile, localFile, callingFile]
    (fileKey localFile) = some callingFile := by
  have hother : (fileKey declaringFile == fileKey localFile) = false := by decide +kernel
  have hsame : (fileKey callingFile == fileKey localFile) = true := by decide +kernel
  simp [Sources.last?, hother, hsame]

/-- The call of the local function has become a literal. -/
theorem emit_replaces_last_localFile :
    let settings : Settings := ⟨.ofDirectory "/m", .default⟩
    let files := [declaringFile, localFile, callingFile]
    let r := Reifier.ofSettings (Program.ofFiles .default files).oracle markerDisk settings
    let f := localFile
    (∃ (b : Arena) (top : Ref) (t u : Tree),
      (⟨f.fileName, b.textOf top⟩ : Emitted) ∈ emit markerDisk settings .default files ∧
      b.tree top = some u ∧ r.image f.fileName f.arena f.root = some (some u) ∧
      r.image f.fileName f.arena (some 9) = some (some t) ∧
      (∀ i, f.root = some i → r.Stands f.fileName f.arena i 9 →
        r.InPlace f.fileName f.arena i u 9 t) ∧
      ∀ m, t = m.literal r.oracle (r.listed f.fileName f.arena (some 9)) ↔
        CallsMarker markerDisk (settings.marker.canonical markerDisk).declaration
          (Sources.kept files) callingFile 11 9 m) ∧
      (r.transform f).text = "export declare function keys<T>(): string[];\n[];\n" :=
  ⟨emit_replaces_last (c := 9) markerDisk _ .default last?_localFile (by decide) (by decide)
    (oneParent_of_forall (by decide)) (by simp) (by decide) (by decide +kernel) (by decide)
    (by decide), by decide +kernel⟩

/-- A call of a local function is left alone, until a file of the same key is added whose node of
the same index calls a marker. -/
theorem emit_same_key :
    let settings : Settings := ⟨.ofDirectory "/m", .default⟩
    emit markerDisk settings .default [declaringFile, localFile] =
        [⟨"/app/./main.ts", "export declare function keys<T>(): string[];\nkeys<T>();\n"⟩] ∧
      emit markerDisk settings .default [declaringFile, localFile, callingFile] =
        [⟨"/app/./main.ts", "export declare function keys<T>(): string[];\n[];\n"⟩,
          ⟨"/app/main.ts", "[];\n"⟩] := by
  decide +kernel

end TypeReify
