import TypeReify.Proofs.Check.Order
import TypeReify.Proofs.Marker.Calls

/-!
# The order of the files

A program finds its files by their keys, so which function a call calls does not depend on the order
in which the files are given, nor does which calls are marker calls. What these calls are replaced
by does: the properties of an interface are those it came to when it was first looked at, and the
order decides where that is. Only files that come later make no difference. What a file is emitted
as is told by the files before it, in their order, and by which other files there are.

This is about `emit_program`, which gives all files to one `CheckerState`: what checking one of them
has put into `interface_shapes`, the next one finds there.

**`emit_first_perm`**: files that come first are emitted alike in all orders of the others.

Results:
* `markerOf?_perm`: whatever the order, the same calls are taken for marker calls.
* `transform_first`: a file is rewritten with what is known once it is checked itself.
* `emit_order`: a file that comes later may be emitted otherwise in another order.

Out of scope: files with the same key, of which the last one counts.
-/

namespace TypeReify

open Check Scope Syntax Syntax.Arena

/-! ## Calls in another order -/

section Same

variable {files files' : List SourceFile} (hfile : Sources.fileAt? files' = Sources.fileAt? files)
include hfile

theorem topValues_congr (f : SourceFile) : topValues files' f = topValues files f := by
  have himported : Sources.importedKey? files' f = Sources.importedKey? files f := by
    funext specifier
    rw [Sources.importedKey?, Sources.importedKey?, hfile]
  rw [topValues, topValues, himported]

/-- What a callee calls is told from the files under their keys. -/
theorem CallsFunction.congr {f g : SourceFile} {ds : List Declarations} {callee : Ref}
    {first : NodeId} (h : CallsFunction files' f ds callee g first) :
    CallsFunction files f ds callee g first := by
  have htop := topValues_congr hfile f
  cases h with
  | own hc hname => exact .own hc (htop ▸ hname)
  | imported hc hname hg hfirst => exact .imported hc (htop ▸ hname) (hfile ▸ hg) hfirst
  | member hc hobject hmember hspace hg hfirst =>
    exact .member hc hobject hmember (htop ▸ hspace) (hfile ▸ hg) hfirst

theorem CallsMarker.congr {f : SourceFile} {disk : Disk} {path : String} {root c : NodeId}
    {m : Marker}
    (h : CallsMarker disk path files' f root c m) : CallsMarker disk path files f root c m := by
  obtain ⟨ds, hd, callee, types, arguments, e, g, first, canonical, haround, hc, he,
    hcalls, hrest⟩ := h
  exact ⟨ds, hd, callee, types, arguments, e, g, first, canonical, haround, hc, he,
    CallsFunction.congr hfile hcalls, hrest⟩

end Same

/-! ## Programs -/

section Program

variable {files files' : List SourceFile} (disk : Disk) (settings : Settings)
  (options : CheckOptions) (hperm : files'.Perm files) (h : (files.map fileKey).Nodup)
include hperm h

/-- Whatever the order, the same calls are taken for marker calls. -/
theorem markerOf?_perm {f : SourceFile} (hf : f ∈ files) (ha : f.arena.WellFormed) {root n : NodeId}
    (hroot : f.root = some root) (hone : OneParent f.arena root) (hn : Reaches f.arena root n) :
    (Reifier.ofSettings (Program.ofFiles options files').oracle disk settings).markerOf? f.arena
        f.fileName (some n) =
      (Reifier.ofSettings (Program.ofFiles options files).oracle disk settings).markerOf? f.arena
        f.fileName (some n) := by
  have hfile := Sources.fileAt?_perm hperm h
  refine Option.ext fun m => ?_
  rw [markerOf?_ofFiles disk settings options h hf ha hroot hone hn,
    markerOf?_ofFiles disk settings options (Sources.keys_perm hperm h)
    (hperm.mem_iff.2 hf) ha hroot hone hn]
  exact ⟨CallsMarker.congr hfile, CallsMarker.congr hfile.symm⟩

end Program

/-! ## The first files -/

section First

variable (options : CheckOptions) {before after : List SourceFile}
  (h : ((before ++ after).map fileKey).Nodup) {f : SourceFile} (hf : f ∈ before)
include h hf

/-- The calls in the first files are resolved when these are checked. -/
theorem callee?_first (a : Arena) (n : Ref) :
    Marker.callee? (Program.ofFiles options (before ++ after)).oracle a f.fileName n =
      Marker.callee? (Program.ofFirst options (before ++ after) before).oracle a f.fileName n := by
  obtain ⟨hsignature, hdeclaration⟩ := Program.signature?_first options h hf
  unfold Marker.callee?
  rw [hsignature]
  refine Option.bind_congr fun node _ => Option.bind_congr fun _ _ =>
    Option.bind_congr fun s hs => Option.bind_congr fun d hd => hdeclaration node s d hs hd

/-- A type argument in the first files has the properties that it has when these are checked. -/
theorem argumentProperties_first (argument : Option Ref) :
    let q := Program.ofFirst options (before ++ after) before
    let properties := Marker.argumentProperties q.oracle f.fileName argument
    Marker.argumentProperties (Program.ofFiles options (before ++ after)).oracle f.fileName
        argument = properties ∧
      ∀ x ∈ properties, ∃ id, x ∈ q.oracle.properties id := by
  intro q properties
  obtain ⟨htype, hknows⟩ := Program.typeAt?_first options h hf
  have hprecedes := Program.precedes_ofFiles options h
  show Marker.argumentProperties _ _ _ = Marker.argumentProperties _ _ _ ∧
    ∀ x ∈ Marker.argumentProperties _ _ _, _
  unfold Marker.argumentProperties
  rcases argument with _ | _ | node
  · exact ⟨rfl, fun x hx => absurd hx List.not_mem_nil⟩
  · exact ⟨rfl, fun x hx => absurd hx List.not_mem_nil⟩
  · rw [htype]
    dsimp only
    cases hid : q.oracle.typeAt? f.fileName node with
    | none => exact ⟨rfl, fun x hx => absurd hx List.not_mem_nil⟩
    | some id => exact ⟨hprecedes.propertiesOf (hknows node id hid), fun x hx => ⟨id, hx⟩⟩

/-- So a call of a marker in the first files has its value when these are checked. -/
theorem value_first (m : Marker) (argument : Option Ref) :
    m.value (Program.ofFiles options (before ++ after)).oracle f.fileName argument =
      m.value (Program.ofFirst options (before ++ after) before).oracle f.fileName argument := by
  obtain ⟨hproperties, hof⟩ := argumentProperties_first options h hf argument
  have hprecedes := Program.precedes_ofFiles options h
  unfold Marker.value
  rw [hproperties]
  cases m with
  | keys => rfl
  | typeMembers =>
    refine congrArg Reified.members (List.filterMap_congr fun x hx => ?_)
    obtain ⟨id, hid⟩ := hof x hx
    unfold Marker.member?
    refine Option.map_congr fun d _ => ?_
    obtain ⟨htype, hknows⟩ := hprecedes.propertyType hid d
    rw [htype, hprecedes.typeText hknows]

/-- The first files are rewritten as they are when these are checked. -/
theorem transform_first (disk : Disk) (settings : Settings) :
    (Reifier.ofSettings (Program.ofFiles options (before ++ after)).oracle disk
        settings).transform f =
      (Reifier.ofSettings (Program.ofFirst options (before ++ after) before).oracle disk
        settings).transform f := by
  have hrewrite : (Reifier.ofSettings (Program.ofFiles options (before ++ after)).oracle disk
        settings).rewrite f.fileName =
      (Reifier.ofSettings (Program.ofFirst options (before ++ after) before).oracle disk
        settings).rewrite f.fileName := by
    funext n
    unfold Reifier.rewrite Reifier.markerOf? Marker.isCall
    simp only [Reifier.ofSettings, callee?_first options h hf, value_first options h hf]
    rfl
  unfold Reifier.transform
  rw [hrewrite]

end First

/-- **Files that come first are emitted alike** in all orders of the files behind them. -/
theorem emit_first_perm (disk : Disk) (settings : Settings) (options : CheckOptions)
    {before after after' : List SourceFile} (hperm : after'.Perm after)
    (h : ((before ++ after).map fileKey).Nodup) :
    ∃ first : List Emitted,
      first.map (·.fileName) = (before.filter (!·.isDeclarationFile)).map (·.fileName) ∧
        first <+: emit disk settings options (before ++ after) ∧
        first <+: emit disk settings options (before ++ after') := by
  have hpermAll : (before ++ after').Perm (before ++ after) := hperm.append_left before
  let first (files : List SourceFile) := (before.filter (!·.isDeclarationFile)).map fun f =>
    Emitted.ofFile ((Reifier.ofSettings (Program.ofFirst options files before).oracle disk
      settings).transform f)
  have hemit (rest : List SourceFile) (h : ((before ++ rest).map fileKey).Nodup) :
      first (before ++ rest) <+: emit disk settings options (before ++ rest) := by
    unfold emit
    rw [List.filter_append, List.map_append]
    refine ⟨_, congrArg (· ++ _) (List.map_congr_left fun f hf => ?_)⟩
    rw [transform_first options h (List.mem_of_mem_filter hf) disk settings]
  refine ⟨first (before ++ after), ?_, hemit after h, ?_⟩
  · rw [List.map_map]
    rfl
  · have hsame : first (before ++ after') = first (before ++ after) :=
      List.map_congr_left fun f _ => by rw [Program.ofFirst_perm options hpermAll h]
    exact hsame ▸ hemit after' (Sources.keys_perm hpermAll h)

/-- `export interface B { x: I; }` and `export interface I extends B { }`. -/
def exportedHeritageFile : SourceFile :=
  let act : Drafting Unit := do
    let mention ← Draft.build (Draft.typeNamed "I" [])
    let member ← Draft.build (Draft.property "x" mention)
    let base ← Draft.interfaceNamed "B" [member]
    Draft.build (Build.addFlags base .exported)
    let clause ← Draft.build (Draft.typeNamed "B" [])
    let heir ← Draft.statement do
      Build.interfaceDeclaration (← Build.identifier "I") none (some [clause]) []
    Draft.build (Build.addFlags heir .exported)
  (act .empty).2.finish "/app/types.ts"

/-- `import { keys } from "/m/index"; import { T } from "./types"; keys<T>();` -/
def importingFile (type fileName : String) : SourceFile :=
  let act : Drafting Unit := do
    let _ ← Draft.importNames ["keys"] "/m/index"
    let _ ← Draft.importNames [type] "./types"
    let argument ← Draft.build (Draft.typeNamed type [])
    let _ ← Draft.expression (← Draft.build (Draft.callNamed "keys" [argument]))
  (act .empty).2.finish fileName

/-- Where the file with `keys<B>()` comes first, `I` is looked at while `B` is in progress, and
`keys<I>()` in the other file goes without what `I` inherits. -/
theorem emit_order :
    let settings : Settings := ⟨.ofDirectory "/m", .default⟩
    let a := importingFile "B" "/app/a.ts"
    let b := importingFile "I" "/app/b.ts"
    let files := [declaringFile, exportedHeritageFile, a, b]
    let files' := [declaringFile, exportedHeritageFile, b, a]
    files'.Perm files ∧ (files.map fileKey).Nodup ∧
      ⟨"/app/b.ts", "import { I } from \"./types\";\n[];\n"⟩ ∈ emit markerDisk settings
      .default files ∧
      ⟨"/app/b.ts", "import { I } from \"./types\";\n[\"x\"];\n"⟩ ∈
        emit markerDisk settings .default files' :=
  ⟨.cons _ (.cons _ (.swap _ _ [])), by decide +kernel, by decide +kernel, by decide +kernel⟩

end TypeReify
