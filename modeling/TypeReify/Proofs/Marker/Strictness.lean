import TypeReify.Proofs.Check.Closed
import TypeReify.Proofs.Marker.Alike
import Mathlib.Data.Set.Operations

/-!
# Rewriting with and without strictness

The same files are rewritten by a program that was checked strictly and by one that was not. Both
erase the same imports and replace the same calls (`Reifier.erased`, `Reifier.replaced`), and the
literals differ in one thing only: where a property is optional, the strict one adds `undefined` to
the text of its type (`Program.strictText`).

The option is `strict_null_checks`, and `lower_type_members` writes what
`type_of_symbol_at_location` answers. `lower_keys` does not ask for types.

Results:
* `signature?_strictness`, `typeAt?_strictness`, `properties_strictness`: what the programs answer.
* `strictText_eq`: the text of a property in strict checking.
* `Reifier.strictness`: what becomes of the files.
* `emit_strictness`: the same is emitted where no property that is listed with its type is optional.
-/

namespace TypeReify

open Check
open Syntax (SourceFile NodeId Ref Arena)
open TypeReify.Types

/-! ## What the programs answer -/

namespace Program

/-- The text of a property as strict checking writes it, told by a program that was not checked
strictly: that of its type, or of its type united with `undefined` if it is optional. -/
def strictText (p : Program) (q : Property) : String :=
  if q.optional then
    let wide := p.interner.union [q.type, TypeId.undefined]
    wide.2.typeText renderDepth wide.1
  else p.interner.typeText renderDepth q.type

section Answers

variable {lenient strict : Bool} (hstrict : lenient = true → strict = true)
  (files : List SourceFile)
include hstrict

/-- The facts of a file are the same. -/
theorem facts?_strictness (fileName : String) :
    Option.Rel (SameFacts (ofFiles ⟨lenient⟩ files).state (ofFiles ⟨strict⟩ files).state)
      ((ofFiles ⟨lenient⟩ files).facts? fileName) ((ofFiles ⟨strict⟩ files).facts? fileName) :=
  rel_lookup (K := fun k k' => k' = k) (fun _ _ hk => by rw [hk]) (alike_ofFiles hstrict files).2

theorem signature?_strictness (fileName : String) (node : NodeId) :
    (ofFiles ⟨strict⟩ files).signature? fileName node =
      (ofFiles ⟨lenient⟩ files).signature? fileName node := by
  unfold signature?
  rcases rel_cases (facts?_strictness hstrict files fileName) with ⟨hn, hn'⟩ |
    ⟨facts, facts', hn, hn', h⟩
  · rw [hn, hn']
  · rw [hn, hn']
    exact congrArg (fun signatures : Std.TreeMap NodeId Signature => signatures[node]?) h.signatures

theorem typeAt?_strictness (fileName : String) (node : NodeId) :
    Option.Rel (SameType (ofFiles ⟨lenient⟩ files).state (ofFiles ⟨strict⟩ files).state)
      ((ofFiles ⟨lenient⟩ files).typeAt? fileName node)
      ((ofFiles ⟨strict⟩ files).typeAt? fileName node) := by
  unfold typeAt?
  rcases rel_cases (facts?_strictness hstrict files fileName) with ⟨hn, hn'⟩ |
    ⟨facts, facts', hn, hn', h⟩
  · rw [hn, hn']
    exact .none
  · rw [hn, hn']
    exact h.types node

/-- A type argument denotes a type with the same properties. -/
theorem properties_strictness (fileName : String) (argument : Option Ref) :
    SameShape strict (ofFiles ⟨lenient⟩ files).state (ofFiles ⟨strict⟩ files).state
      (Marker.argumentProperties (ofFiles ⟨lenient⟩ files).oracle fileName argument)
      (Marker.argumentProperties (ofFiles ⟨strict⟩ files).oracle fileName argument) := by
  unfold Marker.argumentProperties
  rcases argument with _ | _ | node
  · exact .nil
  · exact .nil
  · rcases rel_cases (typeAt?_strictness hstrict files fileName node) with ⟨hn, hn'⟩ |
      ⟨x, x', hn, hn', hx⟩
    · simp only [oracle, hn, hn', Option.map_none, Option.getD_none, List.Forall₂.nil]
    · simp only [oracle, hn, hn', Option.map_some, Option.getD_some]
      exact (alike_ofFiles hstrict files).1.propertiesOf hx

end Answers

theorem propertyType_lenient (files : List SourceFile) (q : Property) (d : DeclId) :
    (ofFiles ⟨false⟩ files).propertyType q d = q.type := by
  show (if q.optional && false then _ else _) = q.type
  rw [Bool.and_false, if_neg Bool.false_ne_true]

/-- **The text of a property in strict checking**, told by the program that was not checked
strictly. -/
theorem strictText_eq (files : List SourceFile) {q q' : Property}
    (hq : SameProperty true (ofFiles ⟨false⟩ files).state (ofFiles ⟨true⟩ files).state q q')
    (d : DeclId) : (ofFiles ⟨true⟩ files).oracle.typeText
      ((ofFiles ⟨true⟩ files).oracle.propertyType q' d) = (ofFiles ⟨false⟩ files).strictText q := by
  have hstrict : false = true → true = true := fun _ => rfl
  obtain ⟨halike, -⟩ := alike_ofFiles hstrict files
  have hoptional : q'.optional = q.optional := by rw [hq.alike.rest]
  cases ho : q.optional with
  | false =>
    have htype : (ofFiles ⟨true⟩ files).oracle.propertyType q' d = q'.type :=
      propertyType_of_required _ (hoptional.trans ho) d
    rw [htype, strictText, ho]
    exact (hq.alike.type.render _).symm
  | true =>
    obtain ⟨wide, hwide⟩ : ∃ wide, (ofFiles ⟨true⟩ files).state.widened[q'.type]? = some wide :=
      ⟨_, Std.TreeMap.getElem?_eq_some_getElem (hq.recorded.widened rfl (hoptional.trans ho))⟩
    obtain ⟨-, hunion⟩ := halike.widened q'.type wide hwide
    have htype : (ofFiles ⟨true⟩ files).oracle.propertyType q' d = wide := by
      show (if q'.optional && true then _ else _) = wide
      rw [hoptional, ho, Bool.true_and, if_pos rfl, hwide, Option.getD_some]
    have hsame := Interner.same_union halike.left.types halike.right.types
      (same_undefined hq.alike.type)
    rw [hunion] at hsame
    rw [htype, strictText, ho]
    exact (hsame.render _).symm

end Program

/-- The members that are listed, where it is known how the type of each property is written. -/
theorem members_eq {o : Oracle} {text : Property → String} {ps ps' : List Property}
    (h : List.Forall₂ (fun q q' => q'.name = q.name ∧ q'.declarations = q.declarations ∧
      ∀ d, o.typeText (o.propertyType q' d) = text q) ps ps') :
    ps'.filterMap (Marker.member? o) =
      (ps.filter (!·.declarations.isEmpty)).map fun q => (q.name, text q) := by
  induction h with
  | nil => rfl
  | @cons q q' _ _ hq _ ih =>
    obtain ⟨hname, hdeclarations, htext⟩ := hq
    rw [List.filterMap_cons, List.filter_cons, ih, Marker.member?, hdeclarations]
    cases q.declarations with
    | nil => rfl
    | cons d ds => simp [hname, htext]

/-! ## What becomes of the files -/

namespace Reifier

/-- The imports of a file that a rewrite erases. -/
def erased (r : Reifier) (f : SourceFile) : Set NodeId :=
  {n | ∃ root, f.root = some root ∧ r.Stands f.fileName f.arena root n ∧
    r.importsMarkers f.arena f.fileName (some n) = true}

/-- The calls of a file that a rewrite replaces, and the markers that they call. -/
def replaced (r : Reifier) (f : SourceFile) : Set (NodeId × Marker) :=
  {x | ∃ root, f.root = some root ∧ r.Stands f.fileName f.arena root x.1 ∧
    r.markerOf? f.arena f.fileName (some x.1) = some x.2}

theorem Stands.congr {r r' : Reifier} {fileName : String} {a : Arena} {root n : NodeId}
    (hi : ∀ n, r'.importsMarkers a fileName n = r.importsMarkers a fileName n)
    (hm : ∀ n, r'.markerOf? a fileName n = r.markerOf? a fileName n)
    (h : Stands r fileName a root n) : Stands r' fileName a root n := by
  induction h with
  | root => exact .root
  | child _ hin hmn hp hc ih => exact .child ih ((hi _).trans hin) ((hm _).trans hmn) hp hc

section Congr

variable {r r' : Reifier} {f : SourceFile}
  (hi : ∀ n, r'.importsMarkers f.arena f.fileName n = r.importsMarkers f.arena f.fileName n)
  (hm : ∀ n, r'.markerOf? f.arena f.fileName n = r.markerOf? f.arena f.fileName n)
include hi hm

theorem stands_iff {root n : NodeId} :
    Stands r' f.fileName f.arena root n ↔ Stands r f.fileName f.arena root n :=
  ⟨.congr (fun n => (hi n).symm) fun n => (hm n).symm, .congr hi hm⟩

/-- What is erased and replaced depends on what is taken for imports and calls of the markers. -/
theorem erased_congr : r'.erased f = r.erased f := by
  ext n
  simp only [erased, Set.mem_ofPred_eq, stands_iff hi hm, hi]

theorem replaced_congr : r'.replaced f = r.replaced f := by
  ext x
  simp only [replaced, Set.mem_ofPred_eq, stands_iff hi hm, hm]

end Congr

/-- Whether checking was strict or not, the same calls are taken for marker calls. -/
theorem markerOf?_strictness (disk : Disk) (settings : Settings)
    (files : List SourceFile) (a : Arena) (fileName : String) (n : Ref) :
    (ofSettings (Program.ofFiles ⟨true⟩ files).oracle disk settings).markerOf? a fileName n =
      (ofSettings (Program.ofFiles ⟨false⟩ files).oracle disk settings).markerOf? a fileName n := by
  have hstrict : false = true → true = true := fun _ => rfl
  have hsites := (Program.alike_ofFiles hstrict files).1.sites
  have hsignature : (Program.ofFiles ⟨true⟩ files).oracle.signature? fileName =
      (Program.ofFiles ⟨false⟩ files).oracle.signature? fileName :=
    funext (Program.signature?_strictness hstrict files fileName)
  have hdeclaration : (Program.ofFiles ⟨true⟩ files).oracle.declaration? =
      (Program.ofFiles ⟨false⟩ files).oracle.declaration? := by
    simp only [Program.oracle, hsites]
  have hcallee : Marker.callee? (Program.ofFiles ⟨true⟩ files).oracle a fileName n =
      Marker.callee? (Program.ofFiles ⟨false⟩ files).oracle a fileName n := by
    rw [Marker.callee?, Marker.callee?, hsignature, hdeclaration]
  unfold markerOf? Marker.isCall
  exact congrArg (Marker.all.find? ·) (funext fun m => by rw [ofSettings, ofSettings, hcallee])

/-- The properties of a type argument that `typeMembers` lists. -/
def declaredProperties (r : Reifier) (fileName : String) (argument : Option Ref) : List Property :=
  (Marker.argumentProperties r.oracle fileName argument).filter (!·.declarations.isEmpty)

section Values

variable (disk : Disk) (settings : Settings) (files : List SourceFile) (fileName : String)
  (argument : Option Ref)

theorem keys_strictness :
    Marker.keys.value (Program.ofFiles ⟨true⟩ files).oracle fileName argument =
      Marker.keys.value (Program.ofFiles ⟨false⟩ files).oracle fileName argument := by
  have hstrict : false = true → true = true := fun _ => rfl
  have hproperties := Program.properties_strictness hstrict files fileName argument
  exact congrArg Reified.names
    (map_eq_of_forall₂ (fun q q' hq => hq.alike.name_eq.symm) hproperties).symm

/-- Without strictness the members are listed with the texts of their types. -/
theorem typeMembers_lenient :
    let p := Program.ofFiles ⟨false⟩ files
    Marker.typeMembers.value p.oracle fileName argument =
      .members (((ofSettings p.oracle disk settings).declaredProperties fileName argument).map
        fun q => (q.name, p.interner.typeText renderDepth q.type)) :=
  congrArg Reified.members (members_eq (List.forall₂_same.2 fun q _ =>
    ⟨rfl, rfl, fun d => congrArg ((Program.ofFiles ⟨false⟩ files).interner.typeText renderDepth)
      (Program.propertyType_lenient files q d)⟩))

theorem typeMembers_strict :
    let p := Program.ofFiles ⟨false⟩ files
    Marker.typeMembers.value (Program.ofFiles ⟨true⟩ files).oracle fileName argument =
      .members (((ofSettings p.oracle disk settings).declaredProperties fileName argument).map
        fun q => (q.name, p.strictText q)) := by
  have hstrict : false = true → true = true := fun _ => rfl
  have hproperties := Program.properties_strictness hstrict files fileName argument
  refine congrArg Reified.members (members_eq (hproperties.imp fun q q' hq => ⟨?_, ?_, ?_⟩))
  · exact hq.alike.name_eq
  · rw [hq.alike.rest]
  · exact Program.strictText_eq files hq

end Values

/-- **Strictness changes the text of optional properties only.** Checked strictly or not, the same
imports are erased and the same calls replaced, in files whatsoever. A call of `keys` has the same
value; a call of `typeMembers` lists the same names in the same order, with the same texts where a
property is not optional, and else with the text of its type united with `undefined`. -/
theorem strictness (disk : Disk) (settings : Settings) (files : List SourceFile) :
    let p := Program.ofFiles ⟨false⟩ files
    let r := ofSettings p.oracle disk settings
    let r' := ofSettings (Program.ofFiles ⟨true⟩ files).oracle disk settings
    (∀ f, r'.erased f = r.erased f ∧ r'.replaced f = r.replaced f) ∧
      ∀ fileName argument,
        let declared := (Marker.argumentProperties r.oracle fileName argument).filter
          (!·.declarations.isEmpty)
        Marker.keys.value r'.oracle fileName argument = Marker.keys.value r.oracle
          fileName argument ∧
          Marker.typeMembers.value r.oracle fileName argument =
            .members (declared.map fun q => (q.name, p.interner.typeText renderDepth q.type)) ∧
          Marker.typeMembers.value r'.oracle fileName argument =
            .members (declared.map fun q => (q.name, p.strictText q)) := by
  intro p r r'
  have hi (f : SourceFile) (n : Ref) : r'.importsMarkers f.arena f.fileName n =
      r.importsMarkers f.arena f.fileName n := importsMarkers_ofSettings _ _ disk settings _ _ _
  have hm (f : SourceFile) (n : Ref) : r'.markerOf? f.arena f.fileName n =
      r.markerOf? f.arena f.fileName n := markerOf?_strictness disk settings files _ _ _
  exact ⟨fun f => ⟨erased_congr (hi f) (hm f), replaced_congr (hi f) (hm f)⟩,
    fun fileName argument => ⟨keys_strictness files fileName argument,
      typeMembers_lenient disk settings files fileName argument,
      typeMembers_strict disk settings files fileName argument⟩⟩

end Reifier

/-- **The same is emitted strict or not**, if no call of `typeMembers` in the files lists an
optional property. -/
theorem emit_strictness (disk : Disk) (settings : Settings) (files : List SourceFile)
    (ha : ∀ f ∈ files, f.arena.WellFormed)
    (hrequired : let r := Reifier.ofSettings (Program.ofFiles ⟨false⟩ files).oracle disk settings
      ∀ f ∈ files, f.isDeclarationFile = false → ∀ n,
        r.markerOf? f.arena f.fileName (some n) = some .typeMembers →
          ∀ q ∈ r.declaredProperties f.fileName (Reifier.typeArgument? f.arena (some n)),
            q.optional = false) :
    emit disk settings ⟨true⟩ files = emit disk settings ⟨false⟩ files := by
  refine List.map_congr_left fun f hf => congrArg Emitted.ofFile ?_
  obtain ⟨hmem, hcode⟩ := List.mem_filter.1 hf
  refine Reifier.transform_congr (ha f hmem) fun root n hroot hn => ⟨?_, ?_, fun m hm => ?_⟩
  · exact Reifier.importsMarkers_ofSettings _ _ disk settings _ _ _
  · exact Reifier.markerOf?_strictness disk settings files _ _ _
  · cases m with
    | keys => exact Reifier.keys_strictness files _ _
    | typeMembers =>
      have hplain := hrequired f hmem (by simpa using hcode) n hm
      rw [Reifier.ofSettings, Reifier.ofSettings, Reifier.typeMembers_strict disk settings,
        Reifier.typeMembers_lenient disk settings]
      refine congrArg Reified.members (List.map_congr_left fun q hq => ?_)
      rw [Program.strictText, hplain q hq, if_neg Bool.false_ne_true]

end TypeReify
