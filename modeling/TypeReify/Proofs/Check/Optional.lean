import TypeReify.Proofs.Check.Closed
import TypeReify.Syntax.Draft

/-!
# Optional properties

In strict checking an optional property reads as its type or `undefined`. This type is formed when
the property enters a shape and is kept in a table under the declared type; when the program is
asked later, no further types are formed. Properties are also inherited, merged and found through
aliases, and in all these places the table has an entry for them.

This is about `type_of_symbol_at_location`, which falls back to the declared type where
`optional_types` has no entry. It never has to.

**`Program.propertyType_optional`**: what an optional property reads as.

Results:
* `Interner.flatten_union_undefined`: the members of a type united with `undefined`.
* `State.Alike.recorded`: all properties of all types are recorded.
-/

namespace TypeReify

open Check
open Syntax
open TypeReify.Types

namespace Types.Interner

variable {t : Interner} {id : Nat} {wide : TypeId}

/-- United with `undefined`, a type keeps its members in order, and `undefined` comes last unless it
is among them. -/
theorem unionMembers_undefined (hid : (t.flatten id).Nodup) :
    t.unionMembers [id, TypeId.undefined] = t.flatten id ++
      if TypeId.undefined ∈ t.flatten id then [] else [TypeId.undefined] := by
  have hundefined : t.flatten TypeId.undefined = [TypeId.undefined] := rfl
  have hfirst : firsts [] (t.flatten id) = t.flatten id := firsts_of_nodup hid
  rw [unionMembers, List.flatMap_cons, List.flatMap_singleton, hundefined, firsts_append, hfirst]
  by_cases hmem : TypeId.undefined ∈ t.flatten id
  · rw [if_pos hmem, firsts, if_pos (List.contains_iff_mem.2 hmem), firsts, List.append_nil]
  · rw [if_neg hmem, firsts, if_neg (mt List.contains_iff_mem.1 hmem), firsts]

/-- The members of a type united with `undefined`, once the union is there. -/
theorem flatten_union_undefined (hid : (t.flatten id).Nodup)
    (hrun : t.union [id, TypeId.undefined] = (wide, t)) :
    t.flatten wide = t.flatten id ++
      if TypeId.undefined ∈ t.flatten id then [] else [TypeId.undefined] := by
  have hmembers := unionMembers_undefined hid
  have hundefined : TypeId.undefined ∈ t.unionMembers [id, TypeId.undefined] := by
    rw [hmembers]
    split
    · rename_i hmem
      exact List.mem_append_left _ hmem
    · exact List.mem_append_right _ List.mem_cons_self
  rw [← hmembers]
  unfold union at hrun
  split at hrun
  · rename_i hnil
    exact absurd (hnil ▸ hundefined) List.not_mem_nil
  · rename_i x hone
    obtain rfl := List.mem_singleton.1 (hone ▸ hundefined)
    rw [hone, ← (Prod.mk.inj hrun).1]
    rfl
  · have hget : (t.intern (.union (t.unionMembers [id, TypeId.undefined]))).2.get?
        (t.intern (.union (t.unionMembers [id, TypeId.undefined]))).1 = some (.union _) :=
      get?_intern nofun
    rw [hrun] at hget
    rw [flatten, hget]

end Types.Interner

namespace Check

variable {strict : Bool} {st st' : State} (h : st.Alike strict st')
include h

/-- Of a state that is alike to some other, all properties of all types are recorded. -/
theorem State.Alike.recorded (id : TypeId) : ∀ q ∈ st'.propertiesOf id, Recorded strict st' q :=
  forall_propertiesOf (P := fun shape => ∀ q ∈ shape, Recorded strict st' q)
    (fun _ hq => absurd hq List.not_mem_nil)
    (fun _ _ hid => h.founded _ _ (Interner.lookup_of_get? hid))
    (fun _ _ hshape => Program.recorded_of_shape? h hshape) typeDepth id

/-- No member of a type is repeated. -/
theorem State.Alike.nodup_flatten (id : TypeId) : (st'.interner.flatten id).Nodup := by
  unfold Interner.flatten
  split
  · rename_i members hid
    exact h.founded id _ (Interner.lookup_of_get? hid)
  · exact List.nodup_singleton id

end Check

namespace Program

/-- **What an optional property reads as** in strict checking, wherever it is asked for: its
declared type united with `undefined`. The union is in the table, so that no other type is answered
in its place, and forming it again adds nothing. -/
theorem propertyType_optional (files : List SourceFile) {id : TypeId} {q : Property}
    (hq : q ∈ (ofFiles ⟨true⟩ files).oracle.properties id) (ho : q.optional = true) (d : DeclId) :
    let p := ofFiles ⟨true⟩ files
    let wide := p.oracle.propertyType q d
    p.state.widened[q.type]? = some wide ∧
      p.interner.union [q.type, TypeId.undefined] = (wide, p.interner) ∧
      p.interner.flatten wide = p.interner.flatten q.type ++
        if TypeId.undefined ∈ p.interner.flatten q.type then [] else [TypeId.undefined] := by
  intro p wide
  obtain ⟨halike, -⟩ := alike_ofFiles (fun h : true = true => h) files
  obtain ⟨type, htype⟩ : ∃ type, p.state.widened[q.type]? = some type :=
    ⟨_, Std.TreeMap.getElem?_eq_some_getElem ((halike.recorded id q hq).widened rfl ho)⟩
  have hwide : wide = type := by
    show (if q.optional && true then _ else _) = type
    rw [ho, Bool.true_and, if_pos rfl, htype, Option.getD_some]
  obtain ⟨-, hunion⟩ := halike.widened q.type type htype
  rw [hwide]
  exact ⟨htype, hunion, Interner.flatten_union_undefined (halike.nodup_flatten q.type) hunion⟩

/-- `interface B { x?: string | number; }` and `interface I extends B { }`, and then `keys<I>();`.
-/
def inheritingFile : SourceFile :=
  let act : Drafting Unit := do
    let text ← Draft.build (Build.token .stringKeyword)
    let number ← Draft.build (Build.token .numberKeyword)
    let either ← Draft.build (Build.unionType [some text, some number])
    let member ← Draft.build (Draft.optionalProperty "x" either)
    let _ ← Draft.interfaceNamed "B" [some member]
    let base ← Draft.build (Draft.typeNamed "B" [])
    let _ ← Draft.statement do
      Build.interfaceDeclaration (← Build.identifier "I") none (some [some base]) []
    let type ← Draft.build (Draft.typeNamed "I" [])
    let _ ← Draft.expression (← Draft.build (Draft.callNamed "keys" [some type]))
  (act .empty).2.finish "/app/main.ts"

theorem propertyType_optional_inherited :
    let p := ofFiles ⟨true⟩ [inheritingFile]
    let q : Property := ⟨"x", 102, true, false, false, [2]⟩
    q ∈ p.oracle.properties 100 ∧ p.interner.flatten 102 = [TypeId.string, TypeId.number] ∧
      p.state.widened[q.type]? = some (p.oracle.propertyType q 2) ∧
        p.interner.union [q.type, TypeId.undefined] = (p.oracle.propertyType q 2, p.interner) ∧
          p.interner.flatten (p.oracle.propertyType q 2) = p.interner.flatten q.type ++
            if TypeId.undefined ∈ p.interner.flatten q.type then [] else [TypeId.undefined] :=
  have hq : (⟨"x", 102, true, false, false, [2]⟩ : Property) ∈
      (ofFiles ⟨true⟩ [inheritingFile]).oracle.properties 100 := by decide +kernel
  ⟨hq, by decide +kernel, propertyType_optional [inheritingFile] hq rfl 2⟩

end Program

end TypeReify
