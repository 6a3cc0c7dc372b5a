import TypeReify.Proofs.Marker.Opening
import TypeReify.Proofs.Text.Literal
import TypeReify.Proofs.Text.NameCharacters

/-!
# Keys of the literals of marker calls

A call of `typeMembers` becomes an object literal. A key of it stands without quotes if the name of
the property is a text that needs none, and is a string literal otherwise. Which texts need no
quotes is told by properties of characters that are not those of the grammar, so some keys are
neither names nor string literals.

This is about `property_key` and `is_identifier_text`, which asks `is_alphabetic` and `is_numeric`.

Results:
* `print_members`: the text of the object literal.
* `Key`: which keys are names, and which are string literals of the property name.
* `emit_keys`: so are the keys in the files that are emitted.
* `emit_keys_square`: a key that is no name stands without quotes.

Out of scope: reserved words, which may stand as property names.
-/

namespace TypeReify

open Check Scope Syntax Syntax.Arena

/-! ## The text of an object literal -/

namespace Reified

/-- What is written for the name of a property. -/
def keyText (name : String) : String :=
  if Text.isIdentifierText name then name else Text.Quoted.literal name

def memberText (p : String × String) : String := keyText p.1 ++ ": " ++ Text.Quoted.literal p.2

/-- What is written for property names and the texts of their types. -/
def membersText (pairs : List (String × String)) : String :=
  if pairs.isEmpty then "\x7b\x7d" else "\x7b " ++ ", ".intercalate
    (pairs.map memberText) ++ " \x7d"

variable {b : Arena}

/-- A node whose tree is that of a synthesized node has its content. -/
theorem content?_of_synthesized (hb : b.WellFormed) {y : NodeId} {kind : Kind}
    {p : Payload (Option Tree)} (h : b.tree (some y) = some (.synthesized kind p)) :
    ∃ hd q, b.content? (some y) = some (hd, q) ∧ hd.kind = kind ∧ hd.flags = .synthesized ∧
      q.map b.tree = p := by
  rcases tree_cases hb (some y) with ⟨-, hnone | ⟨hd, hbare⟩⟩ | ⟨i, hd, q, hi, hq, hnode⟩
  · exact absurd (hnone.symm.trans h) (by simp)
  · exact absurd (hbare.symm.trans h) (by simp [Tree.ofHeader, Tree.synthesized])
  · obtain rfl := Option.some.inj hi
    obtain ⟨hkind, hflags, -, -, hpayload⟩ := Tree.node.inj (Option.some.inj (hnode.symm.trans h))
    exact ⟨hd, q, hq, hkind, hflags, Option.some.inj hpayload⟩

theorem print_text (hb : b.WellFormed) {y : NodeId} {s : String}
    (h : b.tree (some y) = some (textTree s)) (levels indent : Nat) :
    b.print (levels + 1) indent (some y) = Text.Quoted.literal s := by
  obtain ⟨hd, q, hq, hkind, -, hmap⟩ := content?_of_synthesized hb h
  rw [print_of_content? hq]
  cases q with
  | literal text =>
    obtain rfl := Payload.literal.inj hmap
    exact if_pos hkind
  | _ => cases hmap

theorem propertyName_key (hb : b.WellFormed) {r : Ref} {name : String}
    (h : b.tree r = some (keyTree name)) : b.propertyName r = keyText name := by
  obtain ⟨y, rfl⟩ : ∃ y, r = some y := by
    refine Option.ne_none_iff_exists'.1 ?_
    rintro rfl
    exact absurd (b.tree_none.symm.trans h) (by simp)
  unfold keyTree at h
  unfold keyText
  split_ifs at h ⊢
  · obtain ⟨hd, q, hq, -, -, hmap⟩ := content?_of_synthesized hb h
    cases q with
    | identifier text =>
      obtain rfl := Payload.identifier.inj hmap
      simp only [propertyName, hq]
    | _ => cases hmap
  · obtain ⟨hd, q, hq, hkind, -, hmap⟩ := content?_of_synthesized hb h
    cases q with
    | literal text =>
      obtain rfl := Payload.literal.inj hmap
      simp only [propertyName, hq]
      exact if_pos hkind
    | _ => cases hmap

theorem print_assignment (hb : b.WellFormed) {y levels : Nat} {p : String × String}
    (h : b.tree (some y) = some (assignmentTree p.1 p.2)) (hy : y < levels) (indent : Nat) :
    b.print levels indent (some y) = memberText p := by
  obtain ⟨hd, q, hq, hkind, -, hmap⟩ := content?_of_synthesized hb h
  cases q with
  | assignment name value =>
    obtain ⟨hname, hvalue⟩ := Payload.assignment.inj hmap
    obtain ⟨i, rfl, -, hi⟩ := Reifier.exists_node hb hq (by simp [Payload.children]) hvalue
    obtain ⟨levels, rfl⟩ : ∃ k, levels = k + 2 := ⟨levels - 2, by omega⟩
    have hlong : hd.kind ≠ .form .shorthandAssignment := by
      rw [hkind]
      decide
    rw [print_of_content? hq, nodeText, if_neg hlong, propertyName_key hb hname,
      print_text hb hvalue]
    rfl
  | _ => cases hmap

theorem map_print_assignments (hb : b.WellFormed) {levels : Nat} {items : List Ref}
    {pairs : List (String × String)}
    (h : items.map b.tree = pairs.map fun p => some (assignmentTree p.1 p.2))
    (hlt : ∀ i : Nat, some i ∈ items → i < levels) (indent : Nat) :
    items.map (b.print levels indent) = pairs.map memberText := by
  induction items generalizing pairs with
  | nil =>
    cases pairs with
    | nil => rfl
    | cons p pairs => cases h
  | cons r items ih =>
    cases pairs with
    | nil => cases h
    | cons p pairs =>
      obtain ⟨hr, hitems⟩ := List.cons.inj h
      cases r with
      | none => exact absurd (b.tree_none.symm.trans hr) (by simp)
      | some i =>
        rw [List.map_cons, List.map_cons, print_assignment hb hr (hlt i List.mem_cons_self) indent,
          ih hitems fun i hi => hlt i (List.mem_cons_of_mem _ hi)]

/-- **The text of the object literal that stands for members.** -/
theorem print_members (hb : b.WellFormed) {y levels : Nat} {pairs : List (String × String)}
    (h : b.tree (some y) = some (members pairs).tree) (hy : y < levels) (indent : Nat) :
    b.print levels indent (some y) = membersText pairs := by
  obtain ⟨hd, q, hq, hkind, hflags, hmap⟩ := content?_of_synthesized hb h
  cases q with
  | elements items =>
    have htrees : items.map b.tree = pairs.map fun p => some (assignmentTree p.1 p.2) :=
      Payload.elements.inj hmap
    obtain ⟨levels, rfl⟩ : ∃ k, levels = k + 1 := ⟨levels - 1, by omega⟩
    have hempty : items.isEmpty = pairs.isEmpty := by
      rw [← List.isEmpty_map (f := b.tree), htrees, List.isEmpty_map]
    have htexts : items.map (b.print levels indent) = pairs.map memberText := by
      refine map_print_assignments hb htrees (fun i hi => ?_) indent
      exact Nat.lt_of_lt_of_le (hb.lt_of_mem_children hq hi) (Nat.le_of_lt_succ hy)
    have hline : hd.has .multiLine = false := by
      rw [Header.has, hflags]
      decide
    rw [print_of_content? hq, nodeText, if_pos hkind, bracketed, hempty, hline, commaList, htexts,
      if_neg Bool.false_ne_true, membersText]
    split_ifs
    · rfl
    · rw [String.append_assoc]
      rfl
  | _ => cases hmap

/-! ## Keys -/

/-- The key is written for the property name: as it stands if the name needs no quotes, where it is
a name but for its first character and stray ones, and otherwise as a string literal of the property
name, but for a NUL in front of a digit. -/
structure Key (key name : String) : Prop where
  bare : Text.isIdentifierText name = true → key = name ∧
    (Text.IdentifierName key.toList ↔
      (∀ c ∈ name.toList.head?, Text.inRanges Text.idContinueRanges c = false) ∧
        ∀ c ∈ name.toList, Text.inRanges Text.strayRanges c = false)
  quoted : Text.isIdentifierText name = false → key.toList.head? = some '"' ∧
    ∀ us, Text.Literal.value? key.toList = some us ↔
      us = Text.units name ∧ Text.Literal.Plain name.toList

theorem key_keyText (name : String) : Key (keyText name) name := by
  unfold keyText
  constructor
  · intro h
    rw [if_pos h]
    exact ⟨rfl, Text.identifierName_iff h⟩
  · intro h
    rw [h, if_neg Bool.false_ne_true]
    exact ⟨by simp [Text.Quoted.literal, Text.Quoted.toList_quote],
      fun us => Text.Literal.value?_literal⟩

end Reified

/-! ## Emitted files -/

/-- **Which keys are names, and which are string literals of the property name.** In a file that is
emitted, a call of `typeMembers` is written as an object literal, with a key and a string literal
for every member. A key without quotes is the name of the property, and is a name of the grammar
just if no character of it is a stray one and the first one may begin a name. All other keys are
string literals of the name of the property, and all values are string literals of their texts,
unless a digit stands behind a NUL. -/
theorem emit_keys (disk : Disk) (settings : Settings) (options : CheckOptions)
    {files : List SourceFile} {f : SourceFile} {root n : NodeId} (hf : f ∈ files)
    (ha : f.arena.WellFormed) (hroot : f.root = some root) (hcode : f.isDeclarationFile = false)
    (hsource : f.arena.kind? f.root = some (.form .sourceFile)) :
    let r := Reifier.ofSettings (Program.ofFiles options files).oracle disk settings
    r.Stands f.fileName f.arena root n →
      r.markerOf? f.arena f.fileName (some n) = some .typeMembers →
      Emitted.ofFile (r.transform f) ∈ emit disk settings options files ∧
        ∃ top y pairs, (r.transform f).root = some top ∧ Reaches (r.transform f).arena top y ∧
          r.image f.fileName f.arena (some n) = some ((r.transform f).arena.tree (some y)) ∧
          Marker.typeMembers.value r.oracle f.fileName (Reifier.typeArgument? f.arena (some n)) =
            .members pairs ∧
          (∀ levels indent, y < levels →
            (r.transform f).arena.print levels indent (some y) = Reified.membersText pairs) ∧
          ∀ p ∈ pairs, Reified.Key (Reified.keyText p.1) p.1 ∧
            ∀ us, Text.Literal.value? (Text.Quoted.literal p.2).toList = some us ↔
              us = Text.units p.2 ∧ Text.Literal.Plain p.2.toList := by
  intro r hs hm
  refine ⟨ofFile_mem_emit disk settings options hf hcode, ?_⟩
  have hb := (Reifier.transform_appends r ha).wellFormed ha
  have himage : r.image f.fileName f.arena (some n) =
      some (some (Reified.members (Marker.argumentProperties r.oracle f.fileName
        (Reifier.typeArgument? f.arena (some n)) |>.filterMap
        (Marker.member? r.oracle))).tree) := by
    rw [Reifier.image_eq ha, Reifier.imageOver_eq, (Reifier.Leftmost.marker hm).importsMarkers,
      if_neg Bool.false_ne_true, hm]
    rfl
  obtain ⟨top, y, htop, hy, -, htree⟩ := hs.exists_transform ha hroot hsource himage
  refine ⟨top, y, _, htop, hy, by rw [himage, htree], rfl, fun levels indent hlevels => ?_,
    fun p _ => ⟨Reified.key_keyText p.1, fun us => Text.Literal.value?_literal⟩⟩
  exact Reified.print_members hb htree hlevels indent

/-- `const v = typeMembers<P>();`, with an import of the marker before it and an interface `P` that
has one property, of type `string`. -/
def propertyFile (name : String) : SourceFile :=
  let act : Drafting Unit := do
    let _ ← Draft.importNames ["typeMembers"] "/m/index"
    let text ← Draft.build (Build.token .stringKeyword)
    let property ← Draft.build (Draft.quotedProperty name text)
    let _ ← Draft.interfaceNamed "P" [property]
    let argument ← Draft.build (Draft.typeNamed "P" [])
    let call ← Draft.build (Draft.callNamed "typeMembers" [argument])
    let _ ← Draft.constant "v" call
  (act .empty).2.finish "/app/main.ts"

theorem emit_keys_propertyFile :
    let settings : Settings := ⟨.ofDirectory "/m", .default⟩
    let f := propertyFile "data-id"
    let r := Reifier.ofSettings (Program.ofFiles .default [membersFile, f]).oracle
      markerDisk settings
    r.Stands f.fileName f.arena 18 14 ∧
      r.markerOf? f.arena f.fileName (some 14) = some .typeMembers ∧
      Emitted.ofFile (r.transform f) ∈ emit markerDisk settings .default [membersFile, f] ∧
        ∃ top y pairs, (r.transform f).root = some top ∧ Reaches (r.transform f).arena top y ∧
          r.image f.fileName f.arena (some 14) = some ((r.transform f).arena.tree (some y)) ∧
          Marker.typeMembers.value r.oracle f.fileName (Reifier.typeArgument? f.arena (some 14)) =
            .members pairs ∧
          (∀ levels indent, y < levels →
            (r.transform f).arena.print levels indent (some y) = Reified.membersText pairs) ∧
          ∀ p ∈ pairs, Reified.Key (Reified.keyText p.1) p.1 ∧
            ∀ us, Text.Literal.value? (Text.Quoted.literal p.2).toList = some us ↔
              us = Text.units p.2 ∧ Text.Literal.Plain p.2.toList := by
  intro settings f r
  have hstatement : r.Stands f.fileName f.arena 18 17 :=
    Reifier.Stands.root.inside (by decide +kernel) (by decide +kernel) (by decide +kernel)
  have hdeclaration : r.Stands f.fileName f.arena 18 16 :=
    hstatement.inside (by decide +kernel) (by decide +kernel) (by decide +kernel)
  have hcall : r.Stands f.fileName f.arena 18 14 :=
    hdeclaration.inside (by decide +kernel) (by decide +kernel) (by decide +kernel)
  have hmarker : r.markerOf? f.arena f.fileName (some 14) = some .typeMembers := by decide +kernel
  exact ⟨hcall, hmarker, @emit_keys markerDisk settings .default [membersFile, f] f 18 14 (by simp)
    (by decide +kernel) (by decide +kernel) (by decide +kernel) (by decide +kernel) hcall hmarker⟩

/-- A key that is no name stands without quotes. -/
theorem emit_keys_square :
    let settings : Settings := ⟨.ofDirectory "/m", .default⟩
    emit markerDisk settings .default [membersFile, propertyFile "x²"] =
        [⟨"/app/main.ts",
          "interface P \x7b\n    \"x²\": string;\n\x7d\nconst v = \x7b x²: \"string\" \x7d;\n"⟩] ∧
      Text.isIdentifierText "x²" = true ∧ ¬ Text.IdentifierName "x²".toList := by
  refine ⟨by decide +kernel, by decide +kernel, ?_⟩
  rw [Text.identifierName_iff (by decide +kernel)]
  rintro ⟨-, hstray⟩
  exact absurd (hstray '²' (by decide +kernel)) (by decide +kernel)

end TypeReify
