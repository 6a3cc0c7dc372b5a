import TypeReify.Proofs.Marker.Again
import TypeReify.Proofs.Syntax.Opening

/-!
# Object literals at the beginning

A call of `typeMembers` becomes an object literal wherever it stands. Where it is the leftmost node
of an expression statement, or of the body of an arrow function, the emitted text begins there with
a brace and no longer reads as an expression.

`emit_statement` and the arm of `emit_node_kind` for arrow functions write what they have without
looking at how it begins.

Results:
* `Leftmost.braced`: an expression is left beginning with a brace just if its leftmost node is.
* `emit_opening`: which statements and which bodies of arrow functions begin with a brace.
* `emit_arrow_block`: an arrow function is emitted with the text of one that has a block.


-/

namespace TypeReify

open Check Scope Syntax Syntax.Arena

namespace Reifier

variable (r : Reifier) (fileName : String) (a : Arena)

/-- **The text of `l` comes first in the text of `n`**: `n` is `l`, or leads with a child in whose
text it comes first. What stands in a marker call does not come up. -/
inductive Leftmost : NodeId → NodeId → Prop
  | marker {n : NodeId} {m : Marker} (hm : r.markerOf? a fileName (some n) = some m) : Leftmost n n
  | primary {n : NodeId} (hm : NoMarker r fileName a n)
      (hp : ∀ h p, a.content? (some n) = some (h, p) → p.Primary) : Leftmost n n
  | lead {n c l : NodeId} {h : Header} {p : Payload Ref} (hm : NoMarker r fileName a n)
      (hn : a.content? (some n) = some (h, p)) (hc : p.lead? = some (some c)) (hl : Leftmost c l) :
      Leftmost n l

/-- The node is left beginning with a brace: a call of `typeMembers`, or a node that is kept and
begins with a brace as it is. -/
def OpensBrace (l : NodeId) : Prop :=
  r.markerOf? a fileName (some l) = some .typeMembers ∨
    NoMarker r fileName a l ∧ ∃ h p, a.content? (some l) = some (h, p) ∧ p.OpensBrace h

variable {r fileName a} {b : Arena}

/-! ## What the leftmost node becomes -/

/-- Only in an expression does the text of some node come first. -/
theorem Leftmost.expression {n l : NodeId} (h : Leftmost r fileName a n l) {hd : Header}
    {p : Payload Ref} (hc : a.content? (some n) = some (hd, p)) : p.Primary ∨ p.lead? ≠ none := by
  cases h with
  | marker hm =>
    have hpool : p.pool = .calls := by
      by_contra hp
      exact absurd (hm.symm.trans (noMarker_of_pool hc hp)) (Option.some_ne_none _)
    cases p with
    | call callee _ _ => exact .inr (Option.some_ne_none callee)
    | _ => cases hpool
  | primary _ hp => exact .inl (hp hd p hc)
  | lead _ hn hlead _ =>
    obtain ⟨rfl, rfl⟩ := Prod.mk.inj (Option.some.inj (hc.symm.trans hn))
    exact .inr (hlead ▸ Option.some_ne_none _)

theorem Leftmost.importsMarkers {n l : NodeId} (h : Leftmost r fileName a n l) :
    r.importsMarkers a fileName (some n) = false := by
  refine Bool.eq_false_iff.2 fun himports => ?_
  obtain ⟨hd, clause, specifier, hc⟩ := content?_of_importsMarkers himports
  rcases h.expression hc with hprimary | hlead
  · exact hprimary
  · exact hlead rfl

theorem content?_of_elements (hb : b.WellFormed) {y : NodeId} {kind : Kind}
    {ts : List (Option Tree)} (h : b.tree (some y) = some (.synthesized kind (.elements ts))) :
    ∃ hd items, b.content? (some y) = some (hd, .elements items) ∧ hd.kind = kind := by
  rcases tree_cases hb (some y) with ⟨-, hnone | ⟨hd, hbare⟩⟩ | ⟨i, hd, p, hi, hp, hnode⟩
  · exact absurd (hnone.symm.trans h) (by simp)
  · exact absurd (hbare.symm.trans h) (by simp [Tree.ofHeader, Tree.synthesized])
  · obtain rfl := Option.some.inj hi
    obtain ⟨hkind, -, -, -, hpayload⟩ := Tree.node.inj (Option.some.inj (hnode.symm.trans h))
    cases p with
    | elements items => exact ⟨hd, items, hp, hkind⟩
    | _ => cases congrArg Payload.pool (Option.some.inj hpayload)

/-- The literal of a marker call begins with a brace just if the marker is `typeMembers`. -/
theorem braced_literal (hb : b.WellFormed) {y : NodeId} {m : Marker} {o : Oracle}
    {argument : Option Ref} (h : b.tree (some y) = some (m.value o fileName argument).tree)
    (levels indent : Nat) :
    Braced (b.print (levels + 1) indent (some y)) ↔ m = .typeMembers := by
  cases m with
  | keys =>
    obtain ⟨hd, items, hc, hk⟩ := content?_of_elements hb h
    rw [print_of_content? hc, braced_nodeText_of_primary (p := .elements items) trivial]
    exact iff_of_false (by simp [Payload.OpensBrace, hk]) (by decide)
  | typeMembers =>
    obtain ⟨hd, items, hc, hk⟩ := content?_of_elements hb h
    rw [print_of_content? hc, braced_nodeText_of_primary (p := .elements items) trivial]
    exact iff_of_true hk rfl

/-- **An expression is left beginning with a brace just if its leftmost node is.** By induction on
the way to that node: where a node leads with a child, so does what it has become. -/
theorem Leftmost.braced (ha : a.WellFormed) (hb : b.WellFormed) {n l : NodeId}
    (h : Leftmost r fileName a n l) : ∀ {y levels : Nat} (indent : Nat), y < b.size →
      (r.image fileName a (some n)).slot = b.tree (some y) → y < levels →
        (Braced (b.print levels indent (some y)) ↔ r.OpensBrace fileName a l) := by
  induction h with
  | @marker n m hm =>
    intro y levels indent hy himage hlevels
    obtain ⟨levels, rfl⟩ : ∃ k, levels = k + 1 := ⟨levels - 1, by omega⟩
    have hi := (Leftmost.marker hm).importsMarkers
    rw [image_eq ha, imageOver_eq, hi, if_neg Bool.false_ne_true, hm] at himage
    rw [braced_literal hb himage.symm]
    refine ⟨fun h => .inl (h ▸ hm), ?_⟩
    rintro (hmembers | ⟨hnone, -⟩)
    · exact Option.some.inj (hm.symm.trans hmembers)
    · exact absurd (hm.symm.trans hnone) (Option.some_ne_none m)
  | @primary n hm hp =>
    intro y levels indent hy himage hlevels
    obtain ⟨levels, rfl⟩ : ∃ k, levels = k + 1 := ⟨levels - 1, by omega⟩
    have hkept := Kept.of_image ha hb hy (Leftmost.primary hm hp).importsMarkers hm himage
    have hopens : r.OpensBrace fileName a n ↔
        ∃ h p, a.content? (some n) = some (h, p) ∧ p.OpensBrace h :=
      (or_iff_right fun h => absurd (h.symm.trans hm) (Option.some_ne_none _)).trans
        (and_iff_right hm)
    rw [hopens]
    cases hc : a.content? (some n) with
    | none =>
      obtain ⟨hd, hh⟩ := header?_of_lt hy
      have hbare : b.payload? hd = none := by
        by_contra hsome
        obtain ⟨q, hq⟩ := Option.ne_none_iff_exists'.1 hsome
        have hcontent := content?_eq_some.2 ⟨hh, hq⟩
        rw [hkept.content?_none hb hc] at hcontent
        exact absurd hcontent.symm (Option.some_ne_none _)
      simp only [Arena.print, hh, hbare]
      exact iff_of_false (not_braced_bareText hd) (by simp)
    | some content =>
      obtain ⟨hd, p⟩ := content
      obtain ⟨hd', q, hq, hk, hpq⟩ := hkept.exists_content hb hc
      have hprimary := Payload.primary_of_image hpq (hp hd p hc)
      rw [print_of_content? hq, braced_nodeText_of_primary hprimary,
        Payload.opensBrace_of_image hpq hk]
      simp
  | @lead n c l hd p hm hn hc hl ih =>
    intro y levels indent hy himage hlevels
    obtain ⟨levels, rfl⟩ : ∃ k, levels = k + 1 := ⟨levels - 1, by omega⟩
    have hkept := Kept.of_image ha hb hy (Leftmost.lead hm hn hc hl).importsMarkers hm himage
    obtain ⟨hd', q, hq, -, hpq⟩ := hkept.exists_content hb hn
    have hsize := has_some.1 (ha.has_of_mem_children hn (Payload.mem_children_of_lead? hc))
    obtain ⟨t, ht⟩ := exists_image ha hsize hl.importsMarkers
    -- The child that leads is not erased, so what it has become leads in its place.
    have hlead : q.lead?.map b.tree = some (some t) := by
      rw [← Payload.lead?_map, hpq, Payload.lead?_image, hc, Option.map_some, ht]
      rfl
    obtain ⟨k, hk, htree⟩ := Option.map_eq_some_iff.1 hlead
    obtain ⟨k, rfl, hsize', hlt⟩ := exists_node hb hq (Payload.mem_children_of_lead? hk) htree
    rw [print_of_content? hq, braced_nodeText_of_lead? hk]
    exact ih indent hsize' (by rw [ht, htree]; rfl) (by omega)

/-! ## Bodies -/

/-- What an expression has become is no statement, and is written as the body of an arrow function
as it stands. -/
theorem Leftmost.arrowBody (ha : a.WellFormed) (hb : b.WellFormed) {n l k : NodeId}
    (h : Leftmost r fileName a n l) (hk : k < b.size)
    (himage : (r.image fileName a (some n)).slot = b.tree (some k))
    (inner : (indent : Nat) → Ref → String) (indent : Nat) :
    b.arrowBody inner indent (some k) = inner indent (some k) := by
  unfold Arena.arrowBody
  split
  · rename_i hd e hc
    rcases kept_or_literal ha hb hk himage with ⟨x, hx, -, hkept⟩ | ⟨value, hvalue⟩
    · obtain rfl := Option.some.inj hx
      obtain ⟨hd', p, hp, -, -, hpq⟩ := hkept.content? hb hc
      cases p with
      | expressionStatement e' =>
        rcases h.expression hp with hprimary | hlead
        · exact hprimary.elim
        · exact absurd rfl hlead
      | _ => cases Payload.pool_eq_of_image hpq
    · rw [tree_of_content? hb hc] at hvalue
      cases value with
      | names _ =>
        cases congrArg (Option.map Payload.pool) (Tree.node.inj (Option.some.inj hvalue)).2.2.2.2
      | members _ =>
        cases congrArg (Option.map Payload.pool) (Tree.node.inj (Option.some.inj hvalue)).2.2.2.2
  · rfl

/-- The body of what a statement or an arrow function has become begins with a brace just if the
leftmost node of the body does. -/
theorem Leftmost.braced_body (ha : a.WellFormed) (hb : b.WellFormed) {s e l y : NodeId}
    (hl : Leftmost r fileName a e l) (hbody : BodyOf a s e) (hy : Kept r fileName a b s y) :
    ∃ h q, b.content? (some y) = some (h, q) ∧
      (h.kind = .form .expressionStatement ∨ h.kind = .form .arrowFunction) ∧
      ∀ levels indent, y ≤ levels → (Braced (b.bodyText (b.print levels) indent q) ↔
        r.OpensBrace fileName a l) := by
  have hi := hl.importsMarkers
  cases hbody with
  | @statement h hk hs =>
    obtain ⟨h', q, hq, hk', hpq⟩ := hy.exists_content hb hs
    cases q with
    | expressionStatement e' =>
      have himage := Payload.expressionStatement.inj hpq
      obtain ⟨i, rfl, hsize, hlt⟩ := exists_slot ha hb hs (by simp [Payload.children]) hi hq
        (by simp [Payload.children]) himage
      refine ⟨h', _, hq, .inl (hk'.trans hk), fun levels indent hlevels => ?_⟩
      rw [bodyText, braced_append (by decide)]
      exact hl.braced ha hb indent hsize himage.symm (Nat.lt_of_lt_of_le hlt hlevels)
    | _ => cases Payload.pool_eq_of_image hpq
  | @arrow h name types parameters result hk hs =>
    obtain ⟨h', q, hq, hk', hpq⟩ := hy.exists_content hb hs
    cases q with
    | function name' types' parameters' result' body' =>
      have himage := (Payload.function.inj hpq).2.2.2.2
      obtain ⟨i, rfl, hsize, hlt⟩ := exists_slot ha hb hs (by simp [Payload.children]) hi hq
        (by simp [Payload.children]) himage
      refine ⟨h', _, hq, .inr (hk'.trans hk), fun levels indent hlevels => ?_⟩
      rw [bodyText, hl.arrowBody ha hb hsize himage.symm]
      exact hl.braced ha hb indent hsize himage.symm (Nat.lt_of_lt_of_le hlt hlevels)
    | _ => cases Payload.pool_eq_of_image hpq
  | @arrowStatement h hbody name types parameters result body hk hs hbs =>
    obtain ⟨h', q, hq, hk', hpq⟩ := hy.exists_content hb hs
    cases q with
    | function name' types' parameters' result' body' =>
      have himage := (Payload.function.inj hpq).2.2.2.2
      have hbi : r.importsMarkers a fileName (some body) = false :=
        importsMarkers_of_pool hbs (by simp [Payload.pool])
      have hbm : NoMarker r fileName a body := noMarker_of_pool hbs (by simp [Payload.pool])
      obtain ⟨j, rfl, hjsize, hjlt⟩ := exists_slot ha hb hs (by simp [Payload.children]) hbi hq
        (by simp [Payload.children]) himage
      -- The statement is kept, and with it stands what its expression has become.
      have hj := Kept.of_image ha hb hjsize hbi hbm himage.symm
      obtain ⟨hj', qj, hqj, -, hpqj⟩ := hj.exists_content hb hbs
      cases qj with
      | expressionStatement e' =>
        have himage' := Payload.expressionStatement.inj hpqj
        obtain ⟨i, rfl, hsize, hlt⟩ := exists_slot ha hb hbs (by simp [Payload.children]) hi hqj
          (by simp [Payload.children]) himage'
        refine ⟨h', _, hq, .inr (hk'.trans hk), fun levels indent hlevels => ?_⟩
        rw [bodyText, Arena.arrowBody, hqj]
        exact hl.braced ha hb indent hsize himage'.symm
          (Nat.lt_of_lt_of_le (Nat.lt_trans hlt hjlt) hlevels)
      | _ => cases Payload.pool_eq_of_image hpqj
    | _ => cases Payload.pool_eq_of_image hpq

end Reifier

/-! ## Emitted files -/

/-- **The body of the node begins with a brace just if `P`.** The body is what is written after the
head; only if `P` can the whole text be that of an arrow function with the same head and a block. -/
structure Opening (b : Arena) (y : NodeId) (q : Payload Ref) (P : Prop) : Prop where
  content : ∃ h, b.content? (some y) = some (h, q)
  text : ∀ levels indent, b.print (levels + 1) indent (some y) =
    introText (b.print levels) indent q ++ b.bodyText (b.print levels) indent q
  braced : ∀ levels indent, y ≤ levels → (Braced (b.bodyText (b.print levels) indent q) ↔ P)
  block : ∀ levels indent, y ≤ levels → ∀ (c : Arena) (z : NodeId) (p : Payload Ref)
    (levels' indent' : Nat), BlockOf c z p →
      introText (c.print (levels' + 1)) indent' p = introText (b.print levels) indent q →
      c.print (levels' + 2) indent' (some z) = b.print (levels + 1) indent (some y) → P

/-- **Which statements and which bodies of arrow functions begin with a brace.** In a file that is
emitted, an expression statement, or the body of an arrow function, begins with a brace just if its
leftmost node is a call of `typeMembers`, or is kept and begins with a brace by itself: no
parentheses are put around it. So these are the only arrow functions without a block that can be
emitted like one with a block. -/
theorem emit_opening (disk : Disk) (settings : Settings) (options : CheckOptions)
    {files : List SourceFile} {f : SourceFile} {root s e l : NodeId} (hf : f ∈ files)
    (ha : f.arena.WellFormed) (hroot : f.root = some root) (hcode : f.isDeclarationFile = false)
    (hsource : f.arena.kind? f.root = some (.form .sourceFile)) :
    let r := Reifier.ofSettings (Program.ofFiles options files).oracle disk settings
    r.Stands f.fileName f.arena root s → BodyOf f.arena s e → r.Leftmost f.fileName f.arena e l →
      Emitted.ofFile (r.transform f) ∈ emit disk settings options files ∧
        ∃ top y q, (r.transform f).root = some top ∧ Reaches (r.transform f).arena top y ∧
          r.image f.fileName f.arena (some s) = some ((r.transform f).arena.tree (some y)) ∧
          Opening (r.transform f).arena y q (r.OpensBrace f.fileName f.arena l) := by
  intro r hs hbody hl
  refine ⟨ofFile_mem_emit disk settings options hf hcode, ?_⟩
  have hb := (Reifier.transform_appends r ha).wellFormed ha
  -- The node is neither a call nor an import, so it is kept.
  obtain ⟨hd, p, hp, hcalls, himports⟩ := hbody.content?
  have hi : r.importsMarkers f.arena f.fileName (some s) = false :=
    Reifier.importsMarkers_of_pool hp himports
  obtain ⟨t, ht⟩ := Reifier.exists_image ha (lt_of_content? hp) hi
  obtain ⟨top, y, htop, hy, hsize, htree⟩ := hs.exists_transform ha hroot hsource ht
  have hkept := Reifier.Kept.of_image ha hb hsize hi (Reifier.noMarker_of_pool hp hcalls)
    (by rw [ht, htree]; rfl)
  obtain ⟨h, q, hq, hkind, hbraced⟩ := hl.braced_body ha hb hbody hkept
  refine ⟨top, y, q, htop, hy, by
    rw [ht, htree], ⟨h, hq⟩, print_eq_intro_body hq hkind, hbraced, ?_⟩
  intro levels indent hlevels c z p levels' indent' hblock hintro heq
  rw [print_eq_intro_body hq hkind] at heq
  exact (hbraced levels indent hlevels).1 (hblock.braced_of_print_eq hintro heq)

/-- `export declare function typeMembers<T>(): any;` -/
def membersFile : SourceFile :=
  let act : Drafting Unit := do
    let result ← Draft.build (Build.token .anyKeyword)
    let _ ← Draft.declareFunction "typeMembers" ["T"] result
  (act .empty).2.finish "/m/index.d.ts"

/-- `const f = () => typeMembers();`, with an import of the marker before it. -/
def arrowFile : SourceFile :=
  let act : Drafting Unit := do
    let _ ← Draft.importNames ["typeMembers"] "/m/index"
    let call ← Draft.build (Draft.callNamed "typeMembers" [])
    let arrow ← Draft.build (Build.arrowFunction [] none call)
    let _ ← Draft.constant "f" arrow
  (act .empty).2.finish "/app/main.ts"

/-- `const f = () => {};`, with the same import before it. -/
def blockFile : SourceFile :=
  let act : Drafting Unit := do
    let _ ← Draft.importNames ["typeMembers"] "/m/index"
    let block ← Draft.build (Build.block [])
    let arrow ← Draft.build (Build.arrowFunction [] none block)
    let _ ← Draft.constant "f" arrow
  (act .empty).2.finish "/app/main.ts"

theorem emit_opening_arrowFile :
    let settings : Settings := ⟨.ofDirectory "/m", .default⟩
    let files := [membersFile, arrowFile]
    let r := Reifier.ofSettings (Program.ofFiles .default files).oracle markerDisk settings
    r.Stands arrowFile.fileName arrowFile.arena 12 8 ∧ BodyOf arrowFile.arena 8 7 ∧
      r.Leftmost arrowFile.fileName arrowFile.arena 7 7 ∧
      Emitted.ofFile (r.transform arrowFile) ∈ emit markerDisk settings .default files ∧
        ∃ top y q, (r.transform arrowFile).root = some top ∧
          Reaches (r.transform arrowFile).arena top y ∧
          r.image arrowFile.fileName arrowFile.arena (some 8) =
            some ((r.transform arrowFile).arena.tree (some y)) ∧
          Opening (r.transform arrowFile).arena y q
            (r.OpensBrace arrowFile.fileName arrowFile.arena 7) := by
  intro settings files r
  have hstands : r.Stands arrowFile.fileName arrowFile.arena 12 8 :=
    ((Reifier.Stands.root.inside (c := 11) (by decide) (by decide) (by decide)).inside (c := 10)
      (by decide) (by decide) (by decide)).inside (by decide) (by decide) (by decide)
  have hcontent : arrowFile.arena.content? (some 8) = some
      (⟨.form .arrowFunction, .empty, 0, 0, some 0⟩, .function none none [] none (some 7)) := by
    decide
  have hbody : BodyOf arrowFile.arena 8 7 := .arrow rfl hcontent
  have hleftmost : r.Leftmost arrowFile.fileName arrowFile.arena 7 7 :=
    .marker (m := .typeMembers) (by decide +kernel)
  exact ⟨hstands, hbody, hleftmost, emit_opening markerDisk settings .default (by simp [files])
    (by decide) (by decide) (by decide +kernel) (by decide) hstands hbody hleftmost⟩

/-- An arrow function whose body is a marker call is emitted with the text of one that has a block.
-/
theorem emit_arrow_block :
    let settings : Settings := ⟨.ofDirectory "/m", .default⟩
    emit markerDisk settings .default [membersFile, arrowFile] =
        [⟨"/app/main.ts", "const f = () => \x7b\x7d;\n"⟩] ∧
      emit markerDisk settings .default [membersFile, blockFile] =
        [⟨"/app/main.ts", "const f = () => \x7b\x7d;\n"⟩] := by
  decide +kernel

end TypeReify
