import TypeReify.Proofs.Syntax.Handed
import TypeReify.Proofs.Syntax.Visit

/-!
# A walk copies no more than it has to

A rebuild compares the payload of a node with the one that the answers of the visitor make. They are
the same just where every child came back as it was, erased elements of lists and empty slots
included. So a walk appends one header for each node that it visits above a change, and none else.

`survey` goes along with a walk whose rewrites are fixed, and lists the visits that the walk makes.
It answers nothing where the walk runs out of levels.

This is about `walk` and `visit_each_child`, which compares the payload that the answers make with
the one that was there before it calls `push_rebuilt`.

Results:
* `rebuild_answers`: a node is copied just where some child did not come back as it was.
* `walk_shares`: a walk answers the node it was given just where nothing below was rewritten, and
  appends a header for every visit of a node with a changed child.

Out of scope: rewrites that append nodes of their own, whose headers come on top.
-/

namespace TypeReify.Syntax

variable {α β γ : Type}

/-- Hands some slots to a visitor, one after the other, and lists them with the answers. -/
def answers (visit : Ref → Build (Option Ref)) (rs : List Ref) :
    Build (List (Ref × Option Ref)) :=
  rs.mapM fun r => do return (r, ← visit r)

/-- Every slot came back as it was. -/
def Unchanged (children : List (Ref × Option Ref)) : Prop := ∀ c ∈ children, c.2 = some c.1

instance (children : List (Ref × Option Ref)) : Decidable (Unchanged children) :=
  inferInstanceAs (Decidable (∀ c ∈ children, c.2 = some c.1))

theorem unchanged_append {cs ds : List (Ref × Option Ref)} :
    Unchanged (cs ++ ds) ↔ Unchanged cs ∧ Unchanged ds := List.forall_mem_append

section Answers

variable {visit : Ref → Build (Option Ref)} {a : Arena} {r : Ref} {rs rs' : List Ref}

theorem answers_nil : answers visit [] a = ([], a) := rfl

theorem answers_cons : answers visit (r :: rs) a =
    ((r, (visit r a).1) :: (answers visit rs (visit r a).2).1,
      (answers visit rs (visit r a).2).2) := by
  simp only [answers, List.mapM_cons]
  rfl

theorem answers_append : answers visit (rs ++ rs') a =
    ((answers visit rs a).1 ++ (answers visit rs' (answers visit rs a).2).1,
      (answers visit rs' (answers visit rs a).2).2) := by
  simp only [answers, List.mapM_append]
  rfl

end Answers

/-! ## A visit of a payload -/

/-- The first action notes some slots, whatever it noted before, and the second one hands these
slots to the visitor. Its result is as wanted just where this was so before and each slot comes back
as it was. -/
def Compares (visit : Ref → Build (Option Ref)) (noting : StateT (List Ref) Build α) (act : Build β)
    (wanted : β → Prop) (before : Prop) : Prop :=
  ∀ log a₀ a, ∃ x rs, noting log a₀ = ((x, log ++ rs), a₀) ∧ (act a).2 = (answers visit rs a).2 ∧
    (wanted (act a).1 ↔ before ∧ Unchanged (answers visit rs a).1)

namespace Compares

variable {visit : Ref → Build (Option Ref)}

theorem pure {x : α} {y : β} {wanted : β → Prop} {before : Prop} (h : wanted y ↔ before) :
    Compares visit (Pure.pure x) (Pure.pure y) wanted before := by
  refine fun log a₀ a => ⟨x, [], by rw [List.append_nil]; rfl, rfl, ?_⟩
  exact h.trans (and_iff_left fun _ hc => absurd hc List.not_mem_nil).symm

/-- What the first part answers is noted before the second part is run. -/
theorem bind {noting : StateT (List Ref) Build α} {act : Build β} {y₀ : β}
    (h : Compares visit noting act (· = y₀) True) {δ : Type} {f : α → StateT (List Ref) Build δ}
    {g : β → Build γ} {wanted : γ → Prop} {before : Prop}
    (hf : ∀ x a, Compares visit (f x) (g (act a).1) wanted (before ∧ (act a).1 = y₀)) :
    Compares visit (noting >>= f) (act >>= g) wanted before := by
  intro log a₀ a
  obtain ⟨x, rs, hnoting, hact, hsame⟩ := h log a₀ a
  obtain ⟨x', rs', hnoting', hact', hwanted⟩ := hf x a (log ++ rs) a₀ (act a).2
  refine ⟨x', rs ++ rs', ?_, ?_, ?_⟩
  · rw [run_bind, hnoting, ← List.append_assoc]
    exact hnoting'
  · rw [answers_append, ← hact]
    exact hact'
  · rw [answers_append, unchanged_append, ← hact, ← and_assoc, ← true_and (Unchanged _), ← hsame]
    exact hwanted

theorem slot (r : Ref) : Compares visit (visitSlot note r) (visitSlot visit r) (· = r) True := by
  cases r with
  | none => exact .pure (iff_of_true rfl trivial)
  | some i =>
    refine fun log a₀ a => ⟨some i, [some i], rfl, rfl, ?_⟩
    rw [answers_cons, answers_nil, true_and]
    show (visit (some i) a).1.getD none = some i ↔ Unchanged [(some i, (visit (some i) a).1)]
    cases (visit (some i) a).1 with
    | none => exact iff_of_false nofun fun h => absurd (h _ List.mem_cons_self) nofun
    | some y => simp [Unchanged]

/-- A visited list loses entries and gains none. -/
theorem length_visitList_le (rs : List Ref) (a : Arena) :
    (visitList visit rs a).1.length ≤ rs.length := by
  induction rs generalizing a with
  | nil => exact Nat.le_refl 0
  | cons r rs ih =>
    have hrest := ih (visit r a).2
    show ((visit r a).1.toList ++ (visitList visit rs (visit r a).2).1).length ≤ rs.length + 1
    cases (visit r a).1 <;> simp <;> omega

/-- A list comes back as it was just when every entry has. -/
theorem list (rs : List Ref) :
    Compares visit (visitList note rs) (visitList visit rs) (· = rs) True := by
  induction rs with
  | nil => exact .pure (iff_of_true rfl trivial)
  | cons r rs ih =>
    have hone : Compares visit (note r) (visit r) (· = some r) True := by
      refine fun log a₀ a => ⟨some r, [r], rfl, rfl, ?_⟩
      rw [answers_cons, answers_nil, true_and]
      simp [Unchanged]
    refine hone.bind fun _ a => ih.bind fun _ b => .pure ?_
    have hlength : (visitList visit rs b).1.length ≤ rs.length := length_visitList_le rs b
    cases (visit r a).1 with
    | none =>
      refine iff_of_false (fun h => ?_) fun h => absurd h.1.2 nofun
      rw [show (visitList visit rs b).1 = r :: rs from h, List.length_cons] at hlength
      omega
    | some y => simp

theorem optional (o : Option (List Ref)) : Compares visit
    (Payload.traverseOptional (visitList note) o) (Payload.traverseOptional (visitList visit) o)
    (· = o) True := by
  cases o with
  | none => exact .pure (iff_of_true rfl trivial)
  | some rs =>
    have hbind {m : Type → Type} [Monad m] [LawfulMonad m] [MonadStateOf Arena m]
        (visit : Ref → m (Option Ref)) : Payload.traverseOptional (visitList visit) (some rs) =
          visitList visit rs >>= fun ys => Pure.pure (some ys) := map_eq_pure_bind _ _
    rw [hbind, hbind]
    exact (list rs).bind fun _ a => .pure (by simp)

end Compares

/-- **A payload stays just where all its slots come back as they were.** -/
theorem traverse_compares (visit : Ref → Build (Option Ref)) (p : Payload Ref) :
    Compares visit (p.traverse (visitSlot note) (visitList note))
      (p.traverse (visitSlot visit) (visitList visit)) (· = p) True := by
  cases p with
  | identifier _ | literal _ => exact .pure (iff_of_true rfl trivial)
  | parenthesized x | expressionStatement x | arrayType x | literalType x =>
    exact (Compares.slot x).bind fun _ a => .pure (by simp)
  | access x y | assignment x y | binary x _ y | importDeclaration x y | importClause x y
  | importSpecifier x y | mappedType x y =>
    exact (Compares.slot x).bind fun _ a => (Compares.slot y).bind fun _ b => .pure (by simp)
  | parameter x y z | typeParameter x y z | ifStatement x y z | variableDeclaration x y z =>
    exact (Compares.slot x).bind fun _ a => (Compares.slot y).bind fun _ b =>
      (Compares.slot z).bind fun _ c => .pure (by simp [and_assoc])
  | elements xs | block xs | variableStatement xs | union xs | typeLiteral xs | sourceFile _ xs =>
    exact (Compares.list xs).bind fun _ a => .pure (by simp)
  | importBindings x xs =>
    exact (Compares.slot x).bind fun _ a => (Compares.list xs).bind fun _ b => .pure (by simp)
  | typeReference x o =>
    exact (Compares.slot x).bind fun _ a => (Compares.optional o).bind fun _ b => .pure (by simp)
  | call x o xs =>
    exact (Compares.slot x).bind fun _ a => (Compares.optional o).bind fun _ b =>
      (Compares.list xs).bind fun _ c => .pure (by simp [and_assoc])
  | function x o xs y z =>
    exact (Compares.slot x).bind fun _ a => (Compares.optional o).bind fun _ b =>
      (Compares.list xs).bind fun _ c => (Compares.slot y).bind fun _ d =>
        (Compares.slot z).bind fun _ e => .pure (by simp [and_assoc])
  | signature x o o' y =>
    exact (Compares.slot x).bind fun _ a => (Compares.optional o).bind fun _ b =>
      (Compares.optional o').bind fun _ c => (Compares.slot y).bind fun _ d =>
        .pure (by simp [and_assoc])
  | indexSignature xs y =>
    exact (Compares.list xs).bind fun _ a => (Compares.slot y).bind fun _ b => .pure (by simp)
  | functionType o xs y =>
    exact (Compares.optional o).bind fun _ a => (Compares.list xs).bind fun _ b =>
      (Compares.slot y).bind fun _ c => .pure (by simp [and_assoc])
  | interface x o o' xs =>
    exact (Compares.slot x).bind fun _ a => (Compares.optional o).bind fun _ b =>
      (Compares.optional o').bind fun _ c => (Compares.list xs).bind fun _ d =>
        .pure (by simp [and_assoc])
  | typeAlias x o y =>
    exact (Compares.slot x).bind fun _ a => (Compares.optional o).bind fun _ b =>
      (Compares.slot y).bind fun _ c => .pure (by simp [and_assoc])

/-- **A node is copied just where some slot below it did not come back as it was.** -/
theorem rebuild_answers (visit : Ref → Build (Option Ref)) (r : Ref) (a : Arena) :
    let out := answers visit (a.handed r) a
    if Unchanged out.1 then rebuild visit r a = (r, out.2)
    else ∃ h p, rebuild visit r a = (some out.2.size, (out.2.pushRebuilt h p).2) := by
  intro out
  cases hc : a.content? r with
  | none =>
    have hhanded : a.handed r = [] := by rw [Arena.handed, rebuild_run_of_none hc]
    have hout : out = ([], a) := by simp only [out, hhanded, answers_nil]
    have hnil : Unchanged [] := fun _ h => absurd h List.not_mem_nil
    rw [hout, if_pos hnil]
    exact rebuild_of_content?_eq_none visit hc
  | some content =>
    obtain ⟨h, p⟩ := content
    obtain ⟨x, rs, hrun, hact, hsame⟩ := traverse_compares visit p [] a a
    have hhanded : a.handed r = rs := handed_of_some hc hrun
    have hrebuild := rebuild_of_content?_eq_some visit hc
    rw [true_and, ← hhanded] at hsame
    rw [← hhanded] at hact
    dsimp only at hrebuild
    split
    · rename_i hunchanged
      rw [hrebuild, if_pos (hsame.2 hunchanged), hact]
    · rename_i hchanged
      rw [hrebuild, if_neg (mt hsame.1 hchanged), hact]
      exact ⟨h, _, rfl⟩

/-! ## The visits of a walk -/

/-- What stands in the place of a slot, unless it is erased. -/
def Rewrite.inPlaceOf (r : Ref) : Rewrite → Option Ref
  | .erase => none
  | .replace new => some new
  | .keep => some r

/-- A walk by rewrites that are fixed beforehand. -/
def walkBy (f : Ref → Rewrite) : (levels : Nat) → Ref → Build (Option Ref) :=
  walk fun r => pure (f r)

/-- One visit of a walk. -/
structure Visit where
  /-- The slot that was visited. -/
  handed : Ref
  /-- What stood in its place, unless it was erased. -/
  stood : Option Ref
  /-- The slots below that, with what was answered for them. -/
  children : List (Ref × Option Ref)
  /-- What was answered for the slot itself. -/
  answer : Option Ref
  deriving DecidableEq, Repr

namespace Visit

/-- The slot was neither erased nor replaced. -/
def Kept (v : Visit) : Prop := v.stood = some v.handed

/-- Some slot below was erased or came back as another one. -/
def Disturbed (v : Visit) : Prop := ¬Unchanged v.children

instance : DecidablePred Kept := fun v => inferInstanceAs (Decidable (v.stood = some v.handed))

instance : DecidablePred Disturbed := fun v => inferInstanceAs (Decidable ¬Unchanged v.children)

end Visit

/-- The visits below some slots, each slot handed to the visitor before the next one. -/
def surveyAll (visit : Ref → Build (Option Ref)) (survey : Ref → Arena → Option (List Visit)) :
    List Ref → Arena → Option (List Visit)
  | [], _ => some []
  | r :: rs, a => do
    let first ← survey r a
    let rest ← surveyAll visit survey rs (visit r a).2
    return first ++ rest

/-- The visits of a walk, each one behind those below it; nothing if there are not enough levels. -/
def survey (f : Ref → Rewrite) : (levels : Nat) → Ref → Arena → Option (List Visit)
  | 0, _, _ => none
  | levels + 1, r, a =>
    match (f r).inPlaceOf r with
    | none => some [⟨r, none, [], none⟩]
    | some stood => do
      let below ← surveyAll (walkBy f levels) (survey f levels) (a.handed stood) a
      return below ++ [⟨r, some stood, (answers (walkBy f levels) (a.handed stood) a).1,
        (walkBy f (levels + 1) r a).1⟩]

/-- The nodes that were answered for visits of nodes with a changed child. -/
def copies (visits : List Visit) : List (Option Ref) :=
  (visits.filter fun v => decide v.Disturbed).map (·.answer)

section Walk

variable {f : Ref → Rewrite} {r stood : Ref} {a : Arena} {levels : Nat} {visits : List Visit}

/-- What the function erases is not walked. -/
theorem walkBy_of_erased (h : (f r).inPlaceOf r = none) :
    walkBy f (levels + 1) r a = (none, a) := by
  cases hf : f r with
  | erase => exact walk_of_erase (congrArg (·, a) hf) levels
  | replace new => simp [hf, Rewrite.inPlaceOf] at h
  | keep => simp [hf, Rewrite.inPlaceOf] at h

/-- What it puts in place of a node is walked instead. -/
theorem walkBy_of_stood (h : (f r).inPlaceOf r = some stood) : walkBy f (levels + 1) r a =
    (some (rebuild (walkBy f levels) stood a).1, (rebuild (walkBy f levels) stood a).2) := by
  cases hf : f r with
  | erase => simp [hf, Rewrite.inPlaceOf] at h
  | replace new =>
    obtain rfl : new = stood := by simpa [hf, Rewrite.inPlaceOf] using h
    exact walk_of_replace (congrArg (·, a) hf) levels
  | keep =>
    obtain rfl : r = stood := by simpa [hf, Rewrite.inPlaceOf] using h
    exact walk_of_keep (congrArg (·, a) hf) levels

theorem survey_of_erased (h : (f r).inPlaceOf r = none) :
    survey f (levels + 1) r a = some [⟨r, none, [], none⟩] := by
  rw [survey, h]

/-- The visits below a node come before its own. -/
theorem survey_of_stood (h : (f r).inPlaceOf r = some stood)
    (hv : survey f (levels + 1) r a = some visits) :
    ∃ below, surveyAll (walkBy f levels) (survey f levels) (a.handed stood) a = some below ∧
      visits = below ++ [⟨r, some stood, (answers (walkBy f levels) (a.handed stood) a).1,
        (walkBy f (levels + 1) r a).1⟩] := by
  rw [survey, h] at hv
  obtain ⟨below, hbelow, hvisits⟩ := Option.bind_eq_some_iff.1 hv
  exact ⟨below, hbelow, (Option.some.inj hvisits).symm⟩

theorem surveyAll_cons {visit : Ref → Build (Option Ref)}
    {survey : Ref → Arena → Option (List Visit)}
    {rs : List Ref} (hv : surveyAll visit survey (r :: rs) a = some visits) :
    ∃ first rest, survey r a = some first ∧ surveyAll visit survey rs (visit r a).2 = some rest ∧
      visits = first ++ rest := by
  obtain ⟨first, hfirst, hv⟩ := Option.bind_eq_some_iff.1 hv
  obtain ⟨rest, hrest, hvisits⟩ := Option.bind_eq_some_iff.1 hv
  exact ⟨first, rest, hfirst, hrest, (Option.some.inj hvisits).symm⟩

end Walk

/-! ## What a walk appends -/

/-- From `a` to `b` one header was appended for each visit of a node with a changed child, and it is
the one that was answered there. -/
structure Copied (a : Arena) (visits : List Visit) (b : Arena) : Prop where
  grown : a.Extends b
  size : b.size = a.size + (copies visits).length
  indices : copies visits = (List.range' a.size (copies visits).length).map fun i => some (some i)

theorem copies_append (vs ws : List Visit) : copies (vs ++ ws) = copies vs ++ copies ws := by
  rw [copies, List.filter_append, List.map_append]
  rfl

namespace Copied

variable {a b c : Arena} {vs ws : List Visit}

theorem nil : Copied a [] a := ⟨.refl a, rfl, rfl⟩

/-- A visit that disturbs nothing appends nothing, -/
theorem undisturbed {v : Visit} (h : ¬v.Disturbed) : Copied a [v] a := by
  have hcopies : copies [v] = [] := by simp [copies, h]
  exact ⟨.refl a, by rw [hcopies]; rfl, by rw [hcopies]; rfl⟩

/-- and one that does appends one node. -/
theorem disturbed {v : Visit} (h : v.Disturbed) (hanswer : v.answer = some (some a.size))
    (hd : Header) (p : Payload Ref) : Copied a [v] (a.pushRebuilt hd p).2 := by
  have hcopies : copies [v] = [some (some a.size)] := by simp [copies, h, hanswer]
  exact ⟨Arena.extends_pushRebuilt a hd p, by rw [hcopies]; exact Arena.size_pushRebuilt a hd p,
    by rw [hcopies]; rfl⟩

theorem append (h : Copied a vs b) (h' : Copied b ws c) : Copied a (vs ++ ws) c := by
  refine ⟨h.grown.trans h'.grown, ?_, ?_⟩
  · rw [h'.size, h.size, copies_append, List.length_append, Nat.add_assoc]
  · have hws := h'.indices
    rw [h.size] at hws
    rw [copies_append, List.length_append, ← List.range'_append_1, List.map_append,
      ← h.indices, ← hws]

end Copied

/-- So do the visits to several nodes, one after the other. -/
theorem copied_surveyAll {visit : Ref → Build (Option Ref)}
    {survey : Ref → Arena → Option (List Visit)}
    (h : ∀ r a visits, survey r a = some visits → Copied a visits (visit r a).2) {rs : List Ref} :
    ∀ {a : Arena} {visits : List Visit}, surveyAll visit survey rs a = some visits →
      Copied a visits (answers visit rs a).2 := by
  induction rs with
  | nil =>
    intro a visits hv
    obtain rfl : [] = visits := Option.some.inj hv
    exact .nil
  | cons r rs ih =>
    intro a visits hv
    obtain ⟨first, rest, hfirst, hrest, rfl⟩ := surveyAll_cons hv
    rw [answers_cons]
    exact (h r a first hfirst).append (ih hrest)

/-- **A walk appends a header for every visit of a node with a changed child**, and no other. -/
theorem copied_survey {f : Ref → Rewrite} {levels : Nat} : ∀ r a visits,
    survey f levels r a = some visits → Copied a visits (walkBy f levels r a).2 := by
  induction levels with
  | zero => exact fun r a visits hv => absurd hv nofun
  | succ levels ih =>
    intro r a visits hv
    cases hf : (f r).inPlaceOf r with
    | none =>
      rw [survey_of_erased hf] at hv
      obtain rfl := Option.some.inj hv
      rw [walkBy_of_erased hf]
      exact ⟨.refl a, rfl, rfl⟩
    | some stood =>
      obtain ⟨below, hbelow, rfl⟩ := survey_of_stood hf hv
      refine (copied_surveyAll ih hbelow).append ?_
      have hrebuild := rebuild_answers (walkBy f levels) stood a
      rw [walkBy_of_stood hf]
      dsimp only at hrebuild ⊢
      split at hrebuild
      · rename_i hunchanged
        rw [hrebuild]
        exact .undisturbed (not_not_intro hunchanged)
      · rename_i hchanged
        obtain ⟨hd, p, hrebuild⟩ := hrebuild
        rw [hrebuild]
        exact .disturbed (v := ⟨r, some stood, _, _⟩) hchanged rfl hd p

/-! ## What a walk leaves alone -/

/-- The slots handed over below a node lead to nodes of the arena, if to any. -/
theorem has_of_mem_handed {a : Arena} (ha : a.WellFormed) {r c : Ref} (hr : a.Has r)
    (hc : c ∈ a.handed r) : a.Has c := by
  intro j hj
  have hmem : j ∈ a.childrenOf r := by
    rw [← filterMap_handed]
    exact List.mem_filterMap.2 ⟨c, hc, hj⟩
  cases r with
  | none => exact absurd hmem List.not_mem_nil
  | some i => exact Nat.lt_trans (ha.child_lt hmem) (hr i rfl)

/-- Of nodes that come back as they were, every visit below kept its node. -/
theorem kept_surveyAll {visit : Ref → Build (Option Ref)}
    {survey : Ref → Arena → Option (List Visit)} {a : Arena} {rs : List Ref}
    (h : ∀ r ∈ rs, ∀ visits, survey r a = some visits →
      ((visit r a).1 = some r → ∀ v ∈ visits, v.Kept) ∧
        ((∀ v ∈ visits, v.Kept) → visit r a = (some r, a))) :
    ∀ {visits : List Visit}, surveyAll visit survey rs a = some visits →
      (Unchanged (answers visit rs a).1 → ∀ v ∈ visits, v.Kept) ∧
        ((∀ v ∈ visits, v.Kept) → Unchanged (answers visit rs a).1 ∧
          (answers visit rs a).2 = a) := by
  induction rs with
  | nil =>
    intro visits hv
    obtain rfl : [] = visits := Option.some.inj hv
    exact ⟨fun _ _ hv => absurd hv List.not_mem_nil, fun _ =>
      ⟨fun _ hc => absurd hc List.not_mem_nil, rfl⟩⟩
  | cons r rs ih =>
    intro visits hv
    obtain ⟨first, rest, hfirst, hrest, rfl⟩ := surveyAll_cons hv
    obtain ⟨hkept, hstays⟩ := h r List.mem_cons_self first hfirst
    have ih := fun hstill : visit r a = (some r, a) => by
      rw [hstill] at hrest
      exact ih (fun r' hr' => h r' (List.mem_cons_of_mem r hr')) hrest
    rw [answers_cons, List.forall_mem_append]
    constructor
    · intro hunchanged
      obtain ⟨hone, hall⟩ := List.forall_mem_cons.1 hunchanged
      have hfirst := hkept hone
      have hstill := hstays hfirst
      rw [hstill] at hall
      exact ⟨hfirst, (ih hstill).1 hall⟩
    · rintro ⟨hfirst, hrest⟩
      have hstill := hstays hfirst
      obtain ⟨hall, hsame⟩ := (ih hstill).2 hrest
      rw [hstill]
      exact ⟨List.forall_mem_cons.2 ⟨rfl, hall⟩, hsame⟩

/-- **A walk answers the node it was given just where all nodes it visits are kept**, and then it
leaves the arena as it was. -/
theorem kept_survey {f : Ref → Rewrite} {a : Arena} (ha : a.WellFormed) {levels : Nat} :
    ∀ r, a.Has r → ∀ visits, survey f levels r a = some visits →
      ((walkBy f levels r a).1 = some r → ∀ v ∈ visits, v.Kept) ∧
        ((∀ v ∈ visits, v.Kept) → walkBy f levels r a = (some r, a)) := by
  induction levels with
  | zero => exact fun r _ visits hv => absurd hv nofun
  | succ levels ih =>
    intro r hr visits hv
    cases hf : (f r).inPlaceOf r with
    | none =>
      rw [survey_of_erased hf] at hv
      obtain rfl := Option.some.inj hv
      rw [walkBy_of_erased hf]
      exact ⟨fun h => absurd h nofun, fun h => absurd (h _ List.mem_cons_self) nofun⟩
    | some stood =>
      obtain ⟨below, hbelow, rfl⟩ := survey_of_stood hf hv
      have hrebuild := rebuild_answers (walkBy f levels) stood a
      -- A copy stands behind all nodes that were there, so it is not the slot that was handed over.
      have hcopy : some (answers (walkBy f levels) (a.handed stood) a).2.size ≠ r := by
        intro h
        have hlt := hr _ h.symm
        rw [(copied_surveyAll copied_survey hbelow).size] at hlt
        exact absurd hlt (Nat.not_lt.2 (Nat.le_add_right _ _))
      rw [List.forall_mem_append, List.forall_mem_singleton, walkBy_of_stood hf]
      dsimp only at hrebuild
      by_cases hsame : stood = r
      · subst hsame
        obtain ⟨hkept, hstays⟩ := kept_surveyAll
          (fun c hc => ih c (has_of_mem_handed ha hr hc)) hbelow
        split at hrebuild
        · rename_i hunchanged
          rw [hrebuild]
          exact ⟨fun _ => ⟨hkept hunchanged, rfl⟩, fun h => by rw [(hstays h.1).2]⟩
        · rename_i hchanged
          obtain ⟨hd, p, hrebuild⟩ := hrebuild
          rw [hrebuild]
          exact ⟨fun h => absurd (Option.some.inj h) hcopy, fun h => absurd (hstays h.1).1 hchanged⟩
      · refine ⟨fun h => ?_, fun h => absurd (Option.some.inj h.2) hsame⟩
        have hanswer := Option.some.inj h
        split at hrebuild
        · rw [hrebuild] at hanswer
          exact absurd hanswer hsame
        · obtain ⟨hd, p, hrebuild⟩ := hrebuild
          rw [hrebuild] at hanswer
          exact absurd hanswer hcopy

/-- **A walk copies no more than it has to.** It answers the node it was given just where no node
that it visits is erased or replaced by another one. It appends one header for each visit of a node
of whose children one was erased or came back as another node; this header is what the visit
answers. -/
theorem walk_shares (f : Ref → Rewrite) {a : Arena} (ha : a.WellFormed) {i levels : Nat}
    (hi : i < a.size) {visits : List Visit} (hv : survey f levels (some i) a = some visits) :
    let out := walk (m := Build) (fun r => pure (f r)) levels (some i) a
    let copied := visits.filter fun v => decide v.Disturbed
    (out.1 = some (some i) ↔ ∀ v ∈ visits, v.Kept) ∧
      a.Extends out.2 ∧ out.2.size = a.size + copied.length ∧
      copied.map (·.answer) = (List.range' a.size copied.length).map fun k => some (some k) := by
  intro out copied
  obtain ⟨hkept, hstays⟩ := kept_survey ha (some i) (Arena.has_some.2 hi) visits hv
  obtain ⟨hgrown, hsize, hindices⟩ := copied_survey (some i) a visits hv
  have hlength : (copies visits).length = copied.length := List.length_map _
  rw [hlength] at hsize hindices
  exact ⟨⟨hkept, fun h => congrArg (·.1) (hstays h)⟩, hgrown, hsize, hindices⟩

/-- Puts the second name in the place of the first one, and erases holes. -/
def closeHole (r : Ref) : Rewrite :=
  if r = some 0 then .replace (some 1) else if r = none then .erase else .keep

theorem walk_shares_closeHole :
    let visits : List Visit :=
      [⟨some 0, some (some 1), [], some (some 1)⟩, ⟨none, none, [], none⟩,
        ⟨some 1, some (some 1), [], some (some 1)⟩,
        ⟨some 2, some (some 2), [(some 0, some (some 1)), (none, none), (some 1, some (some 1))],
          some (some 3)⟩]
    let out := walk (m := Build) (fun r => pure (closeHole r)) 2 (some 2) listWithHole
    listWithHole.WellFormed ∧ 2 < listWithHole.size ∧
      survey closeHole 2 (some 2) listWithHole = some visits ∧
      (out.1 = some (some 2) ↔ ∀ v ∈ visits, v.Kept) ∧ listWithHole.Extends out.2 ∧
      out.2.size = 3 + 1 ∧
      [some (some 3)] = (List.range' 3 1).map fun k => some (some k) :=
  have ha : listWithHole.WellFormed := by decide
  have hv : survey closeHole 2 (some 2) listWithHole = some _ := by rfl
  ⟨ha, by decide, hv, walk_shares closeHole ha (by decide) hv⟩

end TypeReify.Syntax
