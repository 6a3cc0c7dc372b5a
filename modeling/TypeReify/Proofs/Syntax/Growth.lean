import TypeReify.Syntax.Arena

/-!
# Arenas that grow

A pass over a tree only appends to its arena. `Extends a b` says that `b` still holds every header
and every payload of `a` in its old place, `WellFormed a` that the nodes of `a` form trees: a child
stands before its parent, and the payload position of a header lies inside the pool of its kind.

Every node that a pass makes is appended by `pushRebuilt`, so this module says once what one such
step does.

The step is `push_rebuilt`; every `add_…` function is one too, with a header that is made up.

Results:
* `Extends.content?`: in a larger arena an old node still has its old content.
* `wellFormed_iff`: whether the nodes of an arena form trees can be computed.
* `WellFormed.pushRebuilt`: a node over nodes that are there already leaves the arena well-formed.
* `content?_pushRebuilt`: the appended node has the header and the payload it was given.
-/

namespace TypeReify.Syntax.Arena

/-- Every header and every payload of `a` stands in `b` where it stood. -/
structure Extends (a b : Arena) : Prop where
  header : ∀ {i : Nat} {h : Header}, a.headers[i]? = some h → b.headers[i]? = some h
  entry : ∀ {p : Pool} {d : Nat} {x : Payload Ref}, (a.entries p)[d]? = some x →
    (b.entries p)[d]? = some x

/-- The nodes form trees: children come before their parents, and payloads are there. -/
structure WellFormed (a : Arena) : Prop where
  child_lt : ∀ {i j : Nat}, j ∈ a.childrenOf (some i) → j < i
  data_lt : ∀ {i : Nat} {h : Header} {p : Pool} {d : Nat}, a.headers[i]? = some h →
    h.kind.pool? = some p → h.data = some d → d < (a.entries p).size

/-- The payload that a header selects, if it selects one, is there. -/
def dataFits (a : Arena) (h : Header) : Bool :=
  match h.kind.pool?, h.data with
  | some p, some d => d < (a.entries p).size
  | _, _ => true

/-- The slot is empty or leads to a node of the arena. -/
def Has (a : Arena) (r : Ref) : Prop := ∀ i, r = some i → i < a.size

variable {a b c : Arena}

/-! ## Well-formed arenas -/

theorem childrenOf_of_le {i : Nat} (h : a.size ≤ i) : a.childrenOf (some i) = [] := by
  have hi : a.header? (some i) = none := Array.getElem?_eq_none h
  simp [childrenOf, content?, hi]

/-- Well-formedness can be checked: children come first, and data fit the kinds. -/
theorem wellFormed_iff : a.WellFormed ↔
    (∀ i < a.size, ∀ j ∈ a.childrenOf (some i), j < i) ∧ a.headers.toList.all a.dataFits := by
  constructor
  · refine fun ha => ⟨fun i _ j hj => ha.child_lt hj, List.all_eq_true.2 fun h hh => ?_⟩
    obtain ⟨i, hi⟩ := List.mem_iff_getElem?.1 hh
    unfold dataFits
    split
    · rename_i p d hp hd
      exact decide_eq_true (ha.data_lt (by rw [← hi, Array.getElem?_toList]) hp hd)
    · rfl
  · rintro ⟨hchild, hdata⟩
    constructor
    · intro i j hj
      by_cases hi : i < a.size
      · exact hchild i hi j hj
      · rw [childrenOf_of_le (Nat.le_of_not_lt hi)] at hj
        exact absurd hj List.not_mem_nil
    · intro i h p d hi hp hd
      have hfits := List.all_eq_true.1 hdata h (Array.mem_toList_iff.2 (Array.mem_of_getElem? hi))
      rw [dataFits, hp, hd] at hfits
      exact of_decide_eq_true hfits

instance (a : Arena) : Decidable a.WellFormed := decidable_of_iff _ wellFormed_iff.symm

/-! ## Larger arenas -/

theorem Extends.refl (a : Arena) : Extends a a := ⟨id, id⟩

theorem Extends.trans (h : Extends a b) (h' : Extends b c) : Extends a c :=
  ⟨fun e => h'.header (h.header e), fun e => h'.entry (h.entry e)⟩

theorem Extends.size_le (h : Extends a b) : a.size ≤ b.size := by
  refine Nat.le_of_not_lt fun hb => ?_
  have hh := h.header (Array.getElem?_eq_getElem hb)
  rw [Array.getElem?_eq_none (Nat.le_refl b.size)] at hh
  exact absurd hh (by simp)

theorem Extends.header?_of_some (h : Extends a b) {r : Ref} {hd : Header}
    (hr : a.header? r = some hd) : b.header? r = some hd := by
  obtain ⟨i, rfl, hi⟩ := Option.bind_eq_some_iff.1 hr
  exact h.header hi

theorem has_none (a : Arena) : a.Has none := by
  intro i h
  exact absurd h (by simp)

theorem has_some {i : Nat} : a.Has (some i) ↔ i < a.size :=
  ⟨fun h => h i rfl, fun h j e => by rw [← Option.some.inj e]; exact h⟩

theorem Has.mono (h : Extends a b) {r : Ref} (hr : a.Has r) : b.Has r :=
  fun i e => Nat.lt_of_lt_of_le (hr i e) h.size_le

/-- A node that is there has a header. -/
theorem header?_of_lt {i : Nat} (h : i < a.size) : ∃ hd, a.header? (some i) = some hd :=
  ⟨a.headers[i], Array.getElem?_eq_getElem h⟩

theorem lt_of_header? {i : Nat} {hd : Header} (h : a.header? (some i) = some hd) :
    i < a.size := by
  obtain ⟨hi, -⟩ := Array.getElem?_eq_some_iff.1 h
  exact hi

/-- An old node keeps its header. -/
theorem Extends.header? (h : Extends a b) {r : Ref} (hr : a.Has r) : b.header? r = a.header? r := by
  cases r with
  | none => rfl
  | some i =>
    obtain ⟨hd, hi⟩ := header?_of_lt (has_some.1 hr)
    rw [hi, h.header?_of_some hi]

/-- The header of a node keeps its payload, or the lack of one. -/
theorem Extends.payload? (h : Extends a b) (ha : a.WellFormed) {i : Nat} {hd : Header}
    (hi : a.header? (some i) = some hd) : b.payload? hd = a.payload? hd := by
  unfold Arena.payload?
  cases hp : hd.kind.pool? with
  | none => rfl
  | some p =>
    cases hdat : hd.data with
    | none => rfl
    | some d =>
      have hlt := ha.data_lt hi hp hdat
      have hx : (a.entries p)[d]? = some (a.entries p)[d] := Array.getElem?_eq_getElem hlt
      simp only [Option.bind_eq_bind, Option.bind_some, hx, h.entry hx]

/-- An old node keeps its content. -/
theorem Extends.content? (h : Extends a b) (ha : a.WellFormed) {r : Ref} (hr : a.Has r) :
    b.content? r = a.content? r := by
  cases r with
  | none => rfl
  | some i =>
    obtain ⟨hd, hi⟩ := header?_of_lt (has_some.1 hr)
    have hb := h.header?_of_some hi
    simp only [Arena.content?, hi, hb, Option.bind_eq_bind, Option.bind_some, h.payload? ha hi]

/-- Nodes that were there keep their kind. -/
theorem Extends.kind? (h : Extends a b) {r : Ref} (hr : a.Has r) : b.kind? r = a.kind? r := by
  simp only [Arena.kind?, h.header? hr]

/-! ## Nodes and their children -/

/-- What a node holds is its header and the payload that its header points to. -/
theorem content?_eq_some {r : Ref} {hd : Header} {x : Payload Ref} :
    a.content? r = some (hd, x) ↔ a.header? r = some hd ∧ a.payload? hd = some x := by
  unfold Arena.content?
  cases a.header? r with
  | none => simp
  | some h =>
    cases hx : a.payload? h with
    | none => simp only [Option.bind_eq_bind, Option.bind_some, hx]; grind
    | some y => simp only [Option.bind_eq_bind, Option.bind_some, hx, pure]; grind

/-- A payload that could be read still can, whether or not the nodes form trees. -/
theorem Extends.content?_of_some (h : Extends a b) {r : Ref} {hd : Header} {x : Payload Ref}
    (hr : a.content? r = some (hd, x)) : b.content? r = some (hd, x) := by
  obtain ⟨hhd, hx⟩ := content?_eq_some.1 hr
  refine content?_eq_some.2 ⟨h.header?_of_some hhd, ?_⟩
  obtain ⟨p, hp, hx⟩ := Option.bind_eq_some_iff.1 hx
  obtain ⟨d, hd, hx⟩ := Option.bind_eq_some_iff.1 hx
  simp only [Arena.payload?, hp, hd, Option.bind_eq_bind, Option.bind_some, h.entry hx]

/-- The payload of a node is of the pool that its kind names. -/
theorem pool_of_content? {r : Ref} {hd : Header} {x : Payload Ref}
    (h : a.content? r = some (hd, x)) : hd.kind.pool? = some x.pool :=
  pool_of_payload? (content?_eq_some.1 h).2

/-- Of the tokens only names and literals have a payload. -/
theorem kind_ne_token {r : Ref} {hd : Header} {x : Payload Ref} (h : a.content? r = some (hd, x))
    (hi : x.pool ≠ .identifiers) (hl : x.pool ≠ .literals) (t : Token) : hd.kind ≠ .token t := by
  intro hk
  have hpool := pool_of_content? h
  rw [hk] at hpool
  cases t <;> simp_all [Kind.pool?]

theorem lt_of_content? {i : Nat} {c : Header × Payload Ref} (h : a.content? (some i) = some c) :
    i < a.size :=
  lt_of_header? (content?_eq_some.1 h).1

theorem mem_childrenOf {r : Ref} {j : Nat} {hd : Header} {x : Payload Ref}
    (h : a.content? r = some (hd, x)) : j ∈ a.childrenOf r ↔ some j ∈ x.children := by
  simp [childrenOf, h]

theorem WellFormed.lt_of_mem_children (ha : a.WellFormed) {i j : Nat} {hd : Header}
    {x : Payload Ref} (hi : a.content? (some i) = some (hd, x)) (hj : some j ∈ x.children) :
    j < i :=
  ha.child_lt ((mem_childrenOf hi).2 hj)

/-- The children of a node are nodes of the arena. -/
theorem WellFormed.has_of_mem_children (ha : a.WellFormed) {i : Nat} {r : Ref} {hd : Header}
    {x : Payload Ref} (hi : a.content? (some i) = some (hd, x)) (hr : r ∈ x.children) :
    a.Has r := by
  intro j e
  rw [e] at hr
  exact Nat.lt_trans (ha.lt_of_mem_children hi hr) (lt_of_content? hi)

/-! ## Appending one node -/

section Push

variable (a) (h : Header) (x : Payload Ref)

theorem headers_pushRebuilt :
    (a.pushRebuilt h x).2.headers = a.headers.push
    { h with data := some (a.entries x.pool).size } :=
  rfl

theorem size_pushRebuilt : (a.pushRebuilt h x).2.size = a.size + 1 := by
  simp [size, headers_pushRebuilt]

theorem entries_pushRebuilt (p : Pool) :
    (a.pushRebuilt h x).2.entries p =
      if x.pool = p then (a.entries p).push x else a.entries p :=
  entries_addPayload a x p

/-- A rebuilt node comes after all that were there. -/
theorem extends_pushRebuilt : Extends a (a.pushRebuilt h x).2 where
  header {i hd} hi := by
    obtain ⟨hlt, -⟩ := Array.getElem?_eq_some_iff.1 hi
    rw [headers_pushRebuilt, Array.getElem?_push_lt hlt, ← hi, Array.getElem?_eq_getElem hlt]
  entry {p d y} hd := by
    rw [entries_pushRebuilt]
    obtain ⟨hlt, -⟩ := Array.getElem?_eq_some_iff.1 hd
    split
    · rw [Array.getElem?_push_lt hlt, ← hd, Array.getElem?_eq_getElem hlt]
    · exact hd

theorem header?_pushRebuilt :
    (a.pushRebuilt h x).2.header? (some a.size) =
      some { h with data := some (a.entries x.pool).size } := by
  simp [Arena.header?, headers_pushRebuilt, size]

variable {h x} in
/-- The appended node is what it was meant to be. -/
theorem content?_pushRebuilt (hk : h.kind.pool? = some x.pool) :
    (a.pushRebuilt h x).2.content? (some a.size) =
      some ({ h with data := some (a.entries x.pool).size }, x) := by
  refine content?_eq_some.2 ⟨header?_pushRebuilt a h x, ?_⟩
  simp [Arena.payload?, hk, entries_pushRebuilt]

end Push

/-- A position of the larger arena is an old one or that of the appended node. -/
theorem lt_or_eq_of_lt_pushRebuilt {i : Nat} {h : Header} {x : Payload Ref}
    (hi : i < (a.pushRebuilt h x).2.size) : i < a.size ∨ i = a.size := by
  rw [size_pushRebuilt] at hi
  exact Nat.lt_succ_iff_lt_or_eq.1 hi

/-- It keeps an arena well-formed, as long as its kind fits its payload and its children exist. -/
theorem WellFormed.pushRebuilt (ha : a.WellFormed) {h : Header} {x : Payload Ref}
    (hk : h.kind.pool? = some x.pool) (hx : ∀ r ∈ x.children, a.Has r) :
    (a.pushRebuilt h x).2.WellFormed := by
  have hext := extends_pushRebuilt a h x
  constructor
  · intro i j hj
    obtain ⟨hd, y, hc, hjy⟩ : ∃ hd y, (a.pushRebuilt h x).2.content? (some i) = some (hd, y) ∧
        some j ∈ y.children := by
      unfold childrenOf at hj
      split at hj
      · rename_i hd y hc
        exact ⟨hd, y, hc, by simpa using hj⟩
      · exact absurd hj (by simp)
    rcases lt_or_eq_of_lt_pushRebuilt (lt_of_content? hc) with hlt | rfl
    · rw [hext.content? ha (has_some.2 hlt)] at hc
      exact ha.lt_of_mem_children hc hjy
    · rw [content?_pushRebuilt a hk] at hc
      obtain ⟨-, rfl⟩ := Prod.mk.inj (Option.some.inj hc)
      exact hx _ hjy j rfl
  · intro i hd p d hi hp hdat
    have hsize : (a.entries p).size ≤ ((a.pushRebuilt h x).2.entries p).size := by
      rw [entries_pushRebuilt]
      split
      · simp
      · exact Nat.le_refl _
    rcases lt_or_eq_of_lt_pushRebuilt (lt_of_header? hi) with hlt | rfl
    · have hold : a.headers[i]? = some hd := by
        rw [← hi]
        exact (hext.header? (has_some.2 hlt)).symm
      exact Nat.lt_of_lt_of_le (ha.data_lt hold hp hdat) hsize
    · obtain rfl := Option.some.inj ((header?_pushRebuilt a h x).symm.trans hi)
      simp only [Option.some.injEq] at hdat
      obtain rfl : x.pool = p := Option.some.inj (hk.symm.trans hp)
      rw [← hdat, entries_pushRebuilt]
      simp

end TypeReify.Syntax.Arena
