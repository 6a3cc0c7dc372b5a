import TypeReify.Proofs.Check.State

/-!
# Own members

What the checker gathers from the members of an interface or an object type, told from the arena:
one property for each name, in the order in which the names first occur. The first member of a name
says what the property is like, and all members of the name are its declarations.

This is about `add_member`, which is called for one member after the other by
`instantiate_interface` and for type literals.

Results:
* `OwnMembers.skip`, `OwnMembers.redeclare`, `OwnMembers.add`: what one more member changes.
-/

namespace TypeReify.Check

open Syntax Scope
open TypeReify.Types

/-- A member that has a name, in the surroundings in which its type is worked out. -/
structure Member where
  surroundings : Surroundings
  node : NodeId
  name : String

def member? (a : Arena) (s : Surroundings) (r : Ref) : Option Member :=
  match r, a.content? r with
  | some node, some (_, .signature name _ _ _) => (a.nameText? name).map (⟨s, node, ·⟩)
  | _, _ => none

theorem content?_of_member? {a : Arena} {s : Surroundings} {r : Ref} {x : Member}
    (h : member? a s r = some x) : ∃ node hd name types parameters ascription,
      a.content? (some node) = some (hd, .signature name types parameters ascription) ∧
        (a.nameText? name).map (⟨s, node, ·⟩) = some x := by
  unfold member? at h
  split at h
  · rename_i node hd name types parameters ascription hc
    exact ⟨node, hd, name, types, parameters, ascription, hc, h⟩
  · exact absurd h nofun

/-- The members that have a name, in order. -/
def namedMembers (a : Arena) (members : List (Surroundings × Ref)) : List Member :=
  members.filterMap fun x => member? a x.1 x.2

/-- The site of a member. -/
def Member.site (m : Module) (x : Member) : Site where
  module := m.key
  declaration :=
    { kind :=
        if m.file.arena.kind? (some x.node) == some (.form .methodSignature) then .methodSignature
        else .propertySignature
      name := some x.name
      fileName := m.file.fileName
      node := x.node }

section

variable (strict : Bool) (sources : Sources) (m : Module) (st : State)

/-- The property is like this member. -/
def Describes (x : Member) (p : Property) : Prop :=
  ∃ h name types parameters ascription levels heritage,
    m.file.arena.content? (some x.node) = some (h, .signature name types parameters ascription) ∧
      p.name = x.name ∧ p.optional = h.has .optional ∧ p.readonly = h.has .readonly ∧
      p.method = (h.kind == .form .methodSignature) ∧
      Answered sources st (memberType (resolveType strict sources levels heritage) m x.surroundings
        p.method parameters ascription) p.type

/-- The property is like the first member of its name, and declared by all members of its name. -/
structure DescribesMembers (members : List (Surroundings × Ref)) (p : Property) : Prop where
  first : ∃ x, (namedMembers m.file.arena members).find? (·.name == p.name) = some x ∧
    Describes strict sources m st x p
  declarations : p.declarations.map (st.sites[·]?) =
    ((namedMembers m.file.arena members).filter (·.name == p.name)).map fun x => some (x.site m)

/-- The properties that some members declare. -/
structure OwnMembers (members : List (Surroundings × Ref)) (shape : Shape) : Prop where
  names : shape.map (·.name) = ((namedMembers m.file.arena members).map (·.name)).eraseDups
  described : ∀ p ∈ shape, DescribesMembers strict sources m st members p
  known : ∀ p ∈ shape, st.Knows p.type

end

variable {strict : Bool} {sources : Sources} {m : Module} {st st' : State}
  {members : List (Surroundings × Ref)} {shape : Shape} {s : Surroundings} {r : Ref} {x : Member}

theorem eraseDups_append_of_mem {names : List String} {name : String} (h : name ∈ names) :
    (names ++ [name]).eraseDups = names.eraseDups := by
  rw [List.eraseDups_append]
  simp [List.removeAll, h]

theorem eraseDups_append_of_not_mem {names : List String} {name : String} (h : name ∉ names) :
    (names ++ [name]).eraseDups = names.eraseDups ++ [name] := by
  rw [List.eraseDups_append]
  simp [List.removeAll, h, List.eraseDups_cons]

theorem nodup_eraseDups (names : List String) : names.eraseDups.Nodup := by
  induction names using List.reverseRecOn with
  | nil => exact List.nodup_nil
  | append_singleton names name ih =>
    by_cases h : name ∈ names
    · rw [eraseDups_append_of_mem h]
      exact ih
    · rw [eraseDups_append_of_not_mem h]
      exact List.concat_eq_append ▸ ih.concat (mt List.mem_eraseDups.1 h)

/-- What is added under new names only repeats no name. -/
theorem nodup_map_concat_of_new {α : Type} {name : α → String} {xs : List α}
    (h : (xs.map name).Nodup) (x : α) :
    ((if xs.any (name · == name x) then xs else xs ++ [x]).map name).Nodup := by
  split
  · exact h
  · rename_i hnew
    have hnot : name x ∉ xs.map name := by
      intro hmem
      obtain ⟨y, hy, hname⟩ := List.mem_map.1 hmem
      exact hnew (List.any_eq_true.2 ⟨y, hy, beq_iff_eq.2 hname⟩)
    rw [List.map_append]
    exact List.concat_eq_append ▸ h.concat hnot

theorem namedMembers_append_of_none (hr : member? m.file.arena s r = none) :
    namedMembers m.file.arena (members ++ [(s, r)]) = namedMembers m.file.arena members := by
  simp [namedMembers, hr]

theorem namedMembers_append_of_some (hr : member? m.file.arena s r = some x) :
    namedMembers m.file.arena (members ++ [(s, r)]) = namedMembers m.file.arena members ++ [x] := by
  simp [namedMembers, hr]

theorem Describes.mono {p : Property} (h : Describes strict sources m st x p) (hst : st.Grows st') :
    Describes strict sources m st' x p := by
  obtain ⟨hd, name, types, parameters, ascription, levels, heritage, hc, hname, ho, hr,
    hm, htype⟩ := h
  exact ⟨hd, name, types, parameters, ascription, levels, heritage, hc, hname, ho, hr, hm,
    htype.mono hst⟩

theorem DescribesMembers.mono {p : Property} (h : DescribesMembers strict sources m st members p)
    (hst : st.Grows st') : DescribesMembers strict sources m st' members p := by
  obtain ⟨x, hfind, hx⟩ := h.first
  refine ⟨⟨x, hfind, hx.mono hst⟩, ?_⟩
  rw [← h.declarations]
  refine List.map_congr_left fun d hd => ?_
  -- Each declaration has a site already.
  have hmem : st.sites[d]? ∈ p.declarations.map (st.sites[·]?) := List.mem_map_of_mem hd
  rw [h.declarations] at hmem
  obtain ⟨x, -, hx⟩ := List.mem_map.1 hmem
  rw [← hx]
  exact hst.sites d _ hx.symm

/-- A member of another name changes nothing. -/
theorem DescribesMembers.append {p : Property} (h : DescribesMembers strict sources m st members p)
    (hr : member? m.file.arena s r = some x) (hne : x.name ≠ p.name) :
    DescribesMembers strict sources m st (members ++ [(s, r)]) p := by
  have hbeq : (x.name == p.name) = false := beq_false_of_ne hne
  obtain ⟨x', hfind, hx'⟩ := h.first
  refine ⟨⟨x', ?_, hx'⟩, ?_⟩
  · rw [namedMembers_append_of_some hr, List.find?_append, hfind, Option.some_or]
  · rw [namedMembers_append_of_some hr, h.declarations, List.filter_append]
    simp [hbeq]

namespace OwnMembers

theorem empty (strict : Bool) (sources : Sources) (m : Module) (st : State) :
    OwnMembers strict sources m st [] [] :=
  ⟨rfl, fun _ hp => absurd hp List.not_mem_nil, fun _ hp => absurd hp List.not_mem_nil⟩

variable (h : OwnMembers strict sources m st members shape)
include h

theorem mono (hst : st.Grows st') : OwnMembers strict sources m st' members shape :=
  ⟨h.names, fun p hp => (h.described p hp).mono hst, fun p hp => (h.known p hp).mono hst.interner⟩

theorem any_name {text : String} : shape.any (·.name == text) = true ↔
    text ∈ (namedMembers m.file.arena members).map (·.name) := by
  rw [← List.mem_eraseDups, ← h.names, List.any_eq_true, List.mem_map]
  simp only [beq_iff_eq]

/-- A member without name declares nothing. -/
theorem skip (hr : member? m.file.arena s r = none) :
    OwnMembers strict sources m st (members ++ [(s, r)]) shape := by
  have hnames : namedMembers m.file.arena
    (members ++ [(s, r)]) = namedMembers m.file.arena members :=
    namedMembers_append_of_none hr
  refine ⟨by rw [hnames]; exact h.names, fun p hp => ?_, h.known⟩
  obtain ⟨hfirst, hdeclarations⟩ := h.described p hp
  exact ⟨by rw [hnames]; exact hfirst, by rw [hnames]; exact hdeclarations⟩

variable (hr : member? m.file.arena s r = some x)
include hr

/-- A further member of a name is one more declaration. -/
theorem redeclare (hold : shape.any (·.name == x.name) = true) {d : Nat}
    (hd : st.sites[d]? = some (x.site m)) :
    OwnMembers strict sources m st (members ++ [(s, r)]) (Check.redeclare shape x.name d) := by
  have hname (p : Property) : (if p.name == x.name then
      { p with declarations := p.declarations ++ [d] } else p).name = p.name := by
    split <;> rfl
  refine ⟨?_, fun q hq => ?_, fun q hq => ?_⟩
  · have hsame : (Check.redeclare shape x.name d).map (·.name) = shape.map (·.name) := by
      rw [Check.redeclare, List.map_map]
      exact List.map_congr_left fun p _ => hname p
    have hmem : x.name ∈ (namedMembers m.file.arena members).map (·.name) := h.any_name.1 hold
    rw [hsame, namedMembers_append_of_some hr, List.map_append, List.map_singleton,
      eraseDups_append_of_mem hmem, h.names]
  · obtain ⟨p, hp, rfl⟩ := List.mem_map.1 hq
    have hdescribed := h.described p hp
    by_cases htext : p.name = x.name
    · rw [if_pos (beq_iff_eq.2 htext)]
      obtain ⟨x', hfind, hx'⟩ := hdescribed.first
      refine ⟨⟨x', ?_, hx'⟩, ?_⟩
      · rw [namedMembers_append_of_some hr, List.find?_append, hfind, Option.some_or]
      · rw [namedMembers_append_of_some hr, List.map_append, hdescribed.declarations,
          List.filter_append, List.map_append]
        simp [hd, htext]
    · rw [if_neg (by simpa using htext)]
      exact hdescribed.append hr (Ne.symm htext)
  · obtain ⟨p, hp, rfl⟩ := List.mem_map.1 hq
    have hknown := h.known p hp
    split
    · exact hknown
    · exact hknown

/-- The first member of a name adds a property. -/
theorem add {p : Property} (hnew : shape.any (·.name == x.name) = false) {d : Nat}
    (hd : st.sites[d]? = some (x.site m)) (hp : Describes strict sources m st x p)
    (hdeclarations : p.declarations = [d]) (hknown : st.Knows p.type) :
    OwnMembers strict sources m st (members ++ [(s, r)]) (shape ++ [p]) := by
  have hname : p.name = x.name := by
    obtain ⟨_, _, _, _, _, _, _, -, hname, -⟩ := hp
    exact hname
  have hnot : x.name ∉ (namedMembers m.file.arena members).map (·.name) := by
    rw [← h.any_name, hnew]
    exact Bool.false_ne_true
  have hother (y : Member) (hy : y ∈ namedMembers m.file.arena members) :
      (y.name == p.name) = false :=
    beq_false_of_ne fun e => hnot (List.mem_map.2 ⟨y, hy, e.trans hname⟩)
  refine ⟨?_, fun q hq => ?_, fun q hq => ?_⟩
  · rw [namedMembers_append_of_some hr, List.map_append, List.map_append, List.map_singleton,
      List.map_singleton, eraseDups_append_of_not_mem hnot, h.names, hname]
  · rcases List.mem_append.1 hq with hq | hq
    · refine (h.described q hq).append hr fun e => ?_
      have hq' : q.name ∈ shape.map (·.name) := List.mem_map_of_mem hq
      rw [h.names, List.mem_eraseDups, ← e] at hq'
      exact hnot hq'
    · obtain rfl := List.mem_singleton.1 hq
      refine ⟨⟨x, ?_, hp⟩, ?_⟩
      · rw [namedMembers_append_of_some hr, List.find?_append,
          List.find?_eq_none.2 fun y hy => by rw [hother y hy]; exact Bool.false_ne_true]
        simp [hname]
      · rw [namedMembers_append_of_some hr, List.filter_append,
          List.filter_eq_nil_iff.2 fun y hy => by rw [hother y hy]; exact Bool.false_ne_true]
        simp [hd, hdeclarations, hname]
  · rcases List.mem_append.1 hq with hq | hq
    · exact h.known q hq
    · exact List.mem_singleton.1 hq ▸ hknown

end OwnMembers

end TypeReify.Check
