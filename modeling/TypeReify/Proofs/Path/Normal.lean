import TypeReify.Modules.Lookup
import Mathlib.Data.List.Basic

/-!
# Where a normal path leads

A path leads to a place seen from the root, or from the directory it starts in: `..` drops the last
name, climbs one level where a relative path has none left, and stays at the root (`location`). A
normal path keeps the names that are left, but only one step up, and this if the number of steps up
without a name before them is odd: a second `..` is folded away with the first. Behind the root the
one step up is kept too. So the file key of a path tells its names, and whether its idle steps up
are odd in number.

This is about `normalize_path`, whose call of `pop` takes away a `..` that was pushed before, and
about `file_key`.

Results:
* `trail_normalize`: what is left of a normal path.
* `normalize_location`: which paths lead where their normal path leads, and which paths share a key.
* `key_eq_iff_location`: among paths that climb once at most, those with one key lead to one place.
* `normalize_climbs`: two places with one key, and one place with two.

Out of scope: links on the way, where `..` leads elsewhere than the path says.
-/

namespace TypeReify.Path

/-- A place, as seen from the root, or from so many levels above the directory where a relative path
starts. The last name comes first. -/
inductive Location
  | absolute (names : List String)
  | relative (climbs : Nat) (names : List String)
  deriving DecidableEq, Repr

/-- One step from a place. -/
def Location.step : Location → Component → Location
  | _, .root => .absolute []
  | l, .here => l
  | .absolute names, .name text => .absolute (text :: names)
  | .absolute names, .up => .absolute names.tail
  | .relative climbs names, .name text => .relative climbs (text :: names)
  | .relative climbs [], .up => .relative (climbs + 1) []
  | .relative climbs (_ :: names), .up => .relative climbs names

/-- The place that a path leads to. -/
def location (p : String) : Location := (components p).foldl Location.step (.relative 0 [])

/-- What is left of a path: how often `..` finds no name to drop, and the names, the last one
first. -/
structure Trail where
  climbs : Nat
  names : List String
  deriving DecidableEq, Repr

def Trail.step (t : Trail) : Component → Trail
  | .root | .here => t
  | .name text => { t with names := text :: t.names }
  | .up =>
    match t.names with
    | [] => { t with climbs := t.climbs + 1 }
    | _ :: names => { t with names }

def trail (p : String) : Trail := (components p).foldl Trail.step ⟨0, []⟩

/-! ## Paths as texts -/

/-- A piece of a path that counts: it is not empty, not `.`, and has no slash in it. -/
structure Counts (piece : String) : Prop where
  ne_empty : piece ≠ ""
  ne_here : piece ≠ "."
  slash : '/' ∉ piece.toList

/-- A piece that counts, as a step. -/
def stepOf (piece : String) : Component := if piece = ".." then .up else .name piece

theorem splitSlash_eq (cs : List Char) : splitSlash cs = cs.splitOn '/' := by
  induction cs with
  | nil => rfl
  | cons c cs ih =>
    simp only [splitSlash, ih, List.splitOn, List.splitOnP_cons_eq_if_modifyHead, beq_iff_eq]
    split
    · rfl
    · cases hs : List.splitOnP (· == '/') cs with
      | nil => exact absurd hs (List.splitOnP_ne_nil _ _)
      | cons piece pieces => rfl

theorem pieces_intercalate {ps : List String} (hne : ps ≠ []) (h : ∀ p ∈ ps, '/' ∉ p.toList) :
    pieces ("/".intercalate ps) = ps := by
  have hsplit : List.splitOn '/' (['/'].intercalate (ps.map String.toList)) =
    ps.map String.toList :=
    List.splitOn_intercalate '/' (by simpa using h) (by simpa using hne)
  rw [pieces, splitSlash_eq, String.toList_intercalate]
  exact (congrArg (List.map String.ofList) hsplit).trans (by simp)

theorem pieces_ne_nil (p : String) : pieces p ≠ [] := by
  rw [pieces, splitSlash_eq]
  exact List.map_eq_nil_iff.not.2 (List.splitOn_ne_nil _ _)

theorem slash_of_mem_pieces {p piece : String} (h : piece ∈ pieces p) : '/' ∉ piece.toList := by
  obtain ⟨cs, hcs, rfl⟩ := List.mem_map.1 h
  rw [String.toList_ofList]
  have hall (cs : List Char) : ∀ piece ∈ splitSlash cs, '/' ∉ piece := by
    induction cs with
    | nil => simp [splitSlash]
    | cons c cs ih =>
      rw [splitSlash]
      split
      · simpa using ih
      · rename_i hc
        split
        · simpa using Ne.symm hc
        · rename_i piece pieces hs
          rw [hs] at ih
          grind
  exact hall _ cs hcs

section Piece

variable {piece : String}

theorem component?_eq_none_iff : component? piece = none ↔ piece = "" ∨ piece = "." := by
  unfold component?
  grind

theorem component?_eq_up_iff : component? piece = some .up ↔ piece = ".." := by
  unfold component?
  grind

theorem component?_eq_name_iff : component? piece = some (.name piece) ↔
    ¬ (piece = "" ∨ piece = ".") ∧ piece ≠ ".." := by
  unfold component?
  grind

end Piece

/-- The steps of a path behind its beginning are pieces that count. -/
theorem counts_of_component? {p piece : String} {step : Component} (h : piece ∈ pieces p)
    (hstep : component? piece = some step) : Counts piece ∧ step = stepOf piece := by
  unfold component? at hstep
  split at hstep
  · cases hstep
  · rename_i hcounts
    obtain ⟨hempty, hhere⟩ := not_or.1 hcounts
    refine ⟨⟨hempty, hhere, slash_of_mem_pieces h⟩, ?_⟩
    unfold stepOf
    split at hstep <;> simp_all

theorem component?_of_counts {piece : String} (h : Counts piece) :
    component? piece = some (stepOf piece) := by
  unfold component? stepOf
  rw [if_neg (not_or.2 ⟨h.ne_empty, h.ne_here⟩)]
  split <;> rfl

/-- A path begins at the root or not, perhaps with a `.` that leads nowhere, and goes on by the
pieces that count. -/
theorem components_eq (p : String) : ∃ start, (start = [] ∨ start = [Component.here]) ∧
    components p = (if isAbsolute p then [.root] else []) ++
    (start ++ (pieces p).filterMap component?) := by
  unfold components
  by_cases hp : isAbsolute p = true
  · exact ⟨[], .inl rfl, by simp [hp]⟩
  · by_cases hhere : (pieces p).head? = some "."
    · exact ⟨[.here], .inr rfl, by simp [hp, hhere]⟩
    · exact ⟨[], .inl rfl, by simp [hp, hhere]⟩

/-! ## The trail of a path -/

theorem counts_names {cs : List Component} {t : Trail}
    (hcs : ∀ text, .name text ∈ cs → Counts text ∧ text ≠ "..")
    (ht : ∀ text ∈ t.names, Counts text ∧ text ≠ "..") :
    ∀ text ∈ (cs.foldl Trail.step t).names, Counts text ∧ text ≠ ".." := by
  induction cs generalizing t with
  | nil => exact ht
  | cons c cs ih =>
    refine ih (fun text h => hcs text (List.mem_cons_of_mem c h)) fun text h => ?_
    cases c with
    | root | here => exact ht text h
    | name text' =>
      rcases List.mem_cons.1 h with rfl | h
      · exact hcs text List.mem_cons_self
      · exact ht text h
    | up =>
      obtain ⟨climbs, _ | ⟨name, names⟩⟩ := t
      · exact ht text h
      · exact ht text (List.mem_cons_of_mem name h)

/-- The names left of a path are pieces that count and do not climb. -/
theorem counts_trail (p : String) : ∀ text ∈ (trail p).names, Counts text ∧ text ≠ ".." := by
  refine counts_names (fun text h => ?_) fun _ h => absurd h List.not_mem_nil
  obtain ⟨start, hstart, hp⟩ := components_eq p
  have hmem : .name text ∈ (pieces p).filterMap component? := by
    rw [hp] at h
    rcases hstart with rfl | rfl <;> by_cases habs : isAbsolute p = true <;> simpa [habs] using h
  obtain ⟨piece, hpiece, hstep⟩ := List.mem_filterMap.1 hmem
  obtain ⟨hcounts, hname⟩ := counts_of_component? hpiece hstep
  unfold stepOf at hname
  split at hname
  · cases hname
  · rename_i hup
    obtain rfl := Component.name.inj hname
    exact ⟨hcounts, hup⟩

/-- The stack of a normal path: the names that are left, on one step up if the steps up without a
name are odd in number. -/
def Trail.stack (t : Trail) : List String :=
  t.names ++ if t.climbs % 2 = 1 then [".."] else []

/-- A second step up takes the first one off the stack. -/
theorem fold_stack (t : Trail) (c : Component) : fold t.stack c = (t.step c).stack := by
  obtain ⟨climbs, names⟩ := t
  cases c with
  | root | here | name _ => rfl
  | up =>
    cases names with
    | cons name names => rfl
    | nil =>
      rcases Nat.mod_two_eq_zero_or_one climbs with h | h
      · have h' : (climbs + 1) % 2 = 1 := by omega
        simp [Trail.stack, Trail.step, fold, h, h']
      · have h' : (climbs + 1) % 2 = 0 := by omega
        simp [Trail.stack, Trail.step, fold, h, h']

theorem names_eq (p : String) : names p = (trail p).stack.reverse := by
  have hfold (cs : List Component) (t : Trail) :
      cs.foldl fold t.stack = (cs.foldl Trail.step t).stack := by
    induction cs generalizing t with
    | nil => rfl
    | cons c cs ih =>
      rw [List.foldl_cons, fold_stack]
      exact ih _
  exact congrArg List.reverse (hfold (components p) ⟨0, []⟩)

/-- Where a trail leads, from the root or from a directory. -/
def Trail.place (absolute : Bool) (t : Trail) : Location :=
  if absolute then .absolute t.names else .relative t.climbs t.names

theorem step_place (absolute : Bool) (t : Trail) {c : Component} (hc : c ≠ .root) :
    (t.place absolute).step c = (t.step c).place absolute := by
  obtain ⟨climbs, names⟩ := t
  cases absolute <;> cases names <;> cases c <;> first | exact absurd rfl hc | rfl

theorem foldl_place (absolute : Bool) (t : Trail) {cs : List Component} (hcs : .root ∉ cs) :
    cs.foldl Location.step (t.place absolute) = (cs.foldl Trail.step t).place absolute := by
  induction cs generalizing t with
  | nil => rfl
  | cons c cs ih =>
    rw [List.foldl_cons, step_place absolute t fun h => hcs (h ▸ List.mem_cons_self)]
    exact ih _ fun h => hcs (List.mem_cons_of_mem c h)

/-- A path leads where its trail leads from the place it starts in. -/
theorem location_eq (p : String) : location p = (trail p).place (isAbsolute p) := by
  obtain ⟨start, hstart, hp⟩ := components_eq p
  have hroot : Component.root ∉ start ++ (pieces p).filterMap component? := by
    intro h
    rcases List.mem_append.1 h with h | h
    · rcases hstart with rfl | rfl <;> simp at h
    · obtain ⟨piece, hpiece, hstep⟩ := List.mem_filterMap.1 h
      have hname := (counts_of_component? hpiece hstep).2
      unfold stepOf at hname
      split at hname <;> cases hname
  unfold location trail
  rw [hp]
  by_cases habs : isAbsolute p = true
  · rw [habs, if_pos rfl]
    exact foldl_place true ⟨0, []⟩ hroot
  · rw [Bool.not_eq_true] at habs
    rw [habs]
    exact foldl_place false ⟨0, []⟩ hroot

/-! ## Normal paths -/

theorem counts_names_of_path (p : String) : ∀ text ∈ names p, Counts text := by
  intro text h
  rw [names_eq, List.mem_reverse, Trail.stack] at h
  rcases List.mem_append.1 h with h | h
  · exact (counts_trail p text h).1
  · split at h
    · obtain rfl := List.mem_singleton.1 h
      exact ⟨by decide, by decide, by decide⟩
    · exact absurd h List.not_mem_nil

section Text

variable {ps : List String} (h : ∀ piece ∈ ps, Counts piece)
include h

/-- Pieces that count do not begin at the root. -/
theorem isAbsolute_intercalate : isAbsolute ("/".intercalate ps) = false := by
  cases ps with
  | nil => decide
  | cons piece ps =>
    have hpiece := h piece List.mem_cons_self
    have hne : piece.toList ≠ [] := fun e => hpiece.ne_empty (String.toList_eq_nil_iff.1 e)
    obtain ⟨c, cs, hcs⟩ := List.exists_cons_of_ne_nil hne
    have hc : c ≠ '/' := fun e => hpiece.slash (by rw [hcs, e]; exact List.mem_cons_self)
    have hhead : ("/".intercalate (piece :: ps)).toList.head? = some c := by
      cases ps <;> simp [hcs]
    rw [isAbsolute, hhead]
    simpa using hc

/-- Nor with a leading `.`. -/
theorem components_intercalate : components ("/".intercalate ps) = ps.map stepOf := by
  have hsteps (qs : List String) (hqs : ∀ piece ∈ qs, Counts piece) :
      qs.filterMap component? = qs.map stepOf := by
    rw [List.filterMap_congr fun piece hp => component?_of_counts (hqs piece hp)]
    exact congrFun List.filterMap_eq_map' qs
  unfold components
  rw [isAbsolute_intercalate h]
  cases ps with
  | nil => decide
  | cons piece ps =>
    have hhere : piece ≠ "." := (h piece List.mem_cons_self).ne_here
    rw [pieces_intercalate (List.cons_ne_nil _ _) fun p hp => (h p hp).slash, hsteps _ h]
    simp [hhere]

end Text

/-- A slash in front puts the root in front. -/
theorem components_slash {p : String} (hp : isAbsolute p = false)
    (hhere : Component.here ∉ components p) : components ("/" ++ p) = .root :: components p := by
  have hpieces : pieces ("/" ++ p) = "" :: pieces p := by simp [pieces, splitSlash]
  have habs : isAbsolute ("/" ++ p) = true := by simp [isAbsolute]
  have hstart : (pieces p).head? ≠ some "." := by
    intro hstart
    exact hhere (by simp [components, hp, hstart])
  have hempty : component? "" = none := rfl
  simp [components, hpieces, habs, hp, hstart, hempty]

theorem components_normalize (p : String) : components (normalize p) =
    (if isAbsolute p then [.root] else []) ++ (names p).map stepOf := by
  have hcounts := counts_names_of_path p
  unfold normalize
  by_cases h : isAbsolute p = true
  · have hhere : Component.here ∉ (names p).map stepOf := by
      intro hmem
      obtain ⟨piece, -, hpiece⟩ := List.mem_map.1 hmem
      unfold stepOf at hpiece
      split at hpiece <;> cases hpiece
    rw [if_pos h, components_slash (isAbsolute_intercalate hcounts), components_intercalate hcounts,
      if_pos h]
    · rfl
    · rw [components_intercalate hcounts]
      exact hhere
  · rw [if_neg h, if_neg h, String.empty_append, components_intercalate hcounts]
    rfl

theorem isAbsolute_normalize (p : String) : isAbsolute (normalize p) = isAbsolute p := by
  have hhead : (components (normalize p)).head? = some .root ↔ isAbsolute p = true := by
    rw [components_normalize]
    by_cases h : isAbsolute p = true
    · simp [h]
    · simp only [h, if_false, List.nil_append, Bool.false_eq_true, iff_false]
      cases names p with
      | nil => simp
      | cons name names =>
        unfold stepOf
        simp only [List.map_cons, List.head?_cons, Option.some.injEq]
        split <;> exact Component.noConfusion
  exact Bool.eq_iff_iff.2 ((components_root _).symm.trans hhead)

/-- Names are left where they stand. -/
theorem foldl_names {ns : List String} (hns : ∀ text ∈ ns, text ≠ "..") (t : Trail) :
    (ns.map stepOf).foldl Trail.step t = ⟨t.climbs, ns.reverse ++ t.names⟩ := by
  induction ns generalizing t with
  | nil => rfl
  | cons n ns ih =>
    have hn : stepOf n = .name n := if_neg (hns n List.mem_cons_self)
    rw [List.map_cons, List.foldl_cons, hn, ih fun text h => hns text (List.mem_cons_of_mem n h)]
    simp [Trail.step]

/-- **What is left of a normal path**: the same names, on one step up or none. -/
theorem trail_normalize (p : String) :
    trail (normalize p) = ⟨(trail p).climbs % 2, (trail p).names⟩ := by
  have hcounts := counts_trail p
  have hroot : trail (normalize p) = ((names p).map stepOf).foldl Trail.step ⟨0, []⟩ := by
    rw [trail, components_normalize]
    by_cases h : isAbsolute p = true <;> simp [h, Trail.step]
  have hnames : ∀ text ∈ (trail p).names.reverse, text ≠ ".." :=
    fun text h => (hcounts text (List.mem_reverse.1 h)).2
  rw [hroot, names_eq, Trail.stack, List.reverse_append, List.map_append, List.foldl_append,
    foldl_names hnames, List.reverse_reverse]
  rcases Nat.mod_two_eq_zero_or_one (trail p).climbs with h | h
  · simp [h]
  · have hup : stepOf ".." = .up := rfl
    simp [h, hup, Trail.step]

/-- A normal path leads where the path leads, except for a relative path that climbs more than once.
-/
theorem location_normalize_iff (p : String) :
    location (normalize p) = location p ↔ isAbsolute p = true ∨ (trail p).climbs ≤ 1 := by
  rw [location_eq, location_eq, trail_normalize, isAbsolute_normalize]
  cases isAbsolute p with
  | true => simp [Trail.place]
  | false =>
    simp only [Trail.place, Bool.false_eq_true, if_false, Location.relative.injEq,
      and_true, false_or]
    omega

/-- Of a path its key keeps whether it is absolute, the names that are left, and whether the steps
up that find no name are odd in number. -/
theorem key_eq_iff (p q : String) :
    Modules.Lookup.key p = Modules.Lookup.key q ↔ isAbsolute p = isAbsolute q ∧
      (trail p).names = (trail q).names ∧ (trail p).climbs % 2 = (trail q).climbs % 2 := by
  show normalize p = normalize q ↔ _
  refine ⟨fun h => ?_, fun ⟨habs, hnames, hclimbs⟩ => ?_⟩
  · have htrail := congrArg trail h
    rw [trail_normalize, trail_normalize, Trail.mk.injEq] at htrail
    refine ⟨?_, htrail.2, htrail.1⟩
    rw [← isAbsolute_normalize p, h, isAbsolute_normalize]
  · rw [normalize, normalize, habs, names_eq, names_eq, Trail.stack, Trail.stack, hnames, hclimbs]

/-- **Which paths a normal path stands for.** It leads where the path leads, except for a relative
path that climbs more than once; and two paths have one key just if both are absolute or both
relative, the same names are left of them, and the steps up that find no name are odd in number in
both or even in both. -/
theorem normalize_location (p q : String) :
    (location (normalize p) = location p ↔ isAbsolute p = true ∨ (trail p).climbs ≤ 1) ∧
      (Modules.Lookup.key p = Modules.Lookup.key q ↔ isAbsolute p = isAbsolute q ∧
        (trail p).names = (trail q).names ∧ (trail p).climbs % 2 = (trail q).climbs % 2) :=
  ⟨location_normalize_iff p, key_eq_iff p q⟩

/-- Of the paths that climb once at most, and not at all from the root, those that share a key lead
to one place. -/
theorem key_eq_iff_location {p q : String}
    (hp : (trail p).climbs ≤ if isAbsolute p then 0 else 1)
    (hq : (trail q).climbs ≤ if isAbsolute q then 0 else 1) :
    Modules.Lookup.key p = Modules.Lookup.key q ↔ location p = location q := by
  rw [key_eq_iff, location_eq, location_eq]
  cases ha : isAbsolute p <;> cases hb : isAbsolute q
  · simp only [ha, hb, Bool.false_eq_true, if_false] at hp hq
    simp only [Trail.place, Bool.false_eq_true, if_false, Location.relative.injEq, true_and,
      and_comm (a := (trail p).climbs = _)]
    rw [Nat.mod_eq_of_lt (Nat.lt_succ_iff.2 hp), Nat.mod_eq_of_lt (Nat.lt_succ_iff.2 hq)]
  · simp [Trail.place]
  · simp [Trail.place]
  · simp only [ha, hb, if_true, Nat.le_zero_eq] at hp hq
    simp [Trail.place, hp, hq]

/-- Two steps up cancel out, so two places share a key; a step up from the root stays, so one place
has two keys. -/
theorem normalize_climbs :
    (Modules.Lookup.key "../../x" = Modules.Lookup.key "x" ∧ location "../../x" ≠ location "x") ∧
      Modules.Lookup.key "/../x" ≠ Modules.Lookup.key "/x" ∧ location "/../x" = location "/x" := by
  decide

end TypeReify.Path
