import TypeReify.Proofs.Marker.Calls

/-!
# Names when the program runs

When a program runs, a `var` statement declares its names for the whole body of the function around
it, however many blocks lie between, and the other declarations of a block are for that block alone.
`Place` says what is declared around a node by these rules, and which names leave the block of their
`var` statement. The checker has a scope for every block and looks no further down, so it knows
nothing of names that leave their block.

What `lookup_value` finds is compared with what the language says. `bind_block` binds the statements
of a block and does not look into blocks below.

Results:
* `mem_varsBelow_iff`: what the `var` statements below a node declare.
* `signature?_unhoisted`: where no `var` of its name leaves a block, a call has the signature of the
  function its callee is bound to when the program runs.
* `signature?_hoisted`: a call that has the signature of an import hidden by such a `var`.

Out of scope: the time before a name is initialised, and names that a program makes as it runs.
-/

namespace TypeReify.Check

open Syntax Scope
open TypeReify.Types

/-! ## The rules of a running program -/

/-- The header of a `var` statement. -/
def isVar (h : Header) : Bool := !(h.has .constant || h.has .letBound)

/-- What a statement declares for the whole function around it. -/
def declaredVars (a : Arena) (statement : Ref) : Declarations :=
  match a.content? statement with
  | some (h, .variableStatement declarations) =>
    if isVar h then declarations.flatMap (declaredVariable a) else []
  | _ => []

/-- What a statement declares for its block alone. -/
def declaredLexically (a : Arena) (statement : Ref) : Declarations :=
  match a.content? statement with
  | some (h, .variableStatement _) => if isVar h then [] else declaredValues a statement
  | _ => declaredValues a statement

/-- What the `var` statements below a node declare, those of inner functions left out. -/
def varsBelow (a : Arena) : (levels : Nat) → Ref → Declarations
  | 0, _ => []
  | levels + 1, r =>
    match a.content? r with
    | some (_, .variableStatement _) => declaredVars a r
    | none | some (_, .function ..) => []
    | some (_, p) => p.children.flatMap (varsBelow a levels)

/-- What the `var` statements in the blocks and branches of a statement declare. -/
def nestedVars (a : Arena) (statement : Ref) : Declarations :=
  match a.content? statement with
  | some (_, .variableStatement _) => []
  | _ => varsBelow a a.levels statement

/-- What is declared around a node. -/
structure Place where
  /-- Innermost first. -/
  scopes : List Declarations
  /-- The `var` names that are declared in a block and bound further outside. -/
  hoisted : Declarations
  /-- A block that stands here is the body of a function. -/
  body : Bool

namespace Place

/-- What is declared around the top-level statements of a file, besides those themselves. -/
def ofFile (f : SourceFile) : Place := ⟨[], f.statements.flatMap (nestedVars f.arena), false⟩

/-- What is declared around the children of a node. A body binds the `var` names of its inner
blocks, and these leave them to it. -/
def inside (a : Arena) (here : Place) : Payload Ref → Place
  | .function _ _ parameters _ _ =>
    ⟨parameters.flatMap (declaredParameter a) :: here.scopes, here.hoisted, true⟩
  | .block statements =>
    let nested := statements.flatMap (nestedVars a)
    if here.body then
      ⟨(statements.flatMap (declaredValues a) ++ nested) :: here.scopes, nested ++ here.hoisted,
        false⟩
    else
      ⟨statements.flatMap (declaredLexically a) :: here.scopes,
        statements.flatMap (declaredVars a) ++ here.hoisted, false⟩
  | _ => ⟨here.scopes, here.hoisted, false⟩

/-- What is declared around the node `c` of a file. -/
def Of (f : SourceFile) (root c : NodeId) (place : Place) : Prop :=
  Descent f.arena (inside f.arena) root (ofFile f) c place

end Place

/-- What a name is bound to. The `var` names of blocks outside functions come last in the file. A
binding that is declared several times counts as what its first declaration says. -/
def binding? (files : List SourceFile) (f : SourceFile) (place : Place) (name : String) :
    Option Value :=
  meaning? (place.scopes ++ [topValues files f ++ f.statements.flatMap (nestedVars f.arena)]) name

/-- The value is a function of the file, or an import of a function that another file exports. -/
inductive Value.Leads (files : List SourceFile) (f : SourceFile) :
    Value → SourceFile → NodeId → Prop
  | own {first : NodeId} : Value.Leads files f (.function first []) f first
  | imported {key exported : String} {g : SourceFile} {first : NodeId}
      (hg : Sources.fileAt? files key = some g)
      (hfirst : (exportedValues g).lookup exported = some (.function first [])) :
      Value.Leads files f (.imported (some key) exported) g first

/-- The name is bound to the function at `first` in `g`. -/
def BoundTo (files : List SourceFile) (f : SourceFile) (place : Place) (name : String)
    (g : SourceFile) (first : NodeId) : Prop :=
  ∃ v, binding? files f place name = some v ∧ Value.Leads files f v g first

/-! ## Below a node -/

/-- A `var` statement below the node, in no inner function, declares this. -/
inductive DeclaresBelow (a : Arena) (d : String × Value) : Ref → Prop
  | here {r : Ref} (h : d ∈ declaredVars a r) : DeclaresBelow a d r
  | child {r k : Ref} {h : Header} {p : Payload Ref} (hc : a.content? r = some (h, p))
      (hstatement : ∀ declarations, p ≠ .variableStatement declarations)
      (hfunction : ∀ name types parameters result body,
        p ≠ .function name types parameters result body)
      (hk : k ∈ p.children) (hd : DeclaresBelow a d k) : DeclaresBelow a d r

theorem mem_declaredVars {a : Arena} {r : Ref} {d : String × Value} (h : d ∈ declaredVars a r) :
    ∃ hd declarations, a.content? r = some (hd, .variableStatement declarations) := by
  unfold declaredVars at h
  split at h
  · exact ⟨_, _, ‹_›⟩
  · exact absurd h List.not_mem_nil

/-- With enough levels every `var` statement is found. -/
theorem mem_varsBelow_iff {a : Arena} (ha : a.WellFormed) {d : String × Value}
    {levels : Nat} {r : Ref}
    (hr : ∀ i, r = some i → i < levels) : d ∈ varsBelow a levels r ↔ DeclaresBelow a d r := by
  induction levels generalizing r with
  | zero =>
    cases r with
    | none =>
      refine ⟨fun h => absurd h List.not_mem_nil, fun h => ?_⟩
      cases h with
      | here h => exact absurd (mem_declaredVars h) (by simp [Arena.content?, Arena.header?])
      | child hc _ _ _ _ => exact absurd hc (by simp [Arena.content?, Arena.header?])
    | some i => exact absurd (hr i rfl) (Nat.not_lt_zero i)
  | succ levels ih =>
    have hchild {h : Header} {p : Payload Ref} (hc : a.content? r = some (h, p)) {k : Ref}
        (hk : k ∈ p.children) : d ∈ varsBelow a levels k ↔ DeclaresBelow a d k := by
      refine ih fun j hj => ?_
      cases r with
      | none => exact absurd hc (by simp [Arena.content?, Arena.header?])
      | some i =>
        have hlt := ha.lt_of_mem_children hc (hj ▸ hk)
        exact Nat.lt_of_lt_of_le hlt (Nat.lt_succ_iff.1 (hr i rfl))
    -- A statement is answered for itself, a function hides what is in it, and all else is looked
    -- through.
    rw [varsBelow]
    split
    · rename_i hc
      refine ⟨.here, fun h => ?_⟩
      cases h with
      | here h => exact h
      | child hc' hstatement _ _ _ =>
        exact absurd (Prod.mk.inj (Option.some.inj (hc'.symm.trans hc))).2 (hstatement _)
    · rename_i hc
      refine ⟨fun h => absurd h List.not_mem_nil, fun h => ?_⟩
      cases h with
      | here h =>
        obtain ⟨_, _, hc'⟩ := mem_declaredVars h
        cases hc'.symm.trans hc
      | child hc' _ _ _ _ => cases hc'.symm.trans hc
    · rename_i hc
      refine ⟨fun h => absurd h List.not_mem_nil, fun h => ?_⟩
      cases h with
      | here h =>
        obtain ⟨_, _, hc'⟩ := mem_declaredVars h
        cases hc'.symm.trans hc
      | child hc' _ hfunction _ _ =>
        exact absurd (Prod.mk.inj (Option.some.inj (hc'.symm.trans hc))).2 (hfunction _ _ _ _ _)
    · rename_i h p hstatement hfunction hc
      rw [List.mem_flatMap]
      constructor
      · rintro ⟨k, hk, hd⟩
        exact .child hc hstatement hfunction hk ((hchild hc hk).1 hd)
      · intro hd
        cases hd with
        | here hd =>
          obtain ⟨_, _, hc'⟩ := mem_declaredVars hd
          exact (hstatement _ (Prod.mk.inj (Option.some.inj (hc.symm.trans hc'))).2).elim
        | child hc' _ _ hk hd =>
          obtain ⟨rfl, rfl⟩ := Prod.mk.inj (Option.some.inj (hc'.symm.trans hc))
          exact ⟨_, hk, (hchild hc hk).2 hd⟩

/-! ## Where nothing of a name is hoisted -/

/-- A statement that declares no `var` of a name says the same of it to its block and to the
checker. -/
theorem lookup_declaredLexically {a : Arena} {name : String} {r : Ref}
    (h : (declaredVars a r).lookup name = none) :
    (declaredLexically a r).lookup name = (declaredValues a r).lookup name := by
  unfold declaredVars at h
  unfold declaredLexically
  split at h
  · rename_i hd declarations hc
    split
    · rename_i hvar
      rw [if_pos hvar] at h
      cases r with
      | none => rfl
      | some i =>
        have hvalues : declaredValues a (some i) = declarations.flatMap (declaredVariable a) := by
          simp only [declaredValues, hc]
        rw [hvalues, h]
        rfl
    · rfl
  · rfl

theorem lookup_flatMap_congr {name : String} {f g : Ref → Declarations} {rs : List Ref}
    (h : ∀ r ∈ rs, (f r).lookup name = (g r).lookup name) :
    (rs.flatMap f).lookup name = (rs.flatMap g).lookup name := by
  induction rs with
  | nil => rfl
  | cons r rs ih =>
    rw [List.flatMap_cons, List.flatMap_cons, List.lookup_append, List.lookup_append,
      h r List.mem_cons_self, ih fun r' hr' => h r' (List.mem_cons_of_mem r hr')]

theorem lookup_eq_none_of_mem {name : String} {f : Ref → Declarations} {rs : List Ref}
    (h : (rs.flatMap f).lookup name = none) {r : Ref} (hr : r ∈ rs) : (f r).lookup name = none := by
  rw [List.lookup_eq_none_iff] at h ⊢
  exact fun d hd => h d (List.mem_flatMap.2 ⟨r, hr, hd⟩)

/-- The scopes of the checker say of a name what the place says, if no `var` of it is hoisted. -/
def Place.Agrees (scopes : List Declarations) (place : Place) : Prop :=
  ∀ name, place.hoisted.lookup name = none →
    scopes.map (·.lookup name) = place.scopes.map (·.lookup name)

theorem Place.agrees_inside (a : Arena) (scopes : List Declarations) (place : Place)
    (p : Payload Ref) (h : place.Agrees scopes) :
    (place.inside a p).Agrees (declaredInside a scopes p) := by
  intro name hname
  cases p with
  | function _ _ parameters _ _ => exact congrArg (_ :: ·) (h name hname)
  | block statements =>
    simp only [Place.inside] at hname ⊢
    split at hname
    · rename_i hbody
      rw [if_pos hbody]
      obtain ⟨hnested, hname⟩ := Option.or_eq_none_iff.1 (List.lookup_append.symm.trans hname)
      rw [declaredInside, List.map_cons, List.map_cons, h name hname, List.lookup_append, hnested,
        Option.or_none]
    · rename_i hblock
      rw [if_neg hblock]
      obtain ⟨hvars, hname⟩ := Option.or_eq_none_iff.1 (List.lookup_append.symm.trans hname)
      rw [declaredInside, List.map_cons, List.map_cons, h name hname]
      exact congrArg (· :: _) (lookup_flatMap_congr fun r hr =>
        (lookup_declaredLexically (lookup_eq_none_of_mem hvars hr)).symm)
  | _ => exact h name hname

theorem meaning?_congr {scopes scopes' : List Declarations} {name : String}
    (h : scopes.map (·.lookup name) = scopes'.map (·.lookup name)) (top : List Declarations) :
    meaning? (scopes ++ top) name = meaning? (scopes' ++ top) name := by
  have hmap (ss : List Declarations) :
      ss.findSome? (·.lookup name) = (ss.map (·.lookup name)).findSome? id := by
    rw [List.findSome?_map]
    rfl
  rw [meaning?, meaning?, List.findSome?_append, List.findSome?_append, hmap, h, ← hmap]

theorem meaning?_append_last (scopes : List Declarations) (ds ds' : Declarations) (name : String) :
    meaning? (scopes ++ [ds ++ ds']) name = (meaning? (scopes ++ [ds]) name).or
    (ds'.lookup name) := by
  have hlast (d : Declarations) : [d].findSome? (·.lookup name) = d.lookup name := by
    rw [List.findSome?_cons]
    cases d.lookup name <;> rfl
  rw [meaning?, meaning?, List.findSome?_append, List.findSome?_append, hlast, hlast,
    List.lookup_append, Option.or_assoc]

/-- What `var` statements declare are variables. -/
theorem mem_varsBelow {a : Arena} {levels : Nat} {r : Ref} {d : String × Value}
    (h : d ∈ varsBelow a levels r) : ∃ node, d.2 = .variableDeclaration node := by
  induction levels generalizing r with
  | zero => exact absurd h List.not_mem_nil
  | succ levels ih =>
    rw [varsBelow] at h
    split at h
    · unfold declaredVars at h
      split at h
      · split at h
        · obtain ⟨_, -, hd⟩ := List.mem_flatMap.1 h
          exact mem_declaredVariable hd
        · exact absurd h List.not_mem_nil
      · exact absurd h List.not_mem_nil
    · exact absurd h List.not_mem_nil
    · exact absurd h List.not_mem_nil
    · obtain ⟨_, -, hd⟩ := List.mem_flatMap.1 h
      exact ih hd

/-- They lead to no function. -/
theorem not_leads_nestedVars {files : List SourceFile} {f g : SourceFile}
    {name : String} {v : Value}
    {first : NodeId} {rs : List Ref} (h : (rs.flatMap (nestedVars f.arena)).lookup name = some v) :
    ¬ Value.Leads files f v g first := by
  obtain ⟨r, -, hr⟩ := List.mem_flatMap.1 (mem_of_lookup h)
  obtain ⟨node, hv⟩ : ∃ node, v = .variableDeclaration node := by
    unfold nestedVars at hr
    split at hr
    · exact absurd hr List.not_mem_nil
    · exact mem_varsBelow hr
  rw [hv]
  exact nofun

variable {files : List SourceFile} {f : SourceFile} {root c : NodeId}

/-- A name has no parentheses around it. -/
theorem Unwraps.of_identifier {a : Arena} {r : Ref} {hd : Header} {name : String}
    (h : a.content? r = some (hd, .identifier name)) : Unwraps a r r :=
  .bare fun _ _ h' => absurd (h.symm.trans h') nofun

/-- Where no `var` of the name is hoisted, a callee calls what its name is bound to. -/
theorem callsFunction_iff_boundTo {scopes : List Declarations} {place : Place}
    (h : place.Agrees scopes) {e : Ref} {hd : Header} {name : String}
    (he : f.arena.content? e = some (hd, .identifier name))
    (hname : place.hoisted.lookup name = none) {g : SourceFile} {first : NodeId} :
    CallsFunction files f scopes e g first ↔ BoundTo files f place name g first := by
  have hidentifier {hd' : Header} {name' : String}
      (he' : f.arena.content? e = some (hd', .identifier name')) : name' = name :=
    Payload.identifier.inj (Prod.mk.inj (Option.some.inj (he'.symm.trans he))).2
  have hbinding : binding? files f place name = (meaning? (scopes ++ [topValues files f]) name).or
      ((f.statements.flatMap (nestedVars f.arena)).lookup name) := by
    rw [binding?, meaning?_append_last, meaning?_congr (h name hname)]
  constructor
  · intro hcalls
    cases hcalls with
    | own he' hv =>
      obtain rfl := hidentifier he'
      exact ⟨_, by rw [hbinding, hv, Option.some_or], .own⟩
    | imported he' hv hg hfirst =>
      obtain rfl := hidentifier he'
      exact ⟨_, by rw [hbinding, hv, Option.some_or], .imported hg hfirst⟩
    | member he' _ _ _ _ _ => exact absurd (he'.symm.trans he) nofun
  · rintro ⟨v, hv, hleads⟩
    rw [hbinding, Option.or_eq_some_iff] at hv
    rcases hv with hv | ⟨-, hv⟩
    · cases hleads with
      | own => exact .own he hv
      | imported hg hfirst => exact .imported he hv hg hfirst
    · exact absurd hleads (not_leads_nestedVars hv)

/-- What the checker has around a node agrees with what is declared around it. -/
theorem Place.Of.exists_around {place : Place} (h : place.Of f root c) :
    ∃ scopes, Around f.arena root c scopes ∧ place.Agrees scopes := by
  refine Descent.map (R := fun place scopes => Place.Agrees scopes place) ?_ h (fun _ _ => rfl)
  exact fun place scopes p hagrees => Place.agrees_inside f.arena scopes place p hagrees

end TypeReify.Check

namespace TypeReify

open Check Syntax Scope
open TypeReify.Types

variable {files : List SourceFile} {f : SourceFile} {root c : NodeId}

/-- **A call has the signature of the function that its callee is bound to when the program runs**,
and none if that is no function, where no `var` of its name leaves the block it is declared in. -/
theorem signature?_unhoisted (options : CheckOptions) (h : (files.map fileKey).Nodup)
    (hf : f ∈ files)
    (ha : f.arena.WellFormed) (hroot : f.root = some root) (hone : OneParent f.arena root)
    {place : Place} (hplace : Place.Of f root c place) {hd hd' : Header} {callee e : Ref}
    {types : Option (List Ref)} {arguments : List Ref} {name : String}
    (hc : f.arena.content? (some c) = some (hd, .call callee types arguments))
    (hcallee : Unwraps f.arena callee e) (he : f.arena.content? e = some (hd', .identifier name))
    (hname : place.hoisted.lookup name = none) :
    (∃ g first function id, BoundTo files f place name g first ∧
      DeclaresFunction g.arena function first ∧
      (Program.ofFiles options files).oracle.signature? f.fileName c = some ⟨some id⟩ ∧
      (Program.ofFiles options files).oracle.declaration? id =
        some (functionSite g function first).declaration) ∨
    ((∀ g first, ¬ BoundTo files f place name g first) ∧
      (Program.ofFiles options files).oracle.signature? f.fileName c = none) := by
  obtain ⟨scopes, haround, hagrees⟩ := hplace.exists_around
  have hcalls {g : SourceFile} {first : NodeId} :
      CallsAt files f scopes c g first ↔ BoundTo files f place name g first := by
    rw [callsAt_iff ha, ← callsFunction_iff_boundTo hagrees he hname]
    constructor
    · rintro ⟨_, _, _, _, _, hc', hcallee', hcalls⟩
      obtain rfl := (Payload.call.inj (Prod.mk.inj (Option.some.inj (hc.symm.trans hc'))).2).1
      obtain rfl := hcallee.unique hcallee'
      exact hcalls
    · exact fun hcalls => ⟨_, _, _, _, _, hc, hcallee, hcalls⟩
  by_cases hbound : ∃ g first, BoundTo files f place name g first
  · left
    obtain ⟨g, first, hbound⟩ := hbound
    obtain ⟨-, function, hdeclares⟩ :=
      ((callsFunction_iff_boundTo hagrees he hname).2 hbound).declares (named_around haround) hf
    obtain ⟨⟨_⟩, id, hs, rfl, hid⟩ := Marker.callee?_eq_some <|
      (callee?_ofFiles options h hf ha hroot hone haround).2
        ⟨g, first, function, hcalls.2 hbound, hdeclares, rfl⟩
    exact ⟨g, first, function, id, hbound, hdeclares, hs, hid⟩
  · right
    refine ⟨fun g first hto => hbound ⟨g, first, hto⟩, ?_⟩
    by_contra hs
    obtain ⟨s, hs⟩ := Option.ne_none_iff_exists'.1 hs
    obtain ⟨root', scopes', g, first, _, _, hroot', haround', hcalls', -⟩ :=
      signature?_ofFiles options h hf hs
    obtain rfl := Option.some.inj (hroot.symm.trans hroot')
    obtain rfl := haround.unique ha hone haround'
    exact hbound ⟨g, first, hcalls.1 hcalls'⟩

/-- `import { keys } from "/m/index"; function f() { { function keys() { } keys<T>(); } }` -/
def shadowingFile : SourceFile :=
  let act : Drafting Unit := do
    let _ ← Draft.importNames ["keys"] "/m/index"
    let shadow ← Draft.build do
      let body ← Build.block []
      Build.functionDeclaration (← Build.identifier "keys") none [] none body
    let type ← Draft.build (Draft.typeNamed "T" [])
    let call ← Draft.build (Draft.callNamed "keys" [type])
    let _ ← Draft.statement do
      let inner ← Build.block [some shadow, some (← Build.expressionStatement call)]
      let body ← Build.block [some inner]
      Build.functionDeclaration (← Build.identifier "f") none [] none body
  (act .empty).2.finish "/app/main.ts"

/-- What is declared around the call of `shadowingFile`: the inner block has a function `keys`. -/
def shadowingPlace : Place where
  scopes := [[("keys", .function 8 [])], [], []]
  hoisted := []
  body := false

theorem place_shadowingFile : Place.Of shadowingFile 18 12 shadowingPlace :=
  .down (h := .fresh (.form .sourceFile) (some 0))
    (p := .sourceFile "/app/main.ts" [some 5, some 17])
    (by decide) (by decide : some 17 ∈ _) <|
  .down (h := .fresh (.form .functionDeclaration) (some 1))
    (p := .function (some 16) none [] none (some 15)) (by decide) (by decide : some 15 ∈ _) <|
  .down (h := .fresh (.form .block) (some 2)) (p := .block [some 14])
    (by decide) (by decide : some 14 ∈ _) <|
  .down (h := .fresh (.form .block) (some 1)) (p := .block [some 8, some 13])
    (by decide) (by decide : some 13 ∈ _) <|
  .down (h := .fresh (.form .expressionStatement) (some 0)) (p := .expressionStatement (some 12))
    (by decide) (by decide : some 12 ∈ _) .here

/-- The call has the signature of the inner function, which hides the import. -/
theorem signature?_unhoisted_shadowingFile :
    let files := [declaringFile, shadowingFile]
    BoundTo files shadowingFile shadowingPlace "keys" shadowingFile 8 ∧
    (Program.ofFiles .default files).oracle.signature? "/app/main.ts" 12 = some ⟨some 0⟩ ∧
    ((∃ g first function id, BoundTo files shadowingFile shadowingPlace "keys" g first ∧
      DeclaresFunction g.arena function first ∧
      (Program.ofFiles .default files).oracle.signature? "/app/main.ts" 12 = some ⟨some id⟩ ∧
      (Program.ofFiles .default files).oracle.declaration? id =
        some (functionSite g function first).declaration) ∨
    ((∀ g first, ¬ BoundTo files shadowingFile shadowingPlace "keys" g first) ∧
      (Program.ofFiles .default files).oracle.signature? "/app/main.ts" 12 = none)) :=
  have hcall : shadowingFile.arena.content? (some 12) =
      some (.fresh (.form .call) (some 0), .call (some 11) (some [some 10]) []) := by decide
  have hcallee : shadowingFile.arena.content? (some 11) =
      some (.fresh (.token .identifier) (some 3), .identifier "keys") := by decide
  ⟨⟨_, by decide +kernel, .own⟩, by decide +kernel,
    signature?_unhoisted .default (by decide +kernel) (by simp) (by decide +kernel) (by decide)
      (oneParent_of_forall (by decide +kernel)) place_shadowingFile hcall
      (.of_identifier hcallee) hcallee
      (by decide)⟩

/-- `import { keys } from "/m/index"; function f() { { var keys = 1; } keys<T>(); }` -/
def hoistingFile : SourceFile :=
  let act : Drafting Unit := do
    let _ ← Draft.importNames ["keys"] "/m/index"
    let inner ← Draft.build do
      let name ← Build.identifier "keys"
      let declared ← Build.variableDeclaration name none (← Build.numericLiteral "1")
      Build.block [some (← Build.variableStatement [some declared])]
    let type ← Draft.build (Draft.typeNamed "T" [])
    let call ← Draft.build (Draft.callNamed "keys" [type])
    let _ ← Draft.statement do
      let body ← Build.block [some inner, some (← Build.expressionStatement call)]
      Build.functionDeclaration (← Build.identifier "f") none [] none body
  (act .empty).2.finish "/app/main.ts"

/-- What is declared around the call of `hoistingFile`: the body of `f` binds the inner `var`. -/
def hoistingPlace : Place where
  scopes := [[("keys", .variableDeclaration 8)], []]
  hoisted := [("keys", .variableDeclaration 8)]
  body := false

theorem place_hoistingFile : Place.Of hoistingFile 19 14 hoistingPlace :=
  .down (h := .fresh (.form .sourceFile) (some 0))
    (p := .sourceFile "/app/main.ts" [some 5, some 18])
    (by decide) (by decide : some 18 ∈ _) <|
  .down (h := .fresh (.form .functionDeclaration) (some 0))
    (p := .function (some 17) none [] none (some 16)) (by decide) (by decide : some 16 ∈ _) <|
  .down (h := .fresh (.form .block) (some 1)) (p := .block [some 10, some 15])
    (by decide) (by decide : some 15 ∈ _) <|
  .down (h := .fresh (.form .expressionStatement) (some 0)) (p := .expressionStatement (some 14))
    (by decide) (by decide : some 14 ∈ _) .here

/-- When the program runs, the name is bound to the variable. The signature of the call is that of
the import. -/
theorem signature?_hoisted :
    let files := [declaringFile, hoistingFile]
    (Place.Of hoistingFile 19 14 hoistingPlace ∧
      binding? files hoistingFile hoistingPlace "keys" = some (.variableDeclaration 8) ∧
      ∀ g first, ¬ BoundTo files hoistingFile hoistingPlace "keys" g first) ∧
    ((Program.ofFiles .default files).oracle.signature? "/app/main.ts" 14).bind (fun s =>
        s.declaration.bind (Program.ofFiles .default files).oracle.declaration?) =
      some (functionSite declaringFile "keys" 5).declaration := by
  intro files
  have hbinding : binding? files hoistingFile hoistingPlace "keys" =
      some (.variableDeclaration 8) := rfl
  refine ⟨⟨place_hoistingFile, hbinding, ?_⟩, by decide +kernel⟩
  rintro g first ⟨v, hv, hleads⟩
  obtain rfl := Option.some.inj (hbinding.symm.trans hv)
  cases hleads

end TypeReify
