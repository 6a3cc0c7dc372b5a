import TypeReify.Proofs.Marker.Kept
import TypeReify.Proofs.Scope.Trees

/-!
# Names in a rewritten tree

A rewrite changes nodes, but hardly what names mean: statements and parameters declare what they
declared before, in blocks and parameter lists as among the exports of a file. Only at the top of a
file names can go, with the imports of the markers.

All of this is said of functions on trees that list declarations. Such a function does not tell a
tree from its image if it finds nothing in calls and literals.

The names are those that `bind_declaration`, `bind_import` and `bind_parameters` enter, listed as
trees.

Results:
* `eq_of_image`: what does not tell calls from literals does not tell a tree from its image.
* `around_kept`: what is declared around a kept node was declared around the old one.
* `exportedValues_image`: a rewritten file exports what it exported.
* `topValues_image`: it declares part of what it declared, in the same order.
-/

namespace TypeReify.Reifier

open Check Scope Syntax Syntax.Arena

variable {r : Reifier} {fileName : String} {a : Arena}

/-! ## Functions that do not see calls and literals -/

/-- The function lists what stands in payloads of these pools, which are not those of calls and of
literals, and sees of a node what its image shows. -/
structure Blind (r : Reifier) (fileName : String) (a : Arena) (pools : List Pool)
    (g : Option Tree → Declarations) : Prop where
  empty : g none = []
  other : ∀ (h : Header) (p : Option (Payload (Option Tree))), (∀ q ∈ p, q.pool ∉ pools) →
    g (some (.ofHeader h p)) = []
  kept : ∀ (h : Header) (p : Payload Ref),
    g (some (.ofHeader h (some (p.image (r.image fileName a))))) =
      g (some (.ofHeader h (some (p.map a.tree))))
  calls : .calls ∉ pools := by decide
  elements : .elements ∉ pools := by decide

section Blind

variable (ha : a.WellFormed) {pools : List Pool} {g : Option Tree → Declarations}
  (hg : Blind r fileName a pools g)
include ha

/-- The tree of a node of a kind with payload. -/
theorem tree_of_kind? {n : Ref} {k : Kind} {pool : Pool} (h : a.kind? n = some k)
    (hk : k.pool? = some pool) : ∃ (hd : Header) (p : Option (Payload (Option Tree))),
      a.tree n = some (.ofHeader hd p) ∧ ∀ q ∈ p, q.pool = pool := by
  obtain ⟨hd, hh, rfl⟩ := Option.map_eq_some_iff.1 h
  refine ⟨hd, _, (tree_eq ha n).trans (by rw [hh]; rfl), fun q hq => ?_⟩
  obtain ⟨p, hp, rfl⟩ := Option.map_eq_some_iff.1 hq
  rw [Payload.pool_map]
  exact Option.some.inj ((pool_of_payload? hp).symm.trans hk)

include hg

omit ha in
theorem Blind.literal (value : Reified) : g (some value.tree) = [] := by
  have helements (kind : Kind) (items : List (Option Tree)) :
      g (some (.synthesized kind (.elements items))) = [] := by
    refine hg.other ⟨kind, .synthesized, 0, 0, none⟩ _ fun q hq => ?_
    obtain rfl := Option.some.inj hq
    exact hg.elements
  cases value with
  | names _ => exact helements _ _
  | members _ => exact helements _ _

/-- What does not tell calls from literals does not tell a tree from its image. -/
theorem eq_of_image {n : Ref} {t : Option Tree} (h : r.image fileName a n = some t) :
    g t = g (a.tree n) := by
  rw [image_eq ha, imageOver_eq] at h
  cases hi : r.importsMarkers a fileName n with
  | true =>
    rw [hi, if_pos rfl] at h
    exact absurd h.symm (Option.some_ne_none t)
  | false =>
    rw [hi, if_neg Bool.false_ne_true] at h
    cases hm : r.markerOf? a fileName n with
    | some m =>
      rw [hm] at h
      obtain rfl := Option.some.inj h
      obtain ⟨hd, p, htree, hp⟩ := tree_of_kind? ha (kind?_of_markerOf? hm) rfl
      rw [htree, hg.literal, hg.other hd p fun q hq => hp q hq ▸ hg.calls]
    | none =>
      rw [hm] at h
      obtain rfl := Option.some.inj h
      rw [tree_eq ha]
      cases a.header? n with
      | none => rfl
      | some hd =>
        rw [Option.map_some, Option.map_some]
        cases a.payload? hd with
        | none => rfl
        | some p => exact hg.kept hd p

variable (himports : .imports ∉ pools)
include himports

/-- Where imports do not count, erased ones do not either. -/
theorem eq_of_slot (n : Ref) : g (r.image fileName a n).slot = g (a.tree n) := by
  cases h : r.image fileName a n with
  | some t => exact eq_of_image ha hg h
  | none =>
    have hi : r.importsMarkers a fileName n = true := by
      by_contra hi
      rw [image_eq ha, imageOver_eq, if_neg hi] at h
      cases hm : r.markerOf? a fileName n with
      | some m => rw [hm] at h; exact absurd h (Option.some_ne_none _)
      | none => rw [hm] at h; exact absurd h (Option.some_ne_none _)
    obtain ⟨hd, p, htree, hp⟩ := tree_of_kind? ha (kind?_of_importsMarkers hi) rfl
    rw [htree, hg.other hd p fun q hq => hp q hq ▸ himports]
    exact hg.empty

/-- So do lists. -/
theorem flatMap_image (ns : List Ref) :
    (ns.filterMap (r.image fileName a)).flatMap g = (ns.map a.tree).flatMap g := by
  induction ns with
  | nil => rfl
  | cons n ns ih =>
    rw [List.map_cons, List.flatMap_cons, ← ih, ← eq_of_slot ha hg himports n, List.filterMap_cons]
    cases r.image fileName a n with
    | some t => rfl
    | none => exact (congrArg (· ++ _) hg.empty).symm

omit himports in
/-- Of a list in which imports count, a part is left. -/
theorem flatMap_image_sublist (ns : List Ref) :
    ((ns.filterMap (r.image fileName a)).flatMap g).Sublist ((ns.map a.tree).flatMap g) := by
  induction ns with
  | nil => exact .slnil
  | cons n ns ih =>
    rw [List.map_cons, List.flatMap_cons, List.filterMap_cons]
    cases h : r.image fileName a n with
    | some t =>
      show ((t :: ns.filterMap (r.image fileName a)).flatMap g).Sublist _
      rw [List.flatMap_cons, eq_of_image ha hg h]
      exact (List.Sublist.refl _).append ih
    | none => exact ih.trans (List.sublist_append_right _ _)

end Blind

/-! ## What statements and parameters declare -/

section Declared

variable (r fileName) (ha : a.WellFormed)
include ha

theorem identifierText?_image (n : Ref) :
    Tree.identifierText? (r.image fileName a n).slot = Tree.identifierText? (a.tree n) := by
  rw [(text_image ha n).1, (texts_tree ha n).1]

theorem blind_variableTree : Blind r fileName a [.variableDeclarations] variableTree where
  empty := rfl
  other h p hp := by
    cases p with
    | none => rfl
    | some q =>
      cases q with
      | variableDeclaration _ _ _ => exact absurd List.mem_cons_self (hp _ rfl)
      | _ => rfl
  kept h p := by
    cases p with
    | variableDeclaration name _ _ =>
      exact congrArg (declareAs · _) (identifierText?_image r fileName ha name)
    | _ => rfl

theorem blind_parameterTree : Blind r fileName a [.parameters] parameterTree where
  empty := rfl
  other h p hp := by
    cases p with
    | none => rfl
    | some q =>
      cases q with
      | parameter _ _ _ => exact absurd List.mem_cons_self (hp _ rfl)
      | _ => rfl
  kept h p := by
    cases p with
    | parameter name _ _ =>
      exact congrArg (declareAs · _) (identifierText?_image r fileName ha name)
    | _ => rfl

theorem blind_valuesTree : Blind r fileName a [.functions, .variableStatements] valuesTree where
  empty := rfl
  other h p hp := by
    cases p with
    | none => rfl
    | some q =>
      cases q with
      | function _ _ _ _ _ => exact absurd List.mem_cons_self (hp _ rfl)
      | variableStatement _ =>
        exact absurd (List.mem_cons_of_mem _ List.mem_cons_self) (hp _ rfl)
      | _ => rfl
  kept h p := by
    cases p with
    | function name _ _ _ _ =>
      show (if h.kind = _ then declareAs _ _ else []) = if h.kind = _ then declareAs _ _ else []
      rw [identifierText?_image r fileName ha name]
    | variableStatement declarations =>
      exact flatMap_image ha (blind_variableTree r fileName ha) (by decide) declarations
    | _ => rfl

theorem blind_exportedTree : Blind r fileName a [.functions, .variableStatements] exportedTree where
  empty := rfl
  other h p hp := by
    show (if _ then valuesTree (some (.ofHeader h p)) else []) = []
    rw [(blind_valuesTree r fileName ha).other h p hp, ite_self]
  kept h p := by
    show (if _ then valuesTree (some (.ofHeader h _)) else []) =
      if _ then valuesTree (some (.ofHeader h _)) else []
    rw [(blind_valuesTree r fileName ha).kept h p]

theorem blind_specifierTree (module : Option String) :
    Blind r fileName a [.importSpecifiers] (specifierTree module) where
  empty := rfl
  other h p hp := by
    cases p with
    | none => rfl
    | some q =>
      cases q with
      | importSpecifier _ _ => exact absurd List.mem_cons_self (hp _ rfl)
      | _ => rfl
  kept h p := by
    cases p with
    | importSpecifier source name =>
      show (Option.map _ (Tree.identifierText? _)).toList =
        (Option.map _ (Tree.identifierText? _)).toList
      rw [identifierText?_image r fileName ha name, identifierText?_image r fileName ha source]
    | _ => rfl

theorem blind_bindingsTree (module : Option String) :
    Blind r fileName a [.importBindings] (bindingsTree module) where
  empty := rfl
  other h p hp := by
    cases p with
    | none => rfl
    | some q =>
      cases q with
      | importBindings _ _ => exact absurd List.mem_cons_self (hp _ rfl)
      | _ => rfl
  kept h p := by
    cases p with
    | importBindings name items =>
      show (if h.kind = _ then declareAs _ _ else List.flatMap _ _) =
        if h.kind = _ then declareAs _ _ else List.flatMap _ _
      rw [identifierText?_image r fileName ha name,
        flatMap_image ha (blind_specifierTree r fileName ha module) (by decide) items]
    | _ => rfl

theorem blind_clauseTree (module : Option String) :
    Blind r fileName a [.importClauses] (clauseTree module) where
  empty := rfl
  other h p hp := by
    cases p with
    | none => rfl
    | some q =>
      cases q with
      | importClause _ _ => exact absurd List.mem_cons_self (hp _ rfl)
      | _ => rfl
  kept h p := by
    cases p with
    | importClause name bindings =>
      show declareAs _ _ ++ bindingsTree module _ = declareAs _ _ ++ bindingsTree module _
      rw [identifierText?_image r fileName ha name,
        eq_of_slot ha (blind_bindingsTree r fileName ha module) (by decide) bindings]
    | _ => rfl

theorem blind_importTree (resolve : String → Option String) :
    Blind r fileName a [.imports] (importTree resolve) where
  empty := rfl
  other h p hp := by
    cases p with
    | none => rfl
    | some q =>
      cases q with
      | importDeclaration _ _ => exact absurd List.mem_cons_self (hp _ rfl)
      | _ => rfl
  kept h p := by
    cases p with
    | importDeclaration clause specifier =>
      have hclause (text : String) := eq_of_slot ha
        (blind_clauseTree r fileName ha (resolve text)) (by decide) clause
      show (Option.map _ (Tree.literalText? _)).getD
        [] = (Option.map _ (Tree.literalText? _)).getD []
      rw [(text_image ha specifier).2, ← (texts_tree ha specifier).2]
      exact congrArg (Option.getD · []) (Option.map_congr fun text _ => hclause text)
    | _ => rfl

theorem blind_topTree (resolve : String → Option String) :
    Blind r fileName a [.imports, .functions, .variableStatements] (topTree resolve) where
  empty := rfl
  other h p hp := by
    have himport := (blind_importTree r fileName ha resolve).other h p fun q hq hmem =>
      hp q hq (List.mem_cons.2 (.inl (List.mem_singleton.1 hmem)))
    have hvalues := (blind_valuesTree r fileName ha).other h p fun q hq hmem =>
      hp q hq (List.mem_cons_of_mem _ hmem)
    show (if _ then importTree resolve (some (.ofHeader h p)) else
      valuesTree (some (.ofHeader h p))) = []
    rw [himport, hvalues, ite_self]
  kept h p := by
    show (if _ then importTree resolve (some (.ofHeader h _)) else valuesTree
      (some (.ofHeader h _))) =
      if _ then importTree resolve (some (.ofHeader h _)) else valuesTree (some (.ofHeader h _))
    rw [(blind_importTree r fileName ha resolve).kept h p,
      (blind_valuesTree r fileName ha).kept h p]

end Declared

/-! ## Scopes -/

/-- The scopes around a place with all nodes forgotten. -/
def blankScopes (scopes : List Declarations) : List Declarations := scopes.map Declarations.blank

theorem meaning?_blankScopes (scopes : List Declarations) (name : String) :
    meaning? (blankScopes scopes) name = (meaning? scopes name).map Value.blank := by
  induction scopes with
  | nil => rfl
  | cons ds scopes ih =>
    rw [meaning?, meaning?, blankScopes, List.map_cons, List.findSome?_cons, List.findSome?_cons,
      lookup_blank]
    cases ds.lookup name with
    | none => exact ih
    | some v => rfl

section Around

variable {b : Arena} (ha : a.WellFormed) (hb : b.WellFormed)
include ha

theorem blank_declaredInside (ds : List Declarations) (p : Payload Ref) :
    blankScopes (declaredInside a ds p) = insideTree (blankScopes ds) (p.map a.tree) := by
  cases p with
  | function _ _ parameters _ _ =>
    exact congrArg (· :: blankScopes ds) (blank_parameters ha parameters)
  | block statements => exact congrArg (· :: blankScopes ds) (blank_statements ha statements)
  | _ => rfl

theorem insideTree_image (scopes : List Declarations) (p : Payload Ref) :
    insideTree scopes (p.image (r.image fileName a)) = insideTree scopes (p.map a.tree) := by
  cases p with
  | function _ _ parameters _ _ =>
    exact congrArg (· :: scopes)
      (flatMap_image ha (blind_parameterTree r fileName ha) (by decide) parameters)
  | block statements =>
    exact congrArg (· :: scopes)
      (flatMap_image ha (blind_valuesTree r fileName ha) (by decide) statements)
  | _ => rfl

include hb

/-- What is declared around a kept node was declared around the old one. -/
theorem around_kept {x y n : NodeId} {ds' : List Declarations} (hy : Kept r fileName a b x y)
    (h : Around b y n ds') :
    (∃ c ds, Around a x c ds ∧ Kept r fileName a b c n ∧ blankScopes ds' = blankScopes ds) ∨
      Tree.Inert (b.tree (some n)) := by
  refine descent_kept (R := fun ds ds' => blankScopes ds' = blankScopes ds) ha hb ?_ h hy rfl
  intro ds ds' p q hpq hds
  rw [blank_declaredInside hb, hpq, hds, insideTree_image ha, blank_declaredInside ha]

end Around

/-! ## Files -/

section File

variable {f f' : SourceFile} {root root' : NodeId}

/-- The statements of a kept root are the images of the old ones. -/
theorem statements_kept (hb : f'.arena.WellFormed) (hroot : f.root = some root)
    (hroot' : f'.root = some root') (hkept : Kept r fileName f.arena f'.arena root root') :
    f'.statements.map f'.arena.tree = f.statements.filterMap (r.image fileName f.arena) := by
  obtain ⟨h, hh, htree⟩ := hkept.tree
  rw [map_statements hb, hroot', htree, SourceFile.statements, hroot, Arena.content?, hh]
  simp only [Option.bind_eq_bind, Option.bind_some]
  cases f.arena.payload? h with
  | none => rfl
  | some p => cases p <;> rfl

variable (ha : f.arena.WellFormed) (hb : f'.arena.WellFormed) (hroot : f.root = some root)
  (hroot' : f'.root = some root') (hkept : Kept r fileName f.arena f'.arena root root')
include ha hb hroot hroot' hkept

/-- A rewritten file exports what it exported. -/
theorem exportedValues_image : (exportedValues f').blank = (exportedValues f).blank := by
  rw [exportedValues, exportedValues, blank_exportedByFile hb, blank_exportedByFile ha,
    statements_kept hb hroot hroot' hkept]
  exact flatMap_image ha (blind_exportedTree r fileName ha) (by decide) f.statements

/-- It declares part of what it declared, in the same order. -/
theorem topValues_image {files files' : List SourceFile}
    (himported : Sources.importedKey? files' f' = Sources.importedKey? files f) :
    (topValues files' f').blank.Sublist (topValues files f).blank := by
  rw [topValues, topValues, blank_declaredByFile hb, blank_declaredByFile ha, himported,
    statements_kept hb hroot hroot' hkept]
  exact flatMap_image_sublist ha (blind_topTree r fileName ha _) f.statements

end File

end TypeReify.Reifier
