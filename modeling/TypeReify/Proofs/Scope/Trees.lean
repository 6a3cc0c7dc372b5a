import TypeReify.Proofs.Scope.Declared
import TypeReify.Proofs.Syntax.Tree

/-!
# Declarations read off trees

Which names a statement declares, and as what, can be told from the tree alone, up to the node that
declares them. `Value.blank` forgets this node, and the functions on trees list what is left.

These are `bind_declaration`, `bind_import` and `bind_parameters` as functions on trees.

Results:
* `blank_declaredValues`, `blank_declaredParameter`: what statements and parameters declare.
* `blank_declaredByFile`, `blank_exportedByFile`: what files declare and export.
* `lookup_blank`: a name is found in a list with its nodes forgotten just if it is found.
-/

namespace TypeReify.Scope

open Syntax Syntax.Arena

/-- What a name is declared as, whichever node declares it. -/
def Value.blank : Value → Value
  | .function _ overloads => .function 0 overloads
  | .variableDeclaration _ => .variableDeclaration 0
  | .parameter _ => .parameter 0
  | v => v

/-- The declarations with their nodes forgotten. -/
def Declarations.blank (ds : Declarations) : Declarations := ds.map fun d => (d.1, d.2.blank)

theorem blank_append (ds es : Declarations) :
    Declarations.blank (ds ++ es) = Declarations.blank ds ++ Declarations.blank es :=
  List.map_append

theorem blank_flatMap {α : Type} (xs : List α) (declared : α → Declarations) :
    Declarations.blank (xs.flatMap declared) = xs.flatMap fun x => (declared x).blank :=
  List.map_flatMap

theorem blank_declareAs (text : Option String) (v : Value) :
    (declareAs text v).blank = declareAs text v.blank := by
  cases text <;> rfl

/-- A name is found with its node forgotten just if it is found. -/
theorem lookup_blank (ds : Declarations) (name : String) :
    ds.blank.lookup name = (ds.lookup name).map Value.blank := by
  induction ds with
  | nil => rfl
  | cons d ds ih =>
    obtain ⟨other, v⟩ := d
    show List.lookup name ((other, v.blank) :: Declarations.blank ds) = _
    rw [List.lookup_cons, List.lookup_cons, ih]
    cases name == other <;> rfl

/-! ## Trees -/

/-- What one variable declares. -/
def variableTree : Option Tree → Declarations
  | some (.node _ _ _ _ (some (.variableDeclaration name _ _))) =>
    declareAs (Tree.identifierText? name) (.variableDeclaration 0)
  | _ => []

/-- What one parameter declares. -/
def parameterTree : Option Tree → Declarations
  | some (.node _ _ _ _ (some (.parameter name _ _))) =>
    declareAs (Tree.identifierText? name) (.parameter 0)
  | _ => []

/-- The values that one statement declares. -/
def valuesTree : Option Tree → Declarations
  | some (.node kind _ _ _ (some (.function name _ _ _ _))) =>
    if kind = .form .functionDeclaration then
      declareAs (Tree.identifierText? name) (.function 0 [])
    else []
  | some (.node _ _ _ _ (some (.variableStatement declarations))) =>
    declarations.flatMap variableTree
  | _ => []

/-- What one element of an import list declares. -/
def specifierTree (module : Option String) : Option Tree → Declarations
  | some (.node _ _ _ _ (some (.importSpecifier source name))) =>
    ((Tree.identifierText? name).map fun text =>
      (text, .imported module ((Tree.identifierText? source).getD text))).toList
  | _ => []

/-- What `* as name`, or a list of elements, declares. -/
def bindingsTree (module : Option String) : Option Tree → Declarations
  | some (.node kind _ _ _ (some (.importBindings name items))) =>
    if kind = .form .namespaceImport then
      declareAs (Tree.identifierText? name) (.namespaceImport module)
    else items.flatMap (specifierTree module)
  | _ => []

/-- What the clause of an import declares. -/
def clauseTree (module : Option String) : Option Tree → Declarations
  | some (.node _ _ _ _ (some (.importClause name bindings))) =>
    declareAs (Tree.identifierText? name) (.imported module "default") ++
      bindingsTree module bindings
  | _ => []

/-- What an import declares. -/
def importTree (resolve : String → Option String) : Option Tree → Declarations
  | some (.node _ _ _ _ (some (.importDeclaration clause specifier))) =>
    ((Tree.literalText? specifier).map fun text => clauseTree (resolve text) clause).getD []
  | _ => []

/-- The values that one top-level statement of a file declares. -/
def topTree (resolve : String → Option String) : Option Tree → Declarations
  | some (.node kind flags start stop payload) =>
    if kind = .form .importDeclaration then
      importTree resolve (some (.node kind flags start stop payload))
    else valuesTree (some (.node kind flags start stop payload))
  | none => []

/-- The values that one top-level statement of a file exports. -/
def exportedTree : Option Tree → Declarations
  | some (.node kind flags start stop payload) =>
    if flags.has .exported ∧ kind ≠ .form .importDeclaration then
      valuesTree (some (.node kind flags start stop payload))
    else []
  | none => []

/-- What is declared around the children of a node. -/
def insideTree (scopes : List Declarations) : Payload (Option Tree) → List Declarations
  | .function _ _ parameters _ _ => parameters.flatMap parameterTree :: scopes
  | .block statements => statements.flatMap valuesTree :: scopes
  | _ => scopes

/-- The top-level statements of a file. -/
def statementTrees : Option Tree → List (Option Tree)
  | some (.node _ _ _ _ (some (.sourceFile _ statements))) => statements
  | _ => []

/-! ## What nodes declare -/

section Arena

variable {a : Arena} (ha : a.WellFormed)
include ha

theorem blank_declaredVariable (r : Ref) :
    (declaredVariable a r).blank = variableTree (a.tree r) := by
  rcases tree_cases ha r with ⟨hc, ht⟩ | ⟨i, h, p, rfl, hc, ht⟩
  · have hnone : declaredVariable a r = [] := by
      unfold declaredVariable
      rw [hc]
      cases r <;> rfl
    rw [hnone]
    rcases ht with ht | ⟨h, ht⟩ <;> rw [ht] <;> rfl
  · unfold declaredVariable
    rw [ht, hc]
    cases p with
    | variableDeclaration name _ _ =>
      dsimp only
      rw [blank_declareAs, ← (texts_tree ha name).1]
      rfl
    | _ => rfl

theorem blank_declaredParameter (r : Ref) :
    (declaredParameter a r).blank = parameterTree (a.tree r) := by
  rcases tree_cases ha r with ⟨hc, ht⟩ | ⟨i, h, p, rfl, hc, ht⟩
  · have hnone : declaredParameter a r = [] := by
      unfold declaredParameter
      rw [hc]
      cases r <;> rfl
    rw [hnone]
    rcases ht with ht | ⟨h, ht⟩ <;> rw [ht] <;> rfl
  · unfold declaredParameter
    rw [ht, hc]
    cases p with
    | parameter name _ _ =>
      dsimp only
      rw [blank_declareAs, ← (texts_tree ha name).1]
      rfl
    | _ => rfl

/-- The values that a statement declares. -/
theorem blank_declaredValues (r : Ref) : (declaredValues a r).blank = valuesTree (a.tree r) := by
  rcases tree_cases ha r with ⟨hc, ht⟩ | ⟨i, h, p, rfl, hc, ht⟩
  · have hnone : declaredValues a r = [] := by
      unfold declaredValues
      rw [hc]
      cases r <;> rfl
    rw [hnone]
    rcases ht with ht | ⟨h, ht⟩ <;> rw [ht] <;> rfl
  · unfold declaredValues
    rw [ht, hc]
    cases p with
    | function name _ _ _ _ =>
      dsimp only
      show _ = if h.kind = .form .functionDeclaration then _ else _
      split
      · rw [blank_declareAs, ← (texts_tree ha name).1]
        rfl
      · rfl
    | variableStatement declarations =>
      show _ = (declarations.map a.tree).flatMap variableTree
      dsimp only
      rw [blank_flatMap, List.flatMap_map]
      exact List.flatMap_congr fun r _ => blank_declaredVariable ha r
    | _ => rfl

theorem blank_declaredSpecifier (module : Option String) (r : Ref) :
    (declaredSpecifier a module r).blank = specifierTree module (a.tree r) := by
  unfold declaredSpecifier
  rcases tree_cases ha r with ⟨hc, ht⟩ | ⟨i, h, p, rfl, hc, ht⟩
  · rw [hc]
    rcases ht with ht | ⟨h, ht⟩ <;> rw [ht] <;> rfl
  · rw [ht, hc]
    cases p with
    | importSpecifier source name =>
      show _ = ((Tree.identifierText? (a.tree name)).map fun text =>
        (text, Value.imported module ((Tree.identifierText? (a.tree source)).getD text))).toList
      rw [(texts_tree ha name).1, (texts_tree ha source).1]
      dsimp only
      cases a.identifierText? name <;> rfl
    | _ => rfl

theorem blank_declaredBindings (module : Option String) (r : Ref) :
    (declaredBindings a module r).blank = bindingsTree module (a.tree r) := by
  unfold declaredBindings
  rcases tree_cases ha r with ⟨hc, ht⟩ | ⟨i, h, p, rfl, hc, ht⟩
  · rw [hc]
    rcases ht with ht | ⟨h, ht⟩ <;> rw [ht] <;> rfl
  · rw [ht, hc]
    cases p with
    | importBindings name items =>
      show _ = if h.kind = .form .namespaceImport then _ else _
      dsimp only
      split
      · rw [blank_declareAs, ← (texts_tree ha name).1]
        rfl
      · show _ = (items.map a.tree).flatMap (specifierTree module)
        rw [blank_flatMap, List.flatMap_map]
        exact List.flatMap_congr fun r _ => blank_declaredSpecifier ha module r
    | _ => rfl

/-- The values that an import declares. -/
theorem blank_declaredImport (resolve : String → Option String) (r : Ref) :
    (declaredImport a resolve r).blank = importTree resolve (a.tree r) := by
  unfold declaredImport specifier?
  rcases tree_cases ha r with ⟨hc, ht⟩ | ⟨i, h, p, rfl, hc, ht⟩
  · rw [hc]
    rcases ht with ht | ⟨h, ht⟩ <;> rw [ht] <;> rfl
  · rw [ht, hc]
    cases p with
    | importDeclaration clause specifier =>
      show _ = ((Tree.literalText? (a.tree specifier)).map fun text =>
        clauseTree (resolve text) (a.tree clause)).getD []
      rw [(texts_tree ha specifier).2]
      dsimp only
      cases a.literalText? specifier with
      | none => rfl
      | some specifier =>
        dsimp only
        rcases tree_cases ha clause with ⟨hc, ht⟩ | ⟨i, h, p, rfl, hc, ht⟩
        · rw [hc]
          rcases ht with ht | ⟨h, ht⟩ <;> rw [ht] <;> rfl
        · rw [ht, hc]
          cases p with
          | importClause name bindings =>
            dsimp only
            rw [blank_append, blank_declareAs, blank_declaredBindings ha,
              ← (texts_tree ha name).1]
            rfl
          | _ => rfl
    | _ => rfl

theorem blank_parameters (rs : List Ref) :
    Declarations.blank (rs.flatMap (declaredParameter a)) =
      (rs.map a.tree).flatMap parameterTree := by
  rw [blank_flatMap, List.flatMap_map]
  exact List.flatMap_congr fun r _ => blank_declaredParameter ha r

theorem blank_statements (rs : List Ref) :
    Declarations.blank (rs.flatMap (declaredValues a)) = (rs.map a.tree).flatMap valuesTree := by
  rw [blank_flatMap, List.flatMap_map]
  exact List.flatMap_congr fun r _ => blank_declaredValues ha r

/-! ## What files declare -/

omit ha in
theorem map_statements {f : SourceFile} (ha : f.arena.WellFormed) :
    f.statements.map f.arena.tree = statementTrees (f.arena.tree f.root) := by
  unfold SourceFile.statements
  rcases tree_cases ha f.root with ⟨hc, ht⟩ | ⟨i, h, p, hroot, hc, ht⟩
  · rw [hc]
    rcases ht with ht | ⟨h, ht⟩ <;> rw [ht] <;> rfl
  · rw [hroot, hc, ht]
    cases p <;> rfl

/-- The top-level values of a file. -/
theorem blank_declaredByFile (resolve : String → Option String) (statements : List Ref) :
    (declaredByFile a resolve statements).blank =
      (statements.map a.tree).flatMap (topTree resolve) := by
  rw [declaredByFile, blank_flatMap, List.flatMap_map]
  refine List.flatMap_congr fun r _ => ?_
  rw [declaredAtTop, isImport, Arena.kind?]
  have htree := tree_eq ha r
  cases hh : a.header? r with
  | none =>
    rw [hh, Option.map_none] at htree
    show Declarations.blank (declaredValues a r) = _
    rw [blank_declaredValues ha, htree]
    rfl
  | some h =>
    rw [hh, Option.map_some] at htree
    rw [htree]
    show _ = if h.kind = .form .importDeclaration then _ else _
    by_cases hk : h.kind = .form .importDeclaration
    · rw [if_pos hk, if_pos (by simp [hk]), blank_declaredImport ha, htree]
      rfl
    · rw [if_neg hk, if_neg (by simpa using hk), blank_declaredValues ha, htree]
      rfl

/-- The values that a file exports. -/
theorem blank_exportedByFile (statements : List Ref) :
    (exportedByFile a statements).blank = (statements.map a.tree).flatMap exportedTree := by
  rw [exportedByFile, blank_flatMap, List.flatMap_map]
  induction statements with
  | nil => rfl
  | cons r rs ih =>
    rw [List.flatMap_cons, ← ih, List.filter_cons]
    have htree := tree_eq ha r
    cases hh : a.header? r with
    | none =>
      rw [hh, Option.map_none] at htree
      rw [htree, isExported, hh]
      rfl
    | some h =>
      rw [hh, Option.map_some] at htree
      rw [htree, isExported, isImport, Arena.kind?, hh]
      show _ = (if h.flags.has .exported ∧ h.kind ≠ .form .importDeclaration then _ else []) ++ _
      by_cases hx : h.flags.has .exported ∧ h.kind ≠ .form .importDeclaration
      · rw [if_pos hx, if_pos (by simpa [Header.has] using hx), List.flatMap_cons,
          blank_declaredValues ha, htree]
        rfl
      · rw [if_neg hx, if_neg (by simpa [Header.has] using hx)]
        rfl

end Arena

end TypeReify.Scope
