import TypeReify.Proofs.Scope.Declared

/-!
# Types in source order

What a type name means in a scope is what the first declaration of the name says, as it is for
values. Interfaces of one name are one type, known by the first of them. An import stands for a type
as well as for a value, unless it imports a whole module.

Here `add_type` merges interfaces and keeps what was there first otherwise.

Results:
* `bindsTypes_statement`, `bindsTypes_import`: the types that one statement declares.
* `typesExported_ne_imported`: a file exports what it declares itself.
-/

namespace TypeReify.Scope

open Syntax

/-- The types that names are declared as, in source order. -/
abbrev TypeDeclarations := List (String × TypeName)

/-- What a type name is declared as, further declarations of an interface left out. -/
def TypeName.head : TypeName → TypeName
  | .interface first _ => .interface first []
  | t => t

theorem TypeName.head_head (t : TypeName) : t.head.head = t.head := by cases t <;> rfl

namespace Names

/-- What a type name means in the scope, further declarations of an interface left out. -/
def typeMeaning? (s : Names) (name : String) : Option TypeName := s.types[name]?.map TypeName.head

end Names

/-- A step of binding enters these declarations of types. -/
abbrev BindsTypes : (Names → Names) → TypeDeclarations → Prop := Enters Names.typeMeaning?

namespace BindsTypes

theorem addType {name : String} {t : TypeName} (ht : t.head = t) :
    BindsTypes (·.addType name t) [(name, t)] :=
  Enters.merged Names.types Names.mergeType (fun _ => rfl)
    (fun old t => by cases old <;> cases t <;> rfl) ht fun _ => rfl

theorem addValue {name : String} {v : Value} : BindsTypes (·.addValue name v) [] :=
  fun _ _ => Option.or_none.symm

end BindsTypes

/-! ## Statements -/

/-- The types that one statement declares. -/
def declaredTypes (a : Arena) (statement : Ref) : TypeDeclarations :=
  match statement, a.content? statement with
  | some node, some (_, .interface name _ _ _) =>
    ((a.identifierText? name).map (·, .interface node [])).toList
  | some node, some (_, .typeAlias name _ _) =>
    ((a.identifierText? name).map (·, .typeAlias node)).toList
  | _, _ => []

theorem bindsTypes_variables (a : Arena) (declarations : List Ref) :
    BindsTypes (bindVariables a declarations) [] := by
  have hnone : declarations.flatMap (fun _ => ([] : TypeDeclarations)) = [] :=
    List.flatMap_eq_nil_iff.2 fun _ _ => rfl
  rw [← hnone]
  refine Enters.foldl declarations fun r _ => ?_
  split
  · split
    · exact BindsTypes.addValue
    · exact Enters.id
  · exact Enters.id

theorem bindsTypes_statement (a : Arena) (statement : Ref) :
    BindsTypes (bindStatement a · statement) (declaredTypes a statement) := by
  unfold bindStatement declaredTypes
  generalize a.content? statement = c
  rcases statement with _ | node
  · exact Enters.id
  · rcases c with _ | ⟨h, p⟩
    · exact Enters.id
    · cases p with
      | function name _ _ _ _ =>
        dsimp only
        intro s other
        split
        · exact BindsTypes.addValue s other
        · exact Enters.id s other
      | variableStatement declarations => exact bindsTypes_variables a declarations
      | interface name _ _ _ | typeAlias name _ _ =>
        dsimp only
        cases a.identifierText? name with
        | none => exact Enters.id
        | some text => exact BindsTypes.addType rfl
      | _ => exact Enters.id

/-! ## Imports -/

/-- The types among what is imported. -/
def importedTypes (ds : Declarations) : TypeDeclarations :=
  ds.filterMap fun d =>
    match d.2 with
    | .imported module name => some (d.1, .imported module name)
    | _ => none

/-- The import of a whole module is no type. -/
def Value.importedType? : Value → Option TypeName
  | .imported module name => some (.imported module name)
  | _ => none

theorem seen_importedType? (ds : Declarations) : ds.seen Value.importedType? = importedTypes ds :=
  congrArg (List.filterMap · ds) (funext fun d => by
    rcases d with ⟨_, v⟩
    cases v <;> rfl)

theorem reads_types : Reads Names.typeMeaning? Value.importedType? where
  imported _ _ _ := BindsTypes.addValue.comp (BindsTypes.addType rfl)
  namespaceImport _ _ := BindsTypes.addValue

theorem bindsTypes_import (a : Arena) (resolve : String → Option String) (r : Ref) :
    BindsTypes (bindImport a resolve · r) (importedTypes (declaredImport a resolve r)) :=
  seen_importedType? (declaredImport a resolve r) ▸ reads_types.enters_import a resolve r

/-! ## Files -/

/-- The top-level types of a file. -/
def typesDeclaredByFile (a : Arena) (resolve : String → Option String) (statements : List Ref) :
    TypeDeclarations :=
  statements.flatMap fun r =>
    if isImport a r then importedTypes (declaredImport a resolve r) else declaredTypes a r

/-- The types that a file exports. -/
def typesExportedByFile (a : Arena) (statements : List Ref) : TypeDeclarations :=
  (statements.filter fun r => isExported a r && !isImport a r).flatMap (declaredTypes a)

/-- A file exports what it declares itself. -/
theorem typesExported_ne_imported {a : Arena} {statements : List Ref} {name exported : String}
    {module : Option String} :
    (typesExportedByFile a statements).lookup name ≠ some (.imported module exported) := by
  intro h
  obtain ⟨before, after, hsplit, -⟩ := List.lookup_eq_some_iff.1 h
  have hmem : (name, TypeName.imported module exported) ∈ typesExportedByFile a statements :=
    hsplit ▸ List.mem_append_right before List.mem_cons_self
  obtain ⟨r, -, hr⟩ := List.mem_flatMap.1 hmem
  unfold declaredTypes at hr
  split at hr <;> simp at hr

end TypeReify.Scope
