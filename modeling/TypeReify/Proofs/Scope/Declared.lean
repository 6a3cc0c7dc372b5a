import TypeReify.Scope.Bind
import TypeReify.Check.Sources

/-!
# Declarations in source order

A scope is bound by entering one declaration after the other. Here the same declarations are listed
in source order, without a scope to enter them in: what a name means in the scope is what the first
entry of that name says. Overloads are left out, since a function is known by its first declaration.

The scopes are those of `bind_file`, `bind_block` and `bind_parameters`, where `add_value` keeps
what was there first.

Results:
* `Enters.foldl`: a scope bound item by item knows the declarations of all items in order.
* `binds_statement`, `Reads.enters_import`: what one statement declares.
* `Enters.block`, `Enters.locals`, `Enters.exported`, `meaning?_bindParameters`: every scope binds
  the first declaration of a name.
-/

namespace TypeReify.Scope

open Syntax

/-- The values that names are declared as, in source order. -/
abbrev Declarations := List (String × Value)

/-- What a name is declared as, overloads left out. -/
def Value.head : Value → Value
  | .function first _ => .function first []
  | v => v

namespace Names

/-- What a name means in the scope, overloads left out. -/
def meaning? (s : Names) (name : String) : Option Value := s.values[name]?.map Value.head

end Names

/-! ## Binding and listing -/

/-- A step of binding enters these declarations, behind what the scope knows already of what names
mean. -/
def Enters {V : Type} (meaning : Names → String → Option V) (bind : Names → Names)
    (ds : List (String × V)) : Prop :=
  ∀ s name, meaning (bind s) name = (meaning s name).or (ds.lookup name)

namespace Enters

variable {V : Type} {meaning : Names → String → Option V}

theorem id : Enters meaning (fun s => s) [] := fun _ _ => Option.or_none.symm

/-- Of two entries for a name, the one that was made first counts. -/
theorem comp {f g : Names → Names} {ds es : List (String × V)} (hf : Enters meaning f ds)
    (hg : Enters meaning g es) : Enters meaning (fun s => g (f s)) (ds ++ es) := by
  intro s name
  rw [hg, hf, List.lookup_append, Option.or_assoc]

/-- A scope bound item by item knows the declarations of all items in order. -/
theorem foldl {α : Type} {bind : Names → α → Names} {declared : α → List (String × V)} (xs : List α)
    (h : ∀ x ∈ xs, Enters meaning (bind · x) (declared x)) :
    Enters meaning (fun s => xs.foldl bind s) (xs.flatMap declared) := by
  induction xs with
  | nil => exact id
  | cons x xs ih =>
    rw [List.flatMap_cons]
    exact (h x List.mem_cons_self).comp (ih fun y hy => h y (List.mem_cons_of_mem x hy))

/-- To merge a declaration with what its name means already is to enter it, if the merge keeps the
head of what is there. -/
theorem merged (names : Names → Std.TreeMap String V) {head : V → V} (merge : Option V → V → V)
    (hnone : ∀ v, merge none v = v) (hsome : ∀ old v, head (merge (some old) v) = head old)
    {add : Names → Names} {name : String} {v : V} (hv : head v = v)
    (hadd : ∀ s, names (add s) = (names s).insert name (merge (names s)[name]? v)) :
    Enters (fun s name => (names s)[name]?.map head) add [(name, v)] := by
  intro s other
  dsimp only
  rw [hadd, Std.TreeMap.getElem?_insert]
  by_cases h : name = other
  · subst h
    cases hs : (names s)[name]? with
    | none => simp [hnone, hv]
    | some old => simp [hsome]
  · have hne : (other == name) = false := by simpa using Ne.symm h
    simp [h, List.lookup_cons, hne]

section Scopes

/-! What every scope of a file knows, told by what its statements enter. -/

variable (hempty : ∀ name, meaning .empty name = none)
include hempty

/-- Bound from nothing, a scope knows just the declarations. -/
theorem meaning_empty {bind : Names → Names} {ds : List (String × V)} (h : Enters meaning bind ds)
    (name : String) : meaning (bind .empty) name = ds.lookup name := by
  rw [h, hempty, Option.none_or]

variable {a : Arena} {declared imported : Ref → List (String × V)}
  (hstatement : ∀ r, Enters meaning (bindStatement a · r) (declared r))
include hstatement

/-- A block binds the first declaration of every name. -/
theorem block (statements : List Ref) (name : String) :
    meaning (bindBlock a statements) name = (statements.flatMap declared).lookup name :=
  meaning_empty hempty (foldl statements fun r _ => hstatement r) name

/-- So do the exports of a file. -/
theorem exported (resolve : String → Option String) (statements : List Ref) (name : String) :
    meaning (bindFile a resolve statements).exported name =
      ((statements.filter fun r => isExported a r && !isImport a r).flatMap declared).lookup name :=
  meaning_empty hempty (foldl _ fun r _ => hstatement r) name

/-- A file binds the first declaration of every name, imports among them. -/
theorem locals {resolve : String → Option String}
    (himport : ∀ r, Enters meaning (bindImport a resolve · r) (imported r)) (statements : List Ref)
    (name : String) : meaning (bindFile a resolve statements).locals name =
      (statements.flatMap fun r => if isImport a r then imported r else declared
        r).lookup name := by
  refine meaning_empty hempty (foldl statements fun r _ => ?_) name
  by_cases hi : isImport a r = true
  · simp only [if_pos hi]
    exact himport r
  · simp only [if_neg hi]
    exact hstatement r

end Scopes

end Enters

/-- A step of binding enters these declarations of values. -/
abbrev Binds : (Names → Names) → Declarations → Prop := Enters Names.meaning?

namespace Binds

theorem addValue {name : String} {v : Value} (hv : v.head = v) :
    Binds (·.addValue name v) [(name, v)] :=
  Enters.merged Names.values Names.mergeValue (fun _ => rfl)
    (fun old v => by cases old <;> cases v <;> rfl) hv fun _ => rfl

/-- A type name hides no value. -/
theorem addType {name : String} {t : TypeName} : Binds (·.addType name t) [] :=
  fun _ _ => Option.or_none.symm

end Binds

/-! ## Statements and parameters -/

/-- `text` names `v`, if there is a text. -/
def declareAs (text : Option String) (v : Value) : Declarations := (text.map (·, v)).toList

theorem binds_declareAs {v : Value} (hv : v.head = v) (text : Option String) :
    Binds (fun s => match text with | some text => s.addValue text v | none => s)
      (declareAs text v) := by
  cases text with
  | none => exact Enters.id
  | some text => exact Binds.addValue hv

/-- What one variable declares. -/
def declaredVariable (a : Arena) (r : Ref) : Declarations :=
  match r, a.content? r with
  | some node, some (_, .variableDeclaration name _ _) =>
    declareAs (a.identifierText? name) (.variableDeclaration node)
  | _, _ => []

/-- What one parameter declares. -/
def declaredParameter (a : Arena) (r : Ref) : Declarations :=
  match r, a.content? r with
  | some node, some (_, .parameter name _ _) =>
    declareAs (a.identifierText? name) (.parameter node)
  | _, _ => []

/-- The values that one statement declares. -/
def declaredValues (a : Arena) (statement : Ref) : Declarations :=
  match statement, a.content? statement with
  | some node, some (h, .function name _ _ _ _) =>
    if h.kind = .form .functionDeclaration then
      declareAs (a.identifierText? name) (.function node [])
    else []
  | some _, some (_, .variableStatement declarations) => declarations.flatMap (declaredVariable a)
  | _, _ => []

theorem binds_variables (a : Arena) (declarations : List Ref) :
    Binds (bindVariables a declarations) (declarations.flatMap (declaredVariable a)) := by
  refine Enters.foldl declarations fun r _ => ?_
  unfold declaredVariable
  generalize a.content? r = c
  rcases r with _ | node
  · exact Enters.id
  · rcases c with _ | ⟨h, p⟩
    · exact Enters.id
    · cases p with
      | variableDeclaration name _ _ => exact binds_declareAs (by rfl) _
      | _ => exact Enters.id

/-- What a statement binds is what it declares, one case for every kind of statement. -/
theorem binds_statement (a : Arena) (statement : Ref) :
    Binds (bindStatement a · statement) (declaredValues a statement) := by
  unfold bindStatement declaredValues
  generalize a.content? statement = c
  rcases statement with _ | node
  · exact Enters.id
  · rcases c with _ | ⟨h, p⟩
    · exact Enters.id
    · cases p with
      | function name _ _ _ _ =>
        dsimp only
        by_cases hk : h.kind = .form .functionDeclaration
        · rw [if_pos hk, hk]
          cases a.identifierText? name with
          | none => exact Enters.id
          | some text => exact Binds.addValue rfl
        · rw [if_neg hk]
          intro s other
          dsimp only
          split
          · exact absurd ‹_› hk
          · rw [List.lookup_nil, Option.or_none]
      | variableStatement declarations => exact binds_variables a declarations
      | interface name _ _ _ =>
        dsimp only
        cases a.identifierText? name with
        | none => exact Enters.id
        | some text => exact Binds.addType
      | typeAlias name _ _ =>
        dsimp only
        cases a.identifierText? name with
        | none => exact Enters.id
        | some text => exact Binds.addType
      | _ => exact Enters.id

/-- A parameter list binds the first parameter of every name. -/
theorem meaning?_bindParameters (a : Arena) (parameters : List Ref) (name : String) :
    (bindParameters a parameters).meaning? name =
      (parameters.flatMap (declaredParameter a)).lookup name := by
  refine Enters.meaning_empty (fun _ => rfl) (Enters.foldl parameters fun r _ => ?_) name
  unfold declaredParameter
  generalize a.content? r = c
  rcases r with _ | node
  · exact Enters.id
  · rcases c with _ | ⟨h, p⟩
    · exact Enters.id
    · cases p with
      | parameter name _ _ => exact binds_declareAs (by rfl) _
      | _ => exact Enters.id

/-! ## Imports -/

/-- What one element of an import list declares. -/
def declaredSpecifier (a : Arena) (module : Option String) (r : Ref) : Declarations :=
  match a.content? r with
  | some (_, .importSpecifier source name) =>
    match a.identifierText? name with
    | some text => [(text, .imported module ((a.identifierText? source).getD text))]
    | none => []
  | _ => []

/-- What `* as name`, or a list of elements, declares. -/
def declaredBindings (a : Arena) (module : Option String) (r : Ref) : Declarations :=
  match a.content? r with
  | some (h, .importBindings name items) =>
    if h.kind = .form .namespaceImport then
      declareAs (a.identifierText? name) (.namespaceImport module)
    else items.flatMap (declaredSpecifier a module)
  | _ => []

/-- What an import declares: its default import, then the elements of its list. -/
def declaredImport (a : Arena) (resolve : String → Option String) (r : Ref) : Declarations :=
  match a.content? r, specifier? a r with
  | some (_, .importDeclaration clause _), some specifier =>
    match a.content? clause with
    | some (_, .importClause name bindings) =>
      declareAs (a.identifierText? name) (.imported (resolve specifier) "default") ++
        declaredBindings a (resolve specifier) bindings
    | _ => []
  | _, _ => []

/-- What a reading of scopes sees of imports: `see` says what it makes of a value. -/
structure Reads {V : Type} (meaning : Names → String → Option V) (see : Value → Option V) :
    Prop where
  imported (module : Option String) (name exported : String) :
    Enters meaning (·.addImport module name exported)
      ((see (.imported module exported)).map (name, ·)).toList
  namespaceImport (module : Option String) (name : String) :
    Enters meaning (·.addValue name (.namespaceImport module))
      ((see (.namespaceImport module)).map (name, ·)).toList

/-- What is seen of declarations. -/
def Declarations.seen {V : Type} (see : Value → Option V) (ds : Declarations) : List (String × V) :=
  ds.filterMap fun d => (see d.2).map (d.1, ·)

theorem Declarations.seen_some (ds : Declarations) : ds.seen some = ds := List.filterMap_some

section Imports

variable {V : Type} {meaning : Names → String → Option V} {see : Value → Option V}

theorem Declarations.seen_singleton (see : Value → Option V) (name : String) (v : Value) :
    Declarations.seen see [(name, v)] = ((see v).map (name, ·)).toList := by
  cases h : see v <;> simp [Declarations.seen, h]

theorem Declarations.seen_append (ds es : Declarations) :
    Declarations.seen see (ds ++ es) = ds.seen see ++ es.seen see := List.filterMap_append

variable (h : Reads meaning see) (a : Arena) (resolve : String → Option String)
include h

theorem Reads.enters_specifier (module : Option String) (r : Ref) :
    Enters meaning (bindSpecifier a module · r) ((declaredSpecifier a module r).seen see) := by
  unfold bindSpecifier declaredSpecifier
  rcases a.content? r with _ | ⟨hd, p⟩
  · exact Enters.id
  · cases p with
    | importSpecifier source name =>
      dsimp only
      cases a.identifierText? name with
      | none => exact Enters.id
      | some text => exact Declarations.seen_singleton see text _ ▸ h.imported module text _
    | _ => exact Enters.id

/-- An import enters the names of its clause, whether named, default or of the namespace. -/
theorem Reads.enters_bindings (module : Option String) (r : Ref) :
    Enters meaning (bindBindings a module · r) ((declaredBindings a module r).seen see) := by
  unfold bindBindings declaredBindings
  rcases a.content? r with _ | ⟨hd, p⟩
  · exact Enters.id
  · cases p with
    | importBindings name items =>
      dsimp only
      by_cases hk : hd.kind = .form .namespaceImport
      · simp only [if_pos hk]
        cases a.identifierText? name with
        | none => exact Enters.id
        | some text => exact Declarations.seen_singleton see text _ ▸ h.namespaceImport module text
      · simp only [if_neg hk, Declarations.seen, List.filterMap_flatMap]
        exact Enters.foldl items fun item _ => h.enters_specifier a module item
    | _ => exact Enters.id

/-- An import enters what is seen of what it declares. -/
theorem Reads.enters_import (r : Ref) :
    Enters meaning (bindImport a resolve · r) ((declaredImport a resolve r).seen see) := by
  unfold bindImport declaredImport
  rcases a.content? r with _ | ⟨hd, p⟩
  · exact Enters.id
  · cases p with
    | importDeclaration clause _ =>
      cases specifier? a r with
      | none => exact Enters.id
      | some specifier =>
        dsimp only
        unfold bindClause
        rcases a.content? clause with _ | ⟨hd', q⟩
        · exact Enters.id
        · cases q with
          | importClause name bindings =>
            dsimp only
            refine Declarations.seen_append _ _ ▸ Enters.comp ?_
              (h.enters_bindings a (resolve specifier) bindings)
            cases a.identifierText? name with
            | none => exact Enters.id
            | some text =>
              have himport := h.imported (resolve specifier) text "default"
              exact Declarations.seen_singleton see text _ ▸ himport
          | _ => exact Enters.id
    | _ => exact Enters.id

end Imports

/-- Among values all imports are seen. -/
theorem reads_values : Reads Names.meaning? some where
  imported _ _ _ := (Binds.addValue rfl).comp Binds.addType
  namespaceImport _ _ := Binds.addValue rfl

theorem binds_import (a : Arena) (resolve : String → Option String) (r : Ref) :
    Binds (bindImport a resolve · r) (declaredImport a resolve r) :=
  Declarations.seen_some (declaredImport a resolve r) ▸ reads_values.enters_import a resolve r

/-! ## Files -/

/-- The values that one top-level statement of a file declares. -/
def declaredAtTop (a : Arena) (resolve : String → Option String) (r : Ref) : Declarations :=
  if isImport a r then declaredImport a resolve r else declaredValues a r

/-- The top-level values of a file. -/
def declaredByFile (a : Arena) (resolve : String → Option String) (statements : List Ref) :
    Declarations :=
  statements.flatMap (declaredAtTop a resolve)

/-- The values that a file exports. -/
def exportedByFile (a : Arena) (statements : List Ref) : Declarations :=
  (statements.filter fun r => isExported a r && !isImport a r).flatMap (declaredValues a)

/-! ## Functions -/

/-- The node is a function declared under this name. -/
def DeclaresFunction (a : Arena) (name : String) (node : NodeId) : Prop :=
  ∃ h n types parameters result body,
    a.content? (some node) = some (h, .function n types parameters result body) ∧
      a.identifierText? n = some name

theorem DeclaresFunction.unique {a : Arena} {name name' : String} {node : NodeId}
    (h : DeclaresFunction a name node) (h' : DeclaresFunction a name' node) : name = name' := by
  obtain ⟨_, n, _, _, _, _, hc, hn⟩ := h
  obtain ⟨_, n', _, _, _, _, hc', hn'⟩ := h'
  obtain rfl := (Payload.function.inj (Prod.mk.inj (Option.some.inj (hc.symm.trans hc'))).2).1
  exact Option.some.inj (hn.symm.trans hn')

/-- Functions in the list are declared under the names they are listed by. -/
def Declarations.Named (a : Arena) (ds : Declarations) : Prop :=
  ∀ name first more, (name, .function first more) ∈ ds → DeclaresFunction a name first

/-- Nothing in the list is an import. -/
def Declarations.NoImports (ds : Declarations) : Prop :=
  ∀ d ∈ ds, (∀ module name, d.2 ≠ .imported module name) ∧ ∀ module, d.2 ≠ .namespaceImport module

variable {a : Arena}

theorem mem_declareAs {text : Option String} {v : Value} {d : String × Value}
    (h : d ∈ declareAs text v) : text = some d.1 ∧ d.2 = v := by
  cases text with
  | none => exact absurd h List.not_mem_nil
  | some text =>
    obtain rfl := List.mem_singleton.1 h
    exact ⟨rfl, rfl⟩

/-- A variable is bound to its declaration. -/
theorem mem_declaredVariable {r : Ref} {d : String × Value} (h : d ∈ declaredVariable a r) :
    ∃ node, d.2 = .variableDeclaration node := by
  unfold declaredVariable at h
  split at h
  · exact ⟨_, (mem_declareAs h).2⟩
  · exact absurd h List.not_mem_nil

theorem mem_declaredParameter {r : Ref} {d : String × Value} (h : d ∈ declaredParameter a r) :
    ∃ node, d.2 = .parameter node := by
  unfold declaredParameter at h
  split at h
  · exact ⟨_, (mem_declareAs h).2⟩
  · exact absurd h List.not_mem_nil

/-- A statement declares a function under its name, or variables. -/
theorem mem_declaredValues {r : Ref} {d : String × Value} (h : d ∈ declaredValues a r) :
    (∃ node, d.2 = .function node [] ∧ DeclaresFunction a d.1 node) ∨
      ∃ node, d.2 = .variableDeclaration node := by
  unfold declaredValues at h
  split at h
  · rename_i node hd name _ _ _ _ hc
    split at h
    · obtain ⟨hname, hv⟩ := mem_declareAs h
      exact .inl ⟨node, hv, _, _, _, _, _, _, hc, hname⟩
    · exact absurd h List.not_mem_nil
  · obtain ⟨r', -, hr'⟩ := List.mem_flatMap.1 h
    exact .inr (mem_declaredVariable hr')
  · exact absurd h List.not_mem_nil

theorem mem_declaredSpecifier {module : Option String} {r : Ref} {d : String × Value}
    (h : d ∈ declaredSpecifier a module r) : ∃ exported, d.2 = .imported module exported := by
  unfold declaredSpecifier at h
  split at h
  · split at h
    · obtain rfl := List.mem_singleton.1 h
      exact ⟨_, rfl⟩
    · exact absurd h List.not_mem_nil
  · exact absurd h List.not_mem_nil

/-- An import declares imports only. -/
theorem mem_declaredImport {resolve : String → Option String} {r : Ref} {d : String × Value}
    (h : d ∈ declaredImport a resolve r) :
    (∃ module exported, d.2 = .imported module exported) ∨
      ∃ module, d.2 = .namespaceImport module := by
  unfold declaredImport at h
  split at h
  · split at h
    · rcases List.mem_append.1 h with h | h
      · exact .inl ⟨_, _, (mem_declareAs h).2⟩
      · unfold declaredBindings at h
        split at h
        · split at h
          · exact .inr ⟨_, (mem_declareAs h).2⟩
          · obtain ⟨r', -, hr'⟩ := List.mem_flatMap.1 h
            exact .inl ⟨_, mem_declaredSpecifier hr'⟩
        · exact absurd h List.not_mem_nil
    · exact absurd h List.not_mem_nil
  · exact absurd h List.not_mem_nil

theorem named_statements (a : Arena) (statements : List Ref) :
    Declarations.Named a (statements.flatMap (declaredValues a)) := by
  intro name first more h
  obtain ⟨r, -, hr⟩ := List.mem_flatMap.1 h
  rcases mem_declaredValues hr with ⟨node, hv, hf⟩ | ⟨node, hv⟩
  · obtain ⟨rfl, -⟩ := Value.function.inj hv
    exact hf
  · exact absurd hv nofun

theorem named_parameters (a : Arena) (parameters : List Ref) :
    Declarations.Named a (parameters.flatMap (declaredParameter a)) := by
  intro name first more h
  obtain ⟨r, -, hr⟩ := List.mem_flatMap.1 h
  obtain ⟨node, hv⟩ := mem_declaredParameter hr
  exact absurd hv nofun

/-- Whatever a file binds to a function is a function of that name. -/
theorem named_file (a : Arena) (resolve : String → Option String) (statements : List Ref) :
    Declarations.Named a (declaredByFile a resolve statements) := by
  intro name first more h
  obtain ⟨r, hmem, hr⟩ := List.mem_flatMap.1 h
  unfold declaredAtTop at hr
  split at hr
  · rcases mem_declaredImport hr with ⟨_, _, hv⟩ | ⟨_, hv⟩
    · exact absurd hv nofun
    · exact absurd hv nofun
  · exact named_statements a statements name first more (List.mem_flatMap.2 ⟨r, hmem, hr⟩)

/-- A file exports what it declares itself. -/
theorem noImports_exported (a : Arena) (statements : List Ref) :
    Declarations.NoImports (exportedByFile a statements) := by
  intro d h
  obtain ⟨r, -, hr⟩ := List.mem_flatMap.1 h
  rcases mem_declaredValues hr with ⟨node, hv, -⟩ | ⟨node, hv⟩
  · rw [hv]
    exact ⟨nofun, nofun⟩
  · rw [hv]
    exact ⟨nofun, nofun⟩

end TypeReify.Scope
