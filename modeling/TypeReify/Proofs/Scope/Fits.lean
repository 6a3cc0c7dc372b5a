import TypeReify.Scope.Bind
import TypeReify.Check.Sources
import TypeReify.Proofs.Syntax.Growth

/-!
# Type names lead to declarations of their name

What a scope binds a type name to are nodes of the file that was bound: all interfaces of that name
in the scope, in order, or an alias of that name. Imports lead elsewhere and are left open.

So `instantiate_interface` and `instantiate_alias` always find a declaration of the form they ask
for.

Results:
* `lists_bindStatement`, `lists_bindImport`: what one statement adds.
* `fits_bindBlock`, `fits_locals`, `fits_exported`: this holds of every scope.
-/

namespace TypeReify.Scope

open Syntax

/-! ## Declarations of types -/

/-- The node is an interface declaration of this name. -/
def DeclaresInterface (a : Arena) (name : String) (node : NodeId) : Prop :=
  ∃ h n types heritage members,
    a.content? (some node) = some (h, .interface n types heritage members) ∧
      a.identifierText? n = some name

/-- The node is an alias declaration of this name. -/
def DeclaresAlias (a : Arena) (name : String) (node : NodeId) : Prop :=
  ∃ h n types body, a.content? (some node) = some (h, .typeAlias n types body) ∧
    a.identifierText? n = some name

/-- The interface of this name that a statement declares. -/
def interface? (a : Arena) (name : String) (statement : Ref) : Option NodeId :=
  match statement, a.content? statement with
  | some node, some (_, .interface n _ _ _) =>
    if a.identifierText? n = some name then some node else none
  | _, _ => none

/-- The interfaces of this name that some statements declare, in order. -/
def interfaces (a : Arena) (name : String) (statements : List Ref) : List NodeId :=
  statements.filterMap (interface? a name)

/-- The statements that declare one scope: those of a block, those of the file, and those of the
file that are exported. -/
inductive Scoped (f : SourceFile) : List Ref → Prop
  | file : Scoped f f.statements
  | exported :
      Scoped f (f.statements.filter fun r => isExported f.arena r && !isImport f.arena r)
  | block {r : Ref} {h : Header} {statements : List Ref}
      (hc : f.arena.content? r = some (h, .block statements)) : Scoped f statements

/-- What a type name means agrees with the file. -/
def TypeName.Fits (f : SourceFile) (name : String) : TypeName → Prop
  | .interface first merged =>
    ∃ statements, Scoped f statements ∧ first :: merged = interfaces f.arena name statements
  | .typeAlias node => DeclaresAlias f.arena name node
  | .imported .. => True

/-- All type names of a scope agree with the file. -/
def Types.Fits (f : SourceFile) (types : Types) : Prop :=
  ∀ (name : String) (symbol : TypeName), types[name]? = some symbol → symbol.Fits f name

theorem declaresInterface_of_mem {a : Arena} {name : String} {statements : List Ref} {node : NodeId}
    (h : node ∈ interfaces a name statements) : DeclaresInterface a name node := by
  obtain ⟨r, -, hr⟩ := List.mem_filterMap.1 h
  unfold interface? at hr
  split at hr
  · rename_i node' hd n types heritage members hc
    split at hr
    · rename_i hn
      obtain rfl := Option.some.inj hr
      exact ⟨hd, n, types, heritage, members, hc, hn⟩
    · exact absurd hr nofun
  · exact absurd hr nofun

theorem fits_empty (f : SourceFile) : Types.Fits f Names.empty.types := by
  intro name symbol h
  exact absurd h (by simp [Names.empty])

/-! ## Binding statements -/

/-- What a name means after some statements: if it means interfaces, then all of the statements. -/
def TypeName.Lists (a : Arena) (name : String) (statements : List Ref) : Option TypeName → Prop
  | none => interfaces a name statements = []
  | some (.interface first merged) => first :: merged = interfaces a name statements
  | some (.typeAlias node) => DeclaresAlias a name node
  | some (.imported ..) => True

/-- What all names mean after some statements. -/
def Types.Lists (a : Arena) (statements : List Ref) (types : Types) : Prop :=
  ∀ name : String, TypeName.Lists a name statements types[name]?

variable {a : Arena} {s : Names} {statements : List Ref}

theorem lists_empty : Types.Lists a [] Names.empty.types := by
  intro name
  simp [Names.empty, TypeName.Lists, interfaces]

/-- A statement that declares no interface of the name changes nothing. -/
theorem TypeName.Lists.append {name : String} {symbol : Option TypeName} {r : Ref}
    (h : TypeName.Lists a name statements symbol) (hr : interface? a name r = none) :
    TypeName.Lists a name (statements ++ [r]) symbol := by
  have hsame : interfaces a name (statements ++ [r]) = interfaces a name statements := by
    simp [interfaces, hr]
  cases symbol with
  | none => exact hsame.trans h
  | some t =>
    cases t with
    | interface first merged => exact Eq.trans h hsame.symm
    | typeAlias node => exact h
    | imported module exported => trivial

/-- A name that is taken keeps its meaning, and a free one now means the new declaration. -/
theorem lists_addOther {name : String} {t : TypeName} (hs : Types.Lists a statements s.types)
    (hother : ∀ first merged, t ≠ .interface first merged)
    (ht : TypeName.Lists a name statements (some t)) :
    Types.Lists a statements (s.addType name t).types := by
  intro other
  rw [Names.getElem?_addType]
  by_cases hn : name = other
  · subst hn
    rw [if_pos rfl]
    have hname := hs name
    cases hold : s.types[name]? with
    | none => exact ht
    | some old =>
      rw [hold] at hname
      cases old with
      | interface first more =>
        cases t with
        | interface node others => exact absurd rfl (hother node others)
        | typeAlias _ => exact hname
        | imported _ _ => exact hname
      | typeAlias _ => exact hname
      | imported _ _ => trivial
  · rw [if_neg hn]
    exact hs other

theorem lists_addImport {module : Option String} {name exported : String}
    (hs : Types.Lists a statements s.types) :
    Types.Lists a statements (s.addImport module name exported).types :=
  lists_addOther (s := s.addValue name (.imported module exported)) hs nofun trivial

/-- An interface joins those of its name. -/
theorem lists_addInterface {name : String} {node : NodeId} {h : Header} {n : Ref}
    {types heritage : Option (List Ref)} {members : List Ref}
    (hc : a.content? (some node) = some (h, .interface n types heritage members))
    (hn : a.identifierText? n = some name) (hs : Types.Lists a statements s.types) :
    Types.Lists a (statements ++ [some node]) (s.addType name (.interface node [])).types := by
  have hnode (other : String) : interface? a other (some node) =
      if name = other then some node else none := by
    simp only [interface?, hc, hn, Option.some.injEq]
  intro other
  rw [Names.getElem?_addType]
  by_cases hname : name = other
  · subst hname
    have happend : interfaces a name (statements ++ [some node]) =
        interfaces a name statements ++ [node] := by
      simp [interfaces, hnode]
    rw [if_pos rfl]
    have hold := hs name
    cases hs : s.types[name]? with
    | none =>
      rw [hs] at hold
      show [node] = _
      rw [happend, show interfaces a name statements = [] from hold, List.nil_append]
    | some old =>
      rw [hs] at hold
      cases old with
      | interface first more =>
        show first :: (more ++ [node]) = _
        rw [happend, ← show first :: more = _ from hold, List.cons_append]
      | typeAlias _ => exact hold
      | imported _ _ => trivial
  · rw [if_neg hname]
    exact (hs other).append (by rw [hnode, if_neg hname])

theorem types_bindVariables (declarations : List Ref) :
    (bindVariables a declarations s).types = s.types := by
  unfold bindVariables
  induction declarations generalizing s with
  | nil => rfl
  | cons r rs ih =>
    rw [List.foldl_cons, ih]
    split
    · split
      · rfl
      · rfl
    · rfl

/-- What one statement adds. -/
theorem lists_bindStatement (r : Ref) (hs : Types.Lists a statements s.types) :
    Types.Lists a (statements ++ [r]) (bindStatement a s r).types := by
  have hkeep {s : Names} (hr : ∀ name, interface? a name r = none)
      (hs : Types.Lists a statements s.types) : Types.Lists a (statements ++ [r]) s.types :=
    fun name => (hs name).append (hr name)
  unfold bindStatement
  split
  · rename_i node h name _ _ _ _ hc
    have hr : ∀ name, interface? a name (some node) = none := by simp [interface?, hc]
    split
    · exact hkeep hr hs
    · exact hkeep hr hs
  · rename_i node _ declarations hc
    rw [types_bindVariables]
    exact hkeep (by simp [interface?, hc]) hs
  · rename_i node h n types heritage members hc
    split
    · rename_i text hn
      exact lists_addInterface hc hn hs
    · rename_i hn
      exact hkeep (by simp [interface?, hc, hn]) hs
  · rename_i node h n types body hc
    have hr : ∀ name, interface? a name (some node) = none := by simp [interface?, hc]
    split
    · rename_i text hn
      exact hkeep hr (lists_addOther hs nofun ⟨h, n, types, body, hc, hn⟩)
    · exact hkeep hr hs
  · rename_i hfunction hvariable hinterface halias
    refine hkeep (fun name => ?_) hs
    unfold interface?
    split
    · rename_i node h n types heritage members hc
      exact absurd hc (hinterface node h n types heritage members rfl)
    · rfl

/-- Statement after statement. -/
theorem lists_foldl {bind : Names → Ref → Names}
    (hbind : ∀ s xs r, Types.Lists a xs s.types → Types.Lists a (xs ++ [r]) (bind s r).types)
    (rs : List Ref) (hs : Types.Lists a statements s.types) :
    Types.Lists a (statements ++ rs) (rs.foldl bind s).types := by
  induction rs generalizing s statements with
  | nil =>
    rw [List.append_nil]
    exact hs
  | cons r rs ih =>
    have hrest := ih (hbind s statements r hs)
    rw [List.append_assoc] at hrest
    exact hrest

/-! ## Binding imports -/

theorem lists_bindSpecifier (module : Option String) (r : Ref)
    (hs : Types.Lists a statements s.types) :
    Types.Lists a statements (bindSpecifier a module s r).types := by
  unfold bindSpecifier
  split
  · split
    · exact lists_addImport hs
    · exact hs
  · exact hs

theorem lists_bindSpecifiers (module : Option String) (items : List Ref)
    (hs : Types.Lists a statements s.types) :
    Types.Lists a statements (items.foldl (bindSpecifier a module) s).types := by
  induction items generalizing s with
  | nil => exact hs
  | cons item items ih => exact ih (lists_bindSpecifier module item hs)

theorem lists_bindBindings (module : Option String) (r : Ref)
    (hs : Types.Lists a statements s.types) :
    Types.Lists a statements (bindBindings a module s r).types := by
  unfold bindBindings
  split
  · split
    · split
      · exact hs
      · exact hs
    · exact lists_bindSpecifiers module _ hs
  · exact hs

/-- An import declares no interface. -/
theorem lists_bindImport (resolve : String → Option String) (r : Ref)
    (hs : Types.Lists a statements s.types) :
    Types.Lists a statements (bindImport a resolve s r).types := by
  unfold bindImport
  split
  · unfold bindClause
    split
    · refine lists_bindBindings _ _ ?_
      split
      · exact lists_addImport hs
      · exact hs
    · exact hs
  · exact hs

/-! ## Scopes -/

/-- Where the names of a scope list its statements, they agree with the file. -/
theorem Types.Lists.fits {f : SourceFile} {types : Types} (h : Types.Lists f.arena statements types)
    (hscope : Scoped f statements) : Types.Fits f types := by
  intro name symbol hs
  have hname := h name
  rw [hs] at hname
  cases symbol with
  | interface first merged => exact ⟨statements, hscope, hname⟩
  | typeAlias node => exact hname
  | imported module exported => trivial

theorem fits_bindBlock {f : SourceFile} {r : Ref} {h : Header}
    (hc : f.arena.content? r = some (h, .block statements)) :
    Types.Fits f (bindBlock f.arena statements).types := by
  have hlists := lists_foldl (fun _ _ r hs => lists_bindStatement r hs) statements
    (lists_empty (a := f.arena))
  exact hlists.fits (.block hc)

theorem interface?_of_isImport {r : Ref} (h : isImport a r = true) (name : String) :
    interface? a name r = none := by
  unfold interface?
  split
  · rename_i node hd n types heritage members hc
    have hkind : hd.kind = .form .importDeclaration := by
      simpa [isImport, Arena.kind?, (Arena.content?_eq_some.1 hc).1] using h
    have hpool := Arena.pool_of_content? hc
    rw [hkind] at hpool
    exact absurd hpool (by simp [Kind.pool?, Payload.pool])
  · rfl

theorem fits_locals (f : SourceFile) (resolve : String → Option String) :
    Types.Fits f (bindFile f.arena resolve f.statements).locals.types := by
  have hstep (s : Names) (xs : List Ref) (r : Ref) (hs : Types.Lists f.arena xs s.types) :
      Types.Lists f.arena (xs ++ [r]) (if isImport f.arena r then bindImport f.arena resolve s r
        else bindStatement f.arena s r).types := by
    split
    · rename_i himport
      exact fun name => (lists_bindImport resolve r hs name).append
        (interface?_of_isImport himport name)
    · exact lists_bindStatement r hs
  exact (lists_foldl hstep f.statements lists_empty).fits .file

theorem fits_exported (f : SourceFile) (resolve : String → Option String) :
    Types.Fits f (bindFile f.arena resolve f.statements).exported.types := by
  have hlists := lists_foldl (fun _ _ r hs => lists_bindStatement r hs)
    (f.statements.filter fun r => isExported f.arena r && !isImport f.arena r)
    (lists_empty (a := f.arena))
  exact hlists.fits .exported

end TypeReify.Scope
