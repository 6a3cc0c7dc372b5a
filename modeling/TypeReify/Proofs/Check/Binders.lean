import TypeReify.Proofs.Check.Repeat
import TypeReify.Proofs.Scope.DeclaredTypes

/-!
# What type names are bound to

What stands around a place binds type names: functions their type parameters, blocks and the file
the types that they declare, other declarations their own type parameters. `Enclosed` lists these
binders, innermost first, from the files alone, and `Denotes` says what a type name comes to, by
what binds it. The checker looks a name up in its surroundings, and finds what the list says of it
(`Holds`).

It opens no scope for the type parameters of interfaces, aliases, signatures, function types and
mapped types. What these are taken for is left to a parameter of the list, `own`.

`Enclosed` is read off the tree and does not mention `TypeScope`; `Denotes` says what
`resolve_type_reference` should come to, with `lookup_type` and the steps of `instantiate_symbol`
spelled out.

Results:
* `holds_inside`: the scopes of the checker keep up with the binders.
* `denotes_of_meant`: what is declared under a name is what its binder says.
-/

namespace TypeReify.Check

open Syntax Scope
open TypeReify.Types

/-- What binds a type name. -/
inductive Binder
  /-- A type parameter, for which nothing is known. -/
  | parameter
  /-- The parameter of a mapped type, at one of its keys. -/
  | key (id : TypeId)
  /-- A declaration, further declarations of an interface left out. -/
  | declared (symbol : TypeName)
  /-- Something of which nothing is said. -/
  | unknown
  deriving DecidableEq, Repr

/-- What binds the type names at a place, innermost first. -/
abbrev Binders := List (String × Binder)

/-- Names that all have one binder. -/
def boundTo (names : List String) (b : Binder) : Binders := names.map (·, b)

/-- What declarations bind. -/
def declaredBinders (ds : TypeDeclarations) : Binders := ds.map fun d => (d.1, .declared d.2)

/-- What binds type names inside a node, where a type parameter of a declaration that is no function
is bound to `own`. -/
def bindersInside (a : Arena) (own : Binder) (binders : Binders) : Payload Ref → Binders
  | .function _ types _ _ _ => boundTo (typeParameterNames a types) .parameter ++ binders
  | .block statements => declaredBinders (statements.flatMap (declaredTypes a)) ++ binders
  | .interface _ types _ _ | .typeAlias _ types _ | .signature _ types _ _ |
      .functionType types _ _ =>
    boundTo (typeParameterNames a types) own ++ binders
  | .mappedType parameter _ => boundTo (typeParameterNames a (some [parameter])) own ++ binders
  | _ => binders

/-- What the top level of a file binds. -/
def topBinders (files : List SourceFile) (f : SourceFile) : Binders :=
  declaredBinders (typesDeclaredByFile f.arena (Sources.importedKey? files f) f.statements)

/-- These bind the type names at a node of the tree. -/
def Enclosed (files : List SourceFile) (f : SourceFile) (own : Binder) (root c : NodeId)
    (binders : Binders) : Prop :=
  Descent f.arena (bindersInside f.arena own) root (topBinders files f) c binders

/-! ## What a name denotes -/

/-- The file that declares what a type name of `f` means, its name there, and its declaration. -/
def leadsTo? (files : List SourceFile) (f : SourceFile) (name : String) :
    TypeName → Option (SourceFile × String × TypeName)
  | .imported module exported => do
    let g ← Sources.fileAt? files (← module)
    ((typesExportedByFile g.arena g.statements).lookup exported).map (g, exported, ·)
  | symbol => some (f, name, symbol)

/-- What a type name comes to that nothing declares: a built-in type, else `any`. -/
def Undeclared (u : State) (name : String) (arguments : List TypeId) (id : TypeId) : Prop :=
  match name, arguments with
  | "Array", [element] | "ReadonlyArray", [element] => u.interner.lookup id = some (.array element)
  | "Record", [keys, value] =>
    u.interner.lookup id = some (.object (recordShape (u.literalKeys keys) value))
  | _, _ => id = TypeId.any

/-- What a type name with arguments denotes, by what binds it. An import that leads nowhere binds
nothing. -/
def Denotes (files : List SourceFile) (f : SourceFile) (u : State) (name : String)
    (arguments : List TypeId) : Option Binder → TypeId → Prop
  | some .unknown, _ => True
  | some (.key key), id => id = key
  | some .parameter, id => u.interner.lookup id = some (.parameter name)
  | some (.declared symbol), id =>
    match leadsTo? files f name symbol with
    | some (g, name', symbol') => StandsFor (Sources.moduleOf files g) name' arguments u symbol' id
    | none => Undeclared u name arguments id
  | none, id => Undeclared u name arguments id

/-! ## What the checker finds -/

/-- What a name is found to mean. -/
def Meaning.binder : Meaning → Binder
  | .declared symbol _ => .declared symbol.head
  | .parameter => .parameter

/-- What the checker finds a type name bound to. -/
def Surroundings.binder? (m : Module) (s : Surroundings) (name : String) : Option Binder :=
  match s.get? name with
  | some id => some (.key id)
  | none => (s.frames.lookup m.names.locals.types name).map Meaning.binder

/-- The checker finds every name bound as the list says, but where it says nothing. -/
def Surroundings.Holds (m : Module) (s : Surroundings) (binders : Binders) : Prop :=
  ∀ name, binders.lookup name = some .unknown ∨ s.binder? m name = binders.lookup name

theorem lookup_boundTo (names : List String) (b : Binder) (name : String) :
    (boundTo names b).lookup name = if name ∈ names then some b else none := by
  induction names with
  | nil => rfl
  | cons other names ih =>
    rw [boundTo, List.map_cons, List.lookup_cons]
    by_cases h : name = other
    · simp [h]
    · have hne : (name == other) = false := beq_false_of_ne h
      rw [hne]
      simpa [h, boundTo] using ih

theorem lookup_declaredBinders (ds : TypeDeclarations) (name : String) :
    (declaredBinders ds).lookup name = (ds.lookup name).map .declared := by
  induction ds with
  | nil => rfl
  | cons d ds ih =>
    rw [declaredBinders, List.map_cons, List.lookup_cons, List.lookup_cons]
    cases name == d.1 with
    | true => rfl
    | false => exact ih

namespace Surroundings.Holds

variable {m : Module} {s s' : Surroundings} {binders : Binders}

theorem bind (h : s.Holds m binders) (name : String) (key : TypeId) :
    (s.bind name key).Holds m ((name, .key key) :: binders) := by
  intro other
  unfold Surroundings.binder?
  rw [get?_bind, List.lookup_cons]
  by_cases hname : other = name
  · simp [hname]
  · have hne : (other == name) = false := beq_false_of_ne hname
    rw [if_neg hname, hne]
    exact h other

/-- Nothing has to be found of further names of which nothing is said. -/
theorem unknown (h : s.Holds m binders) (names : List String) :
    s.Holds m (boundTo names .unknown ++ binders) := by
  intro name
  rw [List.lookup_append, lookup_boundTo]
  by_cases hname : name ∈ names
  · rw [if_pos hname]
    exact .inl rfl
  · rw [if_neg hname]
    exact h name

/-- What is found in the innermost frame, and what is around it. -/
theorem append {frames : Frames} {frame : Frame} {inner : Binders}
    (hinner : ∀ name, inner.lookup name =
      ((frame.types[name]?).map fun t => .declared t.head).or
        (if name ∈ frame.parameters then some .parameter else none))
    (h : (Surroundings.ofFrames frames).Holds m binders) :
    (Surroundings.ofFrames (frame :: frames)).Holds m (inner ++ binders) := by
  intro name
  have hframes (frames : Frames) : (Surroundings.ofFrames frames).binder? m name =
      (frames.lookup m.names.locals.types name).map Meaning.binder := rfl
  have hname := h name
  rw [hframes] at hname ⊢
  rw [List.lookup_append, hinner, Frames.lookup]
  cases frame.types[name]? with
  | some t => exact .inr rfl
  | none =>
    by_cases hmem : name ∈ frame.parameters
    · rw [if_pos hmem, if_pos (List.contains_iff_mem.2 hmem)]
      exact .inr rfl
    · rw [if_neg hmem, if_neg (mt List.contains_iff_mem.1 hmem)]
      exact hname

end Surroundings.Holds

/-- At the top of a file the checker finds what the file declares. -/
theorem holds_file (files : List SourceFile) (f : SourceFile) :
    (Surroundings.ofFrames []).Holds (Sources.moduleOf files f) (topBinders files f) := by
  intro name
  have htop : (Sources.moduleOf files f).names.locals.typeMeaning? name =
      (typesDeclaredByFile f.arena (Sources.importedKey? files f) f.statements).lookup name :=
    Enters.locals (fun _ => rfl) (bindsTypes_statement f.arena)
      (bindsTypes_import f.arena (Sources.importedKey? files f)) f.statements name
  right
  rw [topBinders, lookup_declaredBinders, ← htop, Names.typeMeaning?, Option.map_map]
  exact Option.map_map ..

variable {files : List SourceFile} {f : SourceFile}

/-- **The scopes of the checker keep up with the binders**, if nothing is said of those for which it
opens none. -/
theorem holds_inside {scopes : Scopes} {binders : Binders}
    (h : (Surroundings.ofFrames scopes.types).Holds (Sources.moduleOf files f) binders)
    (p : Payload Ref) :
    (Surroundings.ofFrames (scopes.inside f.arena p).types).Holds (Sources.moduleOf files f)
      (bindersInside f.arena .unknown binders p) := by
  cases p with
  | function _ types _ _ _ =>
    refine .append (fun name => ?_) h
    rw [lookup_boundTo, Std.TreeMap.getElem?_emptyc]
    rfl
  | block statements =>
    refine .append (fun name => ?_) h
    have hblock := Enters.block (fun _ => rfl) (bindsTypes_statement f.arena) statements name
    rw [lookup_declaredBinders, ← hblock, Names.typeMeaning?, Option.map_map]
    simp [Function.comp_def]
  | interface _ _ _ _ | typeAlias _ _ _ | signature _ _ _ _ | functionType _ _ _ | mappedType _ _ =>
    exact h.unknown _
  | _ => exact h

/-! ## Imports -/

/-- A declared name is followed no further. -/
theorem followType_of_head {sources : Sources} {hops : Nat} {m : Module} {name : String}
    {symbol : TypeName} (h : ∀ module exported, symbol ≠ .imported module exported) :
    sources.followType hops m name symbol = some (m, name, symbol) := by
  cases symbol with
  | imported module exported => exact absurd rfl (h module exported)
  | interface _ _ | typeAlias _ => cases hops <;> rfl

/-- The checker follows a type name to the file that declares it. -/
theorem followType_ofFiles (h : (files.map fileKey).Nodup) (name : String) (symbol : TypeName) :
    ((Sources.ofFiles files).followType importHops (Sources.moduleOf files f) name symbol).map
        (fun x => (x.1, x.2.1, x.2.2.head)) =
      (leadsTo? files f name symbol.head).map fun x =>
        (Sources.moduleOf files x.1, x.2.1, x.2.2) := by
  cases symbol with
  | interface _ _ | typeAlias _ => rfl
  | imported module exported =>
    cases module with
    | none => rfl
    | some key =>
      show (Option.bind ((Sources.ofFiles files).find? key) fun target =>
          Option.bind target.names.exported.types[exported]? fun t =>
            (Sources.ofFiles files).followType (importHops - 1) target exported t).map _ =
        (Option.bind (Sources.fileAt? files key) fun g =>
          Option.map (g, exported, ·)
            ((typesExportedByFile g.arena g.statements).lookup exported)).map _
      rw [Sources.find?_ofFiles h]
      cases Sources.fileAt? files key with
      | none => rfl
      | some g =>
        have hexported :
            (Sources.moduleOf files g).names.exported.types[exported]?.map TypeName.head =
              (typesExportedByFile g.arena g.statements).lookup exported :=
          Enters.exported (fun _ => rfl) (bindsTypes_statement g.arena) _ g.statements exported
        have hne (module' : Option String) (exported' : String) :
            (typesExportedByFile g.arena g.statements).lookup exported ≠
              some (.imported module' exported') := typesExported_ne_imported
        simp only [Option.map_some, Option.bind_some]
        rw [← hexported] at hne ⊢
        cases ht : (Sources.moduleOf files g).names.exported.types[exported]? with
        | none => rfl
        | some t =>
          rw [ht] at hne
          rw [Option.bind_some, followType_of_head fun module' exported' heq => ?_]
          · rfl
          · exact hne _ _ (congrArg some (congrArg TypeName.head heq))

/-! ## From what is found to what is denoted -/

section Denotes

variable {u v : State} {name : String} {arguments : List TypeId} {id : TypeId}

theorem StandsFor.head {m : Module} {symbol symbol' : TypeName}
    (h : StandsFor m name arguments u symbol id) (heq : symbol.head = symbol'.head) :
    StandsFor m name arguments u symbol' id := by
  cases h with
  | interface hid =>
    cases symbol' with
    | interface first merged =>
      obtain ⟨rfl, -⟩ := TypeName.interface.inj heq
      exact .interface hid
    | _ => cases heq
  | typeAlias hid =>
    cases symbol' with
    | typeAlias node =>
      obtain rfl := TypeName.typeAlias.inj heq
      exact .typeAlias hid
    | _ => cases heq

theorem StandsFor.later {sources : Sources} {m : Module} {symbol : TypeName}
    (h : StandsFor m name arguments u symbol id) (hu : u.Sound sources) (huv : Later sources u v) :
    StandsFor m name arguments v symbol id := by
  cases h with
  | interface hid => exact .interface (hid.mono huv.grows)
  | typeAlias hid =>
    have hlater := hid.mono huv.grows
    obtain ⟨_, -, hlookup⟩ := hid
    rw [← aliased_later hu huv hlookup]
    exact .typeAlias hlater

theorem Undeclared.later {sources : Sources} (h : Undeclared u name arguments id)
    (hu : u.Sound sources) (ha : ∀ x ∈ arguments, u.Knows x) (huv : Later sources u v) :
    Undeclared v name arguments id := by
  unfold Undeclared at h ⊢
  split at h
  · exact huv.grows.interner _ _ h
  · exact huv.grows.interner _ _ h
  · rename_i keys value
    rw [literalKeys_later hu huv (ha keys List.mem_cons_self)]
    exact huv.grows.interner _ _ h
  · exact h

/-- What a name means stays what it is. -/
theorem Meant.later {sources : Sources} {m : Module} {meaning : Option Meaning}
    {out : Option TypeId} (h : Meant sources m name arguments u meaning out) (hu : u.Sound sources)
    (huv : Later sources u v) : Meant sources m name arguments v meaning out := by
  rcases meaning with _ | ⟨symbol, frames⟩ | _
  · exact h
  · simp only [Meant, Declared] at h ⊢
    split at h
    · obtain ⟨id, rfl, hid⟩ := h
      exact ⟨id, rfl, hid.later hu huv⟩
    · exact h
  · obtain ⟨id, rfl, hid⟩ := h
    exact ⟨id, rfl, huv.grows.interner _ _ hid⟩

/-- **What is declared under a name is what its binder says.** -/
theorem denotes_of_meant (h : (files.map fileKey).Nodup) {s : Surroundings} {binders : Binders}
    (hs : s.Holds (Sources.moduleOf files f) binders) (hget : s.get? name = none)
    {out : Option TypeId}
    (hmeant : Meant (Sources.ofFiles files) (Sources.moduleOf files f) name arguments u
      (s.frames.lookup (Sources.moduleOf files f).names.locals.types name) out)
    (hsome : ∀ x ∈ out, id = x) (hnone : out = none → Undeclared u name arguments id) :
    Denotes files f u name arguments (binders.lookup name) id := by
  rcases hs name with hunknown | hfound
  · rw [hunknown]
    trivial
  rw [← hfound, Surroundings.binder?, hget]
  dsimp only
  cases hlookup : s.frames.lookup (Sources.moduleOf files f).names.locals.types name with
  | none =>
    rw [hlookup] at hmeant
    exact hnone hmeant
  | some meaning =>
    rw [hlookup] at hmeant
    cases meaning with
    | parameter =>
      obtain ⟨x, rfl, hx⟩ := hmeant
      obtain rfl := hsome x rfl
      exact hx
    | declared symbol frames =>
      have hfollow := followType_ofFiles (f := f) h name symbol
      simp only [Meant, Declared] at hmeant
      simp only [Option.map_some, Meaning.binder, Denotes]
      cases hleads : leadsTo? files f name symbol.head with
      | none =>
        rw [hleads, Option.map_none, Option.map_eq_none_iff] at hfollow
        rw [hfollow] at hmeant
        exact hnone hmeant
      | some target =>
        obtain ⟨g, name', symbol'⟩ := target
        rw [hleads, Option.map_some, Option.map_eq_some_iff] at hfollow
        obtain ⟨⟨m', name'', symbol''⟩, hfollow, heq⟩ := hfollow
        obtain ⟨rfl, rfl, rfl⟩ :
            m' = Sources.moduleOf files g ∧ name'' = name' ∧ symbol''.head = symbol' := by
          simpa using heq
        rw [hfollow] at hmeant
        obtain ⟨x, rfl, hx⟩ := hmeant
        obtain rfl := hsome x rfl
        exact hx.head (TypeName.head_head _).symm

end Denotes

end TypeReify.Check
