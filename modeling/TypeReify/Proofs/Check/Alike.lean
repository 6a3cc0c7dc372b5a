import TypeReify.Proofs.Check.Adds
import TypeReify.Proofs.Types.Same

/-!
# States that say the same

Strict checking interns further types, those of the optional properties with `undefined`, so that
all later types are numbered otherwise. Two states are alike (`State.Alike`) if what the one says,
the other says of the same types.

The second state is the one that may say more. Of it, `State.Alike` also tells that every optional
property has its type with `undefined` recorded, if checking is strict there, and that every
declaration that a type mentions was entered.

The option in question is `strict_null_checks`, which `add_member` reads where it fills
`optional_types`, and `type_of_symbol_at_location` where it asks that table.

Results:
* `State.Alike.propertiesOf`: the same type has the same properties.
* `State.Alike.literalKeys`: the same type denotes the same keys.
-/

namespace TypeReify.Check

open Syntax Scope
open TypeReify.Types

/-- The ids stand for the same type. -/
abbrev SameType (st st' : State) : TypeId → TypeId → Prop := st.interner.Same st'.interner

/-! ## What is recorded -/

/-- The declarations of the property are entered and, if it is optional in strict checking, its type
with `undefined` is recorded. -/
structure Recorded (strict : Bool) (st : State) (p : Property) : Prop where
  declared : ∀ d ∈ p.declarations, d < st.sites.size
  widened : strict = true → p.optional = true → p.type ∈ st.widened

/-- All properties and declarations that the structure mentions are recorded, and no member of a
union is repeated. -/
def Founded (strict : Bool) (st : State) : Structure → Prop
  | .union members => members.Nodup
  | .object shape => ∀ p ∈ shape, Recorded strict st p
  | .interface _ declaration _ | .synonym _ declaration _ => declaration < st.sites.size
  | _ => True

/-- The properties are alike, and the second is recorded. -/
structure SameProperty (strict : Bool) (st st' : State) (p p' : Property) : Prop where
  alike : p.Alike (SameType st st') p'
  recorded : Recorded strict st' p'

/-- The keys are the same, of the same types. -/
def SameKeys (st st' : State) : List (String × TypeId) → List (String × TypeId) → Prop :=
  List.Forall₂ fun k k' => k'.1 = k.1 ∧ SameType st st' k.2 k'.2

/-- Two named types have come to the same. -/
inductive SameNamed (strict : Bool) (st st' : State) : Named → Named → Prop
  | members {shape shape' : Shape}
      (h : List.Forall₂ (SameProperty strict st st') shape shape') :
      SameNamed strict st st' (.members shape) (.members shape')
  | target {id id' : TypeId} (h : SameType st st' id id') :
      SameNamed strict st st' (.target id) (.target id')

/-- What `st` says, `st'` says of the same types. -/
structure State.Alike (strict : Bool) (st st' : State) : Prop where
  left : st.Distinct
  right : st'.Distinct
  sites : st'.sites = st.sites
  embeds : st.interner.Embeds st'.interner
  named : List.Forall₂ (fun x x' => SameType st st' x.1 x'.1 ∧ SameNamed strict st st' x.2 x'.2)
    st.named st'.named
  inProgress : List.Forall₂ (SameType st st') st.inProgress st'.inProgress
  founded : ∀ id s, st'.interner.lookup id = some s → Founded strict st' s
  widened : ∀ id wide : Nat, st'.widened[id]? = some wide →
    st'.Knows id ∧ st'.interner.union [id, TypeId.undefined] = (wide, st'.interner)

/-- The bindings are of the same types, and the frames are the same. -/
structure Surroundings.Alike (st st' : State) (s s' : Surroundings) : Prop where
  bindings : List.Forall₂ (fun b b' => b'.1 = b.1 ∧ SameType st st' b.2 b'.2) s.bindings s'.bindings
  frames : s'.frames = s.frames

theorem same_any (st st' : State) : SameType st st' TypeId.any TypeId.any :=
  .keyword _ _ (show TypeId.any < intrinsicNames.length by decide)

/-! ## What lasts -/

section Lasts

variable {strict : Bool} {st st' t t' : State} (hst : st.Within t) (hst' : st'.Within t')
include hst hst'

theorem SameType.mono {x x' : TypeId} (h : SameType st st' x x') : SameType t t' x x' :=
  Interner.Same.mono h hst.grows.interner hst'.grows.interner

omit hst in
theorem Recorded.mono {p : Property} (h : Recorded strict st' p) : Recorded strict t' p :=
  ⟨fun d hd => Nat.lt_of_lt_of_le (h.declared d hd) hst'.grows.size_le,
    fun hs ho => hst'.widened _ (h.widened hs ho)⟩

omit hst in
theorem Founded.mono {s : Structure} (h : Founded strict st' s) : Founded strict t' s := by
  cases s with
  | union members => exact h
  | object shape => exact fun p hp => (h p hp).mono hst'
  | interface _ _ _ | synonym _ _ _ => exact Nat.lt_of_lt_of_le h hst'.grows.size_le
  | _ => trivial

theorem SameProperty.mono {p p' : Property} (h : SameProperty strict st st' p p') :
    SameProperty strict t t' p p' :=
  ⟨h.alike.imp fun _ _ hx => hx.mono hst hst', h.recorded.mono hst'⟩

theorem sameProperties_mono {shape shape' : Shape}
    (h : List.Forall₂ (SameProperty strict st st') shape shape') :
    List.Forall₂ (SameProperty strict t t') shape shape' :=
  h.imp fun _ _ hp => hp.mono hst hst'

theorem sameTypes_mono {ids ids' : List TypeId} (h : List.Forall₂ (SameType st st') ids ids') :
    List.Forall₂ (SameType t t') ids ids' :=
  h.imp fun _ _ hx => hx.mono hst hst'

theorem SameNamed.mono {n n' : Named} (h : SameNamed strict st st' n n') :
    SameNamed strict t t' n n' := by
  cases h with
  | members h => exact .members (sameProperties_mono hst hst' h)
  | target h => exact .target (h.mono hst hst')

theorem Surroundings.Alike.mono {s s' : Surroundings} (h : s.Alike st st' s') : s.Alike t t' s' :=
  ⟨h.bindings.imp fun _ _ hb => ⟨hb.1, hb.2.mono hst hst'⟩, h.frames⟩

end Lasts

/-! ## Surroundings -/

namespace Surroundings.Alike

variable {st st' : State} {s s' : Surroundings}

theorem ofFrames (st st' : State) (frames : Frames) :
    (Surroundings.ofFrames frames).Alike st st' (.ofFrames frames) :=
  ⟨.nil, rfl⟩

theorem bind (h : s.Alike st st' s') (name : String) {x x' : TypeId} (hx : SameType st st' x x') :
    (s.bind name x).Alike st st' (s'.bind name x') :=
  ⟨.cons ⟨rfl, hx⟩ h.bindings, h.frames⟩

theorem get? (h : s.Alike st st' s') (name : String) :
    Option.Rel (SameType st st') (s.get? name) (s'.get? name) :=
  rel_lookup (K := fun k k' => k' = k) (fun _ _ hk => by rw [hk]) h.bindings

end Surroundings.Alike

/-! ## What alike states answer -/

section Answers

variable {strict : Bool} {st st' : State} (h : st.Alike strict st')
include h

theorem State.Alike.lookup {x x' : TypeId} (hx : SameType st st' x x') :
    Option.Rel (SameNamed strict st st') (st.named.lookup x) (st'.named.lookup x') :=
  rel_lookup (fun _ _ hk => hx.beq_eq h.left.types h.right.types hk) h.named

theorem State.Alike.shape? {x x' : TypeId} (hx : SameType st st' x x') :
    Option.Rel (List.Forall₂ (SameProperty strict st st')) (st.named.shape? x)
      (st'.named.shape? x') := by
  unfold NamedTypes.shape?
  rcases rel_cases (h.lookup hx) with ⟨hn, hn'⟩ | ⟨n, n', hn, hn', hsame⟩
  · rw [hn, hn']
    exact .none
  · rw [hn, hn']
    cases hsame with
    | members hshape => exact .some hshape
    | target _ => exact .none

theorem State.Alike.target? {x x' : TypeId} (hx : SameType st st' x x') :
    Option.Rel (SameType st st') (st.named.target? x) (st'.named.target? x') := by
  unfold NamedTypes.target?
  rcases rel_cases (h.lookup hx) with ⟨hn, hn'⟩ | ⟨n, n', hn, hn', hsame⟩
  · rw [hn, hn']
    exact .none
  · rw [hn, hn']
    cases hsame with
    | members _ => exact .none
    | target haim => exact .some haim

theorem State.Alike.contains_inProgress {x x' : TypeId} (hx : SameType st st' x x') :
    st.inProgress.contains x = st'.inProgress.contains x' :=
  hx.contains_eq h.left.types h.right.types h.inProgress

/-- **The same type has the same properties.** -/
theorem State.Alike.propertiesOf {x x' : TypeId} (hx : SameType st st' x x') :
    List.Forall₂ (SameProperty strict st st') (st.propertiesOf x) (st'.propertiesOf x') := by
  unfold State.propertiesOf
  generalize typeDepth = levels
  induction levels generalizing x x' with
  | zero => exact .nil
  | succ levels ih =>
    rcases hx.get?_cases with ⟨name, hn, hn'⟩ | ⟨s, s', hs, hs', alike⟩
    · rcases hn with hn | hn <;> rcases hn' with hn' | hn' <;>
        simp only [Check.propertiesOf, hn, hn', List.Forall₂.nil]
    · unfold Check.propertiesOf
      rw [hs, hs']
      have hlookup := Interner.lookup_of_get? hs'
      cases alike with
      | object hshape =>
        have hrecorded : ∀ p ∈ _, Recorded strict st' p := h.founded _ _ hlookup
        exact (forall₂_and_right hshape hrecorded).imp fun _ _ hp => ⟨hp.1, hp.2⟩
      | interface _ _ _ =>
        dsimp only
        rcases rel_cases (h.shape? hx) with ⟨hn, hn'⟩ | ⟨shape, shape', hn, hn', hshape⟩
        · rw [hn, hn']
          exact .nil
        · rw [hn, hn']
          exact hshape
      | synonym _ _ _ =>
        dsimp only
        rcases rel_cases (h.target? hx) with ⟨hn, hn'⟩ | ⟨aim, aim', hn, hn', haim⟩
        · rw [hn, hn']
          exact .nil
        · rw [hn, hn']
          exact ih haim
      | _ => exact .nil

omit h in
theorem literalKeys_add {text : String} {x x' : TypeId} (hx : SameType st st' x x')
    {found found' : List (String × TypeId)} (hfound : SameKeys st st' found found') :
    SameKeys st st' (if found.any (·.1 == text) then found else found ++ [(text, x)])
      (if found'.any (·.1 == text) then found' else found' ++ [(text, x')]) := by
  have hany : found.any (·.1 == text) = found'.any (·.1 == text) :=
    any_eq_of_forall₂ (fun _ _ hk => by rw [hk.1]) hfound
  rw [hany]
  split
  · exact hfound
  · exact List.rel_append hfound (.cons ⟨rfl, hx⟩ .nil)

/-- The same type denotes the same keys. -/
theorem State.Alike.literalKeys {x x' : TypeId} (hx : SameType st st' x x') :
    SameKeys st st' (st.literalKeys x) (st'.literalKeys x') := by
  unfold State.literalKeys
  generalize typeDepth = levels
  suffices hall : ∀ found found', SameKeys st st' found found' →
      SameKeys st st' (Check.literalKeys st.interner st.named levels found x)
        (Check.literalKeys st'.interner st'.named levels found' x') from hall [] [] .nil
  induction levels generalizing x x' with
  | zero => exact fun _ _ hfound => hfound
  | succ levels ih =>
    intro found found' hfound
    rcases hx.get?_cases with ⟨name, hn, hn'⟩ | ⟨s, s', hs, hs', alike⟩
    · rcases hn with hn | hn <;> rcases hn' with hn' | hn' <;>
        simpa only [Check.literalKeys, hn, hn'] using hfound
    · unfold Check.literalKeys
      rw [hs, hs']
      cases alike with
      | literal value =>
        cases value with
        | string text => exact literalKeys_add hx hfound
        | number text => exact literalKeys_add hx hfound
        | boolean _ => exact hfound
      | union hmembers =>
        dsimp only
        clear hs hs'
        induction hmembers generalizing found found' with
        | nil => exact hfound
        | cons hy _ ihs => exact ihs _ _ (ih hy _ _ hfound)
      | synonym _ _ _ =>
        dsimp only
        rcases rel_cases (h.target? hx) with ⟨hn, hn'⟩ | ⟨aim, aim', hn, hn', haim⟩
        · rw [hn, hn']
          exact hfound
        · rw [hn, hn']
          exact ih haim _ _ hfound
      | _ => exact hfound

end Answers

end TypeReify.Check
