/-!
# Node flags

Modifiers of a node (`export`, `declare`, `const`, optional, …) packed into one 16-bit word.

Model of `node_flags` and `has_flag`.

Results:
* `has_union`: a union of flags has a flag iff one of the two sides has it.
-/

namespace TypeReify.Syntax

/-- A set of node flags, one bit each. -/
structure Flags where
  bits : UInt16
  deriving DecidableEq, Repr

namespace Flags

def empty : Flags := ⟨0⟩

/-- `export` on a declaration. -/
def exported : Flags := ⟨1⟩

/-- `declare` on a declaration. -/
def ambient : Flags := ⟨2⟩

/-- A `const` statement. -/
def constant : Flags := ⟨4⟩

/-- A `let` statement. -/
def letBound : Flags := ⟨8⟩

/-- `?` after the name of a property or parameter. -/
def optional : Flags := ⟨16⟩

/-- `readonly` on a property. -/
def readonly : Flags := ⟨32⟩

/-- `import type`. -/
def typeOnly : Flags := ⟨64⟩

/-- Made by a rewrite and not by a reader of source text. -/
def synthesized : Flags := ⟨128⟩

/-- One element a line. -/
def multiLine : Flags := ⟨256⟩

def union (f g : Flags) : Flags := ⟨f.bits ||| g.bits⟩

/-- Some flag of `g` is set in `f`. -/
def has (f g : Flags) : Bool := f.bits &&& g.bits != 0

theorem has_union (f g h : Flags) : (f.union g).has h = (f.has h || g.has h) := by
  have key : ∀ a b c : BitVec 16,
      ((a ||| b) &&& c = 0#16) ↔ (a &&& c = 0#16) ∧ (b &&& c = 0#16) := by
    intro a b c
    constructor
    · intro h0
      constructor
      · ext i hi
        have := congrArg (fun v => v[i]) h0
        simp at this ⊢
        grind
      · ext i hi
        have := congrArg (fun v => v[i]) h0
        simp at this ⊢
        grind
    · rintro ⟨h1, h2⟩
      ext i hi
      have e1 := congrArg (fun v => v[i]) h1
      have e2 := congrArg (fun v => v[i]) h2
      simp at e1 e2 ⊢
      grind
  have hz : ∀ x : UInt16, (x != 0) = !decide (x.toBitVec = 0#16) := by
    intro x
    by_cases hx : x = 0
    · subst hx; rfl
    · have : x.toBitVec ≠ 0#16 := fun e => hx (UInt16.toBitVec_inj.1 e)
      simp [hx, this]
  have := key f.bits.toBitVec g.bits.toBitVec h.bits.toBitVec
  simp only [has, union, hz, UInt16.toBitVec_and, UInt16.toBitVec_or]
  by_cases a : f.bits.toBitVec &&& h.bits.toBitVec = 0#16 <;>
    by_cases b : g.bits.toBitVec &&& h.bits.toBitVec = 0#16 <;> simp_all

end Flags

end TypeReify.Syntax
