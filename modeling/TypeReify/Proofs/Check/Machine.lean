import TypeReify.Program

/-!
# The checker with its counters

The checker counts how deep it is in type nodes and in `extends` clauses. It counts up before it
goes on to a type, counts down again behind it, and gives up where a counter has come to its limit.
The functions that work out types have no counters: they are told how many levels are left. What
they do with one node is the same in every monad that has the actions of the checker. Here it is a
machine that has the counters too, and that logs what they come to, what is in progress when a type
is begun and when it is worked out, and the same before and after every node of a walk.

The recursion of the machine is on fuel: working out a type takes one more than the types inside it.
An action that runs out of fuel has no result.

`resolving` stands around `resolve_type` and `passing` around `walk_node`; `counting` is what
`resolve_type` does with `depth`, and `instantiate_interface` with `heritage_depth`.

Results:
* `Counted.resolve`: working out a type with counters.
* `Counted.checkFiles`: checking files with counters.
-/

namespace TypeReify.Check

open Syntax Scope
open TypeReify.Types

/-! ## The machine -/

/-- How deep the checker is, in type nodes and in `extends` clauses. -/
structure Counters where
  depth : Nat
  heritage : Nat
  deriving DecidableEq, Repr

namespace Counters

def zero : Counters := ⟨0, 0⟩

def deeper (k : Counters) : Counters := { k with depth := k.depth + 1 }

def shallower (k : Counters) : Counters := { k with depth := k.depth - 1 }

def extended (k : Counters) : Counters := { k with heritage := k.heritage + 1 }

def reduced (k : Counters) : Counters := { k with heritage := k.heritage - 1 }

@[simp] theorem shallower_deeper (k : Counters) : k.deeper.shallower = k := rfl

@[simp] theorem reduced_extended (k : Counters) : k.extended.reduced = k := rfl

/-- Neither counter is beyond its limit. -/
structure Within (k : Counters) : Prop where
  depth : k.depth ≤ typeDepth
  heritage : k.heritage ≤ heritageDepth

theorem within_zero : zero.Within := ⟨Nat.zero_le _, Nat.zero_le _⟩

end Counters

/-- What the checker is in the middle of. -/
structure Snapshot where
  counters : Counters
  inProgress : List TypeId
  deriving DecidableEq, Repr

inductive Event
  /-- A counter has changed. -/
  | counted (counters : Counters)
  /-- A type was worked out. -/
  | resolved (before after : Snapshot)
  /-- A node of a walk comes, or is behind. -/
  | passed (now : Snapshot)
  deriving DecidableEq, Repr

structure Machine where
  state : State
  counters : Counters
  /-- The last event first. -/
  log : List Event

namespace Machine

/-- Nothing is checked so far. -/
def idle : Machine := ⟨.empty, .zero, []⟩

def snapshot (k : Machine) : Snapshot := ⟨k.counters, k.state.inProgress⟩

end Machine

/-- An action of the machine. It has no result where it runs out of fuel. -/
abbrev Running := StateT Machine Option

/-- An action of the checker changes no counter. -/
instance : MonadLift Checking Running where
  monadLift act := fun k =>
    let (x, state) := act k.state
    some (x, { k with state })

namespace Counted

def note (event : Event) : Running Unit := modify fun k => { k with log := event :: k.log }

def count (counters : Counters) : Running Unit := do
  modify fun k => { k with counters }
  note (.counted counters)

section

variable {α : Type}

/-- Counts up before the action, and down behind it. -/
def counting (up down : Counters → Counters) (act : Running α) : Running α := do
  count (up (← get).counters)
  let x ← act
  count (down (← get).counters)
  return x

/-- Logs what the checker is in the middle of before the action and behind it. -/
def resolving (act : Running α) : Running α := do
  let before := (← get).snapshot
  let x ← act
  note (.resolved before (← get).snapshot)
  return x

/-- Logs the same for a node of a walk. -/
def passing (act : Running α) : Running α := do
  note (.passed (← get).snapshot)
  let x ← act
  note (.passed (← get).snapshot)
  return x

end

/-! ## Types and files -/

/-- The types that the `extends` clauses of an interface name, as many of them as the counter
allows.
-/
def baseTypes (resolve : ResolveIn Running) (m : Module) (name : String) (s : Surroundings) :
    List Ref → Running (List TypeId)
  | [] => return []
  | clause :: clauses => do
    if heritageDepth ≤ (← get).counters.heritage then
      warn (.heritageDepth name)
      return []
    let base ← counting .extended .reduced (resolve m s clause)
    return base :: (← baseTypes resolve m name s clauses)

/-- A type node that lies too deep. -/
def tooDeep (m : Module) (r : Ref) : Checking TypeId := do
  if r.isSome then
    warn (.typeDepth m.key)
  return TypeId.any

section

variable (strict : Bool) (sources : Sources)

/-- The type of a node, at most as deep as the counter allows. -/
def resolve : (fuel : Nat) → ResolveIn Running
  | 0 => fun _ _ _ => failure
  | fuel + 1 => fun m s r => resolving do
    if typeDepth ≤ (← get).counters.depth then
      tooDeep m r
    else
      let inner := resolve fuel
      counting .deeper .shallower (nodeType strict inner sources (baseTypes inner) m s r)

variable (fuel : Nat) (m : Module)

def walkFile : (levels : Nat) → Scopes → Facts → NodeId → Running Facts
  | 0, _, facts, _ => return facts
  | levels + 1, scopes, facts, node =>
    passing (walkNode (resolve strict sources fuel) sources m (walkFile levels) scopes facts node)

def fileFacts : Running Facts := rootFacts m (walkFile strict sources fuel m)

/-- Checks the files one after the other. -/
def checkFiles : List Module → Running (List (String × Facts)) :=
  factsOf (fileFacts strict sources fuel)

end

end Counted

end TypeReify.Check
