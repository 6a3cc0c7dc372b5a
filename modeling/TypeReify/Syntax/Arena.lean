import TypeReify.Syntax.Flags
import TypeReify.Syntax.Payload

/-!
# The syntax arena

A tree is stored as an arena: an array of node headers, and for each pool an array of payloads. A
header names its payload by a position in the pool of its kind. Arenas only grow: a pass that needs
another node appends one, so every reference handed out keeps its meaning.

* `Ref` is what a payload holds of a child: a node's position, or nothing for an empty slot.
* `content?` looks a reference up: the header, and the payload its kind and position select.
* `push` appends a payload with a fresh header; `pushHeader` appends a bare header.

Model of `NodeArena` with the readers of `NodeAccess` (`kind`, `get_identifier_text`,
`get_literal_text`, `get_name_text`, `get_children`), and of `push_rebuilt`.

Results:
* `fits` (part of the type): a pool only holds payloads of its own shape.
* `entries_addPayload`: adding a payload appends to its pool and leaves the others alone.
* `pool_of_payload?`: the payload of a header is of the shape its kind calls for.

Out of scope: the width of indices, which the source keeps in 32 bits.
-/

namespace TypeReify.Syntax

/-- The position of a node header. -/
abbrev NodeId := Nat

/-- A child slot: a node, or nothing. -/
abbrev Ref := Option NodeId

/-- The fixed part of a node. -/
structure Header where
  kind : Kind
  flags : Flags
  /-- Where the node begins in its source text. -/
  start : Nat
  /-- Where the node ends in its source text. -/
  stop : Nat
  /-- The position of the payload in the pool of `kind`. -/
  data : Option Nat
  deriving DecidableEq, Repr

namespace Header

/-- A node that was not read from a source text. -/
def fresh (kind : Kind) (data : Option Nat) : Header := ⟨kind, .empty, 0, 0, data⟩

def has (h : Header) (f : Flags) : Bool := h.flags.has f

end Header

/-- Node headers and payload pools. -/
structure Arena where
  headers : Array Header
  pools : Vector (Array (Payload Ref)) Pool.count
  fits : ∀ (p : Pool), ∀ x ∈ pools[p.index], x.pool = p

namespace Arena

def empty : Arena where
  headers := #[]
  pools := Vector.replicate Pool.count #[]
  fits := by intro p x h; simp at h

instance : Inhabited Arena := ⟨empty⟩

/-- The payloads of one pool. -/
def entries (a : Arena) (p : Pool) : Array (Payload Ref) := a.pools[p.index]

def size (a : Arena) : Nat := a.headers.size

/-! ## Looking up -/

def header? (a : Arena) (r : Ref) : Option Header := r.bind (a.headers[·]?)

/-- The payload a header selects, if its kind has a pool and its position lies inside. -/
def payload? (a : Arena) (h : Header) : Option (Payload Ref) := do
  (a.entries (← h.kind.pool?))[← h.data]?

/-- The header of a node with the payload that it names. -/
def content? (a : Arena) (r : Ref) : Option (Header × Payload Ref) := do
  let h ← a.header? r
  return (h, ← a.payload? h)

def kind? (a : Arena) (r : Ref) : Option Kind := (a.header? r).map (·.kind)

def identifierText? (a : Arena) (r : Ref) : Option String :=
  match a.content? r with
  | some (_, .identifier text) => some text
  | _ => none

def literalText? (a : Arena) (r : Ref) : Option String :=
  match a.content? r with
  | some (_, .literal text) => some text
  | _ => none

/-- The text of an identifier or literal used as a name. -/
def nameText? (a : Arena) (r : Ref) : Option String :=
  (a.identifierText? r).or (a.literalText? r)

/-- The nodes below a node, in source order and without empty slots. -/
def childrenOf (a : Arena) (r : Ref) : List NodeId :=
  match a.content? r with
  | some (_, p) => p.children.filterMap id
  | none => []

/-! ## Growing -/

/-- Appends a payload to its pool and returns its position there. -/
def addPayload (a : Arena) (x : Payload Ref) : Nat × Arena :=
  let i := x.pool.index
  (a.pools[i].size,
    { a with
      pools := ⟨a.pools.toArray.modify i (·.push x), by simp⟩
      fits := by
        intro p y hy
        simp only [Fin.getElem_fin, Vector.getElem_mk, Array.getElem_modify] at hy
        split at hy
        · rename_i h
          have hp : x.pool = p := Pool.index_inj.1 (Fin.ext h)
          rcases Array.mem_push.1 hy with h' | h'
          · exact a.fits p y (by simpa using h')
          · rw [h', hp]
        · exact a.fits p y (by simpa using hy) })

def pushHeader (a : Arena) (h : Header) : NodeId × Arena :=
  (a.size, { a with headers := a.headers.push h })

/-- Appends a node of kind `kind` with payload `x`. -/
def push (a : Arena) (kind : Kind) (x : Payload Ref) : NodeId × Arena :=
  let (data, a) := a.addPayload x
  a.pushHeader (.fresh kind data)

/-- Appends a copy of a header over a new payload. -/
def pushRebuilt (a : Arena) (h : Header) (x : Payload Ref) : NodeId × Arena :=
  let (data, a) := a.addPayload x
  a.pushHeader { h with data }

/-- Sets flags of a node. -/
def addFlags (a : Arena) (r : Ref) (f : Flags) : Arena :=
  match r with
  | none => a
  | some i => { a with headers := a.headers.modify i fun h => { h with flags := h.flags.union f } }

/-- Records where a node stands in its source text. -/
def setRange (a : Arena) (r : Ref) (start stop : Nat) : Arena :=
  match r with
  | none => a
  | some i => { a with headers := a.headers.modify i fun h => { h with start, stop } }

/-! ## What growing does to the pools -/

theorem entries_addPayload (a : Arena) (x : Payload Ref) (p : Pool) :
    (a.addPayload x).2.entries p = if x.pool = p then (a.entries p).push x else a.entries p := by
  simp only [addPayload, entries, Fin.getElem_fin, Vector.getElem_mk, Array.getElem_modify]
  by_cases h : x.pool = p
  · subst h; simp
  · have : ¬(x.pool.index : Nat) = (p.index : Nat) := fun e => h (Pool.index_inj.1 (Fin.ext e))
    simp [h, this]

theorem pool_of_payload? {a : Arena} {h : Header} {x : Payload Ref} (hx : a.payload? h = some x) :
    h.kind.pool? = some x.pool := by
  unfold payload? at hx
  cases hk : h.kind.pool? with
  | none => simp [hk] at hx
  | some p =>
    cases hd : h.data with
    | none => simp [hk, hd] at hx
    | some i =>
      simp only [hk, hd, Option.bind_eq_bind, Option.bind_some] at hx
      rw [a.fits p x (Array.mem_of_getElem? hx)]

end Arena

end TypeReify.Syntax
