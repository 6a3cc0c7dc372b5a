import TypeReify.Proofs.Syntax.Visit
import TypeReify.Syntax.Print

/-!
# How a text begins

A statement that begins with an opening brace reads as a block, and so does the body of an arrow
function. Whether an expression begins with a brace is settled at its leftmost node: a call, a
property access or an operation begins with its first child, and no other expression begins with a
child.

This is about `emit_node_kind`, `emit_statement` and `emit_block`.

Results:
* `braced_nodeText_of_lead?`: a node that leads with a child begins with a brace just if the child
  does.
* `braced_nodeText_of_primary`: of the others, object literals do.
* `print_eq_intro_body`: an arrow function is written as its head before its body.
* `BlockOf.braced_of_print_eq`: only a body that begins with a brace is written like a block.
-/

namespace TypeReify.Syntax

/-- The text begins with an opening brace. -/
def Braced (text : String) : Prop := text.toList.head? = some '\x7b'

instance (text : String) : Decidable (Braced text) :=
  inferInstanceAs (Decidable (text.toList.head? = some '\x7b'))

/-- A text that goes on, not with a brace, begins as it did. -/
theorem braced_append {s t : String} (h : ¬ Braced t) : Braced (s ++ t) ↔ Braced s := by
  unfold Braced at h ⊢
  rw [String.toList_append]
  cases s.toList with
  | nil => simpa using h
  | cons _ _ => rfl

theorem braced_append_of_ne {s : String} (h : s ≠ "") (t : String) :
    Braced (s ++ t) ↔ Braced s := by
  unfold Braced
  rw [String.toList_append]
  cases hs : s.toList with
  | nil => exact absurd (String.toList_eq_nil_iff.1 hs) h
  | cons _ _ => rfl

namespace Payload

variable {α β : Type}

/-- The child whose text comes first, in a call, a property access or an operation. -/
def lead? : Payload α → Option α
  | .call callee _ _ => some callee
  | .access object _ => some object
  | .binary left _ _ => some left
  | _ => none

/-- The other expressions: names, literals, parentheses and functions. -/
def Primary : Payload α → Prop
  | .identifier _ | .literal _ | .elements _ | .parenthesized _ | .function .. => True
  | _ => False

/-- The text of such an expression begins with a brace: an object literal, or a name or number that
is spelled so. -/
def OpensBrace (h : Header) : Payload α → Prop
  | .identifier text => Braced text
  | .literal text => Braced (Arena.literalText h text)
  | .elements _ => h.kind = .form .objectLiteral
  | _ => False

theorem lead?_map (f : α → β) (p : Payload α) : (p.map f).lead? = p.lead?.map f := by
  cases p <;> rfl

theorem lead?_image (f : Ref → Image) (p : Payload Ref) :
    (p.image f).lead? = p.lead?.map fun r => (f r).slot := by
  cases p <;> rfl

theorem primary_of_image {f : Ref → Image} {g : Ref → Option Tree} {p q : Payload Ref}
    (h : q.map g = p.image f) (hp : p.Primary) : q.Primary := by
  have hmap : (q.map g).Primary := by
    rw [h]
    cases p <;> exact hp
  cases q <;> exact hmap

theorem opensBrace_of_image {f : Ref → Image} {g : Ref → Option Tree} {p q : Payload Ref}
    (h : q.map g = p.image f) {hd hd' : Header} (hk : hd'.kind = hd.kind) :
    q.OpensBrace hd' ↔ p.OpensBrace hd := by
  have hmap : (q.map g).OpensBrace hd' ↔ (p.image f).OpensBrace hd' := by rw [h]
  have hq : (q.map g).OpensBrace hd' ↔ q.OpensBrace hd' := by cases q <;> exact Iff.rfl
  have hp : (p.image f).OpensBrace hd' ↔ p.OpensBrace hd := by
    cases p <;> simp only [OpensBrace, Arena.literalText, ← hk] <;> exact Iff.rfl
  rw [← hq, hmap, hp]

theorem mem_children_of_lead? {p : Payload α} {c : α} (h : p.lead? = some c) : c ∈ p.children := by
  cases p <;> cases h <;> simp [children]

end Payload

namespace Arena

variable {a : Arena} {inner : (indent : Nat) → Ref → String} {indent : Nat}

theorem print_of_content? {r : Ref} {h : Header} {p : Payload Ref} (hr : a.content? r = some (h, p))
    (levels indent : Nat) :
    a.print (levels + 1) indent r = a.nodeText (a.print levels) indent h p := by
  obtain ⟨hh, hp⟩ := content?_eq_some.1 hr
  simp only [print, hh, hp]

theorem not_braced_bareText (h : Header) : ¬ Braced (bareText h) := by
  have hmodifiers : ¬ Braced (modifiers h) := by
    unfold modifiers flagText
    split <;> split <;> decide
  unfold bareText
  split
  · rename_i t _
    cases t <;> decide
  all_goals first | exact hmodifiers | decide

theorem not_braced_parameterList (rs : List Ref) : ¬ Braced (parameterList inner indent rs) := by
  simp [Braced, parameterList]

theorem not_braced_typeList (rs : Option (List Ref)) : ¬ Braced (typeList inner indent rs) := by
  cases rs with
  | none => simp [Braced, typeList]
  | some rs => simp [Braced, typeList]

/-- A node that leads with a child begins with a brace just if the child does. -/
theorem braced_nodeText_of_lead? {p : Payload Ref} {c : Ref} (hc : p.lead? = some c) (h : Header) :
    Braced (a.nodeText inner indent h p) ↔ Braced (inner indent c) := by
  cases p with
  | call callee types arguments =>
    obtain rfl := Option.some.inj hc
    rw [nodeText, braced_append (not_braced_parameterList arguments),
      braced_append (not_braced_typeList types)]
  | access object name =>
    obtain rfl := Option.some.inj hc
    rw [nodeText, String.append_assoc]
    exact braced_append (by simp [Braced])
  | binary left operator right =>
    obtain rfl := Option.some.inj hc
    simp only [nodeText, String.append_assoc]
    exact braced_append (by simp [Braced])
  | _ => exact absurd hc.symm (Option.some_ne_none _)

theorem braced_bracketed {left : String} (hl : left ≠ "") (right padding : String) (h : Header)
    (items : List Ref) :
    Braced (bracketed inner indent left right padding h items) ↔ Braced left := by
  unfold bracketed
  split
  · exact braced_append_of_ne hl _
  · split <;> simp only [String.append_assoc] <;> exact braced_append_of_ne hl _

/-- Of the other expressions, object literals begin with a brace. -/
theorem braced_nodeText_of_primary {p : Payload Ref} (hp : p.Primary) (h : Header) :
    Braced (a.nodeText inner indent h p) ↔ p.OpensBrace h := by
  cases p with
  | identifier _ | literal _ => rfl
  | elements items =>
    rw [nodeText, Payload.OpensBrace]
    split
    · rename_i hk
      exact (braced_bracketed (by decide) _ _ _ _).trans (iff_of_true (by decide) hk)
    · rename_i hk
      exact (braced_bracketed (by decide) _ _ _ _).trans (iff_of_false (by decide) hk)
  | parenthesized e => simp [Braced, nodeText, Payload.OpensBrace]
  | function name types parameters result body =>
    refine iff_of_false ?_ id
    rw [nodeText]
    split
    · simp [Braced, parameterList]
    · unfold modifiers flagText
      split <;> split <;> simp [Braced]
  | _ => exact absurd hp id

theorem braced_block (h : Header) (statements : List Ref) :
    Braced (a.nodeText inner indent h (.block statements)) := by
  rw [nodeText]
  split
  · decide
  · simp [Braced]

/-! ## Heads and bodies -/

/-- What is written of an arrow function up to its body. -/
def introText (inner : (indent : Nat) → Ref → String) (indent : Nat) : Payload Ref → String
  | .function _ _ parameters result _ =>
    parameterList inner indent parameters ++ typeAscription inner indent result ++ " => "
  | _ => ""

/-- What is written from there on; an expression statement is written as its body. -/
def bodyText (a : Arena) (inner : (indent : Nat) → Ref → String) (indent : Nat) :
    Payload Ref → String
  | .function _ _ _ _ body => a.arrowBody inner indent body
  | .expressionStatement e => inner indent e ++ ";"
  | _ => ""

/-- **The expression `e` is the body of `s`**: of an expression statement, or of an arrow function,
where it may stand as a statement. -/
inductive BodyOf (a : Arena) (s e : NodeId) : Prop
  | statement {h : Header} (hk : h.kind = .form .expressionStatement)
      (hs : a.content? (some s) = some (h, .expressionStatement (some e)))
  | arrow {h : Header} {name : Ref} {types : Option (List Ref)} {parameters : List Ref}
      {result : Ref}
      (hk : h.kind = .form .arrowFunction)
      (hs : a.content? (some s) = some (h, .function name types parameters result (some e)))
  | arrowStatement {h h' : Header} {name : Ref} {types : Option (List Ref)} {parameters : List Ref}
      {result : Ref} {body : NodeId} (hk : h.kind = .form .arrowFunction)
      (hs : a.content? (some s) = some (h, .function name types parameters result (some body)))
      (hb : a.content? (some body) = some (h', .expressionStatement (some e)))

theorem BodyOf.content? {s e : NodeId} (h : BodyOf a s e) :
    ∃ hd p, a.content? (some s) = some (hd, p) ∧ p.pool ≠ .calls ∧ p.pool ≠ .imports := by
  cases h with
  | statement _ hs => exact ⟨_, _, hs, by simp [Payload.pool]⟩
  | arrow _ hs => exact ⟨_, _, hs, by simp [Payload.pool]⟩
  | arrowStatement _ hs _ => exact ⟨_, _, hs, by simp [Payload.pool]⟩

/-- An arrow function with a block for its body. -/
inductive BlockOf (a : Arena) (s : NodeId) : Payload Ref → Prop
  | intro {h h' : Header} {name : Ref} {types : Option (List Ref)} {parameters : List Ref}
      {result : Ref}
      {body : NodeId} {statements : List Ref} (hk : h.kind = .form .arrowFunction)
      (hs : a.content? (some s) = some (h, .function name types parameters result (some body)))
      (hb : a.content? (some body) = some (h', .block statements)) :
      BlockOf a s (.function name types parameters result (some body))

/-- The text of an expression statement or arrow function is its head before its body. -/
theorem print_eq_intro_body {s : NodeId} {h : Header} {p : Payload Ref}
    (hs : a.content? (some s) = some (h, p))
    (hk : h.kind = .form .expressionStatement ∨ h.kind = .form .arrowFunction)
      (levels indent : Nat) :
    a.print (levels + 1) indent (some s) =
      introText (a.print levels) indent p ++ a.bodyText (a.print levels) indent p := by
  rw [print_of_content? hs]
  have hpool := pool_of_content? hs
  rcases hk with hk | hk
  · rw [hk] at hpool
    cases p <;> cases hpool
    simp [nodeText, introText, bodyText, hk]
  · rw [hk] at hpool
    cases p <;> cases hpool
    rw [nodeText, if_pos hk, introText, bodyText]

/-- A block begins with a brace. -/
theorem BlockOf.braced {s : NodeId} {p : Payload Ref} (h : BlockOf a s p) (levels indent : Nat) :
    Braced (a.bodyText (a.print (levels + 1)) indent p) := by
  obtain ⟨-, -, hb⟩ := h
  rw [bodyText, arrowBody, hb]
  dsimp only
  rw [print_of_content? hb]
  exact braced_block _ _

/-- So what is written like it, with the same head, has a body that begins with a brace. -/
theorem BlockOf.braced_of_print_eq {b : Arena} {s : NodeId} {p q : Payload Ref} (h : BlockOf a s p)
    {levels levels' indent indent' : Nat} {body : String}
    (hintro : introText (a.print (levels + 1)) indent p = introText (b.print levels') indent' q)
    (heq : a.print (levels + 2) indent (some s) = introText (b.print levels') indent' q ++ body) :
    Braced body := by
  have hbraced := h.braced levels indent
  obtain ⟨hk, hs, -⟩ := h
  rw [print_eq_intro_body hs (.inr hk), hintro] at heq
  have hbody := congrArg String.toList heq
  rw [String.toList_append, String.toList_append] at hbody
  unfold Braced at hbraced ⊢
  rwa [← List.append_cancel_left hbody]

end Arena

end TypeReify.Syntax
