import Decaf.Token
import Decaf.TypeRef

namespace Decaf

/-!
# Expressions

An expression is a tree of nodes. Every node has a number; a node that is part of several
expressions has the same number in each of them. A tree that was not built to the end may lack
parts: what is `absent` was never given, and what is `hollow` was given but is empty. The difference
shows where a part may be left out, as the left operand of a negation.

* `Expr.parts` — the expressions that a node is made of, in the order in which they are looked at.
* `Expr.isLValue` — whether the expression denotes something that can be assigned to.
* `Expr.induction_parts` — what holds of a node whenever it holds of its parts holds of every
  expression.
-/

/-- The number of a node. -/
abbrev NodeId := Nat

/-- A written name. -/
structure Ident where
  name : String
  src : Origin
deriving DecidableEq, Repr

/-- The expressions without parts. -/
inductive Leaf where
  | int
  | double
  | bool
  | string
  | null
  /-- Stands where an expression may be left out. -/
  | empty
  | readInteger
  | readLine
  | this_
deriving DecidableEq, Repr

/-- The expressions made of an operator and its operands. -/
inductive Form where
  | arithmetic
  | relational
  | equality
  | logical
  | assignment
deriving DecidableEq, Repr

/-- Where the name of a field or of a method is looked for. -/
inductive Receiver (α : Type) where
  /-- In the class of an expression. -/
  | qualified (base : α)
  /-- In what surrounds the expression. -/
  | unqualified
  | hollow
  | absent
deriving Repr

/-- An expression. -/
inductive Expr where
  | absent
  | hollow
  | leaf (id : NodeId) (src : Origin) (kind : Leaf)
  /-- Operators with one or two operands; with one operand, there is nothing on the left. -/
  | compound (id : NodeId) (form : Form) (op : Option Token) (left right : Expr)
  /-- An element of an array. -/
  | index (id : NodeId) (src : Origin) (base subscript : Expr)
  /-- A field or a variable. -/
  | member (id : NodeId) (recv : Receiver Expr) (name : Option Ident)
  | call (id : NodeId) (recv : Receiver Expr) (name : Option Ident) (args : List Expr)
  | new (id : NodeId) (src : Origin) (cls : Option ClassRef)
  | newArray (id : NodeId) (src : Origin) (size : Expr) (elem : TypeRef)
  /-- An increment or decrement after its operand. -/
  | step (id : NodeId) (op : Option Token) (operand : Expr)

namespace Receiver

/-- The expression in whose class the name is looked for. -/
def parts {α : Type} : Receiver α → List α
  | qualified base => [base]
  | _ => []

end Receiver

namespace Expr

instance : Inhabited Expr := ⟨absent⟩

/-- The number of a node. -/
def id? : Expr → Option NodeId
  | absent | hollow => none
  | leaf id .. | compound id .. | index id .. | member id .. | call id .. | new id ..
  | newArray id .. | step id .. => some id

/-- Whether nothing was given. -/
def isAbsent : Expr → Bool
  | absent => true
  | _ => false

/-- Whether a compound has a right operand only. Other nodes are neither unary nor binary. -/
def isUnary? : Expr → Option Bool
  | compound _ _ _ left _ => some left.isAbsent
  | _ => none

/-- Whether there is no node. -/
def isMissing : Expr → Bool
  | absent | hollow => true
  | _ => false

/-- Whether the expression denotes something that can be assigned to. -/
def isLValue : Expr → Bool
  | leaf _ _ .this_ | index .. | member .. => true
  | _ => false

/-- The expressions that a node is made of, in the order in which they are looked at. -/
def parts : Expr → List Expr
  | compound _ _ _ left right => if left.isAbsent then [right] else [left, right]
  | index _ _ base subscript => [base, subscript]
  | member _ recv _ => recv.parts
  | call _ recv _ args => recv.parts ++ args
  | newArray _ _ size _ => [size]
  | step _ _ operand => [operand]
  | _ => []

/-- How the characteristic token of a node is written. -/
def literal? : Expr → Option String
  | absent | hollow => none
  | leaf _ src _ | index _ src _ _ | new _ src _ | newArray _ src _ _ => some src.literal
  | compound _ _ op _ _ | step _ op _ => op.map (·.literal)
  | member _ _ name | call _ _ name _ => name.map (·.src.literal)

/-- Where a node is reported to be: an operator with a left operand is where that operand is. -/
def pos? : Expr → Option Position
  | absent | hollow => none
  | leaf _ src _ | index _ src _ _ | new _ src _ | newArray _ src _ _ => some src.pos
  | compound _ _ op left _ => if left.isAbsent then op.map (·.pos) else left.pos?
  | member _ _ name | call _ _ name _ => name.map (·.src.pos)
  | step _ _ operand => operand.pos?

/-- Where a node is reported to be, if it is complete. -/
def pos (e : Expr) : Position :=
  e.pos?.getD .start

theorem sizeOf_lt_of_mem_recv {α : Type} [SizeOf α] {r : Receiver α} {a : α} (h : a ∈ r.parts) :
    sizeOf a < sizeOf r := by
  cases r with
  | qualified base =>
    rw [Receiver.qualified.sizeOf_spec, List.mem_singleton.1 h]
    omega
  | _ => cases h

theorem sizeOf_lt_of_mem_parts {e c : Expr} (h : c ∈ e.parts) : sizeOf c < sizeOf e := by
  cases e with
  | compound id form op left right =>
    -- an absent left operand is no part
    have h' : c = left ∨ c = right := by
      cases hl : left.isAbsent <;> simp [parts, hl] at h
      · exact h
      · exact .inr h
    rw [compound.sizeOf_spec]
    rcases h' with rfl | rfl <;> omega
  | index id src base subscript =>
    rw [index.sizeOf_spec]
    have h' : c = base ∨ c = subscript := by simpa [parts] using h
    rcases h' with rfl | rfl <;> omega
  | member id recv name =>
    rw [member.sizeOf_spec]
    have := sizeOf_lt_of_mem_recv h
    omega
  | call id recv name args =>
    rw [call.sizeOf_spec]
    rcases List.mem_append.1 h with h | h
    · have := sizeOf_lt_of_mem_recv h
      omega
    · have := List.sizeOf_lt_of_mem h
      omega
  | newArray id src size elem =>
    rw [newArray.sizeOf_spec, List.mem_singleton.1 h]
    omega
  | step id op operand =>
    rw [step.sizeOf_spec, List.mem_singleton.1 h]
    omega
  | _ => cases h

/-- **Induction over the parts.** -/
theorem induction_parts {P : Expr → Prop} (h : ∀ e, (∀ c ∈ e.parts, P c) → P e) (e : Expr) : P e :=
  h e fun c _hc => induction_parts h c
termination_by sizeOf e
decreasing_by exact sizeOf_lt_of_mem_parts _hc

end Expr

end Decaf
