import Decaf.Diagnostic
import Decaf.Ty

namespace Decaf

/-!
# What typing has to say

Typing an expression leaves a record: complaints about the program, and notes on how names were
resolved. The diagnostics and the trace are two views of that record.

* `Complaint` — a mistake in the program, with its kind, its message and the types it is about.
* `Finding.diagnostic` — a complaint at a place.
* `Event.text` — the line of the trace that tells of an event.
-/

/-- A mistake in an expression. Operators are given as they are written. -/
inductive Complaint where
  | incompatibleOperand (op : String) (right : Ty)
  | incompatibleOperands (left : Ty) (op : String) (right : Ty)
  | badTarget (left : Ty)
  | thisOutsideClass
  | badSubscript (subscript : Ty)
  | notAnArray (base : Ty)
  | notAClass (base : Ty) (member : String)
  | undeclaredClassOf (base : Ty)
  | undeclaredClass (name : String)
  | noSuchField (base : Ty) (field : String)
  | undeclaredVariable (name : String)
  | noSuchMethod (base : Ty) (method : String)
  | undeclaredFunction (name : String)
  | wrongCount (name : String) (expected given : Nat)
  /-- Arguments count from one. -/
  | badArgument (index : Nat) (given expected : Ty)
  | badSize (size : Ty)
  | badElement (elem : Ty)
  | notAVariable (op : String) (operand : Ty)
  | badStep (operand : Ty) (op : String)
deriving DecidableEq, Repr

namespace Complaint

/-- The kind of the mistake. -/
def kind : Complaint → Diagnostic.Kind
  | incompatibleOperand .. | incompatibleOperands .. | badTarget _ | badSubscript _ | badSize _
  | badElement _ | notAVariable .. | badStep .. => .typeMismatch
  | thisOutsideClass => .invalidThisContext
  | notAnArray _ => .notAnArray
  | notAClass .. => .notAClass
  | undeclaredClassOf _ | undeclaredClass _ => .undeclaredClass
  | noSuchField .. => .undeclaredField
  | undeclaredVariable _ => .undeclaredIdentifier
  | noSuchMethod .. | undeclaredFunction _ => .undeclaredMethod
  | wrongCount .. => .wrongArgumentCount
  | badArgument .. => .argumentTypeMismatch

/-- What there is to say about the mistake. -/
def message : Complaint → String
  | incompatibleOperand op right => s!"Incompatible operand: {op} {right.name}"
  | incompatibleOperands left op right => s!"Incompatible operands: {left.name} {op} {right.name}"
  | badTarget left => s!"Invalid assignment target of type {left.name}"
  | thisOutsideClass => "'this' is only valid within class scope"
  | badSubscript subscript => s!"Array subscript must be an integer, not {subscript.name}"
  | notAnArray base => s!"[] can only be applied to arrays, not {base.name}"
  | notAClass base member => s!"{base.name} is not a class type and has no member '{member}'"
  | undeclaredClassOf base => s!"No declaration found for class '{base.name}'"
  | undeclaredClass name => s!"No declaration found for class '{name}'"
  | noSuchField base field => s!"{base.name} has no such field '{field}'"
  | undeclaredVariable name => s!"No declaration found for variable '{name}'"
  | noSuchMethod base method => s!"{base.name} has no such method '{method}'"
  | undeclaredFunction name => s!"No declaration found for function '{name}'"
  | wrongCount name expected given =>
    s!"Function '{name}' expects {expected} arguments but {given} given"
  | badArgument index given expected =>
    s!"Incompatible argument {index}: {given.name} given, {expected.name} expected"
  | badSize size => s!"Size for NewArray must be an integer, not {size.name}"
  | badElement elem => s!"Array elements cannot have type {elem.name}"
  | notAVariable op _ => s!"Operand of {op} must be a variable"
  | badStep operand op => s!"Incompatible operand: {operand.name} {op}"

/-- The types that do not fit. -/
def types : Complaint → List Ty
  | incompatibleOperand _ right => [right]
  | incompatibleOperands left _ right => [left, right]
  | badTarget left => [left]
  | badSubscript subscript => [subscript]
  | notAnArray base | notAClass base _ | undeclaredClassOf base | noSuchField base _
  | noSuchMethod base _ => [base]
  | badArgument _ given expected => [given, expected]
  | badSize size => [size]
  | badElement elem => [elem]
  | notAVariable _ operand | badStep operand _ => [operand]
  | thisOutsideClass | undeclaredClass _ | undeclaredVariable _ | undeclaredFunction _
  | wrongCount .. => []

end Complaint

/-- A mistake at a place. -/
structure Finding where
  pos : Position
  complaint : Complaint
deriving DecidableEq, Repr

/-- The diagnostic that reports a mistake. -/
def Finding.diagnostic (f : Finding) : Diagnostic :=
  ⟨f.complaint.kind, f.pos, f.complaint.message, f.complaint.types.map Ty.name⟩

/-- Something that happens while expressions are typed. -/
inductive Event where
  | found (finding : Finding)
  /-- A field was found; `base` says in what. -/
  | fieldResolved (base field : String) (type : Option Ty)
  /-- A method was found, declared by the class `owner`; `base` says in what. -/
  | callResolved (base method owner : String)
  | validating
  | analyzing (body : String)
deriving DecidableEq, Repr

namespace Event

/-- The mistake that an event is about. -/
def finding? : Event → Option Finding
  | found f => some f
  | _ => none

/-- The line of the trace that tells of an event. -/
def text : Event → String
  | found f => s!"{f.complaint.kind.name}: {f.diagnostic.text}"
  | fieldResolved base field type => s!"field {base}.{field}: {typeText type}"
  | callResolved base method owner => s!"call {base}.{method} resolved in {owner}"
  | validating => "=== Validating class hierarchy ==="
  | analyzing body => s!"Analyzing {body}"

end Event

/-- A line of a trace, ended by a newline unless it already ends in one. -/
def traceLine (line : String) : String :=
  if line.toList.getLast? = some '\n' then line else line ++ "\n"

end Decaf
