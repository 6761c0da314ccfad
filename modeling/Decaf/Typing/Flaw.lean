import Decaf.Expr
import Decaf.Text.Quoted

namespace Decaf

/-!
# Malformed expressions

An expression that lacks a part, or has an operator that does not belong to it, cannot be typed.
That is no mistake of the program but of whoever built the tree, and it is found without looking at
any declaration.

* `Flaw` — what is wrong, with its `message`.
* `Expr.flaw?` — what is wrong with a node itself, its parts apart.
-/

/-- The two uses of a member's name. -/
inductive Access where
  | field
  | call
deriving DecidableEq, Repr

/-- What the use is called. -/
def Access.name : Access → String
  | field => "field access"
  | call => "call"

/-- What is wrong with an expression that cannot be typed. -/
inductive Flaw where
  | missingExpression
  | noOperator (node : String)
  | foreignOperator (op node : String)
  | noLeftOperand (node : String)
  | noRightOperand (node : String)
  | incompleteIndex
  | namelessAccess (use : Access)
  | hollowReceiver (use : Access)
  | noReceiver (use : Access)
  | noBase (use : Access)
  | namelessNew
  | noSize
  | missingType
  | unknownPrimitive (keyword : String)
  | namelessType
  | noOperand
deriving DecidableEq, Repr

/-- What there is to say about it. -/
def Flaw.message : Flaw → String
  | missingExpression => "missing expression"
  | noOperator node => s!"{node} without operator"
  | foreignOperator op node => s!"operator {Text.quote op} is not valid in {node}"
  | noLeftOperand node => s!"{node} without left operand"
  | noRightOperand node => s!"{node} without right operand"
  | incompleteIndex => "array access without base or subscript"
  | namelessAccess .field => "field access without a name"
  | namelessAccess .call => "call without a method name"
  | hollowReceiver use => s!"{use.name} with a nil receiver"
  | noReceiver use => s!"{use.name} with receiver <nil>"
  | noBase use => s!"qualified {use.name} without base"
  | namelessNew => "New without a class name"
  | noSize => "NewArray without size"
  | missingType => "missing type"
  | unknownPrimitive keyword => s!"unknown primitive type {Text.quote keyword}"
  | namelessType => "named type without a name"
  | noOperand => "postfix expression without operand"

/-! ### Operators and their expressions -/

namespace Form

/-- What an expression of the form is called. -/
def name : Form → String
  | arithmetic => "arithmetic expression"
  | relational => "relational expression"
  | equality => "equality expression"
  | logical => "logical expression"
  | assignment => "assignment"

/-- What an expression of the form is called, with or without a left operand. -/
def nameOf (form : Form) (unary : Bool) : String :=
  match form, unary with
  | arithmetic, true => "unary arithmetic expression"
  | logical, true => "unary logical expression"
  | form, _ => form.name

/-- Whether the form may stand without a left operand. -/
def mayBeUnary : Form → Bool
  | arithmetic | logical => true
  | _ => false

/-- The operators of the form. -/
def operators (form : Form) (unary : Bool) : List Mark :=
  match form, unary with
  | arithmetic, true => [.minus]
  | arithmetic, false => [.plus, .minus, .star, .slash, .percent]
  | relational, _ => [.lt, .le, .gt, .ge]
  | equality, _ => [.eq, .ne]
  | logical, true => [.not]
  | logical, false => [.and, .or]
  | assignment, _ => [.assign]

end Form

/-- What is wrong with the operator of a node that takes the given ones. -/
def operatorFlaw? (op : Option Token) (node : String) (allowed : List Mark) : Option Flaw :=
  match op with
  | none => some (.noOperator node)
  | some t =>
    if t.kind ∈ allowed.map TokenKind.mark then none else some (.foreignOperator t.literal node)

/-- What is wrong with the receiver of a member. -/
def receiverFlaw? (use : Access) : Receiver Expr → Option Flaw
  | .qualified base => if base.isMissing then some (.noBase use) else none
  | .unqualified => none
  | .hollow => some (.hollowReceiver use)
  | .absent => some (.noReceiver use)

/-- What is wrong with a node itself. Its parts are looked at later. -/
def Expr.flaw? : Expr → Option Flaw
  | absent | hollow => some .missingExpression
  | leaf .. => none
  | compound _ form op left right =>
    if !form.mayBeUnary && left.isMissing then some (.noLeftOperand form.name)
    else
      match operatorFlaw? op (form.nameOf left.isAbsent) (form.operators left.isAbsent) with
      | some flaw => some flaw
      | none => if right.isMissing then some (.noRightOperand form.name) else none
  | index _ _ base subscript =>
    if base.isMissing || subscript.isMissing then some .incompleteIndex else none
  | member _ recv name =>
    if name.isNone then some (.namelessAccess .field) else receiverFlaw? .field recv
  | call _ recv name _ =>
    if name.isNone then some (.namelessAccess .call) else receiverFlaw? .call recv
  | new _ _ cls => if (cls.bind (·.name)).isNone then some .namelessNew else none
  | newArray _ _ size _ => if size.isMissing then some .noSize else none
  | step _ op operand =>
    match operatorFlaw? op "postfix expression" [.inc, .dec] with
    | some flaw => some flaw
    | none => if operand.isMissing then some .noOperand else none

end Decaf
