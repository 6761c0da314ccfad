import Decaf.Llvm.Module
import Decaf.Program.Basic

namespace Decaf

/-!
# Lowering types

Every type but `error` has a representation, as long as its classes are known: a value of a class is
a pointer to the class's struct, one of an interface is a pointer to anything, and an array is a
pointer to its length and its elements.

* `lowerType` — the representation of a type.
* `LowerError` — why there is none.
-/

/-- Why a type has no representation. -/
inductive LowerError where
  | missingType
  | undeclaredClass (name : String)
  | element (array : Ty) (reason : LowerError)
  | arrayOfVoid (array : Ty)
  | noRepresentation (type : Ty)
deriving DecidableEq, Repr

/-- What there is to say about it. -/
def LowerError.message : LowerError → String
  | missingType => "cannot lower a missing type"
  | undeclaredClass name => s!"class {name} is not declared"
  | element array reason => s!"element of {array.name}: {reason.message}"
  | arrayOfVoid array => s!"array {array.name} of void"
  | noRepresentation type => s!"type {type.name} has no LLVM representation"

/-- The representation of a type; `structs` are the numbers of the structs that are known, by
    class. -/
def lowerType (p : Program) (structs : Dict Nat) : Ty → Except LowerError Llvm.Ty
  | .int => .ok .i32
  | .double => .ok .double
  | .bool => .ok .i1
  | .string | .null => .ok .anyPointer
  | .void => .ok .void
  | .named name =>
    match structs.get? name with
    | some number => .ok (.pointer (.struct name number))
    | none =>
      if (p.class? name).any (·.isInterface) then .ok .anyPointer
      else .error (.undeclaredClass name)
  | .array elem =>
    match lowerType p structs elem with
    | .error e => .error (.element (.array elem) e)
    | .ok t =>
      if t = .void then .error (.arrayOfVoid (.array elem)) else .ok (.pointer (.arrayRecord t))
  | .error => .error (.noRepresentation .error)

/-- The representation of the type of a declaration. -/
def lowerDeclared (p : Program) (structs : Dict Nat) : Option Ty → Except LowerError Llvm.Ty
  | none => .error .missingType
  | some t => lowerType p structs t

end Decaf
