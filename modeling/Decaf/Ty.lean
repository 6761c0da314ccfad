namespace Decaf

/-!
# Types

The types of the language, with `error` for an expression about which a complaint has already been
made.

* `Ty.name` — how a type is written.
* `Ty.ofKeyword?`, `Ty.ofString` — the type that a keyword, or a whole text, names.
* `typeText` — how a type is written where it may be missing.
-/

/-- A type. A named type need not be declared. -/
inductive Ty where
  /-- The type of an expression that is already known to be wrong. -/
  | error
  | void
  | int
  | double
  | bool
  | string
  | null
  | named (name : String)
  | array (elem : Ty)
deriving DecidableEq, Repr, Inhabited

namespace Ty

/-- How the type is written in a source. -/
def name : Ty → String
  | error => "error"
  | void => "void"
  | int => "int"
  | double => "double"
  | bool => "bool"
  | string => "string"
  | null => "null"
  | named name => name
  | array elem => elem.name ++ "[]"

/-- The type that a keyword names. -/
def ofKeyword? : String → Option Ty
  | "int" => some int
  | "double" => some double
  | "bool" => some bool
  | "string" => some string
  | "void" => some void
  | _ => none

/-- The type that the characters name, last one first: an array for every pair of brackets at the
    end, of a predefined or of a named type. -/
def ofReversed : List Char → Ty
  | ']' :: '[' :: rest => array (ofReversed rest)
  | reversed =>
    match String.ofList reversed.reverse with
    | "null" => null
    | "error" => error
    | s => (ofKeyword? s).getD (named s)

/-- The type that `text` names. -/
def ofString (text : String) : Ty :=
  ofReversed text.toList.reverse

/-- The element type of an array type. -/
def elem? : Ty → Option Ty
  | array elem => some elem
  | _ => none

def isError : Ty → Bool
  | error => true
  | _ => false

def isNamed : Ty → Bool
  | named _ => true
  | _ => false

def isArray : Ty → Bool
  | array _ => true
  | _ => false

/-- Whether the type has arithmetic. -/
def isNumeric : Ty → Bool
  | int | double => true
  | _ => false

/-- Whether `null` may stand for a value of the type. -/
def isReference : Ty → Bool
  | named _ | array _ => true
  | _ => false

end Ty

/-- How a type is written where a declaration may have none. -/
def typeText : Option Ty → String
  | some t => t.name
  | none => "<nil>"

end Decaf
