import Decaf.Position

namespace Decaf

/-!
# Diagnostics

A diagnostic is a mistake in the program that is being checked: what kind it is, where it is, what
there is to say about it, and the names of the types that do not fit.

* `Diagnostic.Kind` — the kinds, each with its code and its name.
* `Text.fill` — a message from a template: `%s` and `%d` take the next argument, `%%` is a percent
  sign.  Arguments are given as text, so the two kinds of place differ only in what the writer of
  the template had in mind.
* `Diagnostic.text` — the line that reports a diagnostic.
* `Diagnostics` — a sequence of diagnostics in the order in which they were reported.
-/

/-! ### Message templates -/

/-- Fills the places of a template, from left to right. -/
def Text.fillChars : List Char → List String → List Char
  | '%' :: '%' :: rest, args => '%' :: fillChars rest args
  | '%' :: 's' :: rest, arg :: args => arg.toList ++ fillChars rest args
  | '%' :: 'd' :: rest, arg :: args => arg.toList ++ fillChars rest args
  | c :: rest, args => c :: fillChars rest args
  | [], _ => []

/-- The text of `template` with its places filled by `args`. -/
def Text.fill (template : String) (args : List String) : String :=
  String.ofList (fillChars template.toList args)

/-! ### Mistakes -/

namespace Diagnostic

/-- The kinds of mistake. -/
inductive Kind where
  | typeMismatch
  | undeclaredIdentifier
  | undeclaredField
  | undeclaredMethod
  | undeclaredClass
  | notAnArray
  | notAClass
  | wrongArgumentCount
  | argumentTypeMismatch
  | invalidThisContext
  /-- A code that no kind has. -/
  | other (code : Int)
deriving DecidableEq, Repr

namespace Kind

/-- The number that stands for the kind. -/
def code : Kind → Int
  | typeMismatch => 0
  | undeclaredIdentifier => 1
  | undeclaredField => 2
  | undeclaredMethod => 3
  | undeclaredClass => 4
  | notAnArray => 5
  | notAClass => 6
  | wrongArgumentCount => 7
  | argumentTypeMismatch => 8
  | invalidThisContext => 9
  | other code => code

/-- The kind with the given number. -/
def ofCode : Int → Kind
  | 0 => typeMismatch
  | 1 => undeclaredIdentifier
  | 2 => undeclaredField
  | 3 => undeclaredMethod
  | 4 => undeclaredClass
  | 5 => notAnArray
  | 6 => notAClass
  | 7 => wrongArgumentCount
  | 8 => argumentTypeMismatch
  | 9 => invalidThisContext
  | n => other n

/-- What the kind is called. -/
def name : Kind → String
  | typeMismatch => "type mismatch"
  | undeclaredIdentifier => "undeclared identifier"
  | undeclaredField => "undeclared field"
  | undeclaredMethod => "undeclared method"
  | undeclaredClass => "undeclared class"
  | notAnArray => "not an array"
  | notAClass => "not a class"
  | wrongArgumentCount => "wrong argument count"
  | argumentTypeMismatch => "argument type mismatch"
  | invalidThisContext => "invalid this context"
  | other _ => "unknown"

end Kind

end Diagnostic

/-- A mistake at a place in the source. -/
structure Diagnostic where
  kind : Diagnostic.Kind
  pos : Position
  message : String
  /-- The names of the types that do not fit, if any. -/
  types : List String := []
deriving DecidableEq, Repr

/-- The line that reports a diagnostic. -/
def Diagnostic.text (d : Diagnostic) : String :=
  s!"line {d.pos.line}:{d.pos.column}: {d.message}"

/-- Diagnostics in the order in which they were reported. -/
abbrev Diagnostics := List Diagnostic

namespace Diagnostics

/-- Reports a mistake, with a message made from a template. -/
def report (ds : Diagnostics) (kind : Diagnostic.Kind) (pos : Position) (types : List String)
    (template : String) (args : List String) : Diagnostics :=
  ds ++ [⟨kind, pos, Text.fill template args, types⟩]

/-- The diagnostics of one kind. -/
def ofKind (ds : Diagnostics) (kind : Diagnostic.Kind) : Diagnostics :=
  ds.filter (·.kind = kind)

/-- The lines that report the diagnostics. -/
def messages (ds : Diagnostics) : List String :=
  ds.map Diagnostic.text

/-- The lines as one text. -/
def text (ds : Diagnostics) : String :=
  "\n".intercalate ds.messages

end Diagnostics

end Decaf
