import Decaf.Text.Quoted

namespace Decaf.Llvm

/-!
# Names in LLVM text

A name stands plain if all its characters are harmless; otherwise it stands between quotes, with the
other bytes in hexadecimal. Values without a name are numbered; a name that would be taken for such
a number stands between quotes.

* `escape` — text between quotes.
* `symbolName` — names of functions, globals and parameters.
* `typeName` — names of types, which numbers may be.
-/

/-- A byte between quotes: itself if it is printable and neither a quote nor a backslash, else in
    hexadecimal. -/
def escapeByte (b : UInt8) : String :=
  if 0x20 ≤ b ∧ b < 0x7F ∧ b ≠ 0x22 ∧ b ≠ 0x5C then (Char.ofNat b.toNat).toString
  else "\\" ++ String.ofList ((Text.hex 2 b.toNat).toList.map Char.toUpper)

/-- Text between quotes. -/
def escape (s : String) : String :=
  String.join (s.toUTF8.toList.map escapeByte)

/-- A character that may stand in a name without quotes. -/
def isPlain (c : Char) : Bool :=
  c.isAlphanum || c = '$' || c = '-' || c = '.' || c = '_'

/-- `s` between quotes, escaped. -/
def quoted (s : String) : String :=
  "\"" ++ escape s ++ "\""

/-- The name of a type. -/
def typeName (s : String) : String :=
  if s.toList.all isPlain then s else quoted s

/-- Whether `s` is a number that fits into 64 bits. -/
def isNumeral (s : String) : Bool :=
  !s.isEmpty && s.toList.all Char.isDigit &&
    s.toList.foldl (fun n c => n * 10 + (c.toNat - '0'.toNat)) 0 < UInt64.size

/-- The name of a function, a global or a parameter. One without a name goes by the first number. -/
def symbolName (s : String) : String :=
  if s.isEmpty then "0" else if isNumeral s then quoted s else typeName s

end Decaf.Llvm
