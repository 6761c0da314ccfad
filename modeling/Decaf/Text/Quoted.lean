import Decaf.Text.Category

namespace Decaf.Text

/-!
# Quoted text

Messages quote text that comes from outside so that it fits on a line: between double quotes, with a
backslash before a quote or a backslash, a short escape for the usual control characters, and the
code point in hexadecimal for everything else that is not printable.

* `hex` — a number in hexadecimal, padded with zeros.
* `escapeChar` — how a character is written between the quotes.
* `quote` — the whole text, quotes included.
-/

/-- The hexadecimal digits of `n`, at least `width` of them. -/
def hex (width n : Nat) : String :=
  let digits := Nat.toDigits 16 n
  String.ofList (List.replicate (width - digits.length) '0' ++ digits)

/-- The short escape of a control character that has one. -/
def shortEscape? (c : Char) : Option Char :=
  match c.toNat with
  | 0x07 => some 'a'
  | 0x08 => some 'b'
  | 0x0C => some 'f'
  | 0x0A => some 'n'
  | 0x0D => some 'r'
  | 0x09 => some 't'
  | 0x0B => some 'v'
  | _ => none

/-- How `c` is written in quoted text. -/
def escapeChar (c : Char) : String :=
  if c = '"' ∨ c = '\\' then String.ofList ['\\', c]
  else if isPrintable c then c.toString
  else
    match shortEscape? c with
    | some e => String.ofList ['\\', e]
    | none =>
      let n := c.toNat
      if n < 0x80 then "\\x" ++ hex 2 n
      else if n < 0x10000 then "\\u" ++ hex 4 n
      else "\\U" ++ hex 8 n

/-- `s` between double quotes, escaped to stand on one line. -/
def quote (s : String) : String :=
  "\"" ++ String.join (s.toList.map escapeChar) ++ "\""

end Decaf.Text
