import Decaf.Token

namespace Decaf

/-!
# Listing tokens

A listing has one line for each token: its text, where it stands, and its kind. Errors go into a
second text of their own.
-/

namespace Token

/-- The token as it stands in the source. -/
def sourceText (t : Token) : String :=
  if t.kind = .strConst then "\"" ++ t.literal ++ "\"" else t.literal

/-- `s` followed by blanks up to `width` characters. -/
def padRight (width : Nat) (s : String) : String :=
  s ++ String.ofList (List.replicate (width - s.length) ' ')

/-- The column of the token's last character. -/
def lastColumn (t : Token) : Int :=
  t.pos.column + t.sourceText.length - 1

/-- The line that lists a token. -/
def listingLine (t : Token) : String :=
  let text := padRight 12 t.sourceText
  s!"{text} line {t.pos.line} cols {t.pos.column}-{t.lastColumn} is {t.kind.name}\n"

/-- The line that reports an error. -/
def errorLine (t : Token) : String :=
  s!"*** Error line {t.pos.line}: {t.literal}\n"

end Token

/-- What is written about a sequence of tokens. -/
structure Listing where
  lines : List String := []
  errors : List String := []
deriving DecidableEq, Repr

/-- The listing of the tokens before the end, in their order. -/
def Listing.ofTokens (ts : List Token) : Listing :=
  let shown := ts.takeWhile (·.kind ≠ .eof)
  { lines := (shown.filter (·.kind ≠ .error)).map Token.listingLine
    errors := (shown.filter (·.kind = .error)).map Token.errorLine }

end Decaf
