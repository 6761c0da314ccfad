namespace Decaf

/-!
# Places in a source text

Lines are separated by the newline character alone, and columns count code points; both start at
one.
-/

/-- A line and a column. -/
structure Position where
  line : Int
  column : Int
deriving DecidableEq, Repr, Inhabited

namespace Position

/-- Where a text starts. -/
def start : Position := ⟨1, 1⟩

/-- The place just after `c`, when `c` stands at `p`. -/
def after (p : Position) (c : Char) : Position :=
  if c = '\n' then ⟨p.line + 1, 1⟩ else ⟨p.line, p.column + 1⟩

/-- The place just after the text `cs`, when it starts at `p`. -/
def afterAll (p : Position) (cs : List Char) : Position :=
  cs.foldl after p

theorem afterAll_append (p : Position) (cs ds : List Char) :
    p.afterAll (cs ++ ds) = (p.afterAll cs).afterAll ds :=
  List.foldl_append

end Position

end Decaf
