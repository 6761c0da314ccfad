import Decaf.Token.Lexeme

namespace Decaf

/-!
# Scanning

A `Source` is the text that is still to be read, together with the place where it starts. Scanning
passes over a gap (white space and comments), takes a lexeme, and goes on with what is left.

* `gap` — the white space and the comments at the front of a text.
* `Source.next` — the next token, and the source after it. At the end this is the token `eof`, again
  and again.
* `Source.tokens` — all tokens, up to and including `eof`.
-/

/-! ### Gaps -/

/-- Whether `c` is white space: one of the 25 code points of the Unicode property `White_Space`, of
    which six are in ASCII. -/
def Text.isBlank (c : Char) : Bool :=
  let n := c.toNat
  n == 0x20 || (0x09 ≤ n && n ≤ 0x0D) || n == 0x85 || n == 0xA0 || n == 0x1680 ||
    (0x2000 ≤ n && n ≤ 0x200A) || n == 0x2028 || n == 0x2029 || n == 0x202F || n == 0x205F ||
    n == 0x3000

/-- What part of a gap is being read. -/
inductive GapState where
  | blank
  | lineComment
  | blockComment
deriving DecidableEq, Repr

/-- The rest of a gap that is being read. A comment that opens with two slashes ends before a
    newline, and one that opens with a slash and a star ends after the first star and slash that
    follow; both may also end with the text. -/
def gapFrom : GapState → List Char → List Char
  | .blank, '/' :: '/' :: rest => '/' :: '/' :: gapFrom .lineComment rest
  | .blank, '/' :: '*' :: rest => '/' :: '*' :: gapFrom .blockComment rest
  | .blank, c :: rest => if Text.isBlank c then c :: gapFrom .blank rest else []
  | .lineComment, c :: rest => c :: gapFrom (if c = '\n' then .blank else .lineComment) rest
  -- the star that opens a comment does not also close it: it has been read
  | .blockComment, '*' :: '/' :: rest => '*' :: '/' :: gapFrom .blank rest
  | .blockComment, c :: rest => c :: gapFrom .blockComment rest
  | _, [] => []

/-- The white space and the comments at the front of `s`. -/
def gap (s : List Char) : List Char :=
  gapFrom .blank s

/-! ### Reading a source -/

/-- A text that is being read, and where its rest starts. -/
structure Source where
  rest : List Char
  pos : Position
deriving DecidableEq, Repr

namespace Source

/-- A text before anything of it is read. The character with code zero ends a text, whatever comes
    after it. -/
def ofChars (cs : List Char) : Source :=
  ⟨cs.takeWhile (· ≠ '\x00'), .start⟩

/-- Passes over `text`, which stands at the front. -/
def skip (s : Source) (text : List Char) : Source :=
  ⟨s.rest.drop text.length, s.pos.afterAll text⟩

/-- The token at the front of a source that starts with no gap, and the source after it. -/
def take (s : Source) : Token × Source :=
  match s.rest with
  | [] => (⟨.eof, "", s.pos⟩, s)
  | c :: rest =>
    let x := Lexeme.first c rest
    (x.token s.pos, s.skip x.text)

/-- The next token, and the source after it. -/
def next (s : Source) : Token × Source :=
  (s.skip (gap s.rest)).take

theorem length_rest_skip (s : Source) (text : List Char) :
    (s.skip text).rest.length = s.rest.length - text.length := by
  simp [skip]

/-- Taking a token leaves less to read, unless there is nothing left. -/
theorem length_rest_take_lt {s : Source} (h : s.take.1.kind ≠ .eof) :
    s.take.2.rest.length < s.rest.length := by
  unfold take at h ⊢
  split at h
  · simp at h
  · rename_i c rest hs
    have := List.length_pos_iff.2 (Lexeme.text_first_ne_nil c rest)
    simp only [length_rest_skip, hs, List.length_cons]
    omega

/-- A scan gets on with every token before the end. -/
theorem length_rest_next_lt {s : Source} (h : s.next.1.kind ≠ .eof) :
    s.next.2.rest.length < s.rest.length :=
  Nat.lt_of_lt_of_le (length_rest_take_lt h) (by rw [length_rest_skip]; omega)

/-- All tokens of a source; the last one is `eof`. -/
def tokens (s : Source) : List Token :=
  match _h : s.next with
  | (t, s') => if _ht : t.kind = .eof then [t] else t :: tokens s'
termination_by s.rest.length
decreasing_by
  have := length_rest_next_lt (s := s) (by rw [_h]; exact _ht)
  simpa [_h] using this

/-- The first `n` tokens; past the end, `eof` stands again and again. -/
def firstTokens : Nat → Source → List Token
  | 0, _ => []
  | n + 1, s => s.next.1 :: firstTokens n s.next.2

end Source

end Decaf
