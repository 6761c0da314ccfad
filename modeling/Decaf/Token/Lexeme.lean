import Decaf.Token

namespace Decaf

/-!
# Lexemes

A lexeme is the piece of source that becomes one token, sorted by its class. `Lexeme.first` takes
the longest one from the front of a text; `Lexeme.text` gives back the characters that were taken,
and `Lexeme.token` says what token it becomes.

* `Lexeme.first` — the lexeme at the front of a text that is not empty.
* `Lexeme.text` — the characters of a lexeme, always at least one.
* `Lexeme.token` — the token of a lexeme that starts at a given place.
-/

/-! ### Character classes -/

/-- A hexadecimal digit, in either case. -/
def isHexDigit (c : Char) : Bool :=
  c.isDigit || ('a' ≤ c && c ≤ 'f') || ('A' ≤ c && c ≤ 'F')

/-- A character that may follow the first letter of a word. -/
def isWordChar (c : Char) : Bool :=
  c.isAlphanum || c = '_'

/-- The letters of words are the capital and the small ones of the Latin alphabet, by their
    numbers. -/
theorem isAlpha_iff {c : Char} :
    c.isAlpha ↔ (65 ≤ c.toNat ∧ c.toNat ≤ 90) ∨ (97 ≤ c.toNat ∧ c.toNat ≤ 122) := by
  show (decide ('A'.val ≤ c.val ∧ c.val ≤ 'Z'.val) ||
    (decide ('a'.val ≤ c.val) && decide (c.val ≤ 'z'.val))) = true ↔ _
  simp [UInt32.le_iff_toNat_le]

/-- The value of a hexadecimal digit. -/
def digitValue (c : Char) : Nat :=
  if c.isDigit then c.toNat - '0'.toNat
  else if 'a' ≤ c ∧ c ≤ 'f' then c.toNat - 'a'.toNat + 10
  else c.toNat - 'A'.toNat + 10

/-- The number that `digits` write in base `base`. -/
def numeralValue (base : Nat) (digits : List Char) : Nat :=
  digits.foldl (fun n d => n * base + digitValue d) 0

/-- The largest integer constant. -/
def maxInt : Nat := 2147483647

/-- The length of the longest name. -/
def maxWordLength : Nat := 31

/-! ### The classes of lexeme -/

/-- A piece of source that becomes one token. -/
inductive Lexeme where
  /-- A letter, then letters, digits and underscores. -/
  | word (letters : List Char)
  /-- Decimal digits. -/
  | decimal (digits : List Char)
  /-- A zero, the letter `x` (in either case), then any number of hexadecimal digits. -/
  | hexadecimal (x : Char) (digits : List Char)
  /-- Digits, a point, digits, and perhaps an exponent. -/
  | double (chars : List Char)
  /-- Text between two quotes on one line. -/
  | quoted (body : List Char)
  /-- A quote that no other quote on its line closes. -/
  | unclosed (body : List Char)
  | mark (m : Mark)
  /-- A character that starts nothing. -/
  | stray (c : Char)
deriving DecidableEq, Repr

namespace Lexeme

/-- The characters of a lexeme, as they stand in the source. -/
def text : Lexeme → List Char
  | word letters => letters
  | decimal digits => digits
  | hexadecimal x digits => '0' :: x :: digits
  | double chars => chars
  | quoted body => '"' :: (body ++ ['"'])
  | unclosed body => '"' :: body
  | mark m => m.spelling
  | stray c => [c]

/-- Whether `e` and `s` open an exponent: a letter `e` (in either case), then a digit or a sign. -/
def opensExponent (e s : Char) : Bool :=
  (e = 'e' || e = 'E') && (s.isDigit || s = '+' || s = '-')

/-- What follows the point of a double constant: digits and, where one is opened, an exponent. -/
def fraction (rest : List Char) : List Char :=
  rest.takeWhile Char.isDigit ++
    match rest.dropWhile Char.isDigit with
    | e :: s :: more => if opensExponent e s then e :: s :: more.takeWhile Char.isDigit else []
    | _ => []

/-- The number at the front of a text that starts with a digit and not with `0x`. -/
def number (s : List Char) : Lexeme :=
  match s.dropWhile Char.isDigit with
  | '.' :: rest => double (s.takeWhile Char.isDigit ++ '.' :: fraction rest)
  | _ => decimal (s.takeWhile Char.isDigit)

/-- The constant at the front of the text `d :: rest`, where `d` is a digit. -/
def numeral (d : Char) (rest : List Char) : Lexeme :=
  match d, rest with
  | '0', 'x' :: more => hexadecimal 'x' (more.takeWhile isHexDigit)
  | '0', 'X' :: more => hexadecimal 'X' (more.takeWhile isHexDigit)
  | _, _ => number (d :: rest)

/-- The string after an opening quote: up to the next quote, if that comes before the end of the
    line. -/
def quotation (rest : List Char) : Lexeme :=
  let body := rest.takeWhile fun c => c ≠ '"' && c ≠ '\n'
  match rest.dropWhile fun c => c ≠ '"' && c ≠ '\n' with
  | '"' :: _ => quoted body
  | _ => unclosed body

/-- The lexeme at the front of the text `c :: rest`. -/
def first (c : Char) (rest : List Char) : Lexeme :=
  if c.isAlpha then word (c :: rest.takeWhile isWordChar)
  else if c.isDigit then numeral c rest
  else if c = '"' then quotation rest
  else
    match Mark.first? c rest with
    | some m => mark m
    | none => stray c

theorem text_number_ne_nil {d : Char} (hd : d.isDigit) (rest : List Char) :
    (number (d :: rest)).text ≠ [] := by
  unfold number
  split <;> simp [text, hd]

theorem text_numeral_ne_nil {d : Char} (hd : d.isDigit) (rest : List Char) :
    (numeral d rest).text ≠ [] := by
  unfold numeral
  split
  · simp [text]
  · simp [text]
  · exact text_number_ne_nil hd rest

theorem text_quotation_ne_nil (rest : List Char) : (quotation rest).text ≠ [] := by
  unfold quotation
  split <;> simp [text]

/-- Every lexeme has at least one character, so a scan always gets on. -/
theorem text_first_ne_nil (c : Char) (rest : List Char) : (first c rest).text ≠ [] := by
  unfold first
  split
  · simp [text]
  · split
    · exact text_numeral_ne_nil ‹_› rest
    · split
      · exact text_quotation_ne_nil rest
      · split
        · rename_i m _
          cases m <;> simp [text, Mark.spelling]
        · simp [text]

theorem fraction_prefix (rest : List Char) : fraction rest <+: rest := by
  unfold fraction
  conv => rhs; rw [← List.takeWhile_append_dropWhile (p := Char.isDigit) (l := rest)]
  rw [List.prefix_append_right_inj]
  split
  · rename_i e s more h
    rw [h]
    split
    · simpa using List.takeWhile_prefix _
    · exact List.nil_prefix
  · exact List.nil_prefix

theorem text_number_prefix (s : List Char) : (number s).text <+: s := by
  unfold number
  split
  · rename_i rest h
    conv => rhs; rw [← List.takeWhile_append_dropWhile (p := Char.isDigit) (l := s), h]
    simpa [text] using fraction_prefix rest
  · exact List.takeWhile_prefix _

theorem text_numeral_prefix (d : Char) (rest : List Char) :
    (numeral d rest).text <+: d :: rest := by
  unfold numeral
  split
  · simpa [text] using List.takeWhile_prefix _
  · simpa [text] using List.takeWhile_prefix _
  · exact text_number_prefix _

theorem text_quotation_prefix (rest : List Char) : (quotation rest).text <+: '"' :: rest := by
  unfold quotation
  split
  · rename_i more h
    conv =>
      rhs
      rw [← List.takeWhile_append_dropWhile (p := fun c => c ≠ '"' && c ≠ '\n') (l := rest), h]
    simp [text]
  · simpa [text] using List.takeWhile_prefix _

/-- A lexeme is taken from the front of the text. -/
theorem text_first_prefix (c : Char) (rest : List Char) : (first c rest).text <+: c :: rest := by
  unfold first
  split
  · simpa [text] using List.takeWhile_prefix _
  · split
    · exact text_numeral_prefix c rest
    · split
      · rename_i h
        exact h ▸ text_quotation_prefix rest
      · split
        · rename_i m h
          exact Mark.spelling_first_prefix h
        · simp [text]

/-! ### From lexemes to tokens -/

/-- What kind of token a word is, and its text. A keyword is never too long to be a name. -/
def wordToken (w : String) : TokenKind × String :=
  match Keyword.ofWord? w with
  | some k => (.keyword k, w)
  | none =>
    if w = "true" ∨ w = "false" then (.boolConst, w)
    else if maxWordLength < w.length then (.error, s!"Identifier too long: {w}")
    else (.ident, w)

/-- An integer constant with the given digits, or the complaint that it does not fit. -/
def integerToken (base : Nat) (digits : List Char) (literal : String) : TokenKind × String :=
  if digits ≠ [] ∧ numeralValue base digits ≤ maxInt then (.intConst, literal)
  else (.error, "Number out of range")

/-- The token that a lexeme at `p` becomes. A string constant leaves its quotes behind. -/
def token (p : Position) (x : Lexeme) : Token :=
  let (kind, literal) : TokenKind × String :=
    match x with
    | word letters => wordToken (String.ofList letters)
    | decimal digits => integerToken 10 digits (String.ofList digits)
    | hexadecimal _ digits => integerToken 16 digits (String.ofList x.text)
    | double chars => (.doubleConst, String.ofList chars)
    | quoted body => (.strConst, String.ofList body)
    | unclosed _ => (.error, s!"unterminated string constant at line {p.line}, column {p.column}")
    | mark m => (.mark m, String.ofList m.spelling)
    | stray c => (.error, s!"Unexpected character: {c}")
  ⟨kind, literal, p⟩

end Lexeme

end Decaf
