namespace Decaf.Text

/-!
# Decoding UTF-8

Source files are bytes; the scanner reads code points. `decodeUtf8` reads one code point after
another and never fails: a byte that does not start a well-formed sequence becomes one replacement
character and reading goes on at the next byte. Overlong forms, surrogates, numbers above U+10FFFF
and cut-off sequences are all not well formed.

* `Utf8.head?` — the code point that a sequence starts with, and how many further bytes it takes.
* `decodeUtf8` — the code points of a sequence of bytes.
-/

namespace Utf8

/-- The payload of a continuation byte `10xxxxxx`. -/
def continuation? (b : UInt8) : Option Nat :=
  if 0x80 ≤ b ∧ b ≤ 0xBF then some (b.toNat - 0x80) else none

/-- The code point `n` as a character, if `n` is at least `least` (no overlong form) and no
    surrogate. -/
def scalar? (least n : Nat) : Option Char :=
  if h : least ≤ n ∧ n.isValidChar then some ⟨n.toUInt32, by
    have hn : n < 2 ^ 32 := by have := h.2; unfold Nat.isValidChar at this; omega
    have : n.toUInt32.toNat = n := Nat.mod_eq_of_lt hn
    simpa [UInt32.isValidChar, this] using h.2⟩ else none

/-- The code point written by `b` and the bytes after it, with the number of bytes taken after
    `b`. -/
def head? (b : UInt8) (rest : List UInt8) : Option (Char × Nat) :=
  if b < 0x80 then (scalar? 0 b.toNat).map (·, 0)
  else if 0xC0 ≤ b ∧ b < 0xE0 then
    match rest with
    | b₁ :: _ => do
      let x ← continuation? b₁
      let c ← scalar? 0x80 ((b.toNat - 0xC0) * 64 + x)
      pure (c, 1)
    | _ => none
  else if 0xE0 ≤ b ∧ b < 0xF0 then
    match rest with
    | b₁ :: b₂ :: _ => do
      let x ← continuation? b₁
      let y ← continuation? b₂
      let c ← scalar? 0x800 (((b.toNat - 0xE0) * 64 + x) * 64 + y)
      pure (c, 2)
    | _ => none
  else if 0xF0 ≤ b ∧ b < 0xF8 then
    match rest with
    | b₁ :: b₂ :: b₃ :: _ => do
      let x ← continuation? b₁
      let y ← continuation? b₂
      let z ← continuation? b₃
      let c ← scalar? 0x10000 ((((b.toNat - 0xF0) * 64 + x) * 64 + y) * 64 + z)
      pure (c, 3)
    | _ => none
  else none

/-- Decodes after passing over `skip` bytes, which belong to a code point already read. -/
def decodeAfter : (skip : Nat) → List UInt8 → List Char
  | _, [] => []
  | skip + 1, _ :: bs => decodeAfter skip bs
  | 0, b :: bs =>
    match head? b bs with
    | some (c, n) => c :: decodeAfter n bs
    | none => '\uFFFD' :: decodeAfter 0 bs

end Utf8

/-- The code points of `bytes`, with one replacement character for each byte that starts no
    well-formed sequence. -/
def decodeUtf8 (bytes : List UInt8) : List Char :=
  Utf8.decodeAfter 0 bytes

end Decaf.Text
