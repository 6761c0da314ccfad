import Decaf.Text.Utf8

namespace Decaf.Text

/-!
# What bytes say

The characters that bytes say, apart from how they are read: where the bytes go on with the encoding
of a character, they say that character, and where they do not, a single byte stands for the
replacement character.

* `Decodes` — bytes say a text.
* `Utf8.Starts` — bytes start with the encoding of a character.
* `Utf8.starts_of_head?`, `Utf8.Starts.head?_eq` — what is read from the front of bytes is what they
  start with.
* `decodes_iff` — the text that is read from bytes is the one that they say.
* `decodeUtf8_encode`, `decodeUtf8_toUTF8` — what is read from the encoding of a text is that text.
-/

/-- The bytes say the text. -/
inductive Decodes : List UInt8 → List Char → Prop where
  | nil : Decodes [] []
  | char {c : Char} {bs : List UInt8} {cs : List Char} :
      Decodes bs cs → Decodes (String.utf8EncodeChar c ++ bs) (c :: cs)
  /-- A byte with which the encoding of no character starts here. -/
  | stray {b : UInt8} {bs : List UInt8} {cs : List Char} :
      (∀ c, ¬ String.utf8EncodeChar c <+: b :: bs) → Decodes bs cs →
      Decodes (b :: bs) ('\uFFFD' :: cs)

namespace Utf8

/-! ### Parts of an encoding -/

theorem ofNat_eq_iff {n : Nat} {b : UInt8} (hn : n < 256) : UInt8.ofNat n = b ↔ n = b.toNat := by
  rw [← UInt8.toNat_inj, UInt8.toNat_ofNat', Nat.mod_eq_of_lt hn]

/-- A continuation byte carries six bits. -/
theorem continuation?_ofNat {x : Nat} (hx : x < 64) :
    continuation? (UInt8.ofNat (x + 128)) = some x := by
  have hbyte : (UInt8.ofNat (x + 128)).toNat = x + 128 := ((ofNat_eq_iff (by omega)).1 rfl).symm
  have hrange : (0x80 : UInt8) ≤ UInt8.ofNat (x + 128) ∧
      UInt8.ofNat (x + 128) ≤ (0xBF : UInt8) := by
    rw [UInt8.le_iff_toNat_le, UInt8.le_iff_toNat_le, hbyte]
    exact ⟨Nat.le_add_left 128 x, show x + 128 ≤ 191 by omega⟩
  rw [continuation?, if_pos hrange, hbyte, Nat.add_sub_cancel]

theorem of_continuation? {b : UInt8} {x : Nat} (h : continuation? b = some x) :
    x < 64 ∧ UInt8.ofNat (x + 128) = b := by
  unfold continuation? at h
  split at h
  · rename_i hrange
    obtain ⟨hlow, hhigh⟩ := hrange
    rw [UInt8.le_iff_toNat_le] at hlow hhigh
    have hlow' : 128 ≤ b.toNat := hlow
    have hhigh' : b.toNat ≤ 191 := hhigh
    have hx : b.toNat - 128 = x := Option.some.inj h
    exact ⟨by omega, (ofNat_eq_iff (by omega)).2 (by omega)⟩
  · cases h

/-- A number is read as the character of that number, unless it is too small. -/
theorem scalar?_toNat {least : Nat} {c : Char} (h : least ≤ c.toNat) :
    scalar? least c.toNat = some c := by
  have hc : least ≤ c.toNat ∧ c.toNat.isValidChar := ⟨h, c.valid⟩
  rw [scalar?, dif_pos hc]
  congr 1
  apply Char.ext
  apply UInt32.toNat_inj.1
  exact Nat.mod_eq_of_lt c.val.toNat_lt

theorem of_scalar? {least n : Nat} {c : Char} (h : scalar? least n = some c) :
    least ≤ n ∧ c.toNat = n := by
  unfold scalar? at h
  split at h
  · rename_i hn
    have hlt : n < 2 ^ 32 := by
      have hvalid := hn.2
      unfold Nat.isValidChar at hvalid
      omega
    rw [← Option.some.inj h]
    exact ⟨hn.1, Nat.mod_eq_of_lt hlt⟩
  · cases h

/-! ### Whole encodings -/

/-- The byte `b` and the bytes `bs` start with the encoding of a character, which takes so many
    bytes after `b`.  The first byte tells how many these are, and no character is written with more
    of them than it needs. -/
inductive Starts : UInt8 → List UInt8 → Char → Nat → Prop where
  | one {b : UInt8} {bs : List UInt8} {c : Char} :
      b.toNat < 0x80 → c.toNat = b.toNat → Starts b bs c 0
  | two {b : UInt8} {bs : List UInt8} {c : Char} (x : Nat) :
      0xC0 ≤ b.toNat → b.toNat < 0xE0 → x < 64 → 0x80 ≤ c.toNat →
      c.toNat = (b.toNat - 0xC0) * 64 + x → Starts b (UInt8.ofNat (x + 128) :: bs) c 1
  | three {b : UInt8} {bs : List UInt8} {c : Char} (x y : Nat) :
      0xE0 ≤ b.toNat → b.toNat < 0xF0 → x < 64 → y < 64 → 0x800 ≤ c.toNat →
      c.toNat = ((b.toNat - 0xE0) * 64 + x) * 64 + y →
      Starts b (UInt8.ofNat (x + 128) :: UInt8.ofNat (y + 128) :: bs) c 2
  | four {b : UInt8} {bs : List UInt8} {c : Char} (x y z : Nat) :
      0xF0 ≤ b.toNat → b.toNat < 0xF8 → x < 64 → y < 64 → z < 64 → 0x10000 ≤ c.toNat →
      c.toNat = (((b.toNat - 0xF0) * 64 + x) * 64 + y) * 64 + z →
      Starts b (UInt8.ofNat (x + 128) :: UInt8.ofNat (y + 128) :: UInt8.ofNat (z + 128) :: bs) c 3

variable {b : UInt8} {bs : List UInt8} {c : Char} {n : Nat}

/-- What is read stands there. -/
theorem starts_of_head? (h : head? b bs = some (c, n)) : Starts b bs c n := by
  unfold head? at h
  -- the first byte tells how many follow
  simp only [UInt8.lt_iff_toNat_lt, UInt8.le_iff_toNat_le] at h
  split at h
  · rename_i hone
    obtain ⟨d, hd, heq⟩ := Option.map_eq_some_iff.1 h
    obtain ⟨rfl, rfl⟩ := Prod.mk.inj heq
    exact .one hone (of_scalar? hd).2
  split at h
  · rename_i htwo
    split at h
    · rename_i b₁ bs
      obtain ⟨x, hx, h⟩ := Option.bind_eq_some_iff.1 h
      obtain ⟨d, hd, heq⟩ := Option.bind_eq_some_iff.1 h
      obtain ⟨rfl, rfl⟩ := Prod.mk.inj (Option.some.inj heq)
      obtain ⟨hx', rfl⟩ := of_continuation? hx
      obtain ⟨hleast, hd⟩ := of_scalar? hd
      exact .two x htwo.1 htwo.2 hx' (hd ▸ hleast) hd
    · cases h
  split at h
  · rename_i hthree
    split at h
    · obtain ⟨x, hx, h⟩ := Option.bind_eq_some_iff.1 h
      obtain ⟨y, hy, h⟩ := Option.bind_eq_some_iff.1 h
      obtain ⟨d, hd, heq⟩ := Option.bind_eq_some_iff.1 h
      obtain ⟨rfl, rfl⟩ := Prod.mk.inj (Option.some.inj heq)
      obtain ⟨hx', rfl⟩ := of_continuation? hx
      obtain ⟨hy', rfl⟩ := of_continuation? hy
      obtain ⟨hleast, hd⟩ := of_scalar? hd
      exact .three x y hthree.1 hthree.2 hx' hy' (hd ▸ hleast) hd
    · cases h
  split at h
  · rename_i hfour
    split at h
    · obtain ⟨x, hx, h⟩ := Option.bind_eq_some_iff.1 h
      obtain ⟨y, hy, h⟩ := Option.bind_eq_some_iff.1 h
      obtain ⟨z, hz, h⟩ := Option.bind_eq_some_iff.1 h
      obtain ⟨d, hd, heq⟩ := Option.bind_eq_some_iff.1 h
      obtain ⟨rfl, rfl⟩ := Prod.mk.inj (Option.some.inj heq)
      obtain ⟨hx', rfl⟩ := of_continuation? hx
      obtain ⟨hy', rfl⟩ := of_continuation? hy
      obtain ⟨hz', rfl⟩ := of_continuation? hz
      obtain ⟨hleast, hd⟩ := of_scalar? hd
      exact .four x y z hfour.1 hfour.2 hx' hy' hz' (hd ▸ hleast) hd
    · cases h
  · cases h

/-- What stands there is read. -/
theorem Starts.head?_eq (h : Starts b bs c n) : head? b bs = some (c, n) := by
  unfold head?
  simp only [UInt8.lt_iff_toNat_lt, UInt8.le_iff_toNat_le, UInt8.reduceToNat]
  cases h with
  | one hb hc => rw [if_pos hb, ← hc, scalar?_toNat (Nat.zero_le _), Option.map_some]
  | two x hlow hhigh hx hleast hc =>
    rw [if_neg (by omega), if_pos ⟨hlow, hhigh⟩]
    simp only [continuation?_ofNat hx, ← hc, scalar?_toNat hleast, Option.bind_eq_bind,
      Option.bind_some]
    rfl
  | three x y hlow hhigh hx hy hleast hc =>
    rw [if_neg (by omega), if_neg (by omega), if_pos ⟨hlow, hhigh⟩]
    simp only [continuation?_ofNat hx, continuation?_ofNat hy, ← hc, scalar?_toNat hleast,
      Option.bind_eq_bind, Option.bind_some]
    rfl
  | four x y z hlow hhigh hx hy hz hleast hc =>
    rw [if_neg (by omega), if_neg (by omega), if_neg (by omega), if_pos ⟨hlow, hhigh⟩]
    simp only [continuation?_ofNat hx, continuation?_ofNat hy, continuation?_ofNat hz, ← hc,
      scalar?_toNat hleast, Option.bind_eq_bind, Option.bind_some]
    rfl

/-- No character has a larger number than this. -/
theorem toNat_lt (c : Char) : c.toNat < 0x110000 := by
  have hc : c.toNat.isValidChar := c.valid
  unfold Nat.isValidChar at hc
  omega

/-- An encoding that stands there is that of the character. -/
theorem Starts.encode_eq (h : Starts b bs c n) :
    String.utf8EncodeChar c = b :: bs.take n ∧ n ≤ bs.length := by
  have hvalid := toNat_lt c
  have hnat : c.val.toNat = c.toNat := rfl
  unfold String.utf8EncodeChar
  simp only [hnat]
  cases h with
  | one hb hc =>
    rw [if_pos (by omega), (ofNat_eq_iff (by omega)).2 hc]
    exact ⟨rfl, Nat.zero_le _⟩
  | two x hlow hhigh hx hleast hc =>
    -- the digits of the code point to base 64 are those that the bytes carry
    have hfirst : UInt8.ofNat (c.toNat / 64 % 32 + 192) = b :=
      (ofNat_eq_iff (by omega)).2 (by omega)
    have hlast : c.toNat % 64 = x := by omega
    rw [if_neg (by omega), if_pos (by omega), hfirst, hlast]
    simp
  | three x y hlow hhigh hx hy hleast hc =>
    have hfirst : UInt8.ofNat (c.toNat / 4096 % 16 + 224) = b :=
      (ofNat_eq_iff (by omega)).2 (by omega)
    have hmiddle : c.toNat / 64 % 64 = x := by omega
    have hlast : c.toNat % 64 = y := by omega
    rw [if_neg (by omega), if_neg (by omega), if_pos (by omega), hfirst, hmiddle, hlast]
    simp
  | four x y z hlow hhigh hx hy hz hleast hc =>
    have hfirst : UInt8.ofNat (c.toNat / 262144 % 8 + 240) = b :=
      (ofNat_eq_iff (by omega)).2 (by omega)
    have hsecond : c.toNat / 4096 % 64 = x := by omega
    have hthird : c.toNat / 64 % 64 = y := by omega
    have hlast : c.toNat % 64 = z := by omega
    rw [if_neg (by omega), if_neg (by omega), if_neg (by omega), hfirst, hsecond, hthird, hlast]
    simp

/-- The encoding of a character stands at the front of the text. -/
theorem exists_starts (c : Char) (bs : List UInt8) :
    ∃ b rest, String.utf8EncodeChar c = b :: rest ∧ Starts b (rest ++ bs) c rest.length := by
  have hvalid := toNat_lt c
  have hnat : c.val.toNat = c.toNat := rfl
  have hbyte : ∀ {n : Nat}, n < 256 → (UInt8.ofNat n).toNat = n :=
    fun hn => ((ofNat_eq_iff hn).1 rfl).symm
  unfold String.utf8EncodeChar
  simp only [hnat]
  split
  · have hb := hbyte (show c.toNat < 256 by omega)
    exact ⟨_, [], rfl, .one (by omega) hb.symm⟩
  split
  · have hb := hbyte (show c.toNat / 64 % 32 + 192 < 256 by omega)
    exact ⟨_, [_], rfl, .two _ (by omega) (by omega) (by omega) (by omega) (by omega)⟩
  split
  · have hb := hbyte (show c.toNat / 4096 % 16 + 224 < 256 by omega)
    exact ⟨_, [_, _], rfl,
      .three _ _ (by omega) (by omega) (by omega) (by omega) (by omega) (by omega)⟩
  · have hb := hbyte (show c.toNat / 262144 % 8 + 240 < 256 by omega)
    exact ⟨_, [_, _, _], rfl,
      .four _ _ _ (by omega) (by omega) (by omega) (by omega) (by omega) (by omega) (by omega)⟩

/-! ### Texts -/

/-- Bytes that belong to a character already read are passed over. -/
theorem decodeAfter_eq (n : Nat) (bs : List UInt8) :
    decodeAfter n bs = decodeAfter 0 (bs.drop n) := by
  induction bs generalizing n with
  | nil => cases n <;> rfl
  | cons b bs ih =>
    cases n with
    | zero => rfl
    | succ n => rw [decodeAfter, ih, List.drop_succ_cons]

/-- The encoding of a character is read as that character. -/
theorem decodeAfter_encode (c : Char) (bs : List UInt8) :
    decodeAfter 0 (String.utf8EncodeChar c ++ bs) = c :: decodeAfter 0 bs := by
  obtain ⟨b, rest, hencode, hstarts⟩ := exists_starts c bs
  rw [hencode, List.cons_append, decodeAfter, hstarts.head?_eq]
  simp only
  rw [decodeAfter_eq, List.drop_left]

end Utf8

variable {bs : List UInt8} {cs : List Char}

/-- **Reading.** What is read from bytes is what they say. -/
theorem decodes_decodeUtf8 (bs : List UInt8) : Decodes bs (decodeUtf8 bs) := by
  -- a character takes at least one byte, so what is left is shorter
  induction hn : bs.length using Nat.strongRecOn generalizing bs with
  | ind n ih =>
  subst hn
  cases bs with
  | nil => exact .nil
  | cons b bs =>
    rw [decodeUtf8, Utf8.decodeAfter]
    cases hhead : Utf8.head? b bs with
    | none =>
      refine .stray (fun c hprefix => ?_) (ih bs.length (by simp) bs rfl)
      obtain ⟨rest, hrest⟩ := hprefix
      obtain ⟨b', bs', hencode, hstarts⟩ := Utf8.exists_starts c rest
      rw [hencode, List.cons_append] at hrest
      obtain ⟨rfl, rfl⟩ := List.cons.inj hrest
      exact absurd (hhead.symm.trans hstarts.head?_eq) (by simp)
    | some read =>
      obtain ⟨c, n⟩ := read
      obtain ⟨hencode, _⟩ := (Utf8.starts_of_head? hhead).encode_eq
      have hbytes : b :: bs = String.utf8EncodeChar c ++ bs.drop n := by
        rw [hencode, List.cons_append, List.take_append_drop]
      simp only
      rw [hbytes, Utf8.decodeAfter_eq]
      have hshorter : (bs.drop n).length < (b :: bs).length := by
        rw [List.length_drop, List.length_cons]
        omega
      exact .char (ih (bs.drop n).length hshorter (bs.drop n) rfl)

/-- **One text only.** Bytes say the text that is read from them, and no other. -/
theorem decodes_iff : Decodes bs cs ↔ cs = decodeUtf8 bs := by
  constructor
  · intro h
    induction h with
    | nil => rfl
    | char _ ih => rw [decodeUtf8, Utf8.decodeAfter_encode, ih, decodeUtf8]
    | @stray b bs cs hnone _ ih =>
      rw [decodeUtf8, Utf8.decodeAfter]
      cases hhead : Utf8.head? b bs with
      | none => rw [ih, decodeUtf8]
      | some read =>
        obtain ⟨c, n⟩ := read
        obtain ⟨hencode, _⟩ := (Utf8.starts_of_head? hhead).encode_eq
        -- a character read here would have an encoding that starts here
        refine absurd ⟨bs.drop n, ?_⟩ (hnone c)
        rw [hencode, List.cons_append, List.take_append_drop]
  · rintro rfl
    exact decodes_decodeUtf8 bs

/-- **Writing and reading.** What is read from the encoding of a text is that text. -/
theorem decodeUtf8_encode (cs : List Char) :
    decodeUtf8 (cs.flatMap String.utf8EncodeChar) = cs := by
  induction cs with
  | nil => rfl
  | cons c cs ih => rw [List.flatMap_cons, decodeUtf8, Utf8.decodeAfter_encode, ← decodeUtf8, ih]

/-- The bytes that are still to be listed are listed after those that are. -/
theorem toList_loop (bs : ByteArray) (i : Nat) (r : List UInt8) :
    ByteArray.toList.loop bs i r = r.reverse ++ bs.data.toList.drop i := by
  fun_induction ByteArray.toList.loop bs i r with
  | case1 i r h ih =>
    have hi : i < bs.data.toList.length := h
    have hget : bs.get! i = bs.data.toList[i] := getElem!_pos bs.data i hi
    rw [ih, List.drop_eq_getElem_cons hi, List.reverse_cons, List.append_assoc, hget]
    rfl
  | case2 i r h =>
    have hi : bs.data.toList.length ≤ i := Nat.le_of_not_lt h
    rw [List.drop_eq_nil_of_le hi, List.append_nil]

/-- The bytes of a string are the encodings of its characters. -/
theorem toList_toUTF8 (s : String) : s.toUTF8.toList = s.toList.flatMap String.utf8EncodeChar := by
  rw [ByteArray.toList, toList_loop, String.toUTF8, ← String.utf8Encode_toList, List.utf8Encode]
  simp

theorem decodeUtf8_toUTF8 (s : String) : decodeUtf8 s.toUTF8.toList = s.toList := by
  rw [toList_toUTF8, decodeUtf8_encode]

end Decaf.Text
