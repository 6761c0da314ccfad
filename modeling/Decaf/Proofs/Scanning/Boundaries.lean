import Decaf.Proofs.Scanning.Tokens

namespace Decaf

/-!
# Where lexemes end

No lexeme runs over the end of a line, and only strings run over other white space.  So where white
space follows a lexeme, what comes after that has no part in what the lexeme is.

* `Lexeme.Lexical.newline_not_mem` — a lexeme stands on one line.
* `Lexeme.Lexical.not_isBlank` — a lexeme that is no string has no white space in it.
* `Lexeme.Lexical.of_rest` — what a lexeme needs to know of the text after it.
* `settled_cons_iff`, `Settled.of_append` — where no gap starts, and what that depends on.
* `Split.newline_not_mem` — every lexeme that is read stands on one line.
-/

/-! ### The characters of lexemes -/

/-- No white space is part of a word. -/
theorem not_isBlank_of_isWordChar {c : Char} (h : isWordChar c) : ¬ Text.isBlank c := by
  simp only [isWordChar, Char.isAlphanum, Bool.or_eq_true, isAlpha_iff, Char.isDigit_iff_toNat,
    decide_eq_true_eq] at h
  simp only [Text.isBlank, Bool.or_eq_true, Bool.and_eq_true, decide_eq_true_eq, beq_iff_eq]
  rcases h with h | rfl
  · simp only [Char.reduceToNat] at h
    omega
  · decide

theorem isWordChar_of_isAlpha {c : Char} (h : c.isAlpha) : isWordChar c := by
  simp [isWordChar, Char.isAlphanum, h]

theorem isWordChar_of_isDigit {c : Char} (h : c.isDigit) : isWordChar c := by
  simp [isWordChar, Char.isAlphanum, h]

theorem isWordChar_of_isHexDigit {c : Char} (h : isHexDigit c) : isWordChar c := by
  simp only [isHexDigit, Bool.or_eq_true, Bool.and_eq_true, decide_eq_true_eq, Char.le_def,
    UInt32.le_iff_toNat_le] at h
  rcases h with (hdigit | hlower) | hupper
  · exact isWordChar_of_isDigit hdigit
  · refine isWordChar_of_isAlpha ?_
    simp [isAlpha_iff] at hlower ⊢
    omega
  · refine isWordChar_of_isAlpha ?_
    simp [isAlpha_iff] at hupper ⊢
    omega

namespace Lexeme

variable {x : Lexeme} {rest : List Char}

/-- A string, closed or not. -/
def isString : Lexeme → Bool
  | quoted _ | unclosed _ => true
  | _ => false

theorem Exponent.not_isBlank {es : List Char} (h : Exponent es) : ∀ c ∈ es, ¬ Text.isBlank c := by
  cases h with
  | none => simp
  | @some e s ds he hs hds =>
    have hletter : ¬ Text.isBlank e := by rcases he with rfl | rfl <;> decide
    have hsign : ¬ Text.isBlank s := by
      rcases hs with hs | rfl | rfl
      · exact not_isBlank_of_isWordChar (isWordChar_of_isDigit hs)
      · decide
      · decide
    refine List.forall_mem_cons.2 ⟨hletter, List.forall_mem_cons.2 ⟨hsign, fun d hd => ?_⟩⟩
    exact not_isBlank_of_isWordChar (isWordChar_of_isDigit (hds d hd))

/-- **White space.** A lexeme that is no string has no white space in it. -/
theorem Lexical.not_isBlank (h : Lexical x rest) (hx : x.isString = false) :
    ∀ c ∈ x.text, ¬ Text.isBlank c := by
  have hdigits : ∀ {ds : List Char}, (∀ d ∈ ds, d.isDigit) → ∀ d ∈ ds, ¬ Text.isBlank d := by
    intro ds hds d hd
    exact not_isBlank_of_isWordChar (isWordChar_of_isDigit (hds d hd))
  cases h with
  | word hc hds =>
    refine List.forall_mem_cons.2 ⟨not_isBlank_of_isWordChar (isWordChar_of_isAlpha hc),
      fun d hd => ?_⟩
    exact not_isBlank_of_isWordChar (hds d hd)
  | decimal _ hds => exact hdigits hds
  | @hexadecimal e ds _ he hds =>
    have hletter : ¬ Text.isBlank e := by rcases he with rfl | rfl <;> decide
    refine List.forall_mem_cons.2 ⟨by decide, List.forall_mem_cons.2 ⟨hletter, fun d hd => ?_⟩⟩
    exact not_isBlank_of_isWordChar (isWordChar_of_isHexDigit (hds d hd))
  | double _ hds hfs hes =>
    refine List.forall_mem_append.2 ⟨hdigits hds, List.forall_mem_cons.2 ⟨by decide, ?_⟩⟩
    exact List.forall_mem_append.2 ⟨hdigits hfs, hes.not_isBlank⟩
  | quoted | unclosed => cases hx
  | mark m =>
    cases m <;> simp [text, Mark.spelling] <;> decide

/-- **Lines.** A lexeme stands on one line. -/
theorem Lexical.newline_not_mem (h : Lexical x rest) : '\n' ∉ x.text := by
  cases hx : x.isString with
  | false => exact fun hmem => h.not_isBlank hx '\n' hmem (by decide)
  | true =>
    cases h with
    | quoted hbody => simpa [text] using fun hmem => (hbody '\n' hmem).2 rfl
    | unclosed hbody => simpa [text] using fun hmem => (hbody '\n' hmem).2 rfl
    | _ => cases hx

/-- Whether a lexeme is one of the grammar depends on the text after it only if it is a string that
    is not closed: there a line has to end. -/
theorem Lexical.of_rest {rest' : List Char} (h : Lexical x rest)
    (hend : ∀ body, x = Lexeme.unclosed body → (rest = [] ∨ ∃ more, rest = '\n' :: more) →
      rest' = [] ∨ ∃ more, rest' = '\n' :: more) : Lexical x rest' := by
  cases h with
  | word hc hds => exact .word hc hds
  | decimal hne hds => exact .decimal hne hds
  | hexadecimal hx hds => exact .hexadecimal hx hds
  | double hne hds hfs hes => exact .double hne hds hfs hes
  | quoted hbody => exact .quoted hbody
  | unclosed hbody hrest => exact .unclosed hbody (hend _ rfl hrest)
  | mark m => exact .mark m

end Lexeme

/-! ### Settled texts -/

/-- A text is settled where neither white space nor a comment starts. -/
theorem settled_cons_iff {c : Char} {s : List Char} :
    Settled (c :: s) ↔ ¬ Text.isBlank c ∧ ¬ ['/', '/'] <+: c :: s ∧ ¬ ['/', '*'] <+: c :: s := by
  rw [settled_iff]
  constructor
  · intro h
    -- each of the three would put a character into the gap
    refine ⟨fun hblank => ?_, ?_, ?_⟩
    · rw [gap_blank hblank] at h
      cases h
    · rintro ⟨more, hmore⟩
      rw [← hmore, List.cons_append, List.singleton_append, gap_line] at h
      cases h
    · rintro ⟨more, hmore⟩
      rw [← hmore, List.cons_append, List.singleton_append, gap, gapFrom] at h
      cases h
  · rintro ⟨hblank, hline, hblock⟩
    exact gap_eq_nil hblank hline hblock

/-- Whether a comment starts with a slash is seen from the next character, so a text stays settled
    if something else follows its front, as long as that does not make a comment of it. -/
theorem Settled.of_append {u rest rest' : List Char} (h : Settled (u ++ rest)) (hu : u ≠ [])
    (hrest : ∀ d ∈ rest'.head?, d ≠ '/' ∧ d ≠ '*') : Settled (u ++ rest') := by
  obtain ⟨c, s, rfl⟩ := List.exists_cons_of_ne_nil hu
  rw [List.cons_append, settled_cons_iff] at h ⊢
  obtain ⟨hblank, hline, hblock⟩ := h
  -- two characters at the front are both of `u`, or the second one is the first that follows it
  have hfront : ∀ d, d = '/' ∨ d = '*' → ['/', d] <+: c :: (s ++ rest') →
      ['/', d] <+: c :: (s ++ rest) := by
    intro d hd hprefix
    obtain ⟨hc, hprefix⟩ := List.cons_prefix_cons.1 hprefix
    refine List.cons_prefix_cons.2 ⟨hc, ?_⟩
    cases s with
    | nil =>
      cases rest' with
      | nil => simp at hprefix
      | cons e more =>
        obtain ⟨rfl, _⟩ := List.cons_prefix_cons.1 hprefix
        have he := hrest d rfl
        rcases hd with rfl | rfl
        · exact absurd rfl he.1
        · exact absurd rfl he.2
    | cons e s => simpa using hprefix
  exact ⟨hblank, fun hprefix => hline (hfront '/' (.inl rfl) hprefix),
    fun hprefix => hblock (hfront '*' (.inr rfl) hprefix)⟩

/-! ### The lexemes that are read -/

/-- The lexeme that is read in a settled text stands on one line. -/
theorem Lexeme.IsFirst.newline_not_mem {x : Lexeme} {rest : List Char} (h : x.IsFirst rest)
    (hsettled : Settled (x.text ++ rest)) : '\n' ∉ x.text := by
  cases h with
  | longest hlexical _ => exact hlexical.newline_not_mem
  | @stray c _ _ =>
    have hblank : ¬ Text.isBlank c := (settled_cons_iff.1 hsettled).1
    rintro hmem
    obtain rfl : '\n' = c := List.mem_singleton.1 hmem
    exact hblank (by decide)

/-- Every lexeme that is read stands on one line. -/
theorem Split.newline_not_mem {text last : List Char} {qs : List Piece} (h : Split text qs last) :
    ∀ q ∈ qs, '\n' ∉ q.lexeme.text := by
  induction h with
  | last => simp
  | piece _ hsettled hfirst _ ih =>
    exact List.forall_mem_cons.2 ⟨hfirst.newline_not_mem hsettled, ih⟩

end Decaf
