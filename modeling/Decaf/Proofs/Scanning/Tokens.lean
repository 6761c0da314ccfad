import Decaf.Proofs.Scanning.Gaps
import Decaf.Proofs.Scanning.LongestMatch
import Mathlib.Data.List.Induction
import Mathlib.Data.Nat.Digits.Defs

namespace Decaf

/-!
# Scanning a whole text

A text is a row of pieces, each a gap and the lexeme after it, and a last gap.  Nothing of it is
lost, and there is one way only to split it so: every gap is as long as it can be, and so is every
lexeme.  The tokens of a text are those of its lexemes, one for each.

* `Lexeme.Yields` — the kind and the text of the token that a lexeme becomes.
* `Split` — the pieces of a text.
* `exists_split`, `Split.unique` — every text is split in just one way.
* `Delivered` — the tokens that pieces become.
* `tokens_longest_match` — the tokens of a text are those of its pieces.
-/

/-! ### The token of a lexeme -/

/-- Digits write the number that they do in positional notation. -/
theorem numeralValue_eq_ofDigits (base : Nat) (ds : List Char) :
    numeralValue base ds = Nat.ofDigits base (ds.reverse.map digitValue) := by
  induction ds using List.reverseRecOn with
  | nil => rfl
  | append_singleton ds d ih =>
    have hstep : numeralValue base (ds ++ [d]) = numeralValue base ds * base + digitValue d := by
      simp [numeralValue, List.foldl_append]
    rw [hstep, ih, List.reverse_append, List.reverse_singleton, List.singleton_append,
      List.map_cons, Nat.ofDigits_cons]
    simp [Nat.mul_comm, Nat.add_comm]

namespace Lexeme

/-- Digits that write a number that fits. -/
def Fits (base : Nat) (ds : List Char) : Prop :=
  ds ≠ [] ∧ Nat.ofDigits base (ds.reverse.map digitValue) ≤ 2147483647

/-- The kind and the text of the token that a lexeme at `p` becomes. -/
inductive Yields (p : Position) : Lexeme → TokenKind → String → Prop where
  | keyword (k : Keyword) : Yields p (word k.spelling.toList) (.keyword k) k.spelling
  | boolean {w : String} : w = "true" ∨ w = "false" → Yields p (word w.toList) .boolConst w
  | name {w : String} :
      (∀ k : Keyword, w ≠ k.spelling) → w ≠ "true" → w ≠ "false" → w.length ≤ 31 →
      Yields p (word w.toList) .ident w
  | longName {w : String} :
      31 < w.length → Yields p (word w.toList) .error ("Identifier too long: " ++ w)
  | decimal {ds : List Char} : Fits 10 ds → Yields p (decimal ds) .intConst (String.ofList ds)
  | decimalRange {ds : List Char} :
      ¬ Fits 10 ds → Yields p (decimal ds) .error "Number out of range"
  | hexadecimal {x : Char} {ds : List Char} :
      Fits 16 ds → Yields p (hexadecimal x ds) .intConst (String.ofList ('0' :: x :: ds))
  | hexadecimalRange {x : Char} {ds : List Char} :
      ¬ Fits 16 ds → Yields p (hexadecimal x ds) .error "Number out of range"
  | double (cs : List Char) : Yields p (double cs) .doubleConst (String.ofList cs)
  /-- The text of a string is what stands between its quotes. -/
  | quoted (body : List Char) : Yields p (quoted body) .strConst (String.ofList body)
  | unclosed (body : List Char) :
      Yields p (unclosed body) .error
        ("unterminated string constant at line " ++ toString p.line ++
          ", column " ++ toString p.column)
  | mark (m : Mark) : Yields p (mark m) (.mark m) (String.ofList m.spelling)
  | stray (c : Char) : Yields p (stray c) .error ("Unexpected character: " ++ String.ofList [c])

/-- No keyword is too long for a name, or one of the two constants. -/
theorem spelling_keyword (k : Keyword) :
    k.spelling.length ≤ 31 ∧ k.spelling ≠ "true" ∧ k.spelling ≠ "false" := by
  cases k <;> decide

theorem ofWord?_spelling (k : Keyword) : Keyword.ofWord? k.spelling = some k := by
  cases k <;> decide

theorem ofWord?_eq_none_iff {w : String} :
    Keyword.ofWord? w = none ↔ ∀ k : Keyword, w ≠ k.spelling := by
  have hall : ∀ k : Keyword, k ∈ Keyword.all := by
    intro k
    cases k <;> decide
  rw [Keyword.ofWord?, List.find?_eq_none]
  constructor
  · intro h k heq
    exact h k (hall k) (decide_eq_true heq.symm)
  · intro h k _ heq
    exact h k (of_decide_eq_true heq).symm

/-- A number that fits is an integer constant. -/
theorem integerToken_of_fits {base : Nat} {ds : List Char} (h : Fits base ds) (literal : String) :
    integerToken base ds literal = (.intConst, literal) := by
  rw [Fits, ← numeralValue_eq_ofDigits] at h
  rw [integerToken, maxInt, if_pos h]

/-- A number that does not fit is reported. -/
theorem integerToken_of_not_fits {base : Nat} {ds : List Char} (h : ¬ Fits base ds)
    (literal : String) : integerToken base ds literal = (.error, "Number out of range") := by
  rw [Fits, ← numeralValue_eq_ofDigits] at h
  rw [integerToken, maxInt, if_neg h]

variable {p : Position} {x : Lexeme} {kind : TokenKind} {literal : String}

/-- **The token of a lexeme.** It has the kind and the text that the lexeme yields. -/
theorem Yields.token_eq (h : Yields p x kind literal) : x.token p = ⟨kind, literal, p⟩ := by
  cases h with
  | keyword k => simp [token, wordToken, ofWord?_spelling]
  | boolean hw =>
    have hkeyword : Keyword.ofWord? literal = none := by rcases hw with rfl | rfl <;> decide
    simp [token, wordToken, hkeyword, hw]
  | name hword htrue hfalse hlength =>
    have hshort : ¬ 31 < literal.length := by omega
    simp [token, wordToken, ofWord?_eq_none_iff.2 hword, htrue, hfalse, maxWordLength, hshort]
  | @longName w hlength =>
    -- keywords and constants are short
    have hword : ∀ k : Keyword, w ≠ k.spelling := by
      rintro k rfl
      have hk := (spelling_keyword k).1
      omega
    have hconst : ¬ (w = "true" ∨ w = "false") := by
      rintro (rfl | rfl) <;> exact absurd hlength (by decide)
    simp [token, wordToken, ofWord?_eq_none_iff.2 hword, hconst, maxWordLength, hlength]
    rfl
  | decimal hfits => simp [token, integerToken_of_fits hfits]
  | decimalRange hfits => simp [token, integerToken_of_not_fits hfits]
  | hexadecimal hfits => simp [token, integerToken_of_fits hfits, text]
  | hexadecimalRange hfits => simp [token, integerToken_of_not_fits hfits]
  | double cs => rfl
  | quoted body => rfl
  | unclosed body => rfl
  | mark m => rfl
  | stray c => rfl

/-- Every lexeme yields a token. -/
theorem exists_yields (p : Position) (x : Lexeme) : ∃ kind literal, Yields p x kind literal := by
  cases x with
  | word letters =>
    obtain ⟨w, rfl⟩ : ∃ w : String, w.toList = letters :=
      ⟨String.ofList letters, String.toList_ofList⟩
    -- the cases are tried in the order in which words are classified
    by_cases hkeyword : ∃ k : Keyword, w = k.spelling
    · obtain ⟨k, rfl⟩ := hkeyword
      exact ⟨_, _, .keyword k⟩
    by_cases hconst : w = "true" ∨ w = "false"
    · exact ⟨_, _, .boolean hconst⟩
    by_cases hlength : w.length ≤ 31
    · rw [not_exists] at hkeyword
      rw [not_or] at hconst
      exact ⟨_, _, .name hkeyword hconst.1 hconst.2 hlength⟩
    · exact ⟨_, _, .longName (by omega)⟩
  | decimal ds =>
    by_cases hfits : Fits 10 ds
    · exact ⟨_, _, .decimal hfits⟩
    · exact ⟨_, _, .decimalRange hfits⟩
  | hexadecimal c ds =>
    by_cases hfits : Fits 16 ds
    · exact ⟨_, _, .hexadecimal hfits⟩
    · exact ⟨_, _, .hexadecimalRange hfits⟩
  | double cs => exact ⟨_, _, .double cs⟩
  | quoted body => exact ⟨_, _, .quoted body⟩
  | unclosed body => exact ⟨_, _, .unclosed body⟩
  | mark m => exact ⟨_, _, .mark m⟩
  | stray c => exact ⟨_, _, .stray c⟩

/-- No lexeme yields the end of the text. -/
theorem Yields.kind_ne_eof (h : Yields p x kind literal) : kind ≠ .eof := by
  cases h <;> simp

/-- Only a report tells where the lexeme is. -/
theorem Yields.of_ne_error (h : Yields p x kind literal) (hkind : kind ≠ .error) (q : Position) :
    Yields q x kind literal := by
  cases h with
  | keyword k => exact .keyword k
  | boolean hw => exact .boolean hw
  | name hword htrue hfalse hlength => exact .name hword htrue hfalse hlength
  | decimal hfits => exact .decimal hfits
  | hexadecimal hfits => exact .hexadecimal hfits
  | double cs => exact .double cs
  | quoted body => exact .quoted body
  | mark m => exact .mark m
  | longName | decimalRange | hexadecimalRange | unclosed | stray => exact absurd rfl hkind

end Lexeme

/-! ### The pieces of a text -/

/-- A gap, and the lexeme after it. -/
structure Piece where
  gap : List Char
  lexeme : Lexeme

/-- The characters of a piece, as they stand in the source. -/
def Piece.text (q : Piece) : List Char :=
  q.gap ++ q.lexeme.text

/-- The pieces of a text, and its last gap.  Where a gap ends no more of a gap follows, and the
    lexeme there is the longest one. -/
inductive Split : List Char → List Piece → List Char → Prop where
  | last {g : List Char} : Gap g [] → Split g [] g
  | piece {g rest last : List Char} {x : Lexeme} {qs : List Piece} :
      Gap g (x.text ++ rest) → Settled (x.text ++ rest) → x.IsFirst rest → Split rest qs last →
      Split (g ++ (x.text ++ rest)) (⟨g, x⟩ :: qs) last

variable {text rest last last' : List Char} {qs qs' : List Piece}

/-- The lexeme that is read has at least one character. -/
theorem Lexeme.IsFirst.text_ne_nil {x : Lexeme} (h : x.IsFirst rest) : x.text ≠ [] := by
  cases h with
  | longest hlexical _ => exact hlexical.text_ne_nil
  | stray _ => exact List.cons_ne_nil _ _

/-- **Nothing is lost.** A text is its pieces and its last gap, in a row. -/
theorem Split.text_eq (h : Split text qs last) : text = qs.flatMap Piece.text ++ last := by
  induction h with
  | last => rfl
  | piece _ _ _ _ ih => simp [Piece.text, ← ih]

/-- Every piece has a lexeme with at least one character. -/
theorem Split.lexeme_ne_nil (h : Split text qs last) : ∀ q ∈ qs, q.lexeme.text ≠ [] := by
  induction h with
  | last => simp
  | piece _ _ hfirst _ ih => exact List.forall_mem_cons.2 ⟨hfirst.text_ne_nil, ih⟩

/-- Every text can be split. -/
theorem exists_split (text : List Char) : ∃ qs last, Split text qs last := by
  -- a lexeme is not empty, so what follows it is shorter
  induction hn : text.length using Nat.strongRecOn generalizing text with
  | ind n ih =>
  subst hn
  obtain ⟨rest, htext, hgap, hsettled⟩ := gap_eq_iff.1 (rfl : gap text = gap text)
  cases rest with
  | nil =>
    rw [List.append_nil] at htext
    exact ⟨[], text, .last (htext ▸ hgap)⟩
  | cons c s =>
    obtain ⟨after, hafter⟩ := Lexeme.text_first_prefix c s
    have hpos := List.length_pos_iff.2 (Lexeme.text_first_ne_nil c s)
    have hlength : after.length < text.length := by
      rw [htext, ← hafter]
      simp only [List.length_append]
      omega
    obtain ⟨qs, last, hsplit⟩ := ih after.length hlength after rfl
    rw [← hafter] at htext hgap hsettled
    rw [htext]
    exact ⟨_, last, .piece hgap hsettled (Lexeme.isFirst_first hafter.symm) hsplit⟩

/-- Where a text is split first: not at all, or after the gap at its front and the lexeme there. -/
theorem Split.front (h : Split text qs last) :
    (gap text = text ∧ qs = [] ∧ last = text) ∨
      ∃ x rest qs₁, text = gap text ++ (x.text ++ rest) ∧ x.IsFirst rest ∧
        qs = ⟨gap text, x⟩ :: qs₁ ∧ Split rest qs₁ last := by
  cases h with
  | last hgap =>
    exact .inl ⟨hgap.gap_eq_self, rfl, rfl⟩
  | @piece g rest _ x qs₁ hgap hsettled hfirst hsplit =>
    rw [hgap.gap_eq hsettled]
    exact .inr ⟨x, rest, qs₁, rfl, hfirst, rfl, hsplit⟩

/-- The longest lexeme at the front of a text is one only. -/
theorem Lexeme.IsFirst.unique {x y : Lexeme} {after : List Char} (hx : x.IsFirst rest)
    (hy : y.IsFirst after) (h : x.text ++ rest = y.text ++ after) : x = y ∧ rest = after := by
  obtain ⟨c, s, htext⟩ := List.exists_cons_of_ne_nil hx.text_ne_nil
  have hs : c :: (s ++ rest) = x.text ++ rest := by rw [htext, List.cons_append]
  have heq : x = y := (hx.eq_first hs).trans (hy.eq_first (hs.trans h)).symm
  subst heq
  exact ⟨rfl, List.append_cancel_left h⟩

/-- **One way only.** A text is split in just one way. -/
theorem Split.unique (h : Split text qs last) (h' : Split text qs' last') :
    qs' = qs ∧ last' = last := by
  induction h generalizing qs' last' with
  | @last g hgap =>
    rcases h'.front with ⟨_, hqs, hlast⟩ | ⟨x, rest, _, htext, hfirst, _⟩
    · exact ⟨hqs, hlast⟩
    · -- all of the text is a gap, so there is no room for a lexeme after it
      rw [hgap.gap_eq_self, List.self_eq_append_right, List.append_eq_nil_iff] at htext
      exact absurd htext.1 hfirst.text_ne_nil
  | @piece g rest last x qs hgap hsettled hfirst _ ih =>
    have hg : gap (g ++ (x.text ++ rest)) = g := hgap.gap_eq hsettled
    rcases h'.front with ⟨htext, _⟩ | ⟨y, after, qs₁, htext, hfirst', rfl, hsplit⟩
    · rw [hg, List.self_eq_append_right, List.append_eq_nil_iff] at htext
      exact absurd htext.1 hfirst.text_ne_nil
    · rw [hg] at htext ⊢
      obtain ⟨rfl, rfl⟩ := hfirst.unique hfirst' (List.append_cancel_left htext)
      obtain ⟨rfl, rfl⟩ := ih hsplit
      exact ⟨rfl, rfl⟩

/-! ### The tokens of a text -/

/-- The tokens that pieces become, where the first one stands at `p`. -/
inductive Delivered : Position → List Piece → List Token → Prop where
  | nil {p : Position} : Delivered p [] []
  | cons {p : Position} {q : Piece} {qs : List Piece} {kind : TokenKind} {literal : String}
      {ts : List Token} :
      q.lexeme.Yields (p.afterAll q.gap) kind literal → Delivered (p.afterAll q.text) qs ts →
      Delivered p (q :: qs) (⟨kind, literal, p.afterAll q.gap⟩ :: ts)

variable {p : Position} {ts : List Token}

theorem exists_delivered (p : Position) (qs : List Piece) : ∃ ts, Delivered p qs ts := by
  induction qs generalizing p with
  | nil => exact ⟨[], .nil⟩
  | cons q qs ih =>
    obtain ⟨kind, literal, hyields⟩ := q.lexeme.exists_yields (p.afterAll q.gap)
    obtain ⟨ts, hts⟩ := ih (p.afterAll q.text)
    exact ⟨_, .cons hyields hts⟩

theorem Delivered.kind_ne_eof (h : Delivered p qs ts) : ∀ t ∈ ts, t.kind ≠ .eof := by
  induction h with
  | nil => simp
  | cons hyields _ ih => exact List.forall_mem_cons.2 ⟨hyields.kind_ne_eof, ih⟩

namespace Source

/-- After a last gap is the end of the text. -/
theorem next_of_gap {g : List Char} (h : Gap g []) (p : Position) :
    (⟨g, p⟩ : Source).next.1 = ⟨.eof, "", p.afterAll g⟩ := by
  simp [next, skip, take, h.gap_eq_self]

/-- A piece at the front of a text is read: its gap is passed over, and its lexeme becomes a
    token. -/
theorem next_of_piece {g rest : List Char} {x : Lexeme} (hgap : Gap g (x.text ++ rest))
    (hsettled : Settled (x.text ++ rest)) (hfirst : x.IsFirst rest) (p : Position) :
    (⟨g ++ (x.text ++ rest), p⟩ : Source).next =
      (x.token (p.afterAll g), ⟨rest, (p.afterAll g).afterAll x.text⟩) := by
  obtain ⟨c, s, htext⟩ := List.exists_cons_of_ne_nil hfirst.text_ne_nil
  have hs : c :: (s ++ rest) = x.text ++ rest := by rw [htext, List.cons_append]
  -- the longest match of what is left is the lexeme
  have hx : Lexeme.first c (s ++ rest) = x := (hfirst.eq_first hs).symm
  have hread : (⟨x.text ++ rest, p.afterAll g⟩ : Source).take =
      (x.token (p.afterAll g), ⟨rest, (p.afterAll g).afterAll x.text⟩) := by
    have htake : (⟨c :: (s ++ rest), p.afterAll g⟩ : Source).take =
        (x.token (p.afterAll g), (⟨c :: (s ++ rest), p.afterAll g⟩ : Source).skip x.text) := by
      rw [← hx]
      rfl
    rw [← hs, htake, hs, skip, List.drop_left]
  have hskip : (⟨g ++ (x.text ++ rest), p⟩ : Source).skip g = ⟨x.text ++ rest, p.afterAll g⟩ := by
    rw [skip, List.drop_left]
  rw [next, hgap.gap_eq hsettled, hskip, hread]

theorem tokens_eq (s : Source) :
    s.tokens = if s.next.1.kind = .eof then [s.next.1] else s.next.1 :: s.next.2.tokens := by
  rw [tokens]
  split
  rename_i t s' h
  simp [h]

theorem tokens_congr {s s' : Source} (h : s.next = s'.next) : s.tokens = s'.tokens := by
  rw [tokens_eq s, tokens_eq s', h]

/-- A gap may as well be passed over before the next token is read. -/
theorem next_of_gap_append {g rest : List Char} (h : Gap g rest) (p : Position) :
    (⟨g ++ rest, p⟩ : Source).next = (⟨rest, p.afterAll g⟩ : Source).next := by
  simp [next, skip, h.gap_append, Position.afterAll_append, List.drop_length_add_append]

/-- **Scanning.** The tokens of a text are those of its pieces, and the end. -/
theorem tokens_of_split (h : Split text qs last) (hts : Delivered p qs ts) :
    (⟨text, p⟩ : Source).tokens = ts ++ [⟨.eof, "", p.afterAll text⟩] := by
  induction h generalizing p ts with
  | last hgap =>
    cases hts
    rw [tokens_eq, next_of_gap hgap, if_pos rfl, List.nil_append]
  | piece hgap hsettled hfirst _ ih =>
    cases hts with
    | cons hyields hts =>
      rw [tokens_eq, next_of_piece hgap hsettled hfirst, hyields.token_eq,
        if_neg hyields.kind_ne_eof]
      -- the next piece starts where the lexeme ends
      rw [Piece.text, Position.afterAll_append] at hts
      rw [ih hts, Position.afterAll_append, Position.afterAll_append, List.cons_append]

end Source

/-- **Longest match.** The characters of a source up to the first one with code zero are split in
    just one way, into pieces of white space and comments and a longest lexeme each, and a last gap.
    No character is lost.  The tokens before the end are those of the lexemes. -/
theorem tokens_longest_match (cs : List Char) :
    ∃ qs last ts, Split (cs.takeWhile (· ≠ '\x00')) qs last ∧
      (∀ qs' last', Split (cs.takeWhile (· ≠ '\x00')) qs' last' → qs' = qs ∧ last' = last) ∧
      cs.takeWhile (· ≠ '\x00') = qs.flatMap Piece.text ++ last ∧
      (∀ q ∈ qs, q.lexeme.text ≠ []) ∧ Delivered .start qs ts ∧ (∀ t ∈ ts, t.kind ≠ .eof) ∧
      (Source.ofChars cs).tokens =
        ts ++ [⟨.eof, "", Position.start.afterAll (cs.takeWhile (· ≠ '\x00'))⟩] := by
  obtain ⟨qs, last, hsplit⟩ := exists_split (cs.takeWhile (· ≠ '\x00'))
  obtain ⟨ts, hts⟩ := exists_delivered .start qs
  refine ⟨qs, last, ts, hsplit, ?_, hsplit.text_eq, hsplit.lexeme_ne_nil, hts, hts.kind_ne_eof, ?_⟩
  · intro qs' last' hsplit'
    exact hsplit.unique hsplit'
  · exact Source.tokens_of_split hsplit hts

end Decaf
