import Decaf.Proofs.Scanning.Spans

namespace Decaf

/-!
# Scanning what was scanned

Tokens that are written one after another, with a blank between them, are read again as the same
tokens.  A blank, or the end of the text, leaves no choice: a lexeme that ran on over it would be a
string, and a string ends at its second quote.

* `Lexeme.Lexical.isFirst_of_blank` — in front of a blank every lexeme of the grammar is the one
  that is read.
* `Token.StandsIn` — a token is read from a lexeme of a text.
* `Source.tokens_written` — such a token, written in front of a blank, is read again.
* `tokens_rewritten` — the tokens of any text, written with blanks between them.
-/

/-! ### In front of a blank -/

namespace Lexeme

variable {x y : Lexeme} {rest after : List Char}

/-- The lexemes that start with a quote are the strings. -/
theorem Lexical.isString_iff (h : Lexical x rest) :
    x.isString = true ↔ x.text.head? = some '"' := by
  have hdigit : ∀ {d : Char}, d.isDigit → d ≠ '"' := by
    rintro _ hd rfl
    exact absurd hd (by decide)
  -- no lexeme but a string starts with a quote
  cases h with
  | @word c ds _ hc =>
    have hne : c ≠ '"' := by
      rintro rfl
      exact absurd hc (by decide)
    simp [isString, text, hne]
  | @decimal ds _ hne hds =>
    obtain ⟨d, ds, rfl⟩ := List.exists_cons_of_ne_nil hne
    simp [isString, text, hdigit (hds d List.mem_cons_self)]
  | hexadecimal => simp [isString, text]
  | @double ds _ _ _ hne hds =>
    obtain ⟨d, ds, rfl⟩ := List.exists_cons_of_ne_nil hne
    simp [isString, text, hdigit (hds d List.mem_cons_self)]
  | quoted | unclosed => simp [isString, text]
  | mark m => cases m <;> decide

/-- No string runs on after the quote that closes another. -/
theorem Lexical.eq_nil_of_quoted {body w : List Char} (h : Lexical y after)
    (hy : y.text = (Lexeme.quoted body).text ++ w) : w = [] := by
  have hstring : y.isString = true := h.isString_iff.2 (by rw [hy]; rfl)
  cases h with
  | @quoted body' _ hbody =>
    have htail : body' ++ ['"'] = body ++ '"' :: w := by simpa [text] using hy
    rcases List.eq_nil_or_concat w with hw | ⟨v, c, rfl⟩
    · exact hw
    · have hsame : body' ++ ['"'] = (body ++ '"' :: v) ++ [c] := by simpa using htail
      obtain ⟨hinner, _⟩ := List.append_inj' hsame rfl
      exact absurd rfl (hbody '"' (by simp [hinner])).1
  | @unclosed body' _ hbody =>
    have hinner : body' = body ++ '"' :: w := by simpa [text] using hy
    exact absurd rfl (hbody '"' (by simp [hinner])).1
  | _ => cases hstring

/-- **Blanks.** In front of a blank, or of nothing, every lexeme of the grammar is the one that is
    read, unless it is a string that is not closed. -/
theorem Lexical.isFirst_of_blank (h : Lexical x rest) (hopen : ∀ body, x ≠ Lexeme.unclosed body)
    (hrest : ∀ d ∈ rest.head?, Text.isBlank d) : IsFirst x rest := by
  refine .longest h fun y after hy hafter => ?_
  rcases List.append_eq_append_iff.1 hy with ⟨w, hw, hblank⟩ | ⟨w, hw, _⟩
  · cases w with
    | nil => simp [hw]
    | cons d w =>
      -- `y` runs on over the blank, so it is a string, and `x`, which starts as it does, is one too
      have hd : Text.isBlank d := hrest d (by simp [hblank])
      have hystring : y.isString = true := by
        by_contra hno
        exact hafter.not_isBlank (Bool.eq_false_iff.2 hno) d (by simp [hw]) hd
      have hhead : x.text.head? = some '"' := by
        obtain ⟨c, s, hs⟩ := List.exists_cons_of_ne_nil h.text_ne_nil
        simpa [hw, hs] using hafter.isString_iff.1 hystring
      have hxstring : x.isString = true := h.isString_iff.2 hhead
      cases x with
      | quoted body => cases hafter.eq_nil_of_quoted hw
      | unclosed body => exact absurd rfl (hopen body)
      | _ => cases hxstring
  · simp [hw]

end Lexeme

/-- Strings that are not closed and single characters are only reported. -/
theorem Lexeme.Yields.ne_unclosed_and_ne_stray {p : Position} {x : Lexeme} {kind : TokenKind}
    {literal : String} (h : x.Yields p kind literal) (hkind : kind ≠ .error) :
    (∀ body, x ≠ .unclosed body) ∧ ∀ c, x ≠ .stray c := by
  cases h with
  | unclosed | stray => exact absurd rfl hkind
  | _ => simp

/-! ### Writing tokens -/

/-- The tokens as they stand in a source, with a blank between each two. -/
def Token.writeAll (ts : List Token) : String :=
  " ".intercalate (ts.map sourceText)

theorem Token.toList_writeAll (ts : List Token) :
    (writeAll ts).toList = [' '].intercalate (ts.map (·.sourceText.toList)) := by
  simp [writeAll, String.toList_intercalate, Function.comp_def]

theorem Token.toList_writeAll_cons_cons (t t' : Token) (ts : List Token) :
    (writeAll (t :: t' :: ts)).toList =
      t.sourceText.toList ++ ' ' :: (writeAll (t' :: ts)).toList := by
  simp [toList_writeAll, List.intercalate_cons_cons]

/-- The token is read from a lexeme of the text. -/
def Token.StandsIn (text : List Char) (t : Token) : Prop :=
  ∃ (before : List Char) (x : Lexeme) (rest : List Char), text = before ++ (x.text ++ rest) ∧
    Settled (x.text ++ rest) ∧ x.IsFirst rest ∧ x.Yields t.pos t.kind t.literal

theorem Token.StandsIn.append_left {text : List Char} {t : Token} (h : t.StandsIn text)
    (before : List Char) : t.StandsIn (before ++ text) := by
  obtain ⟨between, x, rest, rfl, hx⟩ := h
  exact ⟨before ++ between, x, rest, (List.append_assoc ..).symm, hx⟩

/-- Every token of a text is read from a lexeme of it. -/
theorem Delivered.standsIn {text last : List Char} {qs : List Piece} {ts : List Token}
    {p : Position} (h : Split text qs last) (hts : Delivered p qs ts) :
    ∀ t ∈ ts, t.StandsIn text := by
  induction h generalizing p ts with
  | last =>
    cases hts
    simp
  | @piece g rest last x qs _ hsettled hfirst _ ih =>
    cases hts with
    | cons hyields hts =>
      refine List.forall_mem_cons.2 ⟨⟨g, x, rest, rfl, hsettled, hfirst, hyields⟩, fun t ht => ?_⟩
      rw [← List.append_assoc]
      exact (ih hts t ht).append_left _

theorem Token.StandsIn.mem_of_mem_sourceText {text : List Char} {t : Token} (h : t.StandsIn text)
    (hkind : t.kind ≠ .error) {c : Char} (hc : c ∈ t.sourceText.toList) : c ∈ text := by
  obtain ⟨before, x, rest, rfl, _, _, hyields⟩ := h
  have htext : t.sourceText.toList = x.text := hyields.sourceText_eq hkind t.pos
  rw [htext] at hc
  simp [hc]

namespace Source

variable {text rest : List Char} {t : Token}

theorem standsIn_of_mem_tokens {p : Position} (h : t ∈ (⟨text, p⟩ : Source).tokens)
    (hkind : t.kind ≠ .eof) : t.StandsIn text := by
  obtain ⟨qs, last, hsplit⟩ := exists_split text
  obtain ⟨ts, hts⟩ := exists_delivered p qs
  rw [tokens_of_split hsplit hts, List.mem_append, List.mem_singleton] at h
  rcases h with h | rfl
  · exact hts.standsIn hsplit t h
  · exact absurd rfl hkind

/-- **Step.** A token of a text that is no report, written in front of a blank, is read again. -/
theorem tokens_written (h : t.StandsIn text) (hkind : t.kind ≠ .error)
    (hrest : rest = [] ∨ ∃ more, rest = ' ' :: more) (p : Position) :
    (⟨t.sourceText.toList ++ rest, p⟩ : Source).tokens =
      ⟨t.kind, t.literal, p⟩ :: (⟨rest, p.afterAll t.sourceText.toList⟩ : Source).tokens := by
  obtain ⟨before, x, after, rfl, hsettled, hfirst, hyields⟩ := h
  obtain ⟨kind, literal, pos⟩ := t
  have htext : (Token.mk kind literal pos).sourceText.toList = x.text :=
    hyields.sourceText_eq hkind pos
  obtain ⟨hopen, hstray⟩ := hyields.ne_unclosed_and_ne_stray hkind
  -- what stood in the old text was read by the grammar
  have hlexical : x.Lexical after := by
    cases hfirst with
    | longest hlexical _ => exact hlexical
    | stray => exact absurd rfl (hstray _)
  -- and before a blank, or the end, it cannot go on
  have hfirst' : x.IsFirst rest := by
    refine (hlexical.of_rest fun body hbody => absurd hbody (hopen body)).isFirst_of_blank hopen ?_
    rcases hrest with rfl | ⟨more, rfl⟩
    · simp
    · intro d hd
      obtain rfl : ' ' = d := Option.some.inj hd
      decide
  have hsettled' : Settled (x.text ++ rest) := by
    refine hsettled.of_append hfirst.text_ne_nil ?_
    rcases hrest with rfl | ⟨more, rfl⟩ <;> simp
  have hnext := next_of_piece .nil hsettled' hfirst' p
  rw [List.nil_append, (hyields.of_ne_error hkind _).token_eq] at hnext
  rw [htext, tokens_eq, hnext, if_neg hyields.kind_ne_eof]
  rfl

theorem tokens_nil (p : Position) : (⟨[], p⟩ : Source).tokens = [⟨.eof, "", p⟩] :=
  tokens_of_split (.last .nil) .nil

/-- **Run.** Tokens of a text that are no reports, written with a blank between each two, are read
    again. -/
theorem tokens_writeAll {ts : List Token} (h : ∀ t ∈ ts, t.StandsIn text ∧ t.kind ≠ .error)
    (p : Position) :
    (⟨(Token.writeAll ts).toList, p⟩ : Source).tokens.map (fun t => (t.kind, t.literal)) =
      ts.map (fun t => (t.kind, t.literal)) ++ [(.eof, "")] := by
  induction ts generalizing p with
  | nil => simp [Token.toList_writeAll, tokens_nil]
  | cons t ts ih =>
    obtain ⟨⟨hstands, hkind⟩, hts⟩ := List.forall_mem_cons.1 h
    cases ts with
    | nil =>
      have htokens := tokens_written hstands hkind (.inl rfl) p
      rw [List.append_nil] at htokens
      simp [Token.toList_writeAll, htokens, tokens_nil]
    | cons t' ts =>
      have hblank : Gap [' '] (Token.writeAll (t' :: ts)).toList := .blank (by decide) .nil
      -- the blank that is written after a token is a gap of the text that follows
      have hskip : ∀ q, (⟨' ' :: (Token.writeAll (t' :: ts)).toList, q⟩ : Source).tokens =
          (⟨(Token.writeAll (t' :: ts)).toList, q.afterAll [' ']⟩ : Source).tokens :=
        fun q => tokens_congr (next_of_gap_append hblank q)
      rw [Token.toList_writeAll_cons_cons, tokens_written hstands hkind (.inr ⟨_, rfl⟩), hskip,
        List.map_cons, ih hts]
      rfl

end Source

/-! ### Any text -/

/-- What is written of the tokens of a text has characters of the text and blanks. -/
theorem Token.mem_of_mem_writeAll {text : List Char} {ts : List Token}
    (h : ∀ t ∈ ts, t.StandsIn text ∧ t.kind ≠ .error) {c : Char} (hc : c ∈ (writeAll ts).toList) :
    c = ' ' ∨ c ∈ text := by
  induction ts with
  | nil => simp [toList_writeAll] at hc
  | cons t ts ih =>
    obtain ⟨⟨hstands, hkind⟩, hts⟩ := List.forall_mem_cons.1 h
    have hsource : c ∈ t.sourceText.toList → c ∈ text :=
      fun hc => hstands.mem_of_mem_sourceText hkind hc
    cases ts with
    | nil => exact .inr (hsource (by simpa [toList_writeAll] using hc))
    | cons t' ts =>
      rw [toList_writeAll_cons_cons, List.mem_append, List.mem_cons] at hc
      rcases hc with hc | hc | hc
      · exact .inr (hsource hc)
      · exact .inl hc
      · exact ih hts hc

/-- **Scanning again.** The bytes of a file say one text.  Its tokens, but for errors and the end,
    are written with a blank between each two.  From what is written the same kinds and texts are
    read, then the end, and no error. -/
theorem tokens_rewritten (content : List UInt8) :
    ∃ source, (∀ s, Text.Decodes content s ↔ s = source) ∧
      let kept := (Source.ofChars source).tokens.filter fun t => t.kind ≠ .error ∧ t.kind ≠ .eof
      let again := (Source.ofChars (Text.decodeUtf8 (Token.writeAll kept).toUTF8.toList)).tokens
      again.map (fun t => (t.kind, t.literal)) =
        kept.map (fun t => (t.kind, t.literal)) ++ [(.eof, "")] ∧
        ∀ t ∈ again, t.kind ≠ .error := by
  refine ⟨Text.decodeUtf8 content, fun s => Text.decodes_iff, ?_⟩
  intro kept again
  -- every token that is kept stands somewhere in the text
  have hkept : ∀ t ∈ kept, t.StandsIn ((Text.decodeUtf8 content).takeWhile (· ≠ '\x00')) ∧
      t.kind ≠ .error := by
    intro t ht
    obtain ⟨hmem, hkind⟩ := List.mem_filter.1 ht
    obtain ⟨herror, heof⟩ := of_decide_eq_true hkind
    exact ⟨Source.standsIn_of_mem_tokens hmem heof, herror⟩
  -- the zero character ends a text, and none is written
  have hnul : ∀ c ∈ (Token.writeAll kept).toList, decide (c ≠ '\x00') = true := by
    intro c hc
    rcases Token.mem_of_mem_writeAll hkept hc with rfl | hc
    · decide
    · have hkeep := List.mem_takeWhile_imp hc
      exact hkeep
  have hagain : again = (⟨(Token.writeAll kept).toList, .start⟩ : Source).tokens := by
    simp only [again]
    rw [Text.decodeUtf8_toUTF8, Source.ofChars, List.takeWhile_eq_self_iff.2 hnul]
  have hsame := Source.tokens_writeAll hkept .start
  rw [← hagain] at hsame
  refine ⟨hsame, fun t ht => ?_⟩
  have hmem : (t.kind, t.literal) ∈ again.map fun t => (t.kind, t.literal) := List.mem_map_of_mem ht
  rw [hsame, List.mem_append, List.mem_map, List.mem_singleton] at hmem
  rcases hmem with ⟨t', ht', heq⟩ | heq
  · exact (Prod.mk.inj heq).1 ▸ (hkept t' ht').2
  · rw [(Prod.mk.inj heq).1]
    decide

end Decaf
