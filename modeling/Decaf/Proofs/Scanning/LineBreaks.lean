import Decaf.Proofs.Scanning.Spans

namespace Decaf

/-!
# Scanning line by line

At a newline a scan starts afresh.  No lexeme runs over it, no look at the next character reaches
beyond it, and a comment of two slashes and a string that is not closed end there just as at the end
of the text.  Only a comment that opens with a slash and a star may be open at the end of a line.

* `OpenComment`, `EndsInComment` — a gap, or a text, ends inside a comment.
* `Gap.append_newline`, `Lexeme.IsFirst.append_newline` — gaps and lexemes stay what they are if a
  newline and more follow the text.
* `Source.tokens_append_newline` — after a newline the scan goes on with what follows it.
* `Token.moved` — a token, so many lines further down.
* `tokens_compose` — the tokens of two texts with a newline between them.
-/

/-! ### Comments that are not closed -/

/-- The gap ends inside a comment: after a complete gap a comment opens, and no star and slash close
    it. -/
def OpenComment (g : List Char) : Prop :=
  ∃ before body,
    g = before ++ '/' :: '*' :: body ∧ Gap before ('/' :: '*' :: body) ∧ ¬ ['*', '/'] <:+: body

/-- The last gap of the text ends inside a comment. -/
def EndsInComment (text : List Char) : Prop :=
  ∃ qs last, Split text qs last ∧ OpenComment last

namespace OpenComment

variable {g : List Char}

theorem blank {c : Char} (h : OpenComment g) (hc : Text.isBlank c) : OpenComment (c :: g) := by
  obtain ⟨before, body, rfl, hbefore, hbody⟩ := h
  exact ⟨c :: before, body, rfl, .blank hc hbefore, hbody⟩

theorem line {body : List Char} (h : OpenComment g) (hbody : '\n' ∉ body)
    (hend : ∃ more, g = '\n' :: more) : OpenComment ('/' :: '/' :: (body ++ g)) := by
  obtain ⟨before, open_, rfl, hbefore, hopen⟩ := h
  exact ⟨'/' :: '/' :: (body ++ before), open_, by simp, .line hbody (.inr hend) hbefore, hopen⟩

theorem block {body : List Char} (h : OpenComment g) (hbody : ¬ ['*', '/'] <:+: body) :
    OpenComment ('/' :: '*' :: (body ++ '*' :: '/' :: g)) := by
  obtain ⟨before, open_, rfl, hbefore, hopen⟩ := h
  exact ⟨'/' :: '*' :: (body ++ '*' :: '/' :: before), open_, by simp, .block hbody hbefore, hopen⟩

theorem ne_nil (h : OpenComment g) : g ≠ [] := by
  obtain ⟨before, body, rfl, _⟩ := h
  simp

end OpenComment

/-! ### What a newline does not change -/

variable {g rest : List Char}

/-- **Gaps.** A gap that does not end inside a comment stays a gap if a newline and more follow the
    text. -/
theorem Gap.append_newline (h : Gap g rest) (hopen : rest = [] → ¬ OpenComment g) (t : List Char) :
    Gap g (rest ++ '\n' :: t) := by
  induction h with
  | nil => exact .nil
  | blank hc _ ih => exact .blank hc (ih fun hrest hg => hopen hrest (hg.blank hc))
  | @line body g rest hbody hend _ ih =>
    refine .line hbody (.inr ?_) (ih fun hrest hg => hopen hrest (hg.line hbody ?_))
    · rcases hend with hend | ⟨more, hend⟩
      · exact ⟨t, by rw [← List.append_assoc, hend, List.nil_append]⟩
      · exact ⟨more ++ '\n' :: t, by rw [← List.append_assoc, hend, List.cons_append]⟩
    · rw [hrest, List.append_nil] at hend
      exact hend.resolve_left hg.ne_nil
  | block hbody _ ih => exact .block hbody (ih fun hrest hg => hopen hrest (hg.block hbody))
  | @unclosed body hbody => exact absurd ⟨[], body, rfl, .nil, hbody⟩ (hopen rfl)

/-- What has no newline and stands in front of a text with one stands in front of the part before
    the newline. -/
theorem exists_eq_append_of_not_mem {u v t after : List Char} (hv : '\n' ∉ v)
    (h : u ++ '\n' :: t = v ++ after) : ∃ w, u = v ++ w ∧ after = w ++ '\n' :: t := by
  rcases List.append_eq_append_iff.1 h with ⟨w, hw, ht⟩ | ⟨w, hw, ht⟩
  · cases w with
    | nil => exact ⟨[], by simpa using hw.symm, by simpa using ht.symm⟩
    | cons c w =>
      obtain ⟨rfl, _⟩ := List.cons.inj ht
      exact absurd (by simp [hw]) hv
  · exact ⟨w, hw, ht⟩

namespace Lexeme

variable {x : Lexeme}

theorem Lexical.append_newline (h : Lexical x rest) (t : List Char) :
    Lexical x (rest ++ '\n' :: t) := by
  refine h.of_rest fun _ _ hend => .inr ?_
  rcases hend with rfl | ⟨more, rfl⟩
  · exact ⟨t, rfl⟩
  · exact ⟨more ++ '\n' :: t, rfl⟩

theorem Lexical.of_append_newline {t : List Char} (h : Lexical x (rest ++ '\n' :: t)) :
    Lexical x rest := by
  refine h.of_rest fun _ _ hend => ?_
  cases rest with
  | nil => exact .inl rfl
  | cons c rest =>
    rcases hend with hend | ⟨more, hend⟩
    · cases hend
    · obtain ⟨rfl, _⟩ := List.cons.inj hend
      exact .inr ⟨rest, rfl⟩

/-- A lexeme in front of the longer text is one in front of the shorter. -/
theorem Lexical.exists_rest {t u after : List Char} (h : Lexical x after)
    (hu : u ++ '\n' :: t = x.text ++ after) : ∃ w, u = x.text ++ w ∧ Lexical x w := by
  obtain ⟨w, hw, rfl⟩ := exists_eq_append_of_not_mem h.newline_not_mem hu
  exact ⟨w, hw, h.of_append_newline⟩

/-- **Lexemes.** The lexeme that is read stays the one that is read if a newline and more follow the
    text. -/
theorem IsFirst.append_newline (h : IsFirst x rest) (t : List Char) :
    IsFirst x (rest ++ '\n' :: t) := by
  cases h with
  | longest hlexical hlongest =>
    refine .longest (hlexical.append_newline t) fun y after hy hafter => ?_
    rw [← List.append_assoc] at hy
    obtain ⟨w, hw, hlexical⟩ := hafter.exists_rest hy
    exact hlongest y w hw hlexical
  | @stray c _ hnone =>
    refine .stray fun y after hy hafter => ?_
    rw [← List.cons_append] at hy
    obtain ⟨w, hw, hlexical⟩ := hafter.exists_rest hy
    exact hnone y w hw hlexical

end Lexeme

/-! ### Going on after a newline -/

namespace Source

/-- **Step.** After a newline the scan goes on with what follows it, at the start of the next
    line. -/
theorem tokens_append_newline {s last : List Char} {qs : List Piece} {ts : List Token}
    {p : Position} (h : Split s qs last) (hopen : ¬ OpenComment last) (hts : Delivered p qs ts)
    (t : List Char) :
    (⟨s ++ '\n' :: t, p⟩ : Source).tokens =
      ts ++ (⟨t, (p.afterAll s).after '\n'⟩ : Source).tokens := by
  induction h generalizing p ts with
  | @last g hgap =>
    cases hts
    have hgap' : Gap g ('\n' :: t) := hgap.append_newline (fun _ => hopen) t
    -- the newline belongs to the gap that ends the text, and the gap goes on behind it
    have hnewline : Gap ['\n'] t := .blank (by decide) .nil
    refine tokens_congr ?_
    rw [next_of_gap_append hgap', ← List.singleton_append, next_of_gap_append hnewline]
    rfl
  | @piece g rest last x qs hgap hsettled hfirst _ ih =>
    cases hts with
    | cons hyields hts =>
      have hne : x.text ++ rest ≠ [] := by simp [hfirst.text_ne_nil]
      have hgap' := hgap.append_newline (fun hnil => absurd hnil hne) t
      -- a lexeme that ends before the newline is read there as before
      have hsettled' : Settled (x.text ++ rest ++ '\n' :: t) := by
        rw [← List.append_nil (x.text ++ rest)] at hsettled
        exact hsettled.of_append hne (by simp)
      rw [List.append_assoc] at hgap' hsettled'
      rw [List.append_assoc, List.append_assoc, tokens_eq,
        next_of_piece hgap' hsettled' (hfirst.append_newline t), hyields.token_eq,
        if_neg hyields.kind_ne_eof]
      rw [Piece.text, Position.afterAll_append] at hts
      rw [ih hopen hts, Position.afterAll_append, Position.afterAll_append, List.cons_append]

end Source

/-! ### The same tokens further down -/

/-- The place `k` lines further down, in the same column. -/
def Position.down (p : Position) (k : Nat) : Position :=
  ⟨p.line + k, p.column⟩

/-- What is reported of a string that opens at `p` and is not closed. -/
def unclosedMessage (p : Position) : String :=
  "unterminated string constant at line " ++ toString p.line ++ ", column " ++ toString p.column

/-- The token `k` lines further down.  Its kind and its text are the same, but a report of a string
    that is not closed gives the line, and so gives the new one. -/
def Token.moved (k : Nat) (t : Token) : Token :=
  ⟨t.kind,
    if t.kind = .error ∧ t.literal = unclosedMessage t.pos then unclosedMessage (t.pos.down k)
    else t.literal,
    t.pos.down k⟩

namespace Position

theorem after_down (p : Position) (k : Nat) (c : Char) :
    (p.down k).after c = (p.after c).down k := by
  by_cases hc : c = '\n'
  · simp [after, down, hc, Int.add_right_comm]
  · simp [after, down, hc]

theorem afterAll_down (p : Position) (k : Nat) (cs : List Char) :
    (p.down k).afterAll cs = (p.afterAll cs).down k := by
  induction cs generalizing p with
  | nil => rfl
  | cons c cs ih =>
    calc (p.down k).afterAll (c :: cs) = ((p.down k).after c).afterAll cs := rfl
      _ = ((p.after c).down k).afterAll cs := by rw [after_down]
      _ = (p.afterAll (c :: cs)).down k := ih _

/-- Every newline is one line further down. -/
theorem line_afterAll (p : Position) (cs : List Char) :
    (p.afterAll cs).line = p.line + cs.count '\n' := by
  induction cs generalizing p with
  | nil => simp [afterAll]
  | cons c cs ih =>
    have hstep : (p.afterAll (c :: cs)).line = (p.after c).line + cs.count '\n' := ih _
    rw [hstep]
    by_cases hc : c = '\n'
    · subst hc
      simp [after]
      omega
    · simp [after, hc]

/-- The line after a text and a newline. -/
theorem after_newline_afterAll (s : List Char) :
    (start.afterAll s).after '\n' = start.down (s.count '\n' + 1) := by
  rw [after_newline, line_afterAll]
  simp [down, start, Int.add_assoc]

end Position

theorem Token.moved_of_ne {kind : TokenKind} {literal : String} {p : Position} (k : Nat)
    (h : kind = .error → literal ≠ unclosedMessage p) :
    (⟨kind, literal, p⟩ : Token).moved k = ⟨kind, literal, p.down k⟩ := by
  rw [Token.moved, if_neg fun hmessage => h hmessage.1 hmessage.2]

theorem head?_toList_append {s : String} {c : Char} (h : s.toList.head? = some c) (s' : String) :
    (s ++ s').toList.head? = some c := by
  rw [String.toList_append, List.head?_append, h, Option.some_or]

/-- A report that starts in another way is not that of a string that is not closed. -/
theorem ne_unclosedMessage {message : String} {c : Char} (h : message.toList.head? = some c)
    (hc : c ≠ 'u') (p : Position) : message ≠ unclosedMessage p := by
  rintro rfl
  have hu : (unclosedMessage p).toList.head? = some 'u' := by
    refine head?_toList_append (head?_toList_append (head?_toList_append ?_ _) _) _
    decide
  exact hc (Option.some.inj (h.symm.trans hu))

namespace Lexeme

variable {p : Position} {x : Lexeme} {kind : TokenKind} {literal : String}

/-- A report is the same further down, but for the line of a string that is not closed. -/
theorem Yields.error_down (h : Yields p x .error literal) (k : Nat) :
    Yields (p.down k) x .error ((⟨.error, literal, p⟩ : Token).moved k).literal := by
  -- reports are told apart by their first letters; only an open string mentions its line
  have hrange : "Number out of range" ≠ unclosedMessage p :=
    ne_unclosedMessage (c := 'N') (by decide) (by decide) p
  cases h with
  | @longName w hlength =>
    have hne : "Identifier too long: " ++ w ≠ unclosedMessage p :=
      ne_unclosedMessage (head?_toList_append (c := 'I') (by decide) w) (by decide) p
    rw [Token.moved_of_ne k fun _ => hne]
    exact .longName hlength
  | decimalRange hfits =>
    rw [Token.moved_of_ne k fun _ => hrange]
    exact .decimalRange hfits
  | hexadecimalRange hfits =>
    rw [Token.moved_of_ne k fun _ => hrange]
    exact .hexadecimalRange hfits
  | unclosed body =>
    rw [Token.moved, if_pos ⟨rfl, rfl⟩]
    exact .unclosed body
  | stray c =>
    have hne : "Unexpected character: " ++ String.ofList [c] ≠ unclosedMessage p :=
      ne_unclosedMessage (head?_toList_append (c := 'U') (by decide) _) (by decide) p
    rw [Token.moved_of_ne k fun _ => hne]
    exact .stray c

/-- A lexeme further down yields the same token further down. -/
theorem Yields.down (h : Yields p x kind literal) (k : Nat) :
    Yields (p.down k) x kind ((⟨kind, literal, p⟩ : Token).moved k).literal := by
  by_cases hkind : kind = .error
  · subst hkind
    exact h.error_down k
  · rw [Token.moved_of_ne k fun herror => absurd herror hkind]
    exact h.of_ne_error hkind _

end Lexeme

/-- **Further down.** Pieces further down become the same tokens further down. -/
theorem Delivered.down {p : Position} {qs : List Piece} {ts : List Token} (h : Delivered p qs ts)
    (k : Nat) : Delivered (p.down k) qs (ts.map (Token.moved k)) := by
  induction h with
  | nil => exact .nil
  | @cons p q qs kind literal ts hyields _ ih =>
    have hyields' := hyields.down k
    rw [← Position.afterAll_down] at hyields' ih
    have hmoved : (⟨kind, literal, p.afterAll q.gap⟩ : Token).moved k =
        ⟨kind, ((⟨kind, literal, p.afterAll q.gap⟩ : Token).moved k).literal,
          (p.down k).afterAll q.gap⟩ := by
      rw [Position.afterAll_down]
      rfl
    rw [List.map_cons, hmoved]
    exact .cons hyields' ih

theorem Source.tokens_down (t : List Char) (p : Position) (k : Nat) :
    (⟨t, p.down k⟩ : Source).tokens = (⟨t, p⟩ : Source).tokens.map (Token.moved k) := by
  obtain ⟨qs, last, hsplit⟩ := exists_split t
  obtain ⟨ts, hts⟩ := exists_delivered p qs
  have heof : (⟨.eof, "", p.afterAll t⟩ : Token).moved k = ⟨.eof, "", (p.down k).afterAll t⟩ := by
    rw [Token.moved_of_ne k (by simp), Position.afterAll_down]
  rw [tokens_of_split hsplit (hts.down k), tokens_of_split hsplit hts, List.map_append,
    List.map_singleton, heof]

/-! ### Two texts with a newline between them -/

/-- **Composition.** Of a text that does not end inside a comment, a newline and another text, the
    tokens are those of the first text, without the mark of its end, and those of the second, moved
    down by the lines of the first. -/
theorem tokens_compose (s t : List Char) (hnul : '\x00' ∉ s) (hopen : ¬ EndsInComment s) :
    (Source.ofChars (s ++ '\n' :: t)).tokens =
      (Source.ofChars s).tokens.dropLast ++
        (Source.ofChars t).tokens.map (Token.moved (s.count '\n' + 1)) := by
  have hkeep : ∀ c ∈ s, (decide (c ≠ '\x00')) = true := by
    intro c hc
    exact decide_eq_true fun h => hnul (h ▸ hc)
  -- only a zero in the second text ends the whole early
  have hwhole : Source.ofChars (s ++ '\n' :: t) =
      ⟨s ++ '\n' :: t.takeWhile (· ≠ '\x00'), .start⟩ := by
    rw [Source.ofChars, List.takeWhile_append_of_pos hkeep]
    rfl
  have hfirst : Source.ofChars s = ⟨s, .start⟩ := by
    rw [Source.ofChars, List.takeWhile_eq_self_iff.2 hkeep]
  obtain ⟨qs, last, hsplit⟩ := exists_split s
  obtain ⟨ts, hts⟩ := exists_delivered .start qs
  have hlast : ¬ OpenComment last := fun h => hopen ⟨qs, last, hsplit, h⟩
  rw [hwhole, Source.tokens_append_newline hsplit hlast hts, hfirst,
    Source.tokens_of_split hsplit hts, List.dropLast_concat, Position.after_newline_afterAll,
    Source.tokens_down]
  rfl

/-- A comment of two slashes is not open after its line, whatever it holds.  Both texts end in a
    string that is not closed, and the report of the second gives its line in the whole text. -/
theorem tokens_compose_unclosed_strings :
    ¬ EndsInComment ['a', '/', '/', '*', '\n', '"', 'b'] ∧
    (Source.ofChars ['a', '/', '/', '*', '\n', '"', 'b', '\n', '"', 'c']).tokens =
      [⟨.ident, "a", ⟨1, 1⟩⟩, ⟨.error, "unterminated string constant at line 2, column 1", ⟨2, 1⟩⟩,
        ⟨.error, "unterminated string constant at line 3, column 1", ⟨3, 1⟩⟩,
          ⟨.eof, "", ⟨3, 3⟩⟩] := by
  have hname : Lexeme.IsFirst (.word ['a']) ['/', '/', '*', '\n', '"', 'b'] :=
    Lexeme.isFirst_first (c := 'a') (s := ['/', '/', '*', '\n', '"', 'b']) (by decide)
  have hstring : Lexeme.IsFirst (.unclosed ['b']) [] :=
    Lexeme.isFirst_first (c := '"') (s := ['b']) (by decide)
  have hcomment : Gap ['/', '/', '*', '\n'] ['"', 'b'] :=
    @Gap.line ['*'] ['\n'] _ (by decide) (.inr ⟨_, rfl⟩) (.blank (by decide) .nil)
  have hsplit : Split ['a', '/', '/', '*', '\n', '"', 'b']
      [⟨[], .word ['a']⟩, ⟨['/', '/', '*', '\n'], .unclosed ['b']⟩] [] :=
    .piece .nil (settled_iff.2 (by decide)) hname
      (.piece hcomment (settled_iff.2 (by decide)) hstring (.last .nil))
  have hopen : ¬ EndsInComment ['a', '/', '/', '*', '\n', '"', 'b'] := by
    rintro ⟨qs, last, hsplit', hlast⟩
    obtain ⟨_, rfl⟩ := hsplit.unique hsplit'
    exact hlast.ne_nil rfl
  refine ⟨hopen, ?_⟩
  refine (tokens_compose ['a', '/', '/', '*', '\n', '"', 'b'] ['"', 'c'] (by decide) hopen).trans ?_
  decide +kernel

end Decaf
