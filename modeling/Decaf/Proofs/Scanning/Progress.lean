import Decaf.Proofs.Scanning.Tokens
import Mathlib.Logic.Function.Iterate

namespace Decaf

/-!
# Scans come to an end

Tokens are asked for one by one, and whoever asks goes on until the end is delivered.  Every token
before the end takes at least one character away, be it a constant, a string that is not closed or a
character that belongs nowhere, so there are no more of them than characters.  At the end nothing is
left, and asking again changes nothing.

* `Source.Passes` — what lies between two sources is a text.
* `Source.next_cases` — all that asking for a token can do.
* `Source.after` — the source after some tokens have been asked for, and `Source.after_of_le_eof`,
  what it is past the end.
* `Source.length_rest_after_le` — how much is left after tokens that are not the end.
* `Source.EndsWithin`, `scanning_ends` — a scan of any text comes to its end, and stays there.
-/

namespace Source

variable {s s' : Source} {text : List Char} {i j n : Nat}

/-! ### One token -/

/-- `s'` is what is left of `s` when `text` has been read. -/
structure Passes (s : Source) (text : List Char) (s' : Source) : Prop where
  rest : s.rest = text ++ s'.rest
  pos : s'.pos = s.pos.afterAll text

/-- Where a source ends does not change when some of it is read. -/
theorem Passes.afterAll_rest (h : s.Passes text s') :
    s'.pos.afterAll s'.rest = s.pos.afterAll s.rest := by
  rw [h.pos, h.rest, Position.afterAll_append]

/-- **One token.** Either nothing but a gap is left, and what is delivered is the end; or there is a
    lexeme after the gap, and the gap and the lexeme are read. -/
theorem next_cases (s : Source) :
    (gap s.rest = s.rest ∧
        s.next = (⟨.eof, "", s.pos.afterAll s.rest⟩, ⟨[], s.pos.afterAll s.rest⟩)) ∨
      ∃ x : Lexeme, x.text ≠ [] ∧ gap s.rest ≠ s.rest ∧ s.next.1.kind ≠ .eof ∧
        s.Passes (gap s.rest ++ x.text) s.next.2 := by
  obtain ⟨rest, htext, hgap, hsettled⟩ := gap_eq_iff.1 (rfl : gap s.rest = gap s.rest)
  cases rest with
  | nil =>
    -- the gap is all that is left
    rw [List.append_nil] at htext
    refine .inl ⟨htext.symm, ?_⟩
    simp [next, skip, take, ← htext]
  | cons c cs =>
    obtain ⟨after, hafter⟩ := Lexeme.text_first_prefix c cs
    rw [← hafter] at htext hgap hsettled
    have hfirst := Lexeme.isFirst_first hafter.symm
    have hne := hfirst.text_ne_nil
    -- the front of the source is a piece, so the token is that of its lexeme
    have hnext := next_of_piece hgap hsettled hfirst s.pos
    rw [← htext] at hnext
    obtain ⟨kind, literal, hyields⟩ :=
      (Lexeme.first c cs).exists_yields (s.pos.afterAll (gap s.rest))
    rw [show (⟨s.rest, s.pos⟩ : Source) = s from rfl, hyields.token_eq] at hnext
    refine .inr ⟨Lexeme.first c cs, hne, fun hall => ?_, ?_, ?_⟩
    · rw [hall, List.self_eq_append_right, List.append_eq_nil_iff] at htext
      exact hne htext.1
    · rw [hnext]
      exact hyields.kind_ne_eof
    · rw [hnext]
      refine ⟨?_, ?_⟩
      · show s.rest = gap s.rest ++ (Lexeme.first c cs).text ++ after
        rw [List.append_assoc]
        exact htext
      · show (s.pos.afterAll (gap s.rest)).afterAll _ = _
        rw [Position.afterAll_append]

/-- The end is delivered exactly if nothing but a gap is left. -/
theorem kind_next_eq_eof_iff (s : Source) : s.next.1.kind = .eof ↔ gap s.rest = s.rest := by
  rcases s.next_cases with ⟨hgap, hnext⟩ | ⟨x, _, hgap, hkind, _⟩
  · simp [hgap, hnext]
  · exact ⟨fun h => absurd h hkind, fun h => absurd h hgap⟩

/-- **At the end.** The end is delivered where the text ends, and all of the text has been read. -/
theorem next_of_eof (h : s.next.1.kind = .eof) :
    s.next = (⟨.eof, "", s.pos.afterAll s.rest⟩, ⟨[], s.pos.afterAll s.rest⟩) := by
  rcases s.next_cases with ⟨_, hnext⟩ | ⟨x, _, _, hkind, _⟩
  · exact hnext
  · exact absurd h hkind

/-- **Before the end.** A token that is not the end takes some text away. -/
theorem passes_next (h : s.next.1.kind ≠ .eof) : ∃ text, text ≠ [] ∧ s.Passes text s.next.2 := by
  rcases s.next_cases with ⟨_, hnext⟩ | ⟨x, hne, _, _, hpasses⟩
  · exact absurd (by rw [hnext]) h
  · exact ⟨gap s.rest ++ x.text, by simp [hne], hpasses⟩

/-- Whichever token is delivered, the source ends where it did before. -/
theorem afterAll_rest_next (s : Source) :
    s.next.2.pos.afterAll s.next.2.rest = s.pos.afterAll s.rest := by
  rcases s.next_cases with ⟨_, hnext⟩ | ⟨x, _, _, _, hpasses⟩
  · rw [hnext]
    rfl
  · exact hpasses.afterAll_rest

/-- **Past the end.** Asking again at the end delivers the end again, and changes nothing. -/
theorem next_next_of_eof (h : s.next.1.kind = .eof) : s.next.2.next = s.next := by
  have hend := next_of_eof h
  have hrest : s.next.2.rest = [] := by rw [hend]
  have hagain : s.next.2.next.1.kind = .eof := by
    rw [kind_next_eq_eof_iff, hrest]
    rfl
  rw [next_of_eof hagain, hend]
  rfl

/-! ### Token after token -/

/-- The source after `n` tokens have been asked for. -/
def after (s : Source) (n : Nat) : Source :=
  (fun s => s.next.2)^[n] s

@[simp] theorem after_zero (s : Source) : s.after 0 = s := rfl

theorem after_succ (s : Source) (n : Nat) : s.after (n + 1) = (s.after n).next.2 :=
  Function.iterate_succ_apply' _ n s

theorem after_next (s : Source) (n : Nat) : s.next.2.after n = s.after (n + 1) :=
  (Function.iterate_succ_apply _ n s).symm

/-- **Run.** However many tokens have been asked for, the source ends where it did at first. -/
theorem afterAll_rest_after (s : Source) (n : Nat) :
    (s.after n).pos.afterAll (s.after n).rest = s.pos.afterAll s.rest := by
  induction n with
  | zero => rfl
  | succ n ih => rw [after_succ, afterAll_rest_next, ih]

/-- **Run.** Tokens that are not the end take a character each, at least. -/
theorem length_rest_after_le (h : ∀ i < n, (s.after i).next.1.kind ≠ .eof) :
    (s.after n).rest.length + n ≤ s.rest.length := by
  induction n with
  | zero => exact Nat.le_refl _
  | succ n ih =>
    have hbefore := ih fun i hi => h i (by omega)
    have hlt := length_rest_next_lt (h n (by omega))
    rw [after_succ]
    omega

/-- The end is delivered before there are more tokens than characters. -/
theorem exists_eof (s : Source) :
    ∃ k ≤ s.rest.length, (s.after k).next.1.kind = .eof ∧
      ∀ i < k, (s.after i).next.1.kind ≠ .eof := by
  have hsome : ∃ k, k ≤ s.rest.length ∧ (s.after k).next.1.kind = .eof := by
    by_contra hnone
    push Not at hnone
    -- otherwise one more token would be taken than there are characters
    have hle :=
      length_rest_after_le (s := s) (n := s.rest.length + 1) fun i hi => hnone i (by omega)
    omega
  obtain ⟨hle, heof⟩ := Nat.find_spec hsome
  refine ⟨Nat.find hsome, hle, heof, ?_⟩
  intro i hi heof'
  exact Nat.find_min hsome hi ⟨by omega, heof'⟩

/-- **Run.** From the first end on, every token is that same end, and the source stays as it is. -/
theorem after_of_le_eof (h : (s.after i).next.1.kind = .eof) (hij : i ≤ j) :
    (s.after j).next = (s.after i).next := by
  induction j, hij using Nat.le_induction with
  | base => rfl
  | succ j _ ih =>
    have hj : (s.after j).next.1.kind = .eof := by rw [ih, h]
    rw [after_succ, next_next_of_eof hj, ih]

/-! ### All tokens -/

/-- The tokens of a source are those that are asked for until the end is delivered. -/
theorem tokens_eq_firstTokens (h : (s.after n).next.1.kind = .eof)
    (hbefore : ∀ i < n, (s.after i).next.1.kind ≠ .eof) : s.tokens = s.firstTokens (n + 1) := by
  induction n generalizing s with
  | zero =>
    rw [after_zero] at h
    rw [tokens_eq, if_pos h]
    rfl
  | succ n ih =>
    have hfirst : s.next.1.kind ≠ .eof := hbefore 0 (by omega)
    rw [tokens_eq, if_neg hfirst, firstTokens, ih]
    · rwa [after_next]
    · intro i hi
      rw [after_next]
      exact hbefore (i + 1) (by omega)

/-- How asking for tokens goes on a source of at most `n` characters. -/
structure EndsWithin (s : Source) (n : Nat) : Prop where
  /-- Every token but the end takes some text away: at least one character. -/
  progress : ∀ i, (s.after i).next.1.kind ≠ .eof →
    ∃ text, text ≠ [] ∧ (s.after i).Passes text (s.after (i + 1))
  /-- The end is delivered among the first `n + 1` tokens, and these are the tokens of the
      source. -/
  ends : ∃ k ≤ n, (s.after k).next.1.kind = .eof ∧ (∀ i < k, (s.after i).next.1.kind ≠ .eof) ∧
    s.tokens = s.firstTokens (k + 1)
  /-- It is not delivered too early: what is left is a gap. -/
  eof_iff : ∀ i, (s.after i).next.1.kind = .eof ↔ gap (s.after i).rest = (s.after i).rest
  /-- Once the end has been delivered, every later token is the same, at the same place, and the
      source stays as it is. -/
  final : ∀ i j, (s.after i).next.1.kind = .eof → i ≤ j →
    (s.after j).next.1 = (s.after i).next.1 ∧ s.after (j + 1) = s.after (i + 1)
  /-- The place of the end is that after the whole text. -/
  place : ∀ i, (s.after i).next.1.kind = .eof →
    (s.after i).next.1 = ⟨.eof, "", s.pos.afterAll s.rest⟩

/-- Every source comes to its end with as many tokens as characters, at most. -/
theorem endsWithin (h : s.rest.length ≤ n) : s.EndsWithin n where
  progress i hi := by
    rw [after_succ]
    exact passes_next hi
  ends := by
    obtain ⟨k, hk, heof, hbefore⟩ := s.exists_eof
    exact ⟨k, by omega, heof, hbefore, tokens_eq_firstTokens heof hbefore⟩
  eof_iff i := kind_next_eq_eof_iff _
  final i j hi hij := by
    have hsame := after_of_le_eof hi hij
    rw [after_succ, after_succ, hsame]
    exact ⟨rfl, rfl⟩
  place i hi := by
    rw [next_of_eof hi, afterAll_rest_after]

end Source

/-- **Scanning ends.** Take any text, with strings and comments that are not closed, characters that
    belong nowhere, or the character with code zero in its midst.  Every token but the end takes at
    least one character, so the end is among the first tokens, as many as there are characters and
    one more.  After it every token is that same end, and the source stays as it is. -/
theorem scanning_ends (cs : List Char) : (Source.ofChars cs).EndsWithin cs.length := by
  apply Source.endsWithin
  show (cs.takeWhile (· ≠ '\x00')).length ≤ cs.length
  exact (List.takeWhile_prefix _).length_le

-- the text ends within a string, at the character with code zero, and is at its end from then on
example : (Source.ofChars ['?', '"', '\x00', 'a']).firstTokens 4 =
    [⟨.error, "Unexpected character: ?", ⟨1, 1⟩⟩,
      ⟨.error, "unterminated string constant at line 1, column 2", ⟨1, 2⟩⟩,
      ⟨.eof, "", ⟨1, 3⟩⟩, ⟨.eof, "", ⟨1, 3⟩⟩] := by
  decide +kernel

end Decaf
