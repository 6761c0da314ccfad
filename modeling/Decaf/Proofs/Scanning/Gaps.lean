import Decaf.Source

namespace Decaf

/-!
# Gaps

White space and comments stand between lexemes, in any number and order.  A comment that opens with
two slashes stops where its line does.  One that opens with a slash and a star is closed by the
first star and slash after that, and where there are none it takes the rest of the text.

* `Gap` — a piece of text is white space and comments.
* `Settled` — a text that starts with no gap.
* `gap_eq_iff` — the gap that is passed over at the front of a text is the one that a settled text
  follows.
-/

/-- The text `g`, which stands in front of `rest`, is white space and comments. -/
inductive Gap : List Char → List Char → Prop where
  | nil {rest : List Char} : Gap [] rest
  | blank {c : Char} {g rest : List Char} : Text.isBlank c → Gap g rest → Gap (c :: g) rest
  /-- A comment that runs up to a newline or the end of the text. -/
  | line {body g rest : List Char} :
      '\n' ∉ body → (g ++ rest = [] ∨ ∃ more, g ++ rest = '\n' :: more) → Gap g rest →
      Gap ('/' :: '/' :: (body ++ g)) rest
  /-- A comment that runs to the first star and slash after its opening. -/
  | block {body g rest : List Char} :
      ¬ ['*', '/'] <:+: body → Gap g rest → Gap ('/' :: '*' :: (body ++ '*' :: '/' :: g)) rest
  /-- A comment that is not closed runs to the end of the text. -/
  | unclosed {body : List Char} : ¬ ['*', '/'] <:+: body → Gap ('/' :: '*' :: body) []

/-- The text starts with no gap, apart from the empty one. -/
def Settled (s : List Char) : Prop :=
  ∀ g rest, s = g ++ rest → Gap g rest → g = []

/-! ### Reading a comment -/

/-- White space is passed over. -/
theorem gap_blank {c : Char} (hc : Text.isBlank c) (s : List Char) : gap (c :: s) = c :: gap s := by
  have hslash : c ≠ '/' := by
    rintro rfl
    exact absurd hc (by decide)
  unfold gap
  rw [gapFrom]
  · rw [if_pos hc]
  · intro rest h _
    exact hslash h
  · intro rest h _
    exact hslash h

/-- A comment of two slashes takes the rest of its line. -/
theorem gapFrom_lineComment (s : List Char) :
    gapFrom .lineComment s = s.takeWhile (· ≠ '\n') ++ gap (s.dropWhile (· ≠ '\n')) := by
  induction s with
  | nil => rfl
  | cons c s ih =>
    rw [gapFrom]
    by_cases hc : c = '\n'
    · subst hc
      rw [if_pos rfl, List.takeWhile_cons_of_neg (by decide),
        List.dropWhile_cons_of_neg (by decide), gap_blank (by decide), List.nil_append, gap]
    · rw [if_neg hc, List.takeWhile_cons_of_pos (by simp [hc]),
        List.dropWhile_cons_of_pos (by simp [hc]), ih, List.cons_append]

/-- After the rest of a line stands a newline, or nothing. -/
theorem dropWhile_newline (s : List Char) :
    s.dropWhile (· ≠ '\n') = [] ∨ ∃ more, s.dropWhile (· ≠ '\n') = '\n' :: more := by
  have hhead := List.head?_dropWhile_not (· ≠ '\n') s
  cases hs : s.dropWhile (· ≠ '\n') with
  | nil => exact .inl rfl
  | cons c more =>
    rw [hs] at hhead
    have hc : c = '\n' := by simpa using hhead
    exact .inr ⟨more, by rw [hc]⟩

/-- No comment is closed where no star is followed by a slash. -/
theorem gapFrom_blockComment_cons {c : Char} {s : List Char} (h : ¬ ['*', '/'] <+: c :: s) :
    gapFrom .blockComment (c :: s) = c :: gapFrom .blockComment s := by
  rw [gapFrom]
  rintro rest rfl rfl
  exact h ⟨rest, rfl⟩

/-- A comment that is not closed takes all there is. -/
theorem gapFrom_blockComment_unclosed {body : List Char} (h : ¬ ['*', '/'] <:+: body) :
    gapFrom .blockComment body = body := by
  induction body with
  | nil => rfl
  | cons c body ih =>
    rw [List.infix_cons_iff, not_or] at h
    rw [gapFrom_blockComment_cons h.1, ih h.2]

/-- A comment takes what stands before the first star and slash, and these. -/
theorem gapFrom_blockComment_append {body : List Char} (h : ¬ ['*', '/'] <:+: body)
    (s : List Char) :
    gapFrom .blockComment (body ++ '*' :: '/' :: s) = body ++ '*' :: '/' :: gap s := by
  induction body with
  | nil => rw [List.nil_append, gapFrom, List.nil_append, gap]
  | cons c body ih =>
    rw [List.infix_cons_iff, not_or] at h
    -- the star after the body is no slash, so it does not close the comment with the end of the
    -- body
    have hopen : ¬ ['*', '/'] <+: c :: (body ++ '*' :: '/' :: s) := by
      intro hclose
      obtain ⟨hstar, hslash⟩ := List.cons_prefix_cons.1 hclose
      cases body with
      | nil => exact absurd (List.cons_prefix_cons.1 hslash).1 (by decide)
      | cons d body =>
        obtain ⟨hd, _⟩ := List.cons_prefix_cons.1 hslash
        exact h.1 (by simp [← hstar, ← hd])
    rw [List.cons_append, gapFrom_blockComment_cons hopen, ih h.2, List.cons_append]

/-- After the opening of a comment, a first star and slash follow, or none. -/
theorem exists_first_close (s : List Char) :
    (∃ body rest, s = body ++ '*' :: '/' :: rest ∧ ¬ ['*', '/'] <:+: body) ∨
      ¬ ['*', '/'] <:+: s := by
  by_cases h : ['*', '/'] <:+: s
  · left
    induction s with
    | nil => exact absurd (List.infix_nil.1 h) (by decide)
    | cons c s ih =>
      by_cases hfirst : ['*', '/'] <+: c :: s
      · obtain ⟨rest, hrest⟩ := hfirst
        exact ⟨[], rest, hrest.symm, by simp⟩
      · obtain ⟨body, rest, rfl, hbody⟩ := ih ((List.infix_cons_iff.1 h).resolve_left hfirst)
        refine ⟨c :: body, rest, rfl, fun hinfix => ?_⟩
        -- the body is cut off before the first close, so none can stand at its front either
        rcases List.infix_cons_iff.1 hinfix with hclose | hclose
        · exact hfirst (hclose.trans (List.cons_prefix_cons.2 ⟨rfl, List.prefix_append _ _⟩))
        · exact hbody hclose
  · exact .inr h

/-! ### Reading a gap -/

theorem gap_line (s : List Char) :
    gap ('/' :: '/' :: s) =
      '/' :: '/' :: (s.takeWhile (· ≠ '\n') ++ gap (s.dropWhile (· ≠ '\n'))) := by
  rw [gap, gapFrom, gapFrom_lineComment]

theorem gap_block {body : List Char} (h : ¬ ['*', '/'] <:+: body) (s : List Char) :
    gap ('/' :: '*' :: (body ++ '*' :: '/' :: s)) =
      '/' :: '*' :: (body ++ '*' :: '/' :: gap s) := by
  rw [gap, gapFrom, gapFrom_blockComment_append h]

theorem gap_unclosed {body : List Char} (h : ¬ ['*', '/'] <:+: body) :
    gap ('/' :: '*' :: body) = '/' :: '*' :: body := by
  rw [gap, gapFrom, gapFrom_blockComment_unclosed h]

/-- **Completeness.** Every gap is passed over, and then what follows it. -/
theorem Gap.gap_append {g rest : List Char} (h : Gap g rest) : gap (g ++ rest) = g ++ gap rest := by
  induction h with
  | nil => rfl
  | blank hc _ ih => rw [List.cons_append, gap_blank hc, ih, List.cons_append]
  | @line body g rest hbody hend _ ih =>
    have hplain : ∀ c ∈ body, decide (c ≠ '\n') := by
      intro c hc
      exact decide_eq_true (fun heq => hbody (heq ▸ hc))
    -- the comment ends where the line does, and the rest of the gap starts with the line break
    have htake : (g ++ rest).takeWhile (· ≠ '\n') = [] := by
      rcases hend with hend | ⟨more, hend⟩ <;> simp [hend]
    have hdrop : (g ++ rest).dropWhile (· ≠ '\n') = g ++ rest := by
      rcases hend with hend | ⟨more, hend⟩ <;> simp [hend]
    rw [List.cons_append, List.cons_append, List.append_assoc, gap_line,
      List.takeWhile_append_of_pos hplain, List.dropWhile_append_of_pos hplain, htake, hdrop, ih]
    simp
  | block hbody _ ih =>
    rw [List.cons_append, List.cons_append, List.append_assoc, List.cons_append, List.cons_append,
      gap_block hbody, ih]
    simp
  | unclosed hbody =>
    rw [List.append_nil, gap_unclosed hbody]
    exact (List.append_nil _).symm

/-- Nothing is passed over where neither white space nor a comment starts. -/
theorem gap_eq_nil {c : Char} {s : List Char} (hblank : ¬ Text.isBlank c)
    (hline : ¬ ['/', '/'] <+: c :: s) (hblock : ¬ ['/', '*'] <+: c :: s) : gap (c :: s) = [] := by
  rw [gap, gapFrom]
  · rw [if_neg hblank]
  · rintro rest rfl rfl
    exact hline ⟨rest, rfl⟩
  · rintro rest rfl rfl
    exact hblock ⟨rest, rfl⟩

/-- **Soundness.** What is passed over is a gap, and after it there is nothing more to pass over. -/
theorem exists_gap (s : List Char) :
    ∃ rest, s = gap s ++ rest ∧ Gap (gap s) rest ∧ gap rest = [] := by
  -- each part of a gap leaves a shorter text, where the rest of the gap is found
  induction hn : s.length using Nat.strongRecOn generalizing s with
  | ind n ih =>
  subst hn
  cases s with
  | nil => exact ⟨[], rfl, .nil, rfl⟩
  | cons c s =>
    by_cases hblank : Text.isBlank c
    · obtain ⟨rest, hs, hgap, hrest⟩ := ih s.length (by simp) s rfl
      rw [gap_blank hblank]
      exact ⟨rest, congrArg (c :: ·) hs, .blank hblank hgap, hrest⟩
    by_cases hline : ['/', '/'] <+: c :: s
    · obtain ⟨after, hafter⟩ := hline
      obtain ⟨rfl, rfl⟩ : '/' = c ∧ '/' :: after = s := List.cons.inj hafter
      have hlength := (List.dropWhile_suffix (l := after) (· ≠ '\n')).length_le
      obtain ⟨rest, hs, hgap, hrest⟩ :=
        ih _ (by simp only [List.length_cons]; omega) (after.dropWhile (· ≠ '\n')) rfl
      rw [gap_line]
      -- the gap goes on with the newline, unless the text ends there
      refine ⟨rest, ?_, .line ?_ ?_ hgap, hrest⟩
      · rw [List.cons_append, List.cons_append, List.append_assoc, ← hs,
          List.takeWhile_append_dropWhile]
      · intro hmem
        exact absurd (List.all_eq_true.1 List.all_takeWhile _ hmem) (by decide)
      · rw [← hs]
        exact dropWhile_newline after
    by_cases hblock : ['/', '*'] <+: c :: s
    · obtain ⟨after, hafter⟩ := hblock
      obtain ⟨rfl, rfl⟩ : '/' = c ∧ '*' :: after = s := List.cons.inj hafter
      rcases exists_first_close after with ⟨body, next, rfl, hbody⟩ | hopen
      · obtain ⟨rest, hs, hgap, hrest⟩ := ih next.length (by simp; omega) next rfl
        rw [gap_block hbody]
        refine ⟨rest, ?_, .block hbody hgap, hrest⟩
        simp [← hs]
      · rw [gap_unclosed hopen]
        exact ⟨[], (List.append_nil _).symm, .unclosed hopen, rfl⟩
    · rw [gap_eq_nil hblank hline hblock]
      exact ⟨c :: s, rfl, .nil, gap_eq_nil hblank hline hblock⟩

/-- A text is settled if nothing at its front is passed over. -/
theorem settled_iff {s : List Char} : Settled s ↔ gap s = [] := by
  constructor
  · intro h
    obtain ⟨rest, hs, hgap, _⟩ := exists_gap s
    exact h _ rest hs hgap
  · rintro h g rest rfl hgap
    rw [hgap.gap_append] at h
    exact (List.append_eq_nil_iff.1 h).1

/-- A gap that a settled text follows is what is passed over. -/
theorem Gap.gap_eq {g rest : List Char} (h : Gap g rest) (hrest : Settled rest) :
    gap (g ++ rest) = g := by
  rw [h.gap_append, settled_iff.1 hrest, List.append_nil]

/-- A gap at the end of the text is passed over. -/
theorem Gap.gap_eq_self {g : List Char} (h : Gap g []) : gap g = g := by
  have hread := h.gap_eq (settled_iff.2 rfl)
  rwa [List.append_nil] at hread

/-- **Gaps.** What is passed over at the front of a text is the gap that a settled text follows, and
    there is just one such gap. -/
theorem gap_eq_iff {s g : List Char} :
    gap s = g ↔ ∃ rest, s = g ++ rest ∧ Gap g rest ∧ Settled rest := by
  constructor
  · rintro rfl
    obtain ⟨rest, hs, hgap, hrest⟩ := exists_gap s
    exact ⟨rest, hs, hgap, settled_iff.2 hrest⟩
  · rintro ⟨rest, rfl, hgap, hrest⟩
    exact hgap.gap_eq hrest

end Decaf
