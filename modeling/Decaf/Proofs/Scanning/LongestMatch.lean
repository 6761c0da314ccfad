import Decaf.Source
import Mathlib.Data.List.TakeWhile

namespace Decaf

/-!
# The longest lexeme

The classes of lexeme as a grammar, apart from how they are read.  More than one lexeme may stand at
the front of a text: `12.5` starts with the integers `1` and `12` and with the doubles `12.` and
`12.5`.  The one that is read is the longest, and a character that no lexeme starts with is read
alone.

* `Lexeme.Lexical` — the lexemes of the grammar.
* `Lexeme.IsFirst` — the longest lexeme at the front of a text, or else its first character.
* `Lexeme.Lexical.eq_first_or_lt` — a lexeme at the front of a text is the one that is read, or
  shorter.
* `Lexeme.isFirst_first`, `Lexeme.IsFirst.eq_first` — the lexeme that is read is the longest, and
  nothing else is.
-/

/-! ### Marks -/

namespace Mark

/-- Every mark has one character or two. -/
theorem length_spelling (m : Mark) : m.spelling.length = 1 ∨ m.spelling.length = 2 := by
  cases m <;> decide

theorem ofChar?_of_spelling {m : Mark} {c : Char} (h : m.spelling = [c]) : ofChar? c = some m := by
  cases m <;> cases h <;> rfl

theorem ofPair?_of_spelling {m : Mark} {c d : Char} (h : m.spelling = [c, d]) :
    ofPair? c d = some m := by
  cases m <;> cases h <;> rfl

theorem spelling_of_ofPair? {m : Mark} {c d : Char} (h : ofPair? c d = some m) :
    m.spelling = [c, d] := by
  unfold ofPair? at h
  split at h <;> cases h <;> rfl

/-- No mark starts with a letter, a digit or a quote. -/
theorem head_spelling {m : Mark} {c : Char} {s : List Char} (h : m.spelling = c :: s) :
    ¬ c.isAlpha ∧ ¬ c.isDigit ∧ c ≠ '"' := by
  cases m <;> cases h <;> decide

/-- A mark at the front of a text is the one that is read, or shorter. -/
theorem exists_first?_of_spelling {m : Mark} {c : Char} {s after : List Char}
    (h : c :: s = m.spelling ++ after) :
    ∃ n, first? c s = some n ∧ (m = n ∨ m.spelling.length < n.spelling.length) := by
  unfold first?
  match hm : m.spelling, m.length_spelling with
  | [a], _ =>
    rw [hm] at h
    obtain ⟨rfl, rfl⟩ := List.cons.inj h
    -- a pair that starts with the character is read instead
    cases hpair : s.head?.bind (ofPair? c) with
    | none => exact ⟨m, by rw [Option.none_or, ofChar?_of_spelling hm], .inl rfl⟩
    | some n =>
      obtain ⟨d, _, hn⟩ := Option.bind_eq_some_iff.1 hpair
      exact ⟨n, Option.some_or, .inr (by simp [spelling_of_ofPair? hn])⟩
  | [a, b], _ =>
    rw [hm] at h
    obtain ⟨rfl, rfl⟩ := List.cons.inj h
    refine ⟨m, ?_, .inl rfl⟩
    simp [ofPair?_of_spelling hm]

end Mark

/-! ### The grammar -/

namespace Lexeme

/-- The exponent of a double: nothing, or a letter `e` in either case, a digit or a sign, and
    digits. -/
inductive Exponent : List Char → Prop where
  | none : Exponent []
  | some {e s : Char} {ds : List Char} :
      e = 'e' ∨ e = 'E' → s.isDigit ∨ s = '+' ∨ s = '-' → (∀ d ∈ ds, d.isDigit) →
      Exponent (e :: s :: ds)

/-- The lexeme `x`, which stands in front of `rest`, is one of the grammar. -/
inductive Lexical : Lexeme → List Char → Prop where
  | word {c : Char} {ds rest : List Char} :
      c.isAlpha → (∀ d ∈ ds, isWordChar d) → Lexical (word (c :: ds)) rest
  | decimal {ds rest : List Char} : ds ≠ [] → (∀ d ∈ ds, d.isDigit) → Lexical (decimal ds) rest
  | hexadecimal {x : Char} {ds rest : List Char} :
      x = 'x' ∨ x = 'X' → (∀ d ∈ ds, isHexDigit d) → Lexical (hexadecimal x ds) rest
  | double {ds fs es rest : List Char} :
      ds ≠ [] → (∀ d ∈ ds, d.isDigit) → (∀ d ∈ fs, d.isDigit) → Exponent es →
      Lexical (double (ds ++ '.' :: (fs ++ es))) rest
  | quoted {body rest : List Char} : (∀ c ∈ body, c ≠ '"' ∧ c ≠ '\n') → Lexical (quoted body) rest
  /-- A quote that is not closed takes the rest of its line. -/
  | unclosed {body rest : List Char} :
      (∀ c ∈ body, c ≠ '"' ∧ c ≠ '\n') → (rest = [] ∨ ∃ more, rest = '\n' :: more) →
      Lexical (unclosed body) rest
  | mark (m : Mark) {rest : List Char} : Lexical (mark m) rest

/-- The lexeme `x`, which stands in front of `rest`, is the longest of the grammar that stands
    there.  Where there is none, it is a single character. -/
inductive IsFirst : Lexeme → List Char → Prop where
  | longest {x : Lexeme} {rest : List Char} : Lexical x rest →
      (∀ y after, x.text ++ rest = y.text ++ after → Lexical y after →
        y.text.length ≤ x.text.length) → IsFirst x rest
  | stray {c : Char} {rest : List Char} :
      (∀ y after, c :: rest = y.text ++ after → ¬ Lexical y after) → IsFirst (stray c) rest

variable {x y : Lexeme} {c : Char} {s rest after : List Char}

/-- Every lexeme of the grammar has at least one character. -/
theorem Lexical.text_ne_nil (h : Lexical x rest) : x.text ≠ [] := by
  cases h with
  | decimal hds => exact hds
  | double => simp [text]
  | mark m =>
    have hlength := m.length_spelling
    rintro (hm : m.spelling = [])
    simp [hm] at hlength
  | _ => exact List.cons_ne_nil _ _

/-! ### Runs of characters -/

theorem append_eq_or_lt (ds more : List Char) :
    ds ++ more = ds ∨ ds.length < (ds ++ more).length := by
  cases more with
  | nil => exact .inl (List.append_nil ds)
  | cons d more => exact .inr (by simp)

/-- Characters of a class are all taken, and perhaps more. -/
theorem takeWhile_eq_or_lt {P : Char → Bool} {ds : List Char} (h : ∀ d ∈ ds, P d)
    (after : List Char) :
    (ds ++ after).takeWhile P = ds ∨ ds.length < ((ds ++ after).takeWhile P).length := by
  rw [List.takeWhile_append_of_pos h]
  exact append_eq_or_lt ds _

/-- Where a character of another class follows, or nothing, no more are taken. -/
theorem span_eq {P : Char → Bool} {ds : List Char} (h : ∀ d ∈ ds, P d)
    (hrest : ∀ d ∈ rest.head?, ¬ P d) :
    (ds ++ rest).takeWhile P = ds ∧ (ds ++ rest).dropWhile P = rest := by
  rw [List.takeWhile_append_of_pos h, List.dropWhile_append_of_pos h]
  cases rest with
  | nil => simp
  | cons d more =>
    have hd : ¬ P d := hrest d rfl
    simp [hd]

/-! ### Numbers -/

theorem not_isAlpha_of_isDigit (h : c.isDigit) : ¬ c.isAlpha := by
  rw [Char.isDigit_iff_toNat] at h
  rw [isAlpha_iff]
  have hdigits : '9'.toNat < 65 := by decide
  omega

/-- Digits at the front of a text are the number there, or there is a longer one. -/
theorem decimal_eq_number_or_lt {ds : List Char} (h : ∀ d ∈ ds, d.isDigit) (after : List Char) :
    decimal ds = number (ds ++ after) ∨ ds.length < (number (ds ++ after)).text.length := by
  have hle : ds.length ≤ ((ds ++ after).takeWhile Char.isDigit).length := by
    rw [List.takeWhile_append_of_pos h, List.length_append]
    omega
  unfold number
  split
  · -- a point follows the digits and makes a double of them
    refine .inr ?_
    simp only [text, List.length_append, List.length_cons]
    omega
  · rcases takeWhile_eq_or_lt h after with heq | hlt
    · exact .inl (by rw [heq])
    · exact .inr hlt

/-- Digits and an exponent after a point are the fraction there, or there is a longer one. -/
theorem fraction_eq_or_lt {fs es : List Char} (hfs : ∀ d ∈ fs, d.isDigit) (hes : Exponent es)
    (after : List Char) :
    fraction (fs ++ (es ++ after)) = fs ++ es ∨
      (fs ++ es).length < (fraction (fs ++ (es ++ after))).length := by
  unfold fraction
  cases hes with
  | none =>
    -- more digits or an exponent may follow
    rw [List.nil_append, List.append_nil, List.takeWhile_append_of_pos hfs, List.append_assoc]
    exact append_eq_or_lt fs _
  | @some e s ds he hs hds =>
    have hletter : ∀ d ∈ (e :: s :: ds ++ after).head?, ¬ d.isDigit := by
      rintro d ⟨⟩
      rcases he with rfl | rfl <;> decide
    have hopens : opensExponent e s := by
      rcases he with rfl | rfl <;> rcases hs with hs | rfl | rfl <;> simp [opensExponent, *]
    obtain ⟨htake, hdrop⟩ := span_eq hfs hletter
    rw [htake, hdrop]
    simp only [List.cons_append, hopens, if_true]
    rcases takeWhile_eq_or_lt hds after with heq | hlt
    · exact .inl (by rw [heq])
    · refine .inr ?_
      simp only [List.length_append, List.length_cons]
      omega

/-- A double at the front of a text is the number there, or there is a longer one. -/
theorem double_eq_number_or_lt {ds fs es : List Char} (hds : ∀ d ∈ ds, d.isDigit)
    (hfs : ∀ d ∈ fs, d.isDigit) (hes : Exponent es) (after : List Char) :
    double (ds ++ '.' :: (fs ++ es)) = number (ds ++ '.' :: (fs ++ (es ++ after))) ∨
      (ds ++ '.' :: (fs ++ es)).length <
        (number (ds ++ '.' :: (fs ++ (es ++ after)))).text.length := by
  have hpoint : ∀ d ∈ ('.' :: (fs ++ (es ++ after))).head?, ¬ d.isDigit := by
    rintro d ⟨⟩
    decide
  obtain ⟨htake, hdrop⟩ := span_eq hds hpoint
  -- the digits before the point are taken as they are, so the lengths differ after it only
  have hnumber : number (ds ++ '.' :: (fs ++ (es ++ after))) =
      double (ds ++ '.' :: fraction (fs ++ (es ++ after))) := by
    rw [number, hdrop, htake]
    rfl
  rw [hnumber]
  rcases fraction_eq_or_lt hfs hes after with heq | hlt
  · exact .inl (by rw [heq])
  · refine .inr ?_
    simp only [text, List.length_append, List.length_cons] at hlt ⊢
    omega

/-- A zero and the letter `x` open a hexadecimal number. -/
theorem numeral_zero_x {x : Char} (hx : x = 'x' ∨ x = 'X') (s : List Char) :
    numeral '0' (x :: s) = hexadecimal x (s.takeWhile isHexDigit) := by
  rcases hx with rfl | rfl <;> rfl

/-- A digit that no letter `x` follows opens a decimal number. -/
theorem numeral_eq_number (h : ∀ x ∈ s.head?, ¬ (x = 'x' ∨ x = 'X')) :
    numeral c s = number (c :: s) := by
  unfold numeral
  split
  · exact absurd (.inl rfl) (h 'x' rfl)
  · exact absurd (.inr rfl) (h 'X' rfl)
  · rfl

/-- The letter `x` is no digit. -/
theorem not_x_of_isDigit (h : c.isDigit) : ¬ (c = 'x' ∨ c = 'X') := by
  rintro (rfl | rfl) <;> exact absurd h (by decide)

/-- Digits at the front of a text are the number that is read, or shorter. -/
theorem decimal_eq_numeral_or_lt {ds : List Char} (h : ∀ d ∈ c :: ds, d.isDigit)
    (after : List Char) :
    decimal (c :: ds) = numeral c (ds ++ after) ∨
      (c :: ds).length < (numeral c (ds ++ after)).text.length := by
  cases ds with
  | nil =>
    -- a digit alone may be the zero of a hexadecimal number
    unfold numeral
    split
    · exact .inr (by simp [text])
    · exact .inr (by simp [text])
    · exact decimal_eq_number_or_lt h after
  | cons d ds =>
    have hd : ∀ x ∈ (d :: ds ++ after).head?, ¬ (x = 'x' ∨ x = 'X') := by
      rintro x ⟨⟩
      exact not_x_of_isDigit (h d (by simp))
    rw [numeral_eq_number hd]
    exact decimal_eq_number_or_lt h after

/-- A hexadecimal number at the front of a text is the number that is read, or shorter. -/
theorem hexadecimal_eq_numeral_or_lt {x : Char} {ds : List Char} (hx : x = 'x' ∨ x = 'X')
    (h : ∀ d ∈ ds, isHexDigit d) (after : List Char) :
    hexadecimal x ds = numeral '0' (x :: (ds ++ after)) ∨
      (hexadecimal x ds).text.length < (numeral '0' (x :: (ds ++ after))).text.length := by
  rw [numeral_zero_x hx]
  rcases takeWhile_eq_or_lt h after with heq | hlt
  · exact .inl (by rw [heq])
  · refine .inr ?_
    simp only [text, List.length_cons]
    omega

/-- A double at the front of a text is the number that is read, or shorter. -/
theorem double_eq_numeral_or_lt {ds fs es : List Char} (hds : ∀ d ∈ c :: ds, d.isDigit)
    (hfs : ∀ d ∈ fs, d.isDigit) (hes : Exponent es) (after : List Char) :
    double (c :: ds ++ '.' :: (fs ++ es)) = numeral c (ds ++ '.' :: (fs ++ (es ++ after))) ∨
      (c :: ds ++ '.' :: (fs ++ es)).length <
        (numeral c (ds ++ '.' :: (fs ++ (es ++ after)))).text.length := by
  have hx : ∀ x ∈ (ds ++ '.' :: (fs ++ (es ++ after))).head?, ¬ (x = 'x' ∨ x = 'X') := by
    cases ds with
    | nil =>
      rintro x ⟨⟩
      decide
    | cons d ds =>
      rintro x ⟨⟩
      exact not_x_of_isDigit (hds d (by simp))
  rw [numeral_eq_number hx]
  exact double_eq_number_or_lt hds hfs hes after

/-! ### Strings -/

/-- A quote on the same line closes a string. -/
theorem quotation_of_quote {body : List Char} (h : ∀ c ∈ body, c ≠ '"' ∧ c ≠ '\n')
    (after : List Char) : quotation (body ++ '"' :: after) = quoted body := by
  have hbody : ∀ c ∈ body, (c ≠ '"' && c ≠ '\n') = true := by simpa using h
  have hquote : ∀ c ∈ ('"' :: after).head?, ¬ (c ≠ '"' && c ≠ '\n') = true := by simp
  obtain ⟨htake, hdrop⟩ := span_eq hbody hquote
  rw [quotation, htake, hdrop]
  rfl

/-- A string without a quote on its line is not closed. -/
theorem quotation_of_newline {body : List Char} (h : ∀ c ∈ body, c ≠ '"' ∧ c ≠ '\n')
    (hend : rest = [] ∨ ∃ more, rest = '\n' :: more) :
    quotation (body ++ rest) = unclosed body := by
  have hbody : ∀ c ∈ body, (c ≠ '"' && c ≠ '\n') = true := by simpa using h
  have hstop : ∀ c ∈ rest.head?, ¬ (c ≠ '"' && c ≠ '\n') = true := by
    rcases hend with rfl | ⟨more, rfl⟩ <;> simp
  obtain ⟨htake, hdrop⟩ := span_eq hbody hstop
  rw [quotation, htake, hdrop]
  rcases hend with rfl | ⟨more, rfl⟩ <;> rfl

/-! ### What is read -/

theorem first_of_isDigit (hc : c.isDigit) (s : List Char) : first c s = numeral c s := by
  rw [first, if_neg (not_isAlpha_of_isDigit hc), if_pos hc]

theorem first_of_mark {m : Mark} (h : c :: s = m.spelling ++ after) :
    ∃ n, first c s = mark n ∧ (m = n ∨ m.spelling.length < n.spelling.length) := by
  obtain ⟨n, hn, hm⟩ := Mark.exists_first?_of_spelling h
  obtain ⟨halpha, hdigit, hquote⟩ : ¬ c.isAlpha ∧ ¬ c.isDigit ∧ c ≠ '"' := by
    cases hspelling : m.spelling with
    | nil =>
      have hlength := m.length_spelling
      simp [hspelling] at hlength
    | cons d ds =>
      rw [hspelling] at h
      obtain ⟨rfl, _⟩ := List.cons.inj h
      exact Mark.head_spelling hspelling
  exact ⟨n, by rw [first, if_neg halpha, if_neg hdigit, if_neg hquote, hn], hm⟩

/-- **No lexeme is longer.** A lexeme at the front of a text is the one that is read, or shorter. -/
theorem Lexical.eq_first_or_lt (hy : Lexical y after) (hs : c :: s = y.text ++ after) :
    y = first c s ∨ y.text.length < (first c s).text.length := by
  cases hy with
  | @word d ds _ hd hds =>
    obtain ⟨rfl, rfl⟩ : c = d ∧ s = ds ++ after := List.cons.inj hs
    rw [first, if_pos hd]
    -- letters may follow the word, and then more of them are read
    rcases takeWhile_eq_or_lt hds after with heq | hlt
    · exact .inl (by rw [heq])
    · exact .inr (Nat.succ_lt_succ hlt)
  | @decimal ds _ hne hds =>
    obtain ⟨d, ds, rfl⟩ := List.exists_cons_of_ne_nil hne
    obtain ⟨rfl, rfl⟩ : c = d ∧ s = ds ++ after := List.cons.inj hs
    -- whatever numeral is read starts with these digits
    rw [first_of_isDigit (hds c (by simp))]
    exact decimal_eq_numeral_or_lt hds after
  | @hexadecimal x ds _ hx hds =>
    obtain ⟨rfl, rfl⟩ : c = '0' ∧ s = x :: (ds ++ after) := List.cons.inj hs
    rw [first_of_isDigit (by decide)]
    exact hexadecimal_eq_numeral_or_lt hx hds after
  | @double ds fs es _ hne hds hfs hes =>
    obtain ⟨d, ds, rfl⟩ := List.exists_cons_of_ne_nil hne
    have hs' : c :: s = d :: (ds ++ '.' :: (fs ++ (es ++ after))) := by simpa [text] using hs
    obtain ⟨rfl, rfl⟩ := List.cons.inj hs'
    rw [first_of_isDigit (hds c (by simp))]
    exact double_eq_numeral_or_lt hds hfs hes after
  | @quoted body _ hbody =>
    have hs' : c :: s = '"' :: (body ++ '"' :: after) := by simpa [text] using hs
    obtain ⟨rfl, rfl⟩ := List.cons.inj hs'
    -- a string ends at its first quote, so there is nothing to compare
    exact .inl (quotation_of_quote hbody after).symm
  | @unclosed body _ hbody hend =>
    obtain ⟨rfl, rfl⟩ : c = '"' ∧ s = body ++ after := List.cons.inj hs
    exact .inl (quotation_of_newline hbody hend).symm
  | mark m =>
    obtain ⟨n, hn, hm⟩ := first_of_mark hs
    rw [hn]
    rcases hm with rfl | hlt
    · exact .inl rfl
    · exact .inr hlt

/-! ### The lexeme that is read is one of the grammar -/

/-- What is read after a point is digits and an exponent. -/
theorem exists_fraction (s : List Char) :
    ∃ fs es, fraction s = fs ++ es ∧ (∀ d ∈ fs, d.isDigit) ∧ Exponent es := by
  refine ⟨s.takeWhile Char.isDigit, _, rfl, fun d => List.mem_takeWhile_imp, ?_⟩
  split
  · rename_i e m more _
    split
    · rename_i hopens
      simp only [opensExponent, Bool.and_eq_true, Bool.or_eq_true, decide_eq_true_eq] at hopens
      exact .some hopens.1 (or_assoc.1 hopens.2) fun d => List.mem_takeWhile_imp
    · exact .none
  · exact .none

theorem lexical_number (hc : c.isDigit) (s rest : List Char) : Lexical (number (c :: s)) rest := by
  have hne : (c :: s).takeWhile Char.isDigit ≠ [] := by simp [hc]
  unfold number
  split
  · rename_i more _
    obtain ⟨fs, es, hfraction, hfs, hes⟩ := exists_fraction more
    rw [hfraction]
    exact .double hne (fun d => List.mem_takeWhile_imp) hfs hes
  · exact .decimal hne fun d => List.mem_takeWhile_imp

theorem lexical_numeral (hc : c.isDigit) (s rest : List Char) : Lexical (numeral c s) rest := by
  unfold numeral
  split
  · exact .hexadecimal (.inl rfl) fun d => List.mem_takeWhile_imp
  · exact .hexadecimal (.inr rfl) fun d => List.mem_takeWhile_imp
  · exact lexical_number hc s rest

/-- After a quote, the line goes on up to its end or another quote. -/
theorem exists_body (s : List Char) :
    ∃ body tail, s = body ++ tail ∧ (∀ c ∈ body, c ≠ '"' ∧ c ≠ '\n') ∧
      ((tail = [] ∨ ∃ more, tail = '\n' :: more) ∨ ∃ more, tail = '"' :: more) := by
  refine ⟨s.takeWhile (fun c => c ≠ '"' && c ≠ '\n'), s.dropWhile (fun c => c ≠ '"' && c ≠ '\n'),
    List.takeWhile_append_dropWhile.symm, ?_, ?_⟩
  · intro c hc
    simpa using List.mem_takeWhile_imp hc
  · have hhead := List.head?_dropWhile_not (fun c => c ≠ '"' && c ≠ '\n') s
    cases htail : s.dropWhile (fun c => c ≠ '"' && c ≠ '\n') with
    | nil => exact .inl (.inl rfl)
    | cons c more =>
      rw [htail] at hhead
      by_cases hc : c = '"'
      · exact .inr ⟨more, by rw [hc]⟩
      · have hnewline : c = '\n' := by simpa [hc] using hhead
        exact .inl (.inr ⟨more, by rw [hnewline]⟩)

theorem lexical_quotation (h : '"' :: s = (quotation s).text ++ rest) :
    Lexical (quotation s) rest := by
  obtain ⟨body, tail, rfl, hbody, hend | ⟨more, rfl⟩⟩ := exists_body s
  · rw [quotation_of_newline hbody hend] at h ⊢
    have htail : tail = rest := List.append_cancel_left (List.cons.inj h).2
    exact .unclosed hbody (htail ▸ hend)
  · rw [quotation_of_quote hbody]
    exact .quoted hbody

/-- What is read is a lexeme of the grammar, or a single character. -/
theorem lexical_first_or_stray (h : c :: s = (first c s).text ++ rest) :
    Lexical (first c s) rest ∨ first c s = stray c := by
  by_cases halpha : c.isAlpha
  · rw [first, if_pos halpha]
    exact .inl (.word halpha fun d => List.mem_takeWhile_imp)
  by_cases hdigit : c.isDigit
  · rw [first_of_isDigit hdigit]
    exact .inl (lexical_numeral hdigit s rest)
  by_cases hquote : c = '"'
  · subst hquote
    exact .inl (lexical_quotation h)
  · rw [first, if_neg halpha, if_neg hdigit, if_neg hquote]
    cases Mark.first? c s with
    | none => exact .inr rfl
    | some m => exact .inl (.mark m)

/-! ### The longest lexeme is read -/

/-- **Longest match.** The lexeme that is read at the front of a text is the longest of the grammar
    there, or the first character if there is none. -/
theorem isFirst_first (h : c :: s = (first c s).text ++ rest) : IsFirst (first c s) rest := by
  rcases lexical_first_or_stray h with hfirst | hstray
  · refine .longest hfirst fun y after hy hlexical => ?_
    rcases hlexical.eq_first_or_lt (h.trans hy) with rfl | hlt
    · exact Nat.le_refl _
    · exact Nat.le_of_lt hlt
  · rw [hstray] at h ⊢
    obtain rfl : s = rest := (List.cons.inj h).2
    refine .stray fun y after hy hlexical => ?_
    rcases hlexical.eq_first_or_lt hy with rfl | hlt
    · rw [hstray] at hlexical
      cases hlexical
    · -- a lexeme that is shorter than one character is empty
      rw [hstray] at hlt
      exact hlexical.text_ne_nil (List.length_eq_zero_iff.1 (Nat.lt_one_iff.1 hlt))

/-- **Only the longest.** A lexeme that is the longest at the front of a text is the one that is
    read. -/
theorem IsFirst.eq_first (hx : IsFirst x rest) (h : c :: s = x.text ++ rest) : x = first c s := by
  obtain ⟨after, hafter⟩ := text_first_prefix c s
  cases hx with
  | longest hlexical hlongest =>
    rcases hlexical.eq_first_or_lt h with heq | hlt
    · exact heq
    · -- the lexeme that is read is longer, which the longest one excludes
      rcases lexical_first_or_stray hafter.symm with hfirst | hstray
      · have hle := hlongest _ after (h.symm.trans hafter.symm) hfirst
        omega
      · rw [hstray] at hlt
        exact absurd (List.length_eq_zero_iff.1 (Nat.lt_one_iff.1 hlt)) hlexical.text_ne_nil
  | stray hnone =>
    obtain ⟨rfl, rfl⟩ := List.cons.inj h
    rcases lexical_first_or_stray hafter.symm with hfirst | hstray
    · exact absurd hfirst (hnone _ after hafter.symm)
    · exact hstray.symm

end Lexeme

end Decaf
