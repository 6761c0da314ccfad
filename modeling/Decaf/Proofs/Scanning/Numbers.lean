import Decaf.Proofs.Scanning.Boundaries
import Mathlib.Data.List.Basic

namespace Decaf

/-!
# Numbers

An integer constant is a run of digits, decimal or, after a zero and the letter `x`, hexadecimal.
The run is taken as a whole, however long it is, and only then judged: it is a constant if the
number that it writes is not too large.  A double has a point, and perhaps an exponent.  Whether an
exponent is taken is decided by the one character after its letter, which may be a sign that no
digit follows.

* `digitOf`, `valueIn` — what a digit stands for, and the number that digits write.
* `IntegerRun` — a run of digits that is as long as it can be.
* `integers_within_range` — a run of digits is a constant exactly if its number is in range, and is
  taken as a whole.
* `WellFormedDouble` — digits, a point, digits, and perhaps an exponent that has digits.
* `Source.exists_piece_of_tokens` — a scan goes on with what stands after a token.
* `doubles_as_scanned` — what doubles look like, and when they are well-formed.
* `sign_without_digits_taken` — not all of them are.
-/

/-! ### Digits -/

/-- The number that a digit stands for: its place among the sixteen digits, in which letters may be
    of either case. -/
def digitOf (c : Char) : Nat :=
  ['0', '1', '2', '3', '4', '5', '6', '7', '8', '9', 'a', 'b', 'c', 'd', 'e', 'f'].idxOf c.toLower

/-- The number that digits write in positional notation. -/
def valueIn (base : Nat) (ds : List Char) : Nat :=
  Nat.ofDigits base (ds.reverse.map digitOf)

theorem isHexDigit_of_isDigit {c : Char} (h : c.isDigit) : isHexDigit c := by
  simp [isHexDigit, h]

/-- Every digit is one of the first characters. -/
theorem toNat_lt_of_isHexDigit {c : Char} (h : isHexDigit c) : c.toNat < 128 := by
  simp only [isHexDigit, Char.isDigit, Bool.or_eq_true, Bool.and_eq_true, decide_eq_true_eq,
    Char.le_def, ge_iff_le, UInt32.le_iff_toNat_le, Char.toNat_val, Char.reduceToNat] at h
  omega

theorem digitValue_eq_digitOf {c : Char} (h : isHexDigit c) : digitValue c = digitOf c := by
  have hall : ∀ n < 128, isHexDigit (Char.ofNat n) →
      digitValue (Char.ofNat n) = digitOf (Char.ofNat n) := by decide
  have hc := hall c.toNat (toNat_lt_of_isHexDigit h)
  rw [Char.ofNat_toNat] at hc
  exact hc h

/-- Digits write the number by which they are judged. -/
theorem Lexeme.fits_iff {base : Nat} {ds : List Char} (h : ∀ d ∈ ds, isHexDigit d) :
    Fits base ds ↔ ds ≠ [] ∧ valueIn base ds ≤ 2 ^ 31 - 1 := by
  have hvalues : ds.reverse.map digitValue = ds.reverse.map digitOf :=
    List.map_congr_left fun d hd => digitValue_eq_digitOf (h d (List.mem_reverse.1 hd))
  rw [Fits, valueIn, hvalues]
  rfl

/-! ### Runs of digits -/

/-- The text, which stands in front of `rest`, is a run of digits that is as long as it can be.  A
    decimal run is followed by no point, and a zero in front of the letter `x` is none. -/
inductive IntegerRun : (base : Nat) → (text digits rest : List Char) → Prop where
  | decimal {ds rest : List Char} :
      ds ≠ [] → (∀ d ∈ ds, d.isDigit) → (∀ c ∈ rest.head?, ¬ c.isDigit) → rest.head? ≠ some '.' →
      ¬ (ds = ['0'] ∧ (rest.head? = some 'x' ∨ rest.head? = some 'X')) → IntegerRun 10 ds ds rest
  /-- After the letter there may be no digit at all. -/
  | hexadecimal {x : Char} {ds rest : List Char} :
      x = 'x' ∨ x = 'X' → (∀ d ∈ ds, isHexDigit d) → (∀ c ∈ rest.head?, ¬ isHexDigit c) →
      IntegerRun 16 ('0' :: x :: ds) ds rest

namespace Lexeme

variable {ds rest : List Char}

/-- Digits that no digit and no point follow are a whole number. -/
theorem number_of_digits (hds : ∀ d ∈ ds, d.isDigit) (hrest : ∀ c ∈ rest.head?, ¬ c.isDigit)
    (hpoint : rest.head? ≠ some '.') : number (ds ++ rest) = decimal ds := by
  obtain ⟨htake, hdrop⟩ := span_eq hds hrest
  rw [number, htake, hdrop]
  split
  · exact absurd rfl hpoint
  · rfl

/-- Only a zero in front of the letter `x` opens a hexadecimal number. -/
theorem numeral_eq_number_of_not_zero_x {c : Char} {s : List Char}
    (h : ¬ (c = '0' ∧ (s.head? = some 'x' ∨ s.head? = some 'X'))) :
    numeral c s = number (c :: s) := by
  unfold numeral
  split
  · exact absurd ⟨rfl, .inl rfl⟩ h
  · exact absurd ⟨rfl, .inr rfl⟩ h
  · rfl

/-- A decimal run is read as a whole. -/
theorem isFirst_decimal (hne : ds ≠ []) (hds : ∀ d ∈ ds, d.isDigit)
    (hrest : ∀ c ∈ rest.head?, ¬ c.isDigit) (hpoint : rest.head? ≠ some '.')
    (hx : ¬ (ds = ['0'] ∧ (rest.head? = some 'x' ∨ rest.head? = some 'X'))) :
    (decimal ds).IsFirst rest := by
  obtain ⟨d, ds, rfl⟩ := List.exists_cons_of_ne_nil hne
  -- a zero is read as the start of a hexadecimal only right before the letter
  have hnot : ¬ (d = '0' ∧ ((ds ++ rest).head? = some 'x' ∨ (ds ++ rest).head? = some 'X')) := by
    rintro ⟨rfl, hhead⟩
    cases ds with
    | nil => exact hx ⟨rfl, hhead⟩
    | cons e ds =>
      have he : e.isDigit := hds e (by simp)
      rcases hhead with hhead | hhead <;> cases hhead <;> exact absurd he (by decide)
  have hfirst : first d (ds ++ rest) = decimal (d :: ds) := by
    rw [first_of_isDigit (hds d List.mem_cons_self), numeral_eq_number_of_not_zero_x hnot,
      ← List.cons_append, number_of_digits hds hrest hpoint]
  exact hfirst ▸ isFirst_first (by rw [hfirst]; rfl)

/-- A hexadecimal run is read as a whole. -/
theorem isFirst_hexadecimal {x : Char} (hx : x = 'x' ∨ x = 'X') (hds : ∀ d ∈ ds, isHexDigit d)
    (hrest : ∀ c ∈ rest.head?, ¬ isHexDigit c) : (hexadecimal x ds).IsFirst rest := by
  have hfirst : first '0' (x :: (ds ++ rest)) = hexadecimal x ds := by
    rw [first_of_isDigit (by decide), numeral_zero_x hx, (span_eq hds hrest).1]
  exact hfirst ▸ isFirst_first (by rw [hfirst]; rfl)

end Lexeme

/-- No gap starts with a digit. -/
theorem settled_of_isDigit {c : Char} (hc : c.isDigit) (s : List Char) : Settled (c :: s) := by
  have hslash : c ≠ '/' := by
    rintro rfl
    exact absurd hc (by decide)
  refine settled_cons_iff.2 ⟨not_isBlank_of_isWordChar (isWordChar_of_isDigit hc), ?_, ?_⟩ <;>
    simp [List.cons_prefix_cons, Ne.symm hslash]

namespace IntegerRun

variable {base : Nat} {text digits rest : List Char}

theorem exists_isDigit (h : IntegerRun base text digits rest) :
    ∃ d s, text = d :: s ∧ d.isDigit := by
  cases h with
  | decimal hne hds =>
    obtain ⟨d, s, rfl⟩ := List.exists_cons_of_ne_nil hne
    exact ⟨d, s, rfl, hds d List.mem_cons_self⟩
  | hexadecimal => exact ⟨'0', _, rfl, by decide⟩

/-- **Reading a run.** The run is read as one lexeme, whose token is a constant if the number fits
    and an error if not. -/
theorem exists_lexeme (h : IntegerRun base text digits rest) :
    ∃ x : Lexeme, x.text = text ∧ x.IsFirst rest ∧
      (digits ≠ [] ∧ valueIn base digits ≤ 2 ^ 31 - 1 →
        ∀ p, x.Yields p .intConst (String.ofList text)) ∧
      (¬ (digits ≠ [] ∧ valueIn base digits ≤ 2 ^ 31 - 1) →
        ∀ p, x.Yields p .error "Number out of range") := by
  cases h with
  | decimal hne hds hrest hpoint hx =>
    rw [← Lexeme.fits_iff fun d hd => isHexDigit_of_isDigit (hds d hd)]
    exact ⟨.decimal text, rfl, Lexeme.isFirst_decimal hne hds hrest hpoint hx,
      fun hfits _ => .decimal hfits, fun hfits _ => .decimalRange hfits⟩
  | @hexadecimal x _ _ hx hds hrest =>
    rw [← Lexeme.fits_iff hds]
    exact ⟨.hexadecimal x digits, rfl, Lexeme.isFirst_hexadecimal hx hds hrest,
      fun hfits _ => .hexadecimal hfits, fun hfits _ => .hexadecimalRange hfits⟩

end IntegerRun

/-- **Integers within range.** Let a run of digits stand after a gap, at any place of a source.  It
    is read as a whole, and the scan goes on after it.  Its token is an integer constant, with the
    run as its text, exactly if the run has a digit (after the zero and the letter, if it is
    hexadecimal) and the number that it writes is at most `2 ^ 31 - 1`.  Otherwise the token is the
    error that the number is out of range. -/
theorem integers_within_range {base : Nat} {text digits rest g : List Char} (p : Position)
    (hrun : IntegerRun base text digits rest) (hgap : Gap g (text ++ rest)) :
    let token := (⟨g ++ (text ++ rest), p⟩ : Source).next.1
    let inRange := digits ≠ [] ∧ valueIn base digits ≤ 2 ^ 31 - 1
    (⟨g ++ (text ++ rest), p⟩ : Source).next.2 = ⟨rest, p.afterAll (g ++ text)⟩ ∧
      token.pos = p.afterAll g ∧
      (token.kind = .intConst ∧ token.literal = String.ofList text ↔ inRange) ∧
      (token.kind = .error ∧ token.literal = "Number out of range" ↔ ¬ inRange) := by
  obtain ⟨d, s, htext, hd⟩ := hrun.exists_isDigit
  -- a digit starts neither a blank nor a comment, so the gap ends here
  have hsettled : Settled (text ++ rest) := by
    rw [htext, List.cons_append]
    exact settled_of_isDigit hd _
  obtain ⟨x, rfl, hfirst, hconst, herror⟩ := hrun.exists_lexeme
  rw [Source.next_of_piece hgap hsettled hfirst, Position.afterAll_append]
  intro token inRange
  by_cases h : inRange
  · have htoken : token = ⟨.intConst, String.ofList x.text, p.afterAll g⟩ := (hconst h _).token_eq
    simp [htoken, h]
  · have htoken : token = ⟨.error, "Number out of range", p.afterAll g⟩ := (herror h _).token_eq
    simp [htoken, h]

/-- After a blank stands the largest constant, with zeros in front of it; and a zero and the letter
    `X` have no digit after them. -/
theorem integers_at_the_bounds :
    let largest := ['0', '0', '2', '1', '4', '7', '4', '8', '3', '6', '4', '7']
    let found := (⟨[' '] ++ (largest ++ [';']), .start⟩ : Source).next
    let bare := (⟨[] ++ (['0', 'X'] ++ ['g']), .start⟩ : Source).next
    (found.1.kind = .intConst ∧ found.1.literal = String.ofList largest ∧ found.2.rest = [';']) ∧
      bare.1.kind = .error ∧ bare.1.literal = "Number out of range" ∧ bare.2.rest = ['g'] := by
  intro largest found bare
  have hlargest : IntegerRun 10 largest largest [';'] := by
    refine .decimal (by simp [largest]) ?_ (by simp) (by simp) (by simp)
    exact List.all_eq_true.1 (by decide)
  have hbare : IntegerRun 16 ['0', 'X'] [] ['g'] :=
    .hexadecimal (.inr rfl) (by simp) (by simp [isHexDigit])
  obtain ⟨hrest, _, hconst, _⟩ :=
    integers_within_range (g := [' ']) .start hlargest (.blank (by decide) .nil)
  obtain ⟨hrest', _, _, herror⟩ := integers_within_range .start hbare .nil
  obtain ⟨hkind, hliteral⟩ := hconst.2 (by decide)
  obtain ⟨hkind', hliteral'⟩ := herror.2 (by simp)
  exact ⟨⟨hkind, hliteral, by rw [hrest]⟩, hkind', hliteral', by rw [hrest']⟩

/-! ### Doubles -/

/-- Digits, a point, digits, and perhaps an exponent: the letter `e` in either case, perhaps a sign,
    and digits. -/
inductive WellFormedDouble : List Char → Prop where
  | plain {ds fs : List Char} :
      ds ≠ [] → (∀ d ∈ ds, d.isDigit) → (∀ d ∈ fs, d.isDigit) → WellFormedDouble (ds ++ '.' :: fs)
  | scaled {ds fs sign es : List Char} {e : Char} :
      ds ≠ [] → (∀ d ∈ ds, d.isDigit) → (∀ d ∈ fs, d.isDigit) → e = 'e' ∨ e = 'E' →
      sign = [] ∨ sign = ['+'] ∨ sign = ['-'] → es ≠ [] → (∀ d ∈ es, d.isDigit) →
      WellFormedDouble (ds ++ '.' :: (fs ++ e :: (sign ++ es)))

/-- The last character of a well-formed double is a digit, or its point. -/
theorem WellFormedDouble.isDigit_or_point {front : List Char} {c : Char}
    (h : WellFormedDouble (front ++ [c])) : c.isDigit ∨ c = '.' := by
  have hlast : (front ++ [c]).getLast? = some c := List.getLast?_concat
  generalize front ++ [c] = cs at h hlast
  cases h with
  | @plain ds fs _ _ hfs =>
    rw [List.getLast?_append_of_ne_nil _ (List.cons_ne_nil _ _)] at hlast
    rcases List.mem_cons.1 (List.mem_of_getLast? hlast) with rfl | hmem
    · exact .inr rfl
    · exact .inl (hfs c hmem)
  | @scaled ds fs sign es e _ _ _ _ _ hne hes =>
    have hsplit : ds ++ '.' :: (fs ++ e :: (sign ++ es)) =
        (ds ++ '.' :: (fs ++ e :: sign)) ++ es := by simp
    rw [hsplit, List.getLast?_append_of_ne_nil _ hne] at hlast
    exact .inl (hes c (List.mem_of_getLast? hlast))

namespace Lexeme

variable {ds fs es after : List Char}

/-- The exponent has a sign and no digits. -/
def Dangles (es : List Char) : Prop :=
  ∃ e s, es = [e, s] ∧ (s = '+' ∨ s = '-')

/-- **Exponents with digits.** A double is well-formed exactly if its exponent, if any, has
    digits. -/
theorem wellFormedDouble_iff (hne : ds ≠ []) (hds : ∀ d ∈ ds, d.isDigit) (hfs : ∀ d ∈ fs, d.isDigit)
    (hes : Exponent es) : WellFormedDouble (ds ++ '.' :: (fs ++ es)) ↔ ¬ Dangles es := by
  constructor
  · rintro h ⟨e, s, rfl, hs⟩
    -- a well-formed constant ends in a digit or in the point, and never in a sign
    have hsplit : ds ++ '.' :: (fs ++ [e, s]) = (ds ++ '.' :: (fs ++ [e])) ++ [s] := by simp
    rw [hsplit] at h
    rcases h.isDigit_or_point with hlast | hlast <;> rcases hs with rfl | rfl <;>
      revert hlast <;> decide
  · intro hdangles
    cases hes with
    | none =>
      rw [List.append_nil]
      exact .plain hne hds hfs
    | @some e s xs he hs hxs =>
      by_cases hdigit : s.isDigit
      · exact @WellFormedDouble.scaled ds fs [] (s :: xs) e hne hds hfs he (.inl rfl)
          (List.cons_ne_nil s xs)
          (List.forall_mem_cons.2 ⟨hdigit, hxs⟩)
      · have hsign : s = '+' ∨ s = '-' := hs.resolve_left hdigit
        have hxs' : xs ≠ [] := fun hnil => hdangles ⟨e, s, by rw [hnil], hsign⟩
        have hsign' : [s] = [] ∨ [s] = ['+'] ∨ [s] = ['-'] := by
          rcases hsign with rfl | rfl <;> simp
        exact @WellFormedDouble.scaled ds fs [s] xs e hne hds hfs he hsign' hxs' hxs

/-- What follows a lexeme that is read makes no longer lexeme of it. -/
theorem IsFirst.eq_nil_of_append {x y : Lexeme} {more : List Char} (h : x.IsFirst (more ++ after))
    (hy : Lexical y after) (htext : y.text = x.text ++ more) : more = [] := by
  have hsame : x.text ++ (more ++ after) = y.text ++ after := by rw [htext, List.append_assoc]
  cases h with
  | longest _ hlongest =>
    have hle := hlongest y after hsame hy
    rw [htext, List.length_append] at hle
    exact List.length_eq_zero_iff.1 (by omega)
  | stray hnone => exact absurd hy (hnone y after hsame)

/-- No digit follows a double: it would be part of it. -/
theorem IsFirst.not_isDigit_of_double (h : (double (ds ++ '.' :: (fs ++ es))).IsFirst after)
    (hne : ds ≠ []) (hds : ∀ d ∈ ds, d.isDigit) (hfs : ∀ d ∈ fs, d.isDigit) (hes : Exponent es) :
    ∀ d ∈ after.head?, ¬ d.isDigit := by
  intro d hd hdigit
  obtain ⟨more, rfl⟩ : ∃ more, after = [d] ++ more := List.head?_eq_some_iff.1 hd
  have hconcat : ∀ {xs : List Char}, (∀ x ∈ xs, x.isDigit) → ∀ x ∈ xs ++ [d], x.isDigit := by
    intro xs hxs
    simpa [or_imp, forall_and, hdigit] using hxs
  -- with the digit the lexeme would be longer, as its last run of digits is open
  have hlonger : Lexical (double (ds ++ '.' :: (fs ++ es) ++ [d])) more := by
    cases hes with
    | none =>
      have hplain : Lexical (double (ds ++ '.' :: (fs ++ [d] ++ []))) more :=
        .double hne hds (hconcat hfs) .none
      simpa using hplain
    | @some e s xs he hs hxs =>
      have hscaled : Lexical (double (ds ++ '.' :: (fs ++ e :: s :: (xs ++ [d])))) more :=
        .double hne hds hfs (.some he hs (hconcat hxs))
      simpa using hscaled
  exact absurd (h.eq_nil_of_append hlonger rfl) (List.cons_ne_nil d [])

/-- An exponent is taken exactly if a letter and a digit or a sign stand there. -/
theorem IsFirst.exponent_ne_nil_iff (h : (double (ds ++ '.' :: (fs ++ es))).IsFirst after)
    (hne : ds ≠ []) (hds : ∀ d ∈ ds, d.isDigit) (hfs : ∀ d ∈ fs, d.isDigit) (hes : Exponent es) :
    es ≠ [] ↔ ∃ e s more, es ++ after = e :: s :: more ∧ (e = 'e' ∨ e = 'E') ∧
      (s.isDigit ∨ s = '+' ∨ s = '-') := by
  constructor
  · intro hnil
    cases hes with
    | none => exact absurd rfl hnil
    | some he hs => exact ⟨_, _, _, rfl, he, hs⟩
  · rintro ⟨e, s, more, heq, he, hs⟩ rfl
    -- with the letter and the character after it there is a longer double
    obtain rfl : after = [e, s] ++ more := heq
    have hlonger : Lexical (double (ds ++ '.' :: (fs ++ [e, s]))) more :=
      .double hne hds hfs (.some he hs (by simp))
    exact absurd (h.eq_nil_of_append hlonger (by simp [text])) (List.cons_ne_nil e [s])

/-- The lexeme of a double constant. -/
theorem Yields.eq_double {p : Position} {x : Lexeme} {literal : String}
    (h : Yields p x .doubleConst literal) : x = Lexeme.double literal.toList := by
  cases h with
  | double cs => rw [String.toList_ofList]

end Lexeme

/-! ### Where a scan goes on -/

namespace Source

/-- **After a token.** A token stands in the text where it says, and the tokens after it are those
    of the text behind it. -/
theorem exists_piece_of_tokens {text : List Char} {p : Position} {earlier later : List Token}
    {t : Token} (h : (⟨text, p⟩ : Source).tokens = earlier ++ t :: later) (hkind : t.kind ≠ .eof) :
    ∃ (before : List Char) (x : Lexeme) (after : List Char), text = before ++ (x.text ++ after) ∧
      t.pos = p.afterAll before ∧ x.IsFirst after ∧ x.Yields t.pos t.kind t.literal ∧
      later = (⟨after, p.afterAll (before ++ x.text)⟩ : Source).tokens := by
  obtain ⟨qs, last, hsplit⟩ := exists_split text
  induction hsplit generalizing p earlier with
  | @last g hgap =>
    rw [tokens_eq, next_of_gap hgap, if_pos rfl] at h
    -- behind the last gap stands only the end
    have hend : t ∈ [(⟨.eof, "", p.afterAll g⟩ : Token)] := by simp [h]
    rw [List.mem_singleton.1 hend] at hkind
    exact absurd rfl hkind
  | @piece g rest last x qs hgap hsettled hfirst _ ih =>
    obtain ⟨kind, literal, hyields⟩ := x.exists_yields (p.afterAll g)
    rw [tokens_eq, next_of_piece hgap hsettled hfirst, hyields.token_eq,
      if_neg hyields.kind_ne_eof] at h
    -- the token is that of the first piece, or comes after it
    cases earlier with
    | nil =>
      obtain ⟨rfl, rfl⟩ := List.cons.inj h
      exact ⟨g, x, rest, rfl, rfl, hfirst, hyields, by rw [Position.afterAll_append]⟩
    | cons u earlier =>
      obtain ⟨before, y, after, rfl, hpos, hy, hyields', hlater⟩ := ih (List.cons.inj h).2
      refine ⟨g ++ (x.text ++ before), y, after, by simp, ?_, hy, hyields', ?_⟩
      · rw [hpos, Position.afterAll_append, Position.afterAll_append]
      · rw [hlater]
        simp only [Position.afterAll_append]

/-- Where no gap stands, the next token does. -/
theorem exists_head_tokens {c : Char} {s : List Char} (h : Settled (c :: s)) (p : Position) :
    ∃ t ∈ (⟨c :: s, p⟩ : Source).tokens.head?, t.pos = p := by
  have hnext : (⟨c :: s, p⟩ : Source).next.1 = (Lexeme.first c s).token p := by
    rw [next, settled_iff.1 h]
    rfl
  refine ⟨(Lexeme.first c s).token p, ?_, rfl⟩
  rw [tokens_eq, hnext]
  split <;> rfl

end Source

/-! ### The doubles of a text -/

/-- An exponent stands at the front of the text: a letter `e`, perhaps a sign, and a digit at
    least. -/
def StartsExponent (s : List Char) : Prop :=
  ∃ e sign d more, s = e :: (sign ++ d :: more) ∧ (e = 'e' ∨ e = 'E') ∧
    (sign = [] ∨ sign = ['+'] ∨ sign = ['-']) ∧ d.isDigit

/-- At the front of the text stand a letter `e` and a sign, and no digit after them. -/
def StartsSign (s : List Char) : Prop :=
  ∃ e sign more, s = e :: sign :: more ∧ (e = 'e' ∨ e = 'E') ∧ (sign = '+' ∨ sign = '-') ∧
    ∀ d ∈ more.head?, ¬ d.isDigit

namespace Lexeme

variable {ds fs es after : List Char}

/-- **When an exponent is taken.** After a fraction an exponent is taken if it has digits, and also
    if it has only a sign. -/
theorem exponent_taken_iff (h : (double (ds ++ '.' :: (fs ++ es))).IsFirst after) (hne : ds ≠ [])
    (hds : ∀ d ∈ ds, d.isDigit) (hfs : ∀ d ∈ fs, d.isDigit) (hes : Exponent es) :
    es ≠ [] ↔ StartsExponent (es ++ after) ∨ StartsSign (es ++ after) := by
  rw [h.exponent_ne_nil_iff hne hds hfs hes]
  constructor
  · rintro ⟨e, s, more, heq, he, hs⟩
    rw [heq]
    by_cases hdigit : s.isDigit
    · exact .inl ⟨e, [], s, more, rfl, he, .inl rfl, hdigit⟩
    · have hsign : s = '+' ∨ s = '-' := hs.resolve_left hdigit
      -- the sign is taken whether or not digits follow
      by_cases hmore : ∃ d ∈ more.head?, d.isDigit
      · obtain ⟨d, hd, hdigit⟩ := hmore
        obtain ⟨more, rfl⟩ := List.head?_eq_some_iff.1 hd
        exact .inl ⟨e, [s], d, more, rfl, he, .inr (by simpa using hsign), hdigit⟩
      · exact .inr ⟨e, s, more, rfl, he, hsign, fun d hd hdigit => hmore ⟨d, hd, hdigit⟩⟩
  · rintro (⟨e, sign, d, more, heq, he, rfl | rfl | rfl, hd⟩ | ⟨e, s, more, heq, he, hs, _⟩)
    · exact ⟨e, d, more, heq, he, .inl hd⟩
    · exact ⟨e, '+', d :: more, heq, he, .inr (.inl rfl)⟩
    · exact ⟨e, '-', d :: more, heq, he, .inr (.inr rfl)⟩
    · exact ⟨e, s, more, heq, he, .inr hs⟩

/-- An exponent without digits is taken exactly if a letter and a sign without digits stand
    there. -/
theorem dangles_iff (h : (double (ds ++ '.' :: (fs ++ es))).IsFirst after) (hne : ds ≠ [])
    (hds : ∀ d ∈ ds, d.isDigit) (hfs : ∀ d ∈ fs, d.isDigit) (hes : Exponent es) :
    Dangles es ↔ StartsSign (es ++ after) := by
  constructor
  · rintro ⟨e, s, rfl, hs⟩
    cases hes with
    | some he =>
      exact ⟨e, s, after, rfl, he, hs,
        h.not_isDigit_of_double hne hds hfs (.some he (.inr hs) (by simp))⟩
  · intro hstarts
    have htaken : es ≠ [] := (exponent_taken_iff h hne hds hfs hes).2 (.inr hstarts)
    obtain ⟨e, s, more, heq, _, hs, hmore⟩ := hstarts
    cases hes with
    | none => exact absurd rfl htaken
    | @some e' s' xs _ _ hxs =>
      obtain ⟨rfl, rfl, rfl⟩ : e' = e ∧ s' = s ∧ xs ++ after = more := by simpa using heq
      -- a digit after the sign would have been taken as well
      cases xs with
      | nil => exact ⟨e', s', rfl, hs⟩
      | cons d xs => exact absurd (hxs d List.mem_cons_self) (hmore d rfl)

end Lexeme

/-- **Doubles as they are scanned.** A double constant among the tokens of a source stands in the
    source where it says, and the scan goes on behind it.  It has digits, a point, digits and
    perhaps an exponent, and no digit follows it.  The exponent is taken if, after a letter `e` and
    perhaps a sign, a digit stands in the source, and also if only a sign does; otherwise the letter
    is left, and the next token starts with it.  The constant is well-formed exactly if it is not
    the case that a letter and a sign without a digit follow its fraction. -/
theorem doubles_as_scanned (cs : List Char) (earlier later : List Token) (t : Token)
    (htokens : (Source.ofChars cs).tokens = earlier ++ t :: later) (hkind : t.kind = .doubleConst) :
    ∃ before ds fs es after,
      cs.takeWhile (· ≠ '\x00') = before ++ (t.literal.toList ++ after) ∧
      t.pos = Position.start.afterAll before ∧
      later = (⟨after, Position.start.afterAll (before ++ t.literal.toList)⟩ : Source).tokens ∧
      (t.literal.toList = ds ++ '.' :: (fs ++ es) ∧ ds ≠ [] ∧ (∀ d ∈ ds, d.isDigit) ∧
        (∀ d ∈ fs, d.isDigit) ∧ Lexeme.Exponent es ∧ ∀ d ∈ after.head?, ¬ d.isDigit) ∧
      (es ≠ [] ↔ StartsExponent (es ++ after) ∨ StartsSign (es ++ after)) ∧
      (∀ e more, after = e :: more → e = 'e' ∨ e = 'E' →
        ∃ u ∈ later.head?, u.pos = Position.start.afterAll (before ++ t.literal.toList)) ∧
      (WellFormedDouble t.literal.toList ↔ ¬ StartsSign (es ++ after)) := by
  obtain ⟨before, x, after, htext, hpos, hfirst, hyields, hlater⟩ :=
    Source.exists_piece_of_tokens htokens (by rw [hkind]; decide)
  rw [hkind] at hyields
  obtain rfl := hyields.eq_double
  -- a double is no stray character, so the grammar tells what it is made of
  have hlexical : Lexeme.Lexical (.double t.literal.toList) after := by
    cases hfirst with
    | longest hlexical => exact hlexical
  generalize hliteral : t.literal.toList = literal at *
  cases hlexical with
  | @double ds fs es _ hne hds hfs hes =>
    refine ⟨before, ds, fs, es, after, htext, hpos, hlater,
      ⟨rfl, hne, hds, hfs, hes, hfirst.not_isDigit_of_double hne hds hfs hes⟩,
      Lexeme.exponent_taken_iff hfirst hne hds hfs hes, ?_, ?_⟩
    · rintro e more rfl he
      -- a letter starts no gap, so the next token starts with it
      have hsettled : Settled (e :: more) := by
        rw [settled_iff]
        rcases he with rfl | rfl <;> exact gap_eq_nil (by decide) (by simp) (by simp)
      exact hlater ▸ Source.exists_head_tokens hsettled _
    · rw [Lexeme.wellFormedDouble_iff hne hds hfs hes, Lexeme.dangles_iff hfirst hne hds hfs hes]

/-- In `1.5E-3 2.ex` the second double has no exponent, although a letter follows it, and is
    well-formed. -/
theorem double_before_letter :
    let source := Source.ofChars "1.5E-3 2.ex".toList
    source.tokens = [⟨.doubleConst, "1.5E-3", ⟨1, 1⟩⟩] ++ ⟨.doubleConst, "2.", ⟨1, 8⟩⟩ ::
        [⟨.ident, "ex", ⟨1, 10⟩⟩, ⟨.eof, "", ⟨1, 12⟩⟩] ∧
      WellFormedDouble "2.".toList := by
  intro source
  have htokens : source.tokens =
      [⟨.doubleConst, "1.5E-3", ⟨1, 1⟩⟩] ++ ⟨.doubleConst, "2.", ⟨1, 8⟩⟩ ::
        [⟨.ident, "ex", ⟨1, 10⟩⟩, ⟨.eof, "", ⟨1, 12⟩⟩] := by
    decide +kernel
  obtain ⟨before, ds, fs, es, after, _, _, _, ⟨hliteral, hds, _⟩, htaken, _, hformed⟩ :=
    doubles_as_scanned _ _ _ _ htokens rfl
  have hnil : es = [] := by
    have hlength := congrArg List.length hliteral
    have hpos := List.length_pos_iff.2 hds
    simp only [List.length_append, List.length_cons] at hlength
    refine List.length_eq_zero_iff.1 ?_
    have htwo : "2.".toList.length = 2 := by decide
    omega
  exact ⟨htokens, hformed.2 fun hsign => htaken.2 (.inr hsign) hnil⟩

/-- The letter and the sign at the end of `1.5e+` are part of a double constant, which has no digit
    in its exponent. -/
theorem sign_without_digits_taken :
    (Source.ofChars "1.5e+".toList).tokens = [⟨.doubleConst, "1.5e+", ⟨1, 1⟩⟩, ⟨.eof, "", ⟨1, 6⟩⟩] ∧
      ¬ WellFormedDouble "1.5e+".toList := by
  refine ⟨by decide +kernel, fun h => ?_⟩
  have hsplit : "1.5e+".toList = ['1', '.', '5', 'e'] ++ ['+'] := by decide
  rw [hsplit] at h
  exact absurd h.isDigit_or_point (by decide)

end Decaf
