import Decaf.CommandLine
import Decaf.Proofs.Scanning.Boundaries
import Decaf.Proofs.Text.Utf8

namespace Decaf

/-!
# Where tokens stand

A listing tells for each token on which line and in which columns it stands.  There the source has
just the text of the token: the lines are those of the decoded file, which newlines separate, and
the columns count characters.

* `textAt` — what a text has in some columns of a line.
* `exists_lines` — the place after a text is told by its lines.
* `textAt_append` — a piece of a text that runs over no newline is found at the place where it
  starts.
* `Delivered.textAt`, `Delivered.pairwise_before` — the tokens that are delivered stand where they
  say, one after the other.
* `listing_exact` — the listing of a file.
-/

/-! ### Lines and columns -/

/-- What a text has in the columns `first` to `last` of a line, both included.  Lines are what
    newlines separate; lines and columns count from one. -/
def textAt (source : List Char) (line first last : Int) : Option (List Char) :=
  if 1 ≤ line ∧ 1 ≤ first then
    (source.splitOn '\n')[(line - 1).toNat]?.bind fun l =>
      if first ≤ last ∧ last ≤ l.length then some (l.extract (first - 1).toNat last.toNat) else none
  else none

namespace Position

/-- A newline leads to the start of the next line. -/
@[simp] theorem after_newline (p : Position) : p.after '\n' = ⟨p.line + 1, 1⟩ := rfl

theorem after_of_ne (p : Position) {c : Char} (h : c ≠ '\n') :
    p.after c = ⟨p.line, p.column + 1⟩ := if_neg h

/-- On one line, each character takes a column. -/
theorem afterAll_of_newline_not_mem (p : Position) {cs : List Char} (h : '\n' ∉ cs) :
    p.afterAll cs = ⟨p.line, p.column + cs.length⟩ := by
  induction cs generalizing p with
  | nil => simp [afterAll]
  | cons c cs ih =>
    obtain ⟨hc, hcs⟩ : '\n' ≠ c ∧ '\n' ∉ cs := by simpa using h
    show (p.after c).afterAll cs = _
    rw [ih _ hcs, after_of_ne p (Ne.symm hc), List.length_cons, Nat.cast_succ, add_assoc,
      add_comm (1 : Int)]

/-- Places by line, and on one line by column. -/
instance : LE Position where
  le p q := p.line < q.line ∨ p.line = q.line ∧ p.column ≤ q.column

theorem le_iff {p q : Position} :
    p ≤ q ↔ p.line < q.line ∨ p.line = q.line ∧ p.column ≤ q.column := Iff.rfl

theorem le_refl (p : Position) : p ≤ p := .inr ⟨rfl, Int.le_refl _⟩

theorem le_trans {p q r : Position} (hpq : p ≤ q) (hqr : q ≤ r) : p ≤ r := by
  rw [le_iff] at hpq hqr ⊢
  omega

/-- Reading on leads further. -/
theorem le_afterAll (p : Position) (cs : List Char) : p ≤ p.afterAll cs := by
  induction cs generalizing p with
  | nil => exact le_refl p
  | cons c cs ih =>
    refine le_trans ?_ (ih (p.after c))
    by_cases hc : c = '\n'
    · rw [hc, after_newline]
      exact .inl (Int.lt_succ p.line)
    · rw [after_of_ne p hc]
      exact .inr ⟨rfl, Int.le_of_lt (Int.lt_succ p.column)⟩

end Position

/-- **The place after a text.** Its line is the one after the lines that are complete, and its
    column the one after what stands on that line so far.  This holds whatever follows. -/
theorem exists_lines (cs : List Char) :
    ∃ above line, '\n' ∉ line ∧ Position.start.afterAll cs = ⟨above.length + 1, line.length + 1⟩ ∧
      ∀ more, (cs ++ more).splitOn '\n' = above ++ (line ++ more).splitOn '\n' := by
  induction cs using List.reverseRecOn with
  | nil => exact ⟨[], [], by simp, rfl, fun more => rfl⟩
  | append_singleton cs c ih =>
    obtain ⟨above, line, hline, hpos, hsplit⟩ := ih
    have hafter : Position.start.afterAll (cs ++ [c]) = (Position.start.afterAll cs).after c := by
      rw [Position.afterAll_append]
      rfl
    by_cases hc : c = '\n'
    · -- the line is complete
      subst hc
      refine ⟨above ++ [line], [], by simp, ?_, fun more => ?_⟩
      · rw [hafter, hpos]
        simp
      · rw [List.append_assoc, List.singleton_append, hsplit,
          List.splitOn_append_cons_self_of_not_mem hline]
        simp
    · refine ⟨above, line ++ [c], ?_, ?_, fun more => ?_⟩
      · simp [hline, Ne.symm hc]
      · rw [hafter, hpos, Position.after_of_ne _ hc]
        simp
      · rw [List.append_assoc, hsplit, List.append_assoc]

/-- What stands on a line is the front of the first line. -/
theorem exists_splitOn_of_newline_not_mem {line : List Char} (h : '\n' ∉ line) (more : List Char) :
    ∃ tail below, (line ++ more).splitOn '\n' = (line ++ tail) :: below := by
  by_cases hmore : '\n' ∈ more
  · obtain ⟨tail, rest, rfl, htail⟩ := List.eq_append_cons_of_mem hmore
    refine ⟨tail, rest.splitOn '\n', ?_⟩
    rw [← List.append_assoc, List.splitOn_append_cons_self_of_not_mem (by simp [h, htail])]
  · exact ⟨more, [], List.splitOn_eq_singleton (by simp [h, hmore])⟩

/-- **Finding a piece of text.** What runs over no newline is found at the place where it starts. -/
theorem textAt_append (before : List Char) {w : List Char} (hne : w ≠ []) (hline : '\n' ∉ w)
    (more : List Char) :
    let p := Position.start.afterAll before
    textAt (before ++ (w ++ more)) p.line p.column (p.column + w.length - 1) = some w := by
  intro p
  obtain ⟨above, line, hstart, hpos, hsplit⟩ := exists_lines before
  -- the lexeme lies within one line: that in which the text before it ends
  have hfront : '\n' ∉ line ++ w := by simp [hstart, hline]
  obtain ⟨tail, below, hlines⟩ := exists_splitOn_of_newline_not_mem hfront more
  have hp : p = ⟨above.length + 1, line.length + 1⟩ := hpos
  have hpos : 0 < w.length := List.length_pos_iff.2 hne
  have hget : ((before ++ (w ++ more)).splitOn '\n')[above.length]? = some (line ++ w ++ tail) := by
    rw [hsplit, ← List.append_assoc, hlines]
    simp
  have hfirst : ((line.length : Int) + 1 - 1).toNat = line.length := by omega
  have hlast : ((line.length : Int) + 1 + w.length - 1).toNat = line.length + w.length := by omega
  have hrow : ((above.length : Int) + 1 - 1).toNat = above.length := by omega
  rw [textAt, hp, if_pos (by constructor <;> simp), hrow, hget, Option.bind_some, if_pos,
    hfirst, hlast]
  · simp [List.extract]
  · simp only [List.length_append]
    omega

/-! ### The places of tokens -/

/-- The first token ends before the second one starts. -/
def Token.Before (t u : Token) : Prop :=
  t.pos.line < u.pos.line ∨ t.pos.line = u.pos.line ∧ t.lastColumn < u.pos.column

/-- Apart from errors, a token shows the lexeme that it was made from. -/
theorem Lexeme.Yields.sourceText_eq {p : Position} {x : Lexeme} {kind : TokenKind}
    {literal : String} (h : x.Yields p kind literal) (hkind : kind ≠ .error) (q : Position) :
    (Token.mk kind literal q).sourceText.toList = x.text := by
  cases h with
  | longName | decimalRange | hexadecimalRange | unclosed | stray => exact absurd rfl hkind
  | quoted body => simp [Token.sourceText, text]
  | _ => simp [Token.sourceText, text]

variable {text last : List Char} {qs : List Piece} {ts : List Token}

/-- **Spans.** A token that is no error stands where it says. -/
theorem Delivered.textAt (h : Split text qs last) (before : List Char)
    (hts : Delivered (Position.start.afterAll before) qs ts) (more : List Char) :
    ∀ t ∈ ts, t.kind ≠ .error →
      textAt (before ++ (text ++ more)) t.pos.line t.pos.column t.lastColumn =
        some t.sourceText.toList := by
  induction h generalizing before ts with
  | last =>
    cases hts
    simp
  | @piece g rest last x qs hgap hsettled hfirst hsplit ih =>
    cases hts with
    | @cons _ _ _ kind literal ts hyields hts =>
      -- the text read so far is what the place is computed from, so it grows with each piece
      rw [← Position.afterAll_append] at hyields hts ⊢
      refine List.forall_mem_cons.2 ⟨fun hkind => ?_, fun t ht hkind => ?_⟩
      · have htext := hyields.sourceText_eq hkind (Position.start.afterAll (before ++ g))
        have hspan :=
          textAt_append (before ++ g) hfirst.text_ne_nil (hfirst.newline_not_mem hsettled)
            (rest ++ more)
        simp only [Token.lastColumn, ← String.length_toList, htext]
        simpa using hspan
      · have hspan := ih (before ++ Piece.text ⟨g, x⟩) hts t ht hkind
        simpa [Piece.text] using hspan

/-- Tokens come after the place where they are looked for. -/
theorem Delivered.le_pos {p : Position} (h : Delivered p qs ts) : ∀ t ∈ ts, p ≤ t.pos := by
  induction h with
  | nil => simp
  | @cons p q _ _ _ _ _ _ ih =>
    refine List.forall_mem_cons.2 ⟨p.le_afterAll q.gap, fun t ht => ?_⟩
    exact Position.le_trans (p.le_afterAll q.text) (ih t ht)

/-- **Order.** A token that is no error ends before the next ones start. -/
theorem Delivered.pairwise_before {p : Position} (h : Split text qs last)
    (hts : Delivered p qs ts) : ts.Pairwise fun t u => t.kind ≠ .error → t.Before u := by
  induction h generalizing p ts with
  | last =>
    cases hts
    exact .nil
  | @piece g rest last x qs hgap hsettled hfirst hsplit ih =>
    cases hts with
    | @cons _ _ _ kind literal ts hyields hts =>
      refine List.pairwise_cons.2 ⟨fun u hu hkind => ?_, ih hts⟩
      -- the next lexeme is looked for after the last character of this one, on the same line
      have hle := hts.le_pos u hu
      rw [Piece.text, Position.afterAll_append,
        Position.afterAll_of_newline_not_mem _ (hfirst.newline_not_mem hsettled)] at hle
      have htext := hyields.sourceText_eq hkind (p.afterAll g)
      simp only [Token.Before, Token.lastColumn, ← String.length_toList, htext]
      rw [Position.le_iff] at hle
      dsimp only at hle ⊢
      omega

/-! ### Listings -/

/-- Lines that are written one after the other are the lines of what is written. -/
theorem splitOn_join {α : Type} {line : α → String} {text : α → List Char}
    (hline : ∀ a, (line a).toList = text a ++ ['\n']) {as : List α} (h : ∀ a ∈ as, '\n' ∉ text a) :
    (String.join (as.map line)).toList.splitOn '\n' = as.map text ++ [[]] := by
  rw [String.toList_join]
  induction as with
  | nil => rfl
  | cons a as ih =>
    obtain ⟨ha, has⟩ := List.forall_mem_cons.1 h
    rw [List.map_cons, List.flatMap_cons, hline, List.append_assoc, List.singleton_append,
      List.splitOn_append_cons_self_of_not_mem ha, ih has, List.map_cons, List.cons_append]

theorem newline_not_mem_toDigits (n : Nat) : '\n' ∉ Nat.toDigits 10 n := by
  intro hmem
  exact absurd (Nat.isDigit_of_mem_toDigits (by decide) (by decide) hmem) (by decide)

/-- Numbers are written on one line. -/
theorem newline_not_mem_repr (i : Int) : '\n' ∉ i.repr.toList := by
  cases i with
  | ofNat n =>
    show '\n' ∉ n.repr.toList
    simp [newline_not_mem_toDigits]
  | negSucc n =>
    show '\n' ∉ ("-" ++ (n + 1).repr).toList
    simp [newline_not_mem_toDigits]

/-- So are the names of kinds. -/
theorem TokenKind.newline_not_mem_name (k : TokenKind) : '\n' ∉ k.name.toList := by
  cases k with
  | keyword k => cases k <;> decide
  | mark m => cases m <;> decide
  | _ => decide

namespace Token

/-- The token as a listing shows it: its text, with quotes around it if it is a string. -/
def spelling (t : Token) : List Char :=
  if t.kind = .strConst then ['"'] ++ t.literal.toList ++ ['"'] else t.literal.toList

/-- The line that a listing has for a token: the token and blanks after it up to the twelfth column,
    then its line, its first column and its last one, and its kind. -/
def entry (t : Token) : List Char :=
  t.spelling ++ List.replicate (12 - t.spelling.length) ' ' ++
    " line ".toList ++ t.pos.line.repr.toList ++
    " cols ".toList ++ t.pos.column.repr.toList ++
    "-".toList ++ (t.pos.column + t.spelling.length - 1).repr.toList ++
    " is ".toList ++ t.kind.name.toList

/-- The line that reports an error, without the newline at its end. -/
def report (t : Token) : String :=
  "*** Error line " ++ toString t.pos.line ++ ": " ++ t.literal

theorem toList_sourceText (t : Token) : t.sourceText.toList = t.spelling := by
  rw [sourceText, spelling]
  split
  · rw [String.toList_append, String.toList_append]
    rfl
  · rfl

theorem lastColumn_eq (t : Token) : t.lastColumn = t.pos.column + t.spelling.length - 1 := by
  rw [lastColumn, ← toList_sourceText, String.length_toList]

/-- What is written about a token is its line. -/
theorem toList_listingLine (t : Token) : t.listingLine.toList = t.entry ++ ['\n'] := by
  have hpadded : (padRight 12 t.sourceText).toList =
      t.spelling ++ List.replicate (12 - t.spelling.length) ' ' := by
    rw [padRight, String.toList_append, toList_sourceText, String.toList_ofList,
      ← String.length_toList, toList_sourceText]
  show (padRight 12 t.sourceText ++ " line " ++ t.pos.line.repr ++ " cols " ++ t.pos.column.repr ++
    "-" ++ t.lastColumn.repr ++ " is " ++ t.kind.name ++ "\n").toList = _
  simp only [String.toList_append, hpadded, lastColumn_eq]
  rfl

theorem toList_errorLine (t : Token) : t.errorLine.toList = t.report.toList ++ ['\n'] := by
  show (t.report ++ "\n").toList = _
  rw [String.toList_append]
  rfl

variable {t : Token} (h : '\n' ∉ t.literal.toList)
include h

theorem newline_not_mem_spelling : '\n' ∉ t.spelling := by
  unfold spelling
  split <;> simpa using h

theorem newline_not_mem_entry : '\n' ∉ t.entry := by
  simp [entry, newline_not_mem_spelling h, newline_not_mem_repr, TokenKind.newline_not_mem_name]

theorem newline_not_mem_report : '\n' ∉ t.report.toList := by
  show '\n' ∉ ("*** Error line " ++ toString t.pos.line ++ ": " ++ t.literal).toList
  simp [h, newline_not_mem_repr]

end Token

/-- The text that goes with a token is one line, be it a piece of the source or a message. -/
theorem Lexeme.Yields.newline_not_mem {p : Position} {x : Lexeme} {kind : TokenKind}
    {literal : String} (h : x.Yields p kind literal) (hx : '\n' ∉ x.text) :
    '\n' ∉ literal.toList := by
  cases h with
  | decimalRange | hexadecimalRange => decide
  | unclosed => simp [newline_not_mem_repr]
  | _ => simpa [text] using hx

theorem Delivered.newline_not_mem {p : Position} (h : Delivered p qs ts)
    (hqs : ∀ q ∈ qs, '\n' ∉ q.lexeme.text) : ∀ t ∈ ts, '\n' ∉ t.literal.toList := by
  induction h with
  | nil => simp
  | cons hyields _ ih =>
    obtain ⟨hq, hqs⟩ := List.forall_mem_cons.1 hqs
    exact List.forall_mem_cons.2 ⟨hyields.newline_not_mem hq, ih hqs⟩

/-- The tokens before the end are those of the pieces. -/
theorem Source.takeWhile_tokens {p : Position} (h : Split text qs last) (hts : Delivered p qs ts) :
    (⟨text, p⟩ : Source).tokens.takeWhile (·.kind ≠ .eof) = ts := by
  have hkinds : ∀ t ∈ ts, decide (t.kind ≠ .eof) :=
    fun t ht => decide_eq_true (hts.kind_ne_eof t ht)
  rw [tokens_of_split h hts, List.takeWhile_append_of_pos hkinds]
  simp

/-- **Listing a file.** Let the arguments name a file that can be read.  Its bytes say one text.  Of
    the tokens before the end of that text, those that are no errors are listed, one on a line, and
    the errors are reported, also one on a line; the status is zero exactly if there are none.  On
    the line and in the columns that the listing gives for a token, the text has just what is
    listed, and each token ends before the next one starts. -/
theorem listing_exact (args : List String) (read : String → Except ReadError (List UInt8))
    (path : String) (content : List UInt8) (hpath : CommandLine.inputPath args = .ok path)
    (hread : read path = .ok content) :
    ∃ source, (∀ s, Text.Decodes content s ↔ s = source) ∧
      let tokens := (Source.ofChars source).tokens.takeWhile (·.kind ≠ .eof)
      let listed := tokens.filter (·.kind ≠ .error)
      let errors := tokens.filter (·.kind = .error)
      let outcome := CommandLine.run args read
      outcome.output.toList.splitOn '\n' = listed.map (·.entry) ++ [[]] ∧
      outcome.errors.toList.splitOn '\n' = errors.map (·.report.toList) ++ [[]] ∧
      (outcome.code = 0 ↔ ∀ t ∈ tokens, t.kind ≠ .error) ∧
      (∀ t ∈ listed, textAt source t.pos.line t.pos.column (t.pos.column + t.spelling.length - 1) =
        some t.spelling) ∧
      listed.Pairwise Token.Before := by
  refine ⟨Text.decodeUtf8 content, fun s => Text.decodes_iff, ?_⟩
  intro tokens listed errors outcome
  have hrun : outcome = CommandLine.listFile content := by
    simp [outcome, CommandLine.run, hpath, hread]
  have hlisting : Listing.ofTokens (Source.ofChars (Text.decodeUtf8 content)).tokens =
      ⟨listed.map Token.listingLine, errors.map Token.errorLine⟩ := rfl
  rw [CommandLine.listFile, hlisting] at hrun
  obtain ⟨qs, last, hsplit⟩ := exists_split ((Text.decodeUtf8 content).takeWhile (· ≠ '\x00'))
  obtain ⟨ts, hts⟩ := exists_delivered .start qs
  have htokens : tokens = ts := Source.takeWhile_tokens hsplit hts
  have hlines := hts.newline_not_mem hsplit.newline_not_mem
  refine ⟨?_, ?_, ?_, ?_, ?_⟩
  · rw [hrun]
    refine splitOn_join Token.toList_listingLine fun t ht =>
      Token.newline_not_mem_entry (hlines t ?_)
    exact htokens ▸ (List.mem_filter.1 ht).1
  · rw [hrun]
    refine splitOn_join Token.toList_errorLine fun t ht =>
      Token.newline_not_mem_report (hlines t ?_)
    exact htokens ▸ (List.mem_filter.1 ht).1
  · simp [hrun, errors]
  · intro t ht
    obtain ⟨hmem, hkind⟩ := List.mem_filter.1 ht
    -- what comes after a character with code zero is part of the text as well
    have hspan :=
      hts.textAt hsplit [] ((Text.decodeUtf8 content).dropWhile (· ≠ '\x00')) t (htokens ▸ hmem)
        (of_decide_eq_true hkind)
    rwa [List.nil_append, List.takeWhile_append_dropWhile, Token.lastColumn_eq,
      Token.toList_sourceText] at hspan
  · refine List.pairwise_filter.2 ?_
    rw [htokens]
    exact (hts.pairwise_before hsplit).imp fun hbefore hkind _ => hbefore (of_decide_eq_true hkind)

/-- After a comment over two lines stands a string, with a byte in it that says nothing, and on the
    third line an error and a name: `/*`, then `*/ "é?"`, then `$x`. -/
theorem listing_exact_after_comment :
    let content : List UInt8 :=
      [0x2F, 0x2A, 0x0A, 0x2A, 0x2F, 0x20, 0x22, 0xC3, 0xA9, 0xFF, 0x22, 0x0A, 0x24, 0x78]
    let outcome := CommandLine.run ["-i", "p"] fun _ => .ok content
    CommandLine.inputPath ["-i", "p"] = .ok "p" ∧ outcome.code ≠ 0 ∧
      outcome.output.toList.splitOn '\n' =
        ["\"é\uFFFD\"         line 2 cols 4-7 is STR_CONST".toList,
          "x            line 3 cols 2-2 is IDENT".toList, []] ∧
      outcome.errors.toList.splitOn '\n' =
        ["*** Error line 3: Unexpected character: $".toList, []] ∧
      textAt (Text.decodeUtf8 content) 2 4 7 = some ['"', 'é', '\uFFFD', '"'] ∧
      textAt (Text.decodeUtf8 content) 3 2 2 = some ['x'] := by
  intro content outcome
  have hpath : CommandLine.inputPath ["-i", "p"] = .ok "p" := by decide
  obtain ⟨source, hsource, houtput, herrors, hcode, hspans, _⟩ :=
    listing_exact ["-i", "p"] (fun _ => .ok content) "p" content hpath rfl
  obtain rfl : Text.decodeUtf8 content = source := (hsource _).1 (Text.decodes_decodeUtf8 content)
  have htokens : (Source.ofChars (Text.decodeUtf8 content)).tokens.takeWhile (·.kind ≠ .eof) =
      [⟨.strConst, "é\uFFFD", ⟨2, 4⟩⟩, ⟨.error, "Unexpected character: $", ⟨3, 1⟩⟩,
        ⟨.ident, "x", ⟨3, 2⟩⟩] := by
    decide +kernel
  rw [htokens] at houtput herrors hcode hspans
  have hstring := hspans ⟨.strConst, "é\uFFFD", ⟨2, 4⟩⟩ (by decide)
  have hname := hspans ⟨.ident, "x", ⟨3, 2⟩⟩ (by decide)
  have hlines :
      ([⟨.strConst, "é\uFFFD", ⟨2, 4⟩⟩, ⟨.ident, "x", ⟨3, 2⟩⟩] : List Token).map (·.entry) =
      ["\"é\uFFFD\"         line 2 cols 4-7 is STR_CONST".toList,
        "x            line 3 cols 2-2 is IDENT".toList] := by
    decide +kernel
  exact ⟨hpath, fun h => absurd (hcode.1 h) (by decide),
    houtput.trans (congrArg (· ++ [[]]) hlines), herrors, hstring, hname⟩

end Decaf
