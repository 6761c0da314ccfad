import Decaf.Generator
import Decaf.Proofs.Text.Utf8
import Decaf.Token.Lexeme
import Mathlib.Data.List.Basic

namespace Decaf

/-!
# Names of what is generated

The names of classes, members, functions and variables are words: they start with a letter and go on
with letters, digits and underscores.  The names that are made from them have a point in a place of
their own, so none of them is taken for another, with one exception: a dispatch table is named like
a method `vtable` of its class.

* `IsIdentifier` — a word.
* `labelSymbol_injective`, `vtableSymbol_injective`, `labelSymbol_ne_vtableSymbol` — what is made
  from different words has different names.
* `methodSymbol_injective` — a point splits the name of a method's function in one way only.
* `IsIdentifier.ne_labelSymbol`, `IsIdentifier.ne_vtableSymbol` — no word is one of these names.
* `IsIdentifier.escape_eq` — a word is written between quotes as it is.
-/

/-- A letter, then letters, digits and underscores.  Whether it is a keyword, and how long it is,
    does not matter here. -/
def IsIdentifier (s : String) : Prop :=
  ∃ c rest, s.toList = c :: rest ∧ c.isAlpha ∧ ∀ d ∈ rest, isWordChar d

instance : DecidablePred IsIdentifier := fun s =>
  match h : s.toList with
  | [] => isFalse fun ⟨_, _, hs, _⟩ => nomatch h.symm.trans hs
  | c :: rest =>
    decidable_of_iff (c.isAlpha && rest.all isWordChar) <| by
      rw [IsIdentifier, h]
      simp

namespace IsIdentifier

variable {s : String}

/-- All characters of a word may follow its first letter. -/
theorem isWordChar (h : IsIdentifier s) {c : Char} (hc : c ∈ s.toList) : Decaf.isWordChar c := by
  obtain ⟨d, rest, hs, hd, hrest⟩ := h
  rw [hs] at hc
  rcases List.mem_cons.1 hc with rfl | hc
  · simp [Decaf.isWordChar, Char.isAlphanum, hd]
  · exact hrest c hc

/-- There is no point in a word. -/
theorem point_not_mem (h : IsIdentifier s) : '.' ∉ s.toList := by
  intro hmem
  have hpoint := h.isWordChar hmem
  exact absurd hpoint (by decide)

/-- A word is not empty. -/
theorem ne_empty (h : IsIdentifier s) : s ≠ "" := by
  rintro rfl
  obtain ⟨c, rest, hs, _⟩ := h
  cases hs

end IsIdentifier

/-- Letters of words are among the first 128 characters. -/
theorem toNat_lt_of_isAlpha {c : Char} (h : c.isAlpha) : c.toNat < 0x80 := by
  rw [isAlpha_iff] at h
  omega

/-- Digits of words are among the first 128 characters. -/
theorem toNat_lt_of_isDigit {c : Char} (h : c.isDigit) : c.toNat < 0x80 := by
  rw [Char.isDigit_iff_toNat] at h
  have hlast : '9'.toNat < 0x80 := by decide
  omega

/-! ### How words are written -/

/-- The characters of words are written as they are. -/
theorem map_escapeByte {c : Char} (h : isWordChar c) :
    (String.utf8EncodeChar c).map Llvm.escapeByte = [c.toString] := by
  have hall : ∀ n < 0x80, isWordChar (Char.ofNat n) →
      (String.utf8EncodeChar (Char.ofNat n)).map Llvm.escapeByte = [(Char.ofNat n).toString] := by
    decide
  have hsmall : c.toNat < 0x80 := by
    simp only [Decaf.isWordChar, Char.isAlphanum, Bool.or_eq_true, decide_eq_true_eq] at h
    rcases h with (halpha | hdigit) | rfl
    · exact toNat_lt_of_isAlpha halpha
    · exact toNat_lt_of_isDigit hdigit
    · decide
  have hc := hall c.toNat hsmall
  rw [Char.ofNat_toNat] at hc
  exact hc h

/-- Text is written piece by piece. -/
theorem escape_append (s t : String) : Llvm.escape (s ++ t) = Llvm.escape s ++ Llvm.escape t := by
  apply String.toList_injective
  simp only [Llvm.escape, Text.toList_toUTF8, String.toList_append, String.toList_join,
    List.flatMap_append, List.map_append]

/-- A word is written as it is. -/
theorem IsIdentifier.escape_eq {s : String} (h : IsIdentifier s) : Llvm.escape s = s := by
  have hchars : (s.toList.flatMap String.utf8EncodeChar).map Llvm.escapeByte =
      s.toList.map Char.toString := by
    rw [List.map_flatMap, List.map_eq_flatMap]
    exact List.flatMap_congr fun c hc => map_escapeByte (h.isWordChar hc)
  rw [Llvm.escape, Text.toList_toUTF8, hchars]
  apply String.toList_injective
  rw [String.toList_join]
  simp [List.flatMap_map]

/-! ### Names that are made -/

theorem toList_methodSymbol (cls m : String) :
    (methodSymbol cls m).toList = cls.toList ++ '.' :: m.toList := by
  rw [methodSymbol, String.toList_append, String.toList_append, List.append_assoc]
  rfl

/-- The first point splits the name of a method's function into the class and the method. -/
theorem methodSymbol_injective {s t m n : String} (hs : IsIdentifier s) (ht : IsIdentifier t)
    (h : methodSymbol s m = methodSymbol t n) : s = t ∧ m = n := by
  -- an identifier has no point in it, so the first point ends the name of the class
  have hcut : ∀ {u : String}, IsIdentifier u →
      ∀ rest, (u.toList ++ '.' :: rest).takeWhile (· ≠ '.') = u.toList := by
    intro u hu rest
    rw [List.takeWhile_append_of_pos]
    · simp
    · intro c hc
      simpa using fun heq : c = '.' => hu.point_not_mem (heq ▸ hc)
  have hlist := congrArg String.toList h
  rw [toList_methodSymbol, toList_methodSymbol] at hlist
  have hclass : s.toList = t.toList := by
    rw [← hcut hs m.toList, hlist, hcut ht n.toList]
  rw [hclass, List.append_cancel_left_eq, List.cons.injEq] at hlist
  exact ⟨String.ext hclass, String.ext hlist.2⟩

namespace Generator

variable {s t : String}

/-- The name of a class is written into the name of its label as it is. -/
theorem labelSymbol_eq (h : IsIdentifier s) : labelSymbol s = ".str." ++ s := by
  have hkeep : (s.toList.map fun c => if Text.isLetter c || Text.isNumber c then c else '_') =
      s.toList := by
    conv => rhs; rw [← List.map_id s.toList]
    refine List.map_congr_left fun c hc => ?_
    have hword := h.isWordChar hc
    simp only [Decaf.isWordChar, Char.isAlphanum, Bool.or_eq_true, decide_eq_true_eq] at hword
    rcases hword with (halpha | hdigit) | rfl
    · simp [Text.isLetter, toNat_lt_of_isAlpha halpha, halpha]
    · simp [Text.isNumber, toNat_lt_of_isDigit hdigit, hdigit]
    · exact ite_id _
  rw [labelSymbol, hkeep, String.ofList_toList]

/-- Different classes have different labels. -/
theorem labelSymbol_injective (hs : IsIdentifier s) (ht : IsIdentifier t)
    (h : labelSymbol s = labelSymbol t) : s = t := by
  rw [labelSymbol_eq hs, labelSymbol_eq ht] at h
  have hlist := congrArg String.toList h
  rw [String.toList_append, String.toList_append] at hlist
  exact String.ext (List.append_cancel_left hlist)

/-- The dispatch table of a class is named as if it were its method `vtable`. -/
theorem vtableSymbol_eq (s : String) : vtableSymbol s = methodSymbol s "vtable" := by
  rw [methodSymbol, String.append_assoc]
  rfl

/-- Different classes have different dispatch tables. -/
theorem vtableSymbol_injective (h : vtableSymbol s = vtableSymbol t) : s = t := by
  have hlist := congrArg String.toList h
  rw [vtableSymbol, vtableSymbol, String.toList_append, String.toList_append] at hlist
  exact String.ext (List.append_cancel_right hlist)

/-- A label starts with a point. -/
theorem toList_labelSymbol (s : String) : ∃ rest, (labelSymbol s).toList = '.' :: rest := by
  rw [labelSymbol, String.toList_append]
  exact ⟨_, rfl⟩

/-- A function of a method is no label. -/
theorem labelSymbol_ne_methodSymbol (ht : IsIdentifier t) {m : String} :
    labelSymbol s ≠ methodSymbol t m := by
  intro h
  obtain ⟨rest, hrest⟩ := toList_labelSymbol s
  obtain ⟨c, more, hc, halpha, _⟩ := ht
  rw [h, toList_methodSymbol, hc, List.cons_append] at hrest
  rw [(List.cons.inj hrest).1] at halpha
  exact absurd halpha (by decide)

/-- A dispatch table is no label. -/
theorem labelSymbol_ne_vtableSymbol (ht : IsIdentifier t) : labelSymbol s ≠ vtableSymbol t := by
  rw [vtableSymbol_eq]
  exact labelSymbol_ne_methodSymbol ht

end Generator

namespace IsIdentifier

variable {s t : String}

/-- No word is a label. -/
theorem ne_labelSymbol (h : IsIdentifier s) : s ≠ Generator.labelSymbol t := by
  rintro rfl
  obtain ⟨rest, hrest⟩ := Generator.toList_labelSymbol t
  exact h.point_not_mem (hrest ▸ List.mem_cons_self)

/-- No word is the function of a method. -/
theorem ne_methodSymbol (h : IsIdentifier s) {m : String} : s ≠ methodSymbol t m := by
  rintro rfl
  refine h.point_not_mem ?_
  rw [toList_methodSymbol]
  exact List.mem_append_right _ List.mem_cons_self

/-- No word is a dispatch table. -/
theorem ne_vtableSymbol (h : IsIdentifier s) : s ≠ Generator.vtableSymbol t := by
  rw [Generator.vtableSymbol_eq]
  exact h.ne_methodSymbol

end IsIdentifier

end Decaf
