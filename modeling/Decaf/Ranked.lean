namespace Decaf

/-!
# Ordering by rank

Classes are treated parents first, which is the order of their depth; things of one depth keep the
order in which they came. `sortByRank` is that order for any rank.

* `sortByRank_perm` — nothing is lost or added.
* `pairwise_sortByRank` — ranks ascend.
* `filter_sortByRank` — the elements of one rank keep their order.
-/

variable {α : Type}

/-- Puts `a` before the first element whose rank is not lower. -/
def insertByRank (rank : α → Nat) (a : α) : List α → List α
  | [] => [a]
  | b :: rest => if rank a ≤ rank b then a :: b :: rest else b :: insertByRank rank a rest

/-- The elements by ascending rank; those of one rank keep their order. -/
def sortByRank (rank : α → Nat) : List α → List α
  | [] => []
  | a :: rest => insertByRank rank a (sortByRank rank rest)

theorem insertByRank_perm (rank : α → Nat) (a : α) (l : List α) :
    (insertByRank rank a l).Perm (a :: l) := by
  induction l with
  | nil => exact .refl _
  | cons b l ih =>
    unfold insertByRank
    split
    · exact .refl _
    · exact (ih.cons b).trans (.swap a b l)

theorem sortByRank_perm (rank : α → Nat) (l : List α) : (sortByRank rank l).Perm l := by
  induction l with
  | nil => exact .refl _
  | cons a l ih => exact (insertByRank_perm rank a _).trans (ih.cons a)

theorem pairwise_insertByRank (rank : α → Nat) (a : α) {l : List α}
    (h : l.Pairwise (rank · ≤ rank ·)) : (insertByRank rank a l).Pairwise (rank · ≤ rank ·) := by
  induction l with
  | nil => simp [insertByRank]
  | cons b l ih =>
    rw [List.pairwise_cons] at h
    unfold insertByRank
    split
    · rename_i hab
      refine List.pairwise_cons.2 ⟨fun x hx => ?_, List.pairwise_cons.2 h⟩
      rcases List.mem_cons.1 hx with rfl | hx
      · exact hab
      · exact Nat.le_trans hab (h.1 x hx)
    · rename_i hab
      refine List.pairwise_cons.2 ⟨fun x hx => ?_, ih h.2⟩
      rcases List.mem_cons.1 ((insertByRank_perm rank a l).mem_iff.1 hx) with rfl | hx
      · omega
      · exact h.1 x hx

theorem pairwise_sortByRank (rank : α → Nat) (l : List α) :
    (sortByRank rank l).Pairwise (rank · ≤ rank ·) := by
  induction l with
  | nil => exact .nil
  | cons a l ih => exact pairwise_insertByRank rank a ih

/-- An insertion passes elements of a lower rank only. -/
theorem filter_insertByRank (rank : α → Nat) (a : α) (l : List α) (r : Nat) :
    (insertByRank rank a l).filter (rank · = r) = (a :: l).filter (rank · = r) := by
  induction l with
  | nil => rfl
  | cons b l ih =>
    unfold insertByRank
    split
    · rfl
    · rename_i hab
      rw [List.filter_cons, ih, List.filter_cons, List.filter_cons, List.filter_cons]
      by_cases ha : rank a = r
      · have hb : rank b ≠ r := by omega
        simp [hb]
      · simp [ha]

theorem filter_sortByRank (rank : α → Nat) (l : List α) (r : Nat) :
    (sortByRank rank l).filter (rank · = r) = l.filter (rank · = r) := by
  induction l with
  | nil => rfl
  | cons a l ih => rw [sortByRank, filter_insertByRank, List.filter_cons, ih, List.filter_cons]

end Decaf
