import Decaf.Proofs.Hierarchy
import Mathlib.Data.List.Chain

namespace Decaf

/-!
# The chain of ancestors

The ancestors of a class are its parent, the parent of that, and so on, each once.  The list goes on
for as long as there is another class to put into it, so no other list is like it.  Off the cycles a
chain goes up to a top, and whoever stands on it has the rest of it as ancestors.

* `Hierarchy.Ancestry` — a list is the chain of parents of a class, up to where it can go no
  further.
* `Hierarchy.ancestry_ancestors`, `Hierarchy.Ancestry.unique` — the ancestors are such a list, and
  there is no other.
* `Hierarchy.Circles` — going up from a class comes back to a class, and
  `Hierarchy.Ancestry.circles_iff`, how this shows at the end of the list.
* `Hierarchy.Ancestry.of_append` — off the cycles, what follows an ancestor is its own ancestry.
* `ancestors_are_the_chain` — all this, for the ancestors of any class in any hierarchy.
-/

namespace Hierarchy

variable {h : Hierarchy} {cls a b : String} {l l' l₁ l₂ : List String} {seen : List String}
    {t : Trail}

/-- A class has one parent at most. -/
theorem Extends.unique (ha : h.Extends cls a) (hb : h.Extends cls b) : a = b :=
  Option.some.inj (ha.1.symm.trans hb.1)

/-! ### The chain of parents -/

/-- `l` is the chain of parents of `cls`, up to where it can go no further. -/
structure Ancestry (h : Hierarchy) (cls : String) (l : List String) : Prop where
  /-- No class is listed twice. -/
  nodup : l.Nodup
  /-- The class itself is not listed. -/
  not_mem : cls ∉ l
  /-- The first one is the parent of the class, and each later one is the parent of the one
      before. -/
  chain : (cls :: l).IsChain h.Extends
  /-- The last one has no parent, or the empty name as its parent, or the class itself, or one that
      is listed. -/
  ends : h.parent? (l.getLastD cls) = none ∨ h.parent? (l.getLastD cls) = some "" ∨
    h.parent? (l.getLastD cls) = some cls ∨ ∃ a ∈ l, h.parent? (l.getLastD cls) = some a

/-- What a walk passes before the empty name is a chain of parents. -/
theorem Walk.isChain (ht : h.Walk seen cls t) :
    (cls :: t.classes.tail.takeWhile (· ≠ "")).IsChain h.Extends := by
  induction ht with
  | stop => exact List.isChain_singleton _
  | loop => exact List.isChain_singleton _
  | @step seen cls a t hp _ ht ih =>
    by_cases hempty : a = ""
    · -- the empty name is no class, and the chain ends before it
      obtain ⟨rest, hrest⟩ := ht.eq_cons
      simp [hrest, hempty]
    · rw [List.tail_cons, ht.takeWhile_classes hempty, List.isChain_cons_cons]
      exact ⟨⟨hp, hempty⟩, ih⟩

/-- **The ancestors.** They are the chain of parents of the class. -/
theorem ancestry_ancestors (h : Hierarchy) (cls : String) : h.Ancestry cls (h.ancestors cls) := by
  obtain ⟨hnot, hnodup⟩ := List.nodup_cons.1 (nodup_cons_ancestors h cls)
  refine ⟨hnodup, hnot, (walk_trail h cls).isChain, ?_⟩
  cases hp : h.parent? ((h.ancestors cls).getLastD cls) with
  | none => exact .inl rfl
  | some a =>
    by_cases hempty : a = ""
    · exact .inr (.inl (by rw [hempty]))
    · -- no step leads out of the class and its ancestors
      have hmem : a ∈ cls :: h.ancestors cls :=
        ((walk_trail h cls).mem_of_extends List.getLastD_mem_cons ⟨hp, hempty⟩).resolve_left
          List.not_mem_nil
      rcases List.mem_cons.1 hmem with rfl | hmem
      · exact .inr (.inr (.inl rfl))
      · exact .inr (.inr (.inr ⟨a, hmem, rfl⟩))

/-- Where an ancestry ends, no class is above that is not on it. -/
theorem Ancestry.mem_of_extends (hl : h.Ancestry cls l) (ha : h.Extends (l.getLastD cls) a) :
    a ∈ cls :: l := by
  obtain ⟨hp, hne⟩ := ha
  have hends := hl.ends
  rw [hp] at hends
  rcases hends with hends | hends | hends | ⟨b, hb, hends⟩
  · cases hends
  · exact absurd (Option.some.inj hends) hne
  · rw [Option.some.inj hends]
    exact List.mem_cons_self
  · rw [Option.some.inj hends]
    exact List.mem_cons_of_mem cls hb

/-! ### No other list -/

/-- Of two chains from a class, one is the beginning of the other. -/
theorem isPrefix_or_isPrefix (hl : (cls :: l).IsChain h.Extends)
    (hl' : (cls :: l').IsChain h.Extends) : l <+: l' ∨ l' <+: l := by
  induction l generalizing cls l' with
  | nil => exact .inl List.nil_prefix
  | cons a l ih =>
    cases l' with
    | nil => exact .inr List.nil_prefix
    | cons b l' =>
      rw [List.isChain_cons_cons] at hl hl'
      obtain rfl := hl.1.unique hl'.1
      rcases ih hl.2 hl'.2 with hle | hle
      · exact .inl (List.cons_prefix_cons.2 ⟨rfl, hle⟩)
      · exact .inr (List.cons_prefix_cons.2 ⟨rfl, hle⟩)

/-- Where a chain goes on, it goes on to the parent of its last class. -/
theorem extends_getLastD (hl : (cls :: (l ++ a :: l')).IsChain h.Extends) :
    h.Extends (l.getLastD cls) a := by
  induction l generalizing cls with
  | nil => exact (List.isChain_cons_cons.1 hl).1
  | cons b l ih =>
    rw [List.cons_append, List.isChain_cons_cons] at hl
    rw [List.getLastD_cons]
    exact ih hl.2

/-- An ancestry does not go on beyond another. -/
theorem Ancestry.eq_of_isPrefix (hl : h.Ancestry cls l) (hl' : h.Ancestry cls l') (hle : l <+: l') :
    l = l' := by
  obtain ⟨rest, rfl⟩ := hle
  cases rest with
  | nil => rw [List.append_nil]
  | cons a rest =>
    -- the next class would be one that is already on the shorter one
    exfalso
    have hmem := hl.mem_of_extends (extends_getLastD hl'.chain)
    rcases List.mem_cons.1 hmem with rfl | hmem
    · exact hl'.not_mem (by simp)
    · exact (List.nodup_append.1 hl'.nodup).2.2 a hmem a List.mem_cons_self rfl

/-- **One only.** There is one ancestry of a class. -/
theorem Ancestry.unique (hl : h.Ancestry cls l) (hl' : h.Ancestry cls l') : l = l' := by
  rcases isPrefix_or_isPrefix hl.chain hl'.chain with hle | hle
  · exact hl.eq_of_isPrefix hl' hle
  · exact (hl'.eq_of_isPrefix hl hle).symm

/-- An ancestry is the list of the ancestors. -/
theorem Ancestry.eq_ancestors (hl : h.Ancestry cls l) : l = h.ancestors cls :=
  hl.unique (h.ancestry_ancestors cls)

/-! ### Cycles -/

/-- Going up from the class comes back to a class: parents lead to one that is above itself.  The
    empty name, where it is a parent, is no class and leads nowhere. -/
def Circles (h : Hierarchy) (cls : String) : Prop :=
  ∃ a, Relation.ReflTransGen h.Extends cls a ∧ Relation.TransGen h.Extends a a

/-- What comes back from a class comes back from its parent. -/
theorem Circles.up (hc : h.Circles cls) (ha : h.Extends cls a) : h.Circles a := by
  obtain ⟨b, hreach, hback⟩ := hc
  rcases hreach.cases_head with rfl | ⟨d, hd, hrest⟩
  · obtain ⟨d, hd, hrest⟩ := Relation.TransGen.head'_iff.1 hback
    exact ⟨cls, hd.unique ha ▸ hrest, hback⟩
  · exact ⟨b, hd.unique ha ▸ hrest, hback⟩

/-- There is no coming back from a class without a parent. -/
theorem Circles.exists_extends (hc : h.Circles cls) : ∃ a, h.Extends cls a := by
  obtain ⟨b, hreach, hback⟩ := hc
  rcases hreach.cases_head with rfl | ⟨d, hd, _⟩
  · obtain ⟨d, hd, _⟩ := Relation.TransGen.head'_iff.1 hback
    exact ⟨d, hd⟩
  · exact ⟨d, hd⟩

/-- What comes back from the start of a chain comes back from its last class. -/
theorem Circles.getLastD (hc : h.Circles cls) (hl : (cls :: l).IsChain h.Extends) :
    h.Circles (l.getLastD cls) := by
  induction l generalizing cls with
  | nil => exact hc
  | cons b l ih =>
    rw [List.isChain_cons_cons] at hl
    rw [List.getLastD_cons]
    exact ih (hc.up hl.1) hl.2

/-- Along a chain every class is reached from the first one, and the last one from every class. -/
theorem reaches_of_mem (hl : (cls :: l).IsChain h.Extends) (ha : a ∈ cls :: l) :
    Relation.ReflTransGen h.Extends cls a ∧ Relation.ReflTransGen h.Extends a (l.getLastD cls) := by
  induction l generalizing cls a with
  | nil =>
    obtain rfl := List.mem_singleton.1 ha
    exact ⟨.refl, .refl⟩
  | cons b l ih =>
    rw [List.isChain_cons_cons] at hl
    rw [List.getLastD_cons]
    rcases List.mem_cons.1 ha with rfl | ha
    · exact ⟨.refl, .head hl.1 (ih hl.2 List.mem_cons_self).2⟩
    · obtain ⟨hfirst, hlast⟩ := ih hl.2 ha
      exact ⟨.head hl.1 hfirst, hlast⟩

/-- **Cycles at the end.** Going up from a class comes back just if the last one on its ancestry has
    a parent that is a class, which is then on the ancestry, or the class itself. -/
theorem Ancestry.circles_iff (hl : h.Ancestry cls l) :
    h.Circles cls ↔ ∃ a, h.Extends (l.getLastD cls) a := by
  constructor
  · intro hc
    exact (hc.getLastD hl.chain).exists_extends
  · rintro ⟨a, ha⟩
    obtain ⟨hfirst, hlast⟩ := reaches_of_mem hl.chain (hl.mem_of_extends ha)
    exact ⟨a, hfirst, Relation.TransGen.tail' hlast ha⟩

/-! ### The rest of the chain -/

theorem getLastD_append (cls a : String) (l₁ l₂ : List String) :
    (l₁ ++ a :: l₂).getLastD cls = l₂.getLastD a := by
  induction l₁ generalizing cls with
  | nil => rw [List.nil_append, List.getLastD_cons]
  | cons b l₁ ih => rw [List.cons_append, List.getLastD_cons, ih]

/-- **The rest of the chain.** Off the cycles, what follows an ancestor is the ancestry of that
    ancestor. -/
theorem Ancestry.of_append (hl : h.Ancestry cls (l₁ ++ a :: l₂)) (hc : ¬ h.Circles cls) :
    h.Ancestry a l₂ := by
  have hnodup : (a :: l₂).Nodup := (List.nodup_append.1 hl.nodup).2.1
  obtain ⟨hnot, hnodup⟩ := List.nodup_cons.1 hnodup
  refine ⟨hnodup, hnot, ?_, ?_⟩
  · exact hl.chain.suffix ((List.suffix_append l₁ (a :: l₂)).trans (List.suffix_cons cls _))
  · -- the two chains have the same end, and there is no class above it
    have htop : ∀ b, ¬ h.Extends (l₂.getLastD a) b := by
      intro b hb
      rw [← getLastD_append cls a l₁ l₂] at hb
      exact hc (hl.circles_iff.2 ⟨b, hb⟩)
    cases hp : h.parent? (l₂.getLastD a) with
    | none => exact .inl rfl
    | some b =>
      have hempty : b = "" := by
        by_contra hne
        exact htop b ⟨hp, hne⟩
      exact .inr (.inl (by rw [hempty]))

/-- Off the cycles, the ancestors of an ancestor are those that follow it. -/
theorem ancestors_of_getElem? (hc : ¬ h.Circles cls) {i : Nat}
    (hi : (h.ancestors cls)[i]? = some a) : h.ancestors a = (h.ancestors cls).drop (i + 1) := by
  obtain ⟨hlt, hget⟩ := List.getElem?_eq_some_iff.1 hi
  have hsplit : h.ancestors cls =
      (h.ancestors cls).take i ++ a :: (h.ancestors cls).drop (i + 1) := by
    rw [← hget, List.getElem_cons_drop, List.take_append_drop]
  have hl := h.ancestry_ancestors cls
  rw [hsplit] at hl
  exact (hl.of_append hc).eq_ancestors.symm

/-- Off the cycles, the ancestors of a class are its parent and the ancestors of the parent. -/
theorem ancestors_eq_cons (hc : ¬ h.Circles cls) (ha : h.Extends cls a) :
    h.ancestors cls = a :: h.ancestors a := by
  have hl := h.ancestry_ancestors cls
  cases hlist : h.ancestors cls with
  | nil =>
    rw [hlist] at hl
    exact absurd (hl.circles_iff.2 ⟨a, ha⟩) hc
  | cons b l =>
    rw [hlist] at hl
    obtain rfl : b = a := (List.isChain_cons_cons.1 hl.chain).1.unique ha
    rw [← List.nil_append (b :: l)] at hl
    rw [← (hl.of_append hc).eq_ancestors]

end Hierarchy

/-- **Ancestors are the chain of parents.** Take any hierarchy, cyclic or not, and any class.  Its
    ancestors are the chain of its parents, each once and without the class itself, up to where the
    next parent is missing, the empty name, the class itself or already listed; no other list is.
    Going up from the class comes back to a class just if it is one of the last two reasons that
    ends the list.  If it does not, then what follows an ancestor in the list are the ancestors of
    that ancestor, and a class is one deeper than its parent. -/
theorem ancestors_are_the_chain (h : Hierarchy) (cls : String) :
    h.Ancestry cls (h.ancestors cls) ∧ (∀ l, h.Ancestry cls l → l = h.ancestors cls) ∧
      (h.Circles cls ↔ ∃ a, h.Extends ((h.ancestors cls).getLastD cls) a ∧
        a ∈ cls :: h.ancestors cls) ∧
      (¬ h.Circles cls →
        (∀ i a, (h.ancestors cls)[i]? = some a → h.ancestors a = (h.ancestors cls).drop (i + 1)) ∧
          ∀ a, h.Extends cls a → h.depth cls = h.depth a + 1) := by
  have hl := h.ancestry_ancestors cls
  refine ⟨hl, fun l hl' => hl'.unique hl, ?_, fun hc => ⟨?_, ?_⟩⟩
  · rw [hl.circles_iff]
    exact exists_congr fun a => ⟨fun ha => ⟨ha, hl.mem_of_extends ha⟩, And.left⟩
  · intro i a hi
    exact Hierarchy.ancestors_of_getElem? hc hi
  · intro a ha
    rw [Hierarchy.depth, Hierarchy.ancestors_eq_cons hc ha]
    rfl

/-- The chain of a class goes up to one with the empty name as its parent, although the empty name
    has a parent that leads back. -/
theorem ancestors_below_empty_name :
    ∃ h : Hierarchy,
      [("C", "B"), ("B", "A"), ("A", ""), ("", "C")].foldlM (fun h e => h.link e.1 e.2)
        Hierarchy.empty = .ok h ∧
      ¬ h.Circles "C" ∧ h.ancestors "C" = ["B", "A"] ∧ h.ancestors "B" = (h.ancestors "C").drop 1 ∧
      h.depth "C" = h.depth "B" + 1 := by
  refine ⟨⟨(((Dict.empty.insert "C" "B").insert "B" "A").insert "A" "").insert "" "C"⟩, by rfl, ?_⟩
  generalize hh :
    (⟨(((Dict.empty.insert "C" "B").insert "B" "A").insert "A" "").insert "" "C"⟩ : Hierarchy) = h
  have hlist : h.ancestors "C" = ["B", "A"] := by
    subst hh
    decide +kernel
  have hparent : h.parent? "C" = some "B" ∧ h.parent? "A" = some "" := by
    subst hh
    decide +kernel
  obtain ⟨_, _, hcircles, hoff⟩ := ancestors_are_the_chain h "C"
  have hc : ¬ h.Circles "C" := by
    rw [hcircles, hlist]
    rintro ⟨a, ⟨hp, hne⟩, _⟩
    exact hne (Option.some.inj (hp.symm.trans hparent.2))
  obtain ⟨hrest, hdepth⟩ := hoff hc
  exact ⟨hc, hlist, hrest 0 "B" (by rw [hlist]; rfl), hdepth "B" ⟨hparent.1, by decide⟩⟩

end Decaf
