import Decaf.Dict

namespace Decaf.Dict

/-!
# What a dictionary binds

The lists of a dictionary's names and values, and its size, in terms of look-ups.

* `mem_values_iff`, `mem_keys_iff` — the values are what names are bound to, the keys are the names
  that are bound.
* `get?_insert_eq_some_iff` — what is found after a new name is bound.
* `get?_map`, `get?_filter` — look-ups after a change of all values, or a choice among the bindings.
* `size_insert` — binding a name again does not make a dictionary larger.
-/

variable {α β : Type} {d : Dict α} {name : String}

/-! ### Names and values -/

theorem mem_values_iff {a : α} : a ∈ d.values ↔ ∃ name, d.get? name = some a := by
  simp only [values, List.mem_map, get?_eq_some_iff]
  constructor
  · rintro ⟨⟨name, b⟩, hmem, rfl⟩
    exact ⟨name, hmem⟩
  · rintro ⟨name, hmem⟩
    exact ⟨(name, a), hmem, rfl⟩

theorem mem_values_of_get? {a : α} (h : d.get? name = some a) : a ∈ d.values :=
  mem_values_iff.2 ⟨name, h⟩

/-- What is found after an insertion is what was inserted, or it was there before. -/
theorem eq_or_get?_of_get?_insert {other : String} {a b : α}
    (h : (d.insert name a).get? other = some b) :
    (other = name ∧ a = b) ∨ (other ≠ name ∧ d.get? other = some b) := by
  rw [get?_insert] at h
  split at h
  · exact .inl ⟨‹_›, Option.some.inj h⟩
  · exact .inr ⟨‹_›, h⟩

/-- After a new name is bound, what is found is what was there before and the new value. -/
theorem get?_insert_eq_some_iff {other : String} {a b : α} (hnew : d.get? name = none) :
    (d.insert name a).get? other = some b ↔ d.get? other = some b ∨ (a = b ∧ name = other) := by
  constructor
  · intro h
    rcases eq_or_get?_of_get?_insert h with ⟨hother, hb⟩ | ⟨_, h⟩
    · exact .inr ⟨hb, hother.symm⟩
    · exact .inl h
  · rintro (h | ⟨rfl, rfl⟩)
    · have hne : other ≠ name := by
        rintro rfl
        rw [hnew] at h
        cases h
      rw [get?_insert_of_ne d a hne, h]
    · exact get?_insert_self d name a

/-- The later of two entries under one name counts. -/
theorem insert_insert (d : Dict α) (name : String) (a b : α) :
    (d.insert name a).insert name b = d.insert name b := by
  refine ext_get? fun other => ?_
  rw [get?_insert, get?_insert, get?_insert]
  split <;> rfl

theorem contains_eq_false_iff : d.contains name = false ↔ d.get? name = none := by
  rw [contains, Option.isSome_eq_false_iff, Option.isNone_iff_eq_none]

theorem mem_keys_iff : name ∈ d.keys ↔ ∃ a, d.get? name = some a := by
  simp only [keys, List.mem_map, get?_eq_some_iff]
  constructor
  · rintro ⟨⟨n, a⟩, hmem, rfl⟩
    exact ⟨a, hmem⟩
  · rintro ⟨a, hmem⟩
    exact ⟨(name, a), hmem, rfl⟩

/-- No name is listed twice. -/
theorem nodup_keys (d : Dict α) : d.keys.Nodup := by
  refine List.pairwise_map.2 (d.sorted.imp ?_)
  intro x y hlt heq
  rw [heq] at hlt
  exact String.lt_irrefl _ hlt

/-! ### Derived dictionaries -/

theorem get?_map (f : String → α → β) : (d.map f).get? name = (d.get? name).map (f name) := by
  have hfind : ∀ l : List (String × α),
      find? name (l.map fun x => (x.1, f x.1 x.2)) = (find? name l).map (f name) := by
    intro l
    induction l with
    | nil => rfl
    | cons x l ih =>
      by_cases hx : x.1 = name
      · simp [find?, hx]
      · simp [find?, hx, ih]
  exact hfind d.entries

theorem get?_filter (p : α → Bool) : (d.filter p).get? name = (d.get? name).filter p := by
  apply Option.ext
  intro a
  rw [get?_eq_some_iff, Option.filter_eq_some_iff, get?_eq_some_iff]
  simp [filter]

/-! ### Size -/

theorem length_place (name : String) (a : α) (l : List (String × α)) (hl : l.Pairwise (·.1 < ·.1)) :
    (place name a l).length = if (find? name l).isSome then l.length else l.length + 1 := by
  induction l with
  | nil => rfl
  | cons x l ih =>
    rw [List.pairwise_cons] at hl
    unfold place
    split
    · -- the name comes before all others, so it was not bound
      rename_i hlt
      have hnone : find? name (x :: l) = none := find?_eq_none_of_lt name fun y hy => by
        rcases List.mem_cons.1 hy with rfl | hy
        · exact hlt
        · exact String.lt_trans hlt (hl.1 y hy)
      simp [hnone]
    · split
      · rename_i heq
        simp [find?, heq]
      · rename_i hne
        have hne' : x.1 ≠ name := fun h => hne h.symm
        simp only [List.length_cons, ih hl.2, find?, hne', if_false]
        split <;> rfl

/-- **Size.** Binding a new name makes a dictionary larger by one; binding a name again does not. -/
theorem size_insert (d : Dict α) (name : String) (a : α) :
    (d.insert name a).size = if (d.get? name).isSome then d.size else d.size + 1 :=
  length_place name a d.entries d.sorted

/-- Values that know the name under which they are stored have the names of the dictionary, in its
    order. -/
theorem map_values_eq_keys {f : α → String} (h : ∀ n a, d.get? n = some a → f a = n) :
    d.values.map f = d.keys := by
  rw [values, keys, List.map_map]
  refine List.map_congr_left fun x hx => ?_
  exact h x.1 x.2 (get?_eq_some_iff.2 hx)

end Decaf.Dict
