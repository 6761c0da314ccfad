namespace Decaf

/-!
# Dictionaries

A dictionary binds names to values and lists its bindings in the order of the names. The order is
part of the type, so two dictionaries with the same bindings are equal, in whatever order the
bindings were made.

* `Dict.get?`, `Dict.insert` — look-up, and binding of a name (again).
* `Dict.get?_insert` — after an insertion the name has the new value and all other names are as
  before.
* `Dict.ext_get?` — dictionaries that bind the same names to the same values are equal.
-/

/-- Bindings of names to values, in ascending order of the names. -/
structure Dict (α : Type) where
  entries : List (String × α)
  sorted : entries.Pairwise (·.1 < ·.1)

namespace Dict

variable {α β : Type}

/-- The dictionary without bindings. -/
def empty : Dict α := ⟨[], .nil⟩

instance : Inhabited (Dict α) := ⟨empty⟩

@[ext] theorem ext_entries {d e : Dict α} (h : d.entries = e.entries) : d = e := by
  cases d; cases e; cases h; rfl

instance [DecidableEq α] : DecidableEq (Dict α) := fun d e =>
  if h : d.entries = e.entries then .isTrue (ext_entries h) else .isFalse fun hde => h (hde ▸ rfl)

/-! ### Look-up -/

/-- The value bound to `name` in a list of bindings. -/
def find? (name : String) : List (String × α) → Option α
  | [] => none
  | (n, a) :: rest => if n = name then some a else find? name rest

/-- The value bound to `name`. -/
def get? (d : Dict α) (name : String) : Option α :=
  find? name d.entries

/-- Whether `name` is bound. -/
def contains (d : Dict α) (name : String) : Bool :=
  (d.get? name).isSome

/-- The bound names, in ascending order. -/
def keys (d : Dict α) : List String :=
  d.entries.map (·.1)

/-- The values, in the order of their names. -/
def values (d : Dict α) : List α :=
  d.entries.map (·.2)

/-- The number of bindings. -/
def size (d : Dict α) : Nat :=
  d.entries.length

/-! ### Insertion -/

/-- Puts a binding in its place, in the stead of an earlier one for the name. -/
def place (name : String) (a : α) : List (String × α) → List (String × α)
  | [] => [(name, a)]
  | (n, b) :: rest =>
    if name < n then (name, a) :: (n, b) :: rest
    else if name = n then (name, a) :: rest
    else (n, b) :: place name a rest

theorem mem_place {name : String} {a : α} {x : String × α} {l : List (String × α)}
    (h : x ∈ place name a l) : x = (name, a) ∨ x ∈ l := by
  induction l with
  | nil => simpa [place] using h
  | cons y l ih => grind [place]

theorem pairwise_place (name : String) (a : α) {l : List (String × α)}
    (h : l.Pairwise (·.1 < ·.1)) : (place name a l).Pairwise (·.1 < ·.1) := by
  induction l with
  | nil => simp [place]
  | cons y l ih =>
    rw [List.pairwise_cons] at h
    unfold place
    split
    · rename_i hlt
      refine List.pairwise_cons.2 ⟨fun x hx => ?_, List.pairwise_cons.2 h⟩
      rcases List.mem_cons.1 hx with rfl | hx
      · exact hlt
      · exact String.lt_trans hlt (h.1 x hx)
    · rename_i hlt
      split
      · rename_i heq
        exact List.pairwise_cons.2 ⟨fun x hx => heq ▸ h.1 x hx, h.2⟩
      · rename_i hne
        refine List.pairwise_cons.2 ⟨fun x hx => ?_, ih h.2⟩
        rcases mem_place hx with rfl | hx
        · exact ((Std.lt_trichotomy y.1 name).resolve_right
            fun h => h.elim (fun h => hne h.symm) hlt)
        · exact h.1 x hx

/-- Binds `name` to `a`, in the stead of what it was bound to before. -/
def insert (d : Dict α) (name : String) (a : α) : Dict α :=
  ⟨place name a d.entries, pairwise_place name a d.sorted⟩

/-- The same names, with new values. -/
def map (f : String → α → β) (d : Dict α) : Dict β where
  entries := d.entries.map fun (n, a) => (n, f n a)
  sorted := List.pairwise_map.2 d.sorted

/-- The bindings whose value is accepted. -/
def filter (p : α → Bool) (d : Dict α) : Dict α where
  entries := d.entries.filter fun (_, a) => p a
  sorted := d.sorted.filter _

/-! ### Laws -/

@[simp] theorem get?_empty (name : String) : (empty : Dict α).get? name = none := rfl

theorem find?_place (name other : String) (a : α) (l : List (String × α)) :
    find? other (place name a l) = if other = name then some a else find? other l := by
  induction l with
  | nil => grind [place, find?]
  | cons y l ih => grind [place, find?]

/-- **Insertion.** The name has the new value; all other names are as before. -/
theorem get?_insert (d : Dict α) (name other : String) (a : α) :
    (d.insert name a).get? other = if other = name then some a else d.get? other :=
  find?_place name other a d.entries

@[simp] theorem get?_insert_self (d : Dict α) (name : String) (a : α) :
    (d.insert name a).get? name = some a := by
  simp [get?_insert]

theorem get?_insert_of_ne (d : Dict α) {name other : String} (a : α) (h : other ≠ name) :
    (d.insert name a).get? other = d.get? other := by
  simp [get?_insert, h]

theorem find?_eq_none_of_lt (name : String) {l : List (String × α)} (h : ∀ x ∈ l, name < x.1) :
    find? name l = none := by
  induction l with
  | nil => rfl
  | cons y l ih =>
    have hy : y.1 ≠ name := fun e => String.lt_irrefl name (by simpa [e] using h y (by simp))
    simp only [find?, hy, if_false]
    exact ih fun x hx => h x (List.mem_cons_of_mem _ hx)

theorem find?_eq_some_iff {name : String} {a : α} {l : List (String × α)}
    (h : l.Pairwise (·.1 < ·.1)) : find? name l = some a ↔ (name, a) ∈ l := by
  induction l with
  | nil => simp [find?]
  | cons y l ih =>
    obtain ⟨n, b⟩ := y
    rw [List.pairwise_cons] at h
    by_cases hn : n = name
    · subst hn
      simp only [find?, if_true, Option.some.injEq, List.mem_cons, Prod.mk.injEq, true_and]
      refine ⟨fun e => .inl e.symm, fun e => e.elim (·.symm) fun hm => ?_⟩
      exact absurd (h.1 _ hm) (String.lt_irrefl n)
    · simp [find?, hn, ih h.2, Ne.symm hn]

/-- A name has the value `a` exactly when the two are listed as a binding. -/
theorem get?_eq_some_iff {d : Dict α} {name : String} {a : α} :
    d.get? name = some a ↔ (name, a) ∈ d.entries :=
  find?_eq_some_iff d.sorted

theorem eq_of_find?_eq {l m : List (String × α)} (hl : l.Pairwise (·.1 < ·.1))
    (hm : m.Pairwise (·.1 < ·.1)) (h : ∀ name, find? name l = find? name m) : l = m := by
  induction l generalizing m with
  | nil =>
    cases m with
    | nil => rfl
    | cons y m => simpa [find?] using h y.1
  | cons x l ih =>
    cases m with
    | nil => simpa [find?] using (h x.1).symm
    | cons y m =>
      rw [List.pairwise_cons] at hl hm
      have hxy : x.1 = y.1 := by
        -- the smaller of two first names would not be found in the other list
        rcases Std.lt_trichotomy x.1 y.1 with hlt | heq | hlt
        · have := find?_eq_none_of_lt x.1 (l := y :: m) fun z hz => by
            rcases List.mem_cons.1 hz with rfl | hz
            · exact hlt
            · exact String.lt_trans hlt (hm.1 z hz)
          rw [← h x.1] at this
          simp [find?] at this
        · exact heq
        · have := find?_eq_none_of_lt y.1 (l := x :: l) fun z hz => by
            rcases List.mem_cons.1 hz with rfl | hz
            · exact hlt
            · exact String.lt_trans hlt (hl.1 z hz)
          rw [h y.1] at this
          simp [find?] at this
      have hval : x.2 = y.2 := by
        have := h x.1
        simpa [find?, hxy] using this
      have hrest : l = m := ih hl.2 hm.2 fun name => by
        by_cases hn : x.1 = name
        · subst hn
          -- the first name occurs in neither rest
          rw [find?_eq_none_of_lt x.1 hl.1, find?_eq_none_of_lt x.1 (by rw [hxy]; exact hm.1)]
        · have := h name
          simpa [find?, hn, hxy ▸ hn] using this
      rw [hrest, show x = y from Prod.ext hxy hval]

/-- **Extensionality.** Dictionaries that bind the same names to the same values are equal. -/
theorem ext_get? {d e : Dict α} (h : ∀ name, d.get? name = e.get? name) : d = e :=
  ext_entries (eq_of_find?_eq d.sorted e.sorted h)

end Dict

end Decaf
