import Decaf.Proofs.Hierarchy

namespace Decaf

/-!
# Looking for a cycle

A cycle above a class can be found by a search that marks what it does: a class is visited once the
search has come to it, and active until the search is done with what is above it.  Coming to an
active class closes a cycle, and then the search ends at once and leaves the classes active that it
came through.  That it ends at all is owed to the visited classes: there are fewer and fewer others.
What the search finds and marks is what `trail` says, on every hierarchy.

* `Marks`, `Hierarchy.search` — the search, with its marks.
* `Hierarchy.Walk.search` — the search finds and marks what the walk from the class passes.
* `Hierarchy.up?` — the class that many steps up.
* `Hierarchy.mem_trail_iff`, `Hierarchy.revisits_iff` — the walk passes just the classes up from its
  start, and it runs into itself just if one of them comes up again.
* `MarkedHierarchy.findCycle`, `cycles_found_exactly` — what a search finds and leaves marked,
  whatever was marked before it.
-/

/-! ### Marks -/

/-- What a search has marked.  A mark that was taken back is one that is set to `false`. -/
structure Marks where
  visited : Dict Bool
  active : Dict Bool

namespace Marks

/-- No marks. -/
def empty : Marks := ⟨.empty, .empty⟩

/-- Whether the class is marked as visited. -/
def isVisited (m : Marks) (cls : String) : Bool :=
  m.visited.get? cls = some true

/-- Whether the class is marked as active. -/
def isActive (m : Marks) (cls : String) : Bool :=
  m.active.get? cls = some true

/-- The marks when the search comes to a class. -/
def enter (m : Marks) (cls : String) : Marks :=
  ⟨m.visited.insert cls true, m.active.insert cls true⟩

/-- The marks when the search is done with a class. -/
def leave (m : Marks) (cls : String) : Marks :=
  { m with active := m.active.insert cls false }

/-- Just the given classes are marked. -/
structure Holds (m : Marks) (visited active : List String) : Prop where
  visited_iff : ∀ a, m.isVisited a ↔ a ∈ visited
  active_iff : ∀ a, m.isActive a ↔ a ∈ active

variable {m : Marks} {vs as : List String} {cls a : String}

theorem isVisited_enter : (m.enter cls).isVisited a ↔ a = cls ∨ m.isVisited a := by
  by_cases ha : a = cls <;> simp [isVisited, enter, Dict.get?_insert, ha]

theorem isActive_enter : (m.enter cls).isActive a ↔ a = cls ∨ m.isActive a := by
  by_cases ha : a = cls <;> simp [isActive, enter, Dict.get?_insert, ha]

theorem isActive_leave : (m.leave cls).isActive a ↔ a ≠ cls ∧ m.isActive a := by
  by_cases ha : a = cls <;> simp [isActive, leave, Dict.get?_insert, ha]

theorem holds_empty : empty.Holds [] [] :=
  ⟨fun a => by simp [isVisited, empty], fun a => by simp [isActive, empty]⟩

theorem Holds.enter (h : m.Holds vs as) (cls : String) :
    (m.enter cls).Holds (cls :: vs) (cls :: as) := by
  constructor
  · intro a
    rw [isVisited_enter, h.visited_iff, List.mem_cons]
  · intro a
    rw [isActive_enter, h.active_iff, List.mem_cons]

/-- A class that the search is done with was marked as active once. -/
theorem Holds.leave (h : m.Holds vs (cls :: as)) (hcls : cls ∉ as) : (m.leave cls).Holds vs as := by
  constructor
  · exact h.visited_iff
  · intro a
    rw [isActive_leave, h.active_iff, List.mem_cons]
    constructor
    · rintro ⟨hne, heq | ha⟩
      · exact absurd heq hne
      · exact ha
    · intro ha
      exact ⟨fun heq => hcls (heq ▸ ha), .inr ha⟩

/-- A class that is not listed is not marked. -/
theorem Holds.unmarked (h : m.Holds vs as) (hvs : cls ∉ vs) (has : cls ∉ as) :
    ¬ m.isActive cls ∧ ¬ m.isVisited cls :=
  ⟨fun hc => has ((h.active_iff cls).1 hc), fun hc => hvs ((h.visited_iff cls).1 hc)⟩

/-- In which order the classes are listed does not matter. -/
theorem Holds.congr {vs' as' : List String} (h : m.Holds vs as) (hvs : ∀ a, a ∈ vs ↔ a ∈ vs')
    (has : ∀ a, a ∈ as ↔ a ∈ as') : m.Holds vs' as' :=
  ⟨fun a => (h.visited_iff a).trans (hvs a), fun a => (h.active_iff a).trans (has a)⟩

end Marks

namespace Hierarchy

variable {h : Hierarchy} {cls a : String} {m : Marks} {seen : List String} {t : Trail} {n : Nat}

/-! ### The search -/

/-- The classes with a parent that are not visited. -/
def unvisited (h : Hierarchy) (m : Marks) : List String :=
  h.parents.keys.filter fun c => !m.isVisited c

/-- Coming to a class with a parent for the first time leaves fewer such classes. -/
theorem length_unvisited_enter_lt (hp : h.parent? cls = some a) (hnew : ¬ m.isVisited cls) :
    (h.unvisited (m.enter cls)).length < (h.unvisited m).length := by
  have hsplit : h.unvisited (m.enter cls) = (h.unvisited m).filter (· ≠ cls) := by
    rw [unvisited, unvisited, List.filter_filter]
    refine List.filter_congr fun c _ => ?_
    rw [Bool.eq_iff_iff]
    simp [← Bool.not_eq_true, Marks.isVisited_enter]
  have hmem : cls ∈ h.unvisited m := by
    have hkey : cls ∈ h.parents.keys := Dict.mem_keys_iff.2 ⟨a, hp⟩
    simp [unvisited, hkey, hnew]
  rw [hsplit]
  exact List.length_filter_lt_length_iff_exists.2 ⟨cls, hmem, by simp⟩

/-- Searches for a cycle from `cls` on: whether there is one, and what is marked afterwards.  When a
    cycle is found, marks are left as they are. -/
def search (h : Hierarchy) (m : Marks) (cls : String) : Bool × Marks :=
  if m.isActive cls then (true, m)
  else if m.isVisited cls then (false, m)
  else
    match _hp : h.parent? cls with
    | none => (false, (m.enter cls).leave cls)
    | some parent =>
      match h.search (m.enter cls) parent with
      | (true, m') => (true, m')
      | (false, m') => (false, m'.leave cls)
termination_by (h.unvisited m).length
decreasing_by exact length_unvisited_enter_lt _hp ‹_›

theorem search_of_active (hactive : m.isActive cls) : h.search m cls = (true, m) := by
  rw [search, if_pos hactive]

theorem search_of_top (hactive : ¬ m.isActive cls) (hvisited : ¬ m.isVisited cls)
    (hp : h.parent? cls = none) : h.search m cls = (false, (m.enter cls).leave cls) := by
  rw [search, if_neg hactive, if_neg hvisited]
  split
  · rfl
  · simp_all

theorem search_of_parent (hactive : ¬ m.isActive cls) (hvisited : ¬ m.isVisited cls)
    (hp : h.parent? cls = some a) :
    h.search m cls =
      match h.search (m.enter cls) a with
      | (true, m') => (true, m')
      | (false, m') => (false, m'.leave cls) := by
  rw [search, if_neg hactive, if_neg hvisited]
  split
  · simp_all
  · rename_i hp'
    rw [Option.some.inj (hp.symm.trans hp')]

/-- **The search.** Where all that is marked is what the search came through, it finds a cycle
    exactly if the walk runs into itself.  It has then visited what the walk passes, and is done
    with all of it, or with nothing. -/
theorem Walk.search (ht : h.Walk seen cls t) (hcls : cls ∉ seen) (hm : m.Holds seen seen) :
    (h.search m cls).1 = t.loops ∧
      (h.search m cls).2.Holds (t.classes ++ seen) (t.unfinished ++ seen) := by
  induction ht generalizing m with
  | @stop seen cls hp =>
    obtain ⟨hactive, hvisited⟩ := hm.unmarked hcls hcls
    rw [search_of_top hactive hvisited hp]
    exact ⟨rfl, (hm.enter cls).leave hcls⟩
  | @loop seen cls a hp ha =>
    obtain ⟨hactive, hvisited⟩ := hm.unmarked hcls hcls
    -- the parent is active, since it is the class itself or one that the search came through
    have hparent : (m.enter cls).isActive a := ((hm.enter cls).active_iff a).2 ha
    rw [search_of_parent hactive hvisited hp, search_of_active hparent]
    exact ⟨rfl, hm.enter cls⟩
  | @step seen cls a t hp ha _ ih =>
    obtain ⟨hactive, hvisited⟩ := hm.unmarked hcls hcls
    obtain ⟨hfound, hmarks⟩ := ih ha (hm.enter cls)
    have hmiddle : ∀ (l : List String) (b : String), b ∈ l ++ cls :: seen ↔
        b ∈ cls :: l ++ seen := by
      intro l b
      exact List.perm_middle.mem_iff
    rw [search_of_parent hactive hvisited hp]
    rcases hres : h.search (m.enter cls) a with ⟨found, m'⟩
    rw [hres] at hfound hmarks
    cases found with
    | true =>
      have hloops : t.loops = true := hfound.symm
      refine ⟨hfound, hmarks.congr (hmiddle t.classes) fun b => ?_⟩
      simp only [Trail.unfinished, hloops, if_true]
      exact hmiddle t.classes b
    | false =>
      have hloops : t.loops = false := hfound.symm
      have hdone : t.unfinished ++ cls :: seen = cls :: seen := by simp [Trail.unfinished, hloops]
      rw [hdone] at hmarks
      refine ⟨hfound, (hmarks.leave hcls).congr (hmiddle t.classes) fun b => ?_⟩
      simp [Trail.unfinished, hloops]

/-! ### Steps up -/

/-- The class to which `n` steps from a class to its parent lead from `cls`, if there is one. -/
def up? (h : Hierarchy) (cls : String) : Nat → Option String
  | 0 => some cls
  | n + 1 => (h.up? cls n).bind h.parent?

theorem up?_add (h : Hierarchy) (cls : String) (n k : Nat) :
    h.up? cls (n + k) = (h.up? cls n).bind (h.up? · k) := by
  induction k with
  | zero => cases h.up? cls n <;> rfl
  | succ k ih =>
    show (h.up? cls (n + k)).bind h.parent? = _
    rw [ih, Option.bind_assoc]
    rfl

/-- Some steps lead to a class exactly if parents do. -/
theorem exists_up?_iff : (∃ n, h.up? cls n = some a) ↔ Relation.ReflTransGen h.IsParent cls a := by
  constructor
  · rintro ⟨n, hn⟩
    induction n generalizing a with
    | zero =>
      obtain rfl : cls = a := Option.some.inj hn
      exact .refl
    | succ n ih =>
      obtain ⟨b, hb, hp⟩ := Option.bind_eq_some_iff.1 hn
      exact (ih hb).tail hp
  · intro hreach
    induction hreach with
    | refl => exact ⟨0, rfl⟩
    | @tail b a _ hp ih =>
      obtain ⟨n, hn⟩ := ih
      exact ⟨n + 1, Option.bind_eq_some_iff.2 ⟨b, hn, hp⟩⟩

/-- At least one step leads to a class exactly if one or more parents do. -/
theorem exists_up?_succ_iff :
    (∃ n, h.up? cls (n + 1) = some a) ↔ Relation.TransGen h.IsParent cls a := by
  rw [Relation.TransGen.tail'_iff]
  constructor
  · rintro ⟨n, hn⟩
    obtain ⟨b, hb, hp⟩ := Option.bind_eq_some_iff.1 hn
    exact ⟨b, exists_up?_iff.1 ⟨n, hb⟩, hp⟩
  · rintro ⟨b, hreach, hp⟩
    obtain ⟨n, hn⟩ := exists_up?_iff.2 hreach
    exact ⟨n, Option.bind_eq_some_iff.2 ⟨b, hn, hp⟩⟩

/-- **Coming back.** Parents lead back to a class exactly if, on the way up, a class comes up a
    second time. -/
theorem revisits_iff :
    h.Revisits cls ↔ ∃ i j a, i < j ∧ h.up? cls i = some a ∧ h.up? cls j = some a := by
  constructor
  · rintro ⟨a, hreach, hback⟩
    obtain ⟨i, hi⟩ := exists_up?_iff.2 hreach
    obtain ⟨k, hk⟩ := exists_up?_succ_iff.2 hback
    refine ⟨i, i + (k + 1), a, by omega, hi, ?_⟩
    rw [up?_add, hi]
    exact hk
  · rintro ⟨i, j, a, hij, hi, hj⟩
    obtain ⟨k, rfl⟩ : ∃ k, j = i + (k + 1) := ⟨j - i - 1, by omega⟩
    rw [up?_add, hi] at hj
    exact ⟨a, exists_up?_iff.1 ⟨i, hi⟩, exists_up?_succ_iff.1 ⟨k, hj⟩⟩

/-- A parent of a class of a walk is one too, or has been seen. -/
theorem Walk.mem_of_parent? (ht : h.Walk seen cls t) {c : String} (hc : c ∈ t.classes)
    (hp : h.parent? c = some a) : a ∈ seen ∨ a ∈ t.classes := by
  induction ht with
  | stop hnone =>
    obtain rfl := List.mem_singleton.1 hc
    rw [hnone] at hp
    cases hp
  | loop hp' hback =>
    obtain rfl := List.mem_singleton.1 hc
    obtain rfl : _ = _ := Option.some.inj (hp'.symm.trans hp)
    rcases List.mem_cons.1 hback with rfl | hseen
    · exact .inr hc
    · exact .inl hseen
  | @step seen cls b t hp' _ ht ih =>
    rcases List.mem_cons.1 hc with rfl | hc
    · -- the walk goes on from the parent
      obtain rfl : b = a := Option.some.inj (hp'.symm.trans hp)
      obtain ⟨rest, hrest⟩ := ht.eq_cons
      exact .inr (by simp [hrest])
    · rcases ih hc with hseen | hmem
      · rcases List.mem_cons.1 hseen with rfl | hseen
        · exact .inr List.mem_cons_self
        · exact .inl hseen
      · exact .inr (List.mem_cons_of_mem _ hmem)

/-- What a walk passes is reached by parents. -/
theorem Walk.reaches (ht : h.Walk seen cls t) (ha : a ∈ t.classes) :
    Relation.ReflTransGen h.IsParent cls a := by
  induction ht with
  | stop => exact List.mem_singleton.1 ha ▸ .refl
  | loop => exact List.mem_singleton.1 ha ▸ .refl
  | step hp _ _ ih =>
    rcases List.mem_cons.1 ha with rfl | ha
    · exact .refl
    · exact .head hp (ih ha)

/-- **The path.** The walk from a class passes just the classes to which steps lead from it. -/
theorem mem_trail_iff : a ∈ (h.trail cls).classes ↔ ∃ n, h.up? cls n = some a := by
  rw [exists_up?_iff]
  constructor
  · exact (walk_trail h cls).reaches
  · intro hreach
    induction hreach with
    | refl =>
      obtain ⟨rest, hrest⟩ := (walk_trail h cls).eq_cons
      simp [hrest]
    | tail _ hp ih => exact ((walk_trail h cls).mem_of_parent? ih hp).resolve_left List.not_mem_nil

end Hierarchy

/-! ### One search after another -/

/-- A hierarchy, with the marks that the last search in it has left. -/
structure MarkedHierarchy where
  hierarchy : Hierarchy
  marks : Marks

namespace MarkedHierarchy

/-- Looks for a cycle from `cls` on. -/
def findCycle (g : MarkedHierarchy) (cls : String) : Bool × MarkedHierarchy :=
  -- the marks of earlier searches are wiped off
  let (found, marks) := g.hierarchy.search .empty cls
  (found, { g with marks })

/-- **What is found, and what is left marked.** Whatever was marked before, it is what the walk from
    the class says. -/
theorem findCycle_eq (g : MarkedHierarchy) (cls : String) :
    ∃ marks, g.findCycle cls = ((g.hierarchy.trail cls).loops, ⟨g.hierarchy, marks⟩) ∧
      marks.Holds (g.hierarchy.trail cls).classes (g.hierarchy.trail cls).unfinished := by
  obtain ⟨hfound, hmarks⟩ := (g.hierarchy.walk_trail cls).search List.not_mem_nil Marks.holds_empty
  rw [List.append_nil, List.append_nil] at hmarks
  refine ⟨(g.hierarchy.search .empty cls).2, ?_, hmarks⟩
  rw [← hfound]
  rfl

end MarkedHierarchy

/-- **Cycles are found exactly.** Take any hierarchy, cyclic or not, with whatever marks earlier
    searches have left on it, and any class.  The search finds a cycle just if, on the way up from
    the class, a class comes up a second time.  Afterwards just the classes on that way are visited;
    just these are active if a cycle was found, and none if not.  So does the walk from the class
    say, and the hierarchy stays as it is. -/
theorem cycles_found_exactly (g : MarkedHierarchy) (cls : String) :
    ∃ found marks, g.findCycle cls = (found, ⟨g.hierarchy, marks⟩) ∧
      (found = true ↔ ∃ i j a, i < j ∧ g.hierarchy.up? cls i = some a ∧
        g.hierarchy.up? cls j = some a) ∧
      (∀ a, marks.isVisited a = true ↔ ∃ n, g.hierarchy.up? cls n = some a) ∧
      (∀ a, marks.isActive a = true ↔ found = true ∧ ∃ n, g.hierarchy.up? cls n = some a) ∧
      found = (g.hierarchy.trail cls).loops ∧
      (∀ a, marks.isVisited a = true ↔ a ∈ (g.hierarchy.trail cls).classes) ∧
      (∀ a, marks.isActive a = true ↔ a ∈ (g.hierarchy.trail cls).unfinished) := by
  -- the marks are those of the trail, whatever marks there were before
  obtain ⟨marks, hfind, hmarks⟩ := g.findCycle_eq cls
  refine ⟨_, marks, hfind, ?_, ?_, ?_, rfl, hmarks.visited_iff, hmarks.active_iff⟩
  · rw [Hierarchy.loops_trail_iff, Hierarchy.revisits_iff]
  · intro a
    rw [hmarks.visited_iff, Hierarchy.mem_trail_iff]
  · intro a
    rw [hmarks.active_iff, ← Hierarchy.mem_trail_iff, Trail.unfinished]
    cases (g.hierarchy.trail cls).loops <;> simp

-- a class below a cycle, searched after a search that ended at the top: the marks of that one are
-- gone
example :
    let links := Hierarchy.mk (((Dict.empty.insert "A" "B").insert "B" "C").insert "C" "B")
    let g := (MarkedHierarchy.findCycle ⟨links, .empty⟩ "D").2
    (g.hierarchy.trail "A").classes = ["A", "B", "C"] ∧ (g.findCycle "A").1 = true ∧
      ["A", "B", "C", "D"].map (g.findCycle "A").2.marks.isActive = [true, true, true, false] := by
  decide +kernel

end Decaf
