import Decaf.Program.Lookup
import Decaf.Proofs.Layout.Completion
import Mathlib.Data.List.Sort

namespace Decaf

/-!
# Slots without gaps

The slots of a class are numbered without gaps.  A class takes the slots of its parent over; a
method that overrides another takes the slot of that one, and the other methods get the next
numbers.  So a method keeps its slot in all the classes below, and what is found there is the method
of the nearest class that declares it.

* `Dense` — the numbers of slots have no gaps.
* `dense_assignSlots`, `index_assignSlots`, `symbol_assignSlots` — what giving slots to methods
  keeps and makes.
* `Dense.getElem?_sortByRank` — the slots by number: the slot with a number is found in that place.
* `Program.declarer?` — the nearest class of a chain that declares a method.
* `Program.Valid.slots_eq`, `Program.Valid.index_slots` — the slots of a class, and of the classes
  above it.
-/

/-! ### Numbers without gaps -/

/-- No two slots have the same number, and the numbers are below the number of slots. -/
structure Dense (slots : Dict Slot) : Prop where
  lt : ∀ {m : String} {s : Slot}, slots.get? m = some s → s.index < slots.size
  inj : ∀ {m n : String} {s t : Slot}, slots.get? m = some s → slots.get? n = some t →
    s.index = t.index → m = n

theorem dense_empty : Dense .empty where
  lt h := by cases h
  inj h := by cases h

namespace Layout

variable {cls : String} {slots : Dict Slot}

/-- The number that a method gets: that of the method that it overrides, else the next one. -/
def nextIndex (slots : Dict Slot) (m : String) : Nat :=
  match slots.get? m with
  | some slot => slot.index
  | none => slots.size

/-- Giving slots is giving one after the other. -/
theorem assignSlots_cons (m : String) (ms : List String) :
    assignSlots cls slots (m :: ms) =
      assignSlots cls (slots.insert m ⟨methodSymbol cls m, nextIndex slots m⟩) ms := rfl

/-- A slot keeps its number when its method is overridden. -/
theorem nextIndex_eq {m : String} {s : Slot} (h : slots.get? m = some s) :
    nextIndex slots m = s.index := by
  rw [nextIndex, h]

/-- The number that a method gets is below the number of methods, with it. -/
theorem nextIndex_lt (h : Dense slots) (m : String) (s : Slot) :
    nextIndex slots m < (slots.insert m s).size := by
  rw [Dict.size_insert]
  cases hm : slots.get? m with
  | some t =>
    rw [nextIndex_eq hm]
    exact h.lt hm
  | none =>
    have hnext : nextIndex slots m = slots.size := by rw [nextIndex, hm]
    show nextIndex slots m < slots.size + 1
    omega

/-- No other method has the number that a method gets. -/
theorem index_ne_nextIndex (h : Dense slots) {m n : String} {s : Slot} (hs : slots.get? n = some s)
    (hne : n ≠ m) : s.index ≠ nextIndex slots m := by
  intro heq
  cases hm : slots.get? m with
  | some t =>
    rw [nextIndex_eq hm] at heq
    exact hne (h.inj hs hm heq)
  | none =>
    -- the next number is above all that have been given
    have hnext : nextIndex slots m = slots.size := by rw [nextIndex, hm]
    have hlt := h.lt hs
    omega

/-- **Step.** One more method leaves no gap. -/
theorem dense_insert (h : Dense slots) (m : String) :
    Dense (slots.insert m ⟨methodSymbol cls m, nextIndex slots m⟩) := by
  have hsize : slots.size ≤ (slots.insert m ⟨methodSymbol cls m, nextIndex slots m⟩).size := by
    rw [Dict.size_insert]
    split <;> omega
  constructor
  · intro n t hn
    rcases Dict.eq_or_get?_of_get?_insert hn with ⟨_, rfl⟩ | ⟨_, hn⟩
    · exact nextIndex_lt h m _
    · have hlt := h.lt hn
      omega
  · -- the new index is that of no other name
    intro n k t u hn hk heq
    rcases Dict.eq_or_get?_of_get?_insert hn with ⟨rfl, rfl⟩ | ⟨hnm, hn₀⟩
    · rcases Dict.eq_or_get?_of_get?_insert hk with ⟨rfl, _⟩ | ⟨hkm, hk₀⟩
      · rfl
      · exact absurd heq.symm (index_ne_nextIndex h hk₀ hkm)
    · rcases Dict.eq_or_get?_of_get?_insert hk with ⟨rfl, rfl⟩ | ⟨_, hk₀⟩
      · exact absurd heq (index_ne_nextIndex h hn₀ hnm)
      · exact h.inj hn₀ hk₀ heq

/-- **Run.** Giving slots to methods leaves no gap. -/
theorem dense_assignSlots (h : Dense slots) (ms : List String) :
    Dense (assignSlots cls slots ms) := by
  induction ms generalizing slots with
  | nil => exact h
  | cons m ms ih =>
    rw [assignSlots_cons]
    exact ih (dense_insert h m)

/-- A method that has a slot keeps its number. -/
theorem index_assignSlots {m : String} {s : Slot} (h : slots.get? m = some s) (ms : List String) :
    ∃ t, (assignSlots cls slots ms).get? m = some t ∧ t.index = s.index := by
  induction ms generalizing slots s with
  | nil => exact ⟨s, h, rfl⟩
  | cons n ms ih =>
    rw [assignSlots_cons]
    by_cases hn : m = n
    · subst hn
      obtain ⟨t, ht, hindex⟩ :=
        ih (Dict.get?_insert_self slots m ⟨methodSymbol cls m, nextIndex slots m⟩)
      exact ⟨t, ht, hindex.trans (nextIndex_eq h)⟩
    · exact ih ((Dict.get?_insert_of_ne _ _ hn).trans h)

/-- What is found in the slot of a method: its own function if it is one of `ms`, else what was
    found before. -/
theorem symbol_assignSlots (ms : List String) (m : String) :
    ((assignSlots cls slots ms).get? m).map (·.symbol) =
      if m ∈ ms then some (methodSymbol cls m) else (slots.get? m).map (·.symbol) := by
  induction ms generalizing slots with
  | nil => simp [assignSlots]
  | cons n ms ih =>
    rw [assignSlots_cons, ih, Dict.get?_insert]
    by_cases hm : m ∈ ms
    · simp [hm]
    · by_cases hn : m = n
      · subst hn
        simp
      · simp [hm, hn]

end Layout

/-! ### Slots by number -/

/-- Slots without gaps have all the numbers up to their number. -/
theorem Dense.map_index_sortByRank {slots : Dict Slot} (h : Dense slots) :
    (sortByRank Slot.index slots.values).map (·.index) = List.range slots.size := by
  have hperm :
      ((sortByRank Slot.index slots.values).map (·.index)).Perm (slots.values.map (·.index)) :=
    (sortByRank_perm _ _).map _
  have hnodup : (slots.values.map (·.index)).Nodup := by
    rw [Dict.values, List.map_map, List.nodup_iff_pairwise_ne, List.pairwise_map]
    refine slots.sorted.imp_of_mem fun {x y} hx hy hlt heq => ?_
    have hname := h.inj (Dict.get?_eq_some_iff.2 hx) (Dict.get?_eq_some_iff.2 hy) heq
    exact String.lt_irrefl _ (hname ▸ hlt)
  have hsubset : slots.values.map (·.index) ⊆ List.range slots.size := by
    intro i hi
    obtain ⟨s, hs, rfl⟩ := List.mem_map.1 hi
    obtain ⟨m, hm⟩ := Dict.mem_values_iff.1 hs
    exact List.mem_range.2 (h.lt hm)
  have hlength : (List.range slots.size).length ≤ (slots.values.map (·.index)).length := by
    simp [Dict.values, Dict.size]
  -- as many different indices as there are numbers below the size: all of them
  have hall := (List.subperm_of_subset hnodup hsubset).perm_of_length_le hlength
  refine (hperm.trans hall).eq_of_pairwise (fun _ _ _ _ => Nat.le_antisymm) ?_ ?_
  · exact List.pairwise_map.2 (pairwise_sortByRank _ _)
  · exact List.pairwise_le_range

/-- **Slots by number.** In the order of the numbers, each slot stands in the place of its
    number. -/
theorem Dense.getElem?_sortByRank {slots : Dict Slot} (h : Dense slots) {m : String} {s : Slot}
    (hs : slots.get? m = some s) : (sortByRank Slot.index slots.values)[s.index]? = some s := by
  have hmem : s ∈ sortByRank Slot.index slots.values :=
    (sortByRank_perm _ _).mem_iff.2 (Dict.mem_values_of_get? hs)
  obtain ⟨i, hi, hget⟩ := List.getElem_of_mem hmem
  have hindex : s.index = i := by
    have hrange := congrArg (·[i]?) h.map_index_sortByRank
    simp only [List.getElem?_map, List.getElem?_eq_getElem hi, hget, Option.map_some] at hrange
    obtain ⟨_, heq⟩ := List.getElem?_eq_some_iff.1 hrange.symm
    simpa using heq.symm
  rw [hindex, List.getElem?_eq_getElem hi, hget]

/-- Every number belongs to a slot. -/
theorem Dense.exists_of_lt {slots : Dict Slot} (h : Dense slots) {i : Nat} (hi : i < slots.size) :
    ∃ m s, slots.get? m = some s ∧ s.index = i := by
  have hmem : i ∈ (sortByRank Slot.index slots.values).map (·.index) := by
    rw [h.map_index_sortByRank]
    exact List.mem_range.2 hi
  obtain ⟨s, hs, hindex⟩ := List.mem_map.1 hmem
  obtain ⟨m, hm⟩ := Dict.mem_values_iff.1 ((sortByRank_perm _ _).mem_iff.1 hs)
  exact ⟨m, s, hm, hindex⟩

/-! ### The nearest method -/

/-- The methods that get slots are those that the class declares. -/
theorem ClassDecl.mem_keys_methods_iff (c : ClassDecl) {m : String} :
    m ∈ c.methods.keys ↔ (c.method? m).isSome := by
  rw [Dict.mem_keys_iff, ClassDecl.method?, Option.isSome_iff_exists]

namespace Program

variable {p : Program} {name : String} {c : ClassDecl}

/-- Whether a class or interface declares the method itself. -/
def declares (p : Program) (method cls : String) : Bool :=
  ((p.class? cls).bind (·.method? method)).isSome

/-- The nearest class on the chain of a class that declares the method. -/
def declarer? (p : Program) (cls method : String) : Option String :=
  (p.chain cls).find? (p.declares method)

/-- A class without a parent has the methods that it declares. -/
theorem Lawful.declarer?_of_parent_eq_none (hp : p.Lawful) (hc : p.class? name = some c)
    (hparent : c.parent = none) (m : String) :
    p.declarer? name m = if (c.method? m).isSome then some name else none := by
  simp only [declarer?, hp.chain_of_parent_eq_none hc hparent, List.find?_singleton, declares, hc,
    Option.bind_some]

/-- A class has the methods that it declares, and else those of its parent. -/
theorem Valid.declarer?_of_parent (hp : p.Valid) (hc : p.class? name = some c) {a : String}
    (hparent : c.parent = some a) (m : String) :
    p.declarer? name m = if (c.method? m).isSome then some name else p.declarer? a m := by
  rw [declarer?, hp.chain_of_parent hc hparent, List.find?_cons]
  cases hm : c.method? m with
  | none => simp [declares, hc, hm, declarer?]
  | some d => simp [declares, hc, hm]

/-- **The nearest method.** A method is looked up in the nearest class that declares it. -/
theorem Valid.method?_of_declarer? (hp : p.Valid) (hc : p.class? name = some c) {m d : String}
    (hd : p.declarer? name m = some d) :
    ∃ e method, p.class? d = some e ∧ e.method? m = some method ∧
      p.method? name m = some method := by
  -- both searches go through the same names, and stop at the same one
  have hline : ∀ names : List String, (∀ a ∈ names, ∃ e, p.class? a = some e) →
      names.find? (p.declares m) = some d →
      ∃ e method, p.class? d = some e ∧ e.method? m = some method ∧
        (p.declared names).findSome? (·.method? m) = some method := by
    intro names hall hfind
    induction names with
    | nil => cases hfind
    | cons a names ih =>
      obtain ⟨e, he⟩ := hall a List.mem_cons_self
      rw [declared, he]
      cases hm : e.method? m with
      | some method =>
        simp only [List.find?_cons, declares, he, Option.bind_some, hm, Option.isSome_some] at hfind
        obtain rfl := Option.some.inj hfind
        exact ⟨e, method, he, hm, by simp [hm]⟩
      | none =>
        simp only [List.find?_cons, declares, he, Option.bind_some, hm, Option.isSome_none] at hfind
        obtain ⟨e', method, he', hm', hsome⟩ :=
          ih (fun b hb => hall b (List.mem_cons_of_mem a hb)) hfind
        exact ⟨e', method, he', hm', by simp [hm, hsome]⟩
  have hall : ∀ a ∈ p.chain name, ∃ e, p.class? a = some e :=
    fun a ha => hp.class_of_mem_chain hc ha
  obtain ⟨e, method, he, hm, hsome⟩ := hline _ hall hd
  refine ⟨e, method, he, hm, ?_⟩
  rw [method?, hsome, Option.some_or]

/-! ### The slots of layouts -/

/-- **Slots and nearest methods.** The slots of a class have no gaps.  There is one for each method
    that a class of its chain declares, and what is found there is the function of the nearest of
    them. -/
theorem Valid.slots_eq (hp : p.Valid) {layouts : Dict Layout} (hlayouts : p.Completed layouts)
    {l : Layout} (hl : layouts.get? name = some l) :
    Dense l.slots ∧ ∀ m, (l.slots.get? m).map (·.symbol) =
      (p.declarer? name m).map (methodSymbol · m) := by
  obtain ⟨c, hc, _⟩ := hlayouts.class_of_get? hl
  revert l
  -- induction along the parents, whose slots a class takes over
  refine hp.induction
    (P := fun n => ∀ {l}, layouts.get? n = some l → Dense l.slots ∧
      ∀ m, (l.slots.get? m).map (·.symbol) = (p.declarer? n m).map (methodSymbol · m)) ?_ ?_ hc
  · intro n c hc hparent l hl
    obtain ⟨attributes, _, rfl⟩ := Layout.complete_ok (hlayouts.of_get? hl hc)
    simp only [hparent, Option.bind_none, Option.map_none, Option.getD_none]
    refine ⟨Layout.dense_assignSlots dense_empty _, fun m => ?_⟩
    rw [Layout.symbol_assignSlots, hp.lawful.declarer?_of_parent_eq_none hc hparent]
    by_cases hm : (c.method? m).isSome
    · simp [c.mem_keys_methods_iff, hm, blank]
    · simp [c.mem_keys_methods_iff, hm]
  · intro n c a d hc hparent hd hclass ih l hl
    obtain ⟨attributes, _, rfl⟩ := Layout.complete_ok (hlayouts.of_get? hl hc)
    obtain ⟨k, hk, _⟩ := hlayouts.complete hd hclass
    obtain ⟨hdense, hsymbols⟩ := ih hk
    simp only [hparent, Option.bind_some, hk, Option.map_some, Option.getD_some]
    refine ⟨Layout.dense_assignSlots hdense _, fun m => ?_⟩
    rw [Layout.symbol_assignSlots, hp.declarer?_of_parent hc hparent, hsymbols]
    -- a method of the class itself replaces the symbol; any other is that of the parent
    by_cases hm : (c.method? m).isSome
    · simp [c.mem_keys_methods_iff, hm, blank]
    · simp [c.mem_keys_methods_iff, hm]

/-- In the slot of a method is the function of the nearest class that declares it, which is no
    interface. -/
theorem Valid.method_of_slot (hp : p.Valid) {layouts : Dict Layout} (hlayouts : p.Completed layouts)
    {l : Layout} (hl : layouts.get? name = some l) {m : String} {s : Slot}
    (hs : l.slots.get? m = some s) :
    ∃ d e method, p.declarer? name m = some d ∧ p.class? d = some e ∧ e.isInterface = false ∧
      e.method? m = some method ∧ p.method? name m = some method ∧ s.symbol = methodSymbol d m := by
  obtain ⟨c, hc, hclass⟩ := hlayouts.class_of_get? hl
  have hsymbol := (hp.slots_eq hlayouts hl).2 m
  rw [hs, Option.map_some] at hsymbol
  obtain ⟨d, hd, hname⟩ := Option.map_eq_some_iff.1 hsymbol.symm
  obtain ⟨e, method, he, hmethod, hlookup⟩ := hp.method?_of_declarer? hc hd
  obtain ⟨e', he', hclass'⟩ := hp.isClass_of_mem_chain hc hclass (List.mem_of_find?_eq_some hd)
  obtain rfl := Option.some.inj (he.symm.trans he')
  exact ⟨d, e, method, hd, he, hclass', hmethod, hlookup, hname.symm⟩

/-- **Slots are kept.** A method of a class above has the same slot. -/
theorem Valid.index_slots (hp : p.Valid) {layouts : Dict Layout} (hlayouts : p.Completed layouts)
    {l k : Layout} {a m : String} {s : Slot} (hl : layouts.get? name = some l)
    (hk : layouts.get? a = some k) (ha : a ∈ p.chain name) (hs : k.slots.get? m = some s) :
    ∃ t, l.slots.get? m = some t ∧ t.index = s.index := by
  obtain ⟨c, hc, _⟩ := hlayouts.class_of_get? hl
  revert l ha
  -- induction from the class upwards until the class above is reached
  refine hp.induction
    (P := fun n => ∀ {l}, layouts.get? n = some l → a ∈ p.chain n →
      ∃ t, l.slots.get? m = some t ∧ t.index = s.index)
    ?_ ?_ hc
  · intro n c hc hparent l hl ha
    rw [hp.lawful.chain_of_parent_eq_none hc hparent] at ha
    obtain rfl := List.mem_singleton.1 ha
    obtain rfl := Option.some.inj (hl.symm.trans hk)
    exact ⟨s, hs, rfl⟩
  · intro n c b d hc hparent hd hclass ih l hl ha
    rw [hp.chain_of_parent hc hparent] at ha
    rcases List.mem_cons.1 ha with rfl | ha
    · obtain rfl := Option.some.inj (hl.symm.trans hk)
      exact ⟨s, hs, rfl⟩
    · obtain ⟨e, he, _⟩ := hlayouts.complete hd hclass
      obtain ⟨t, ht, hindex⟩ := ih he ha
      obtain ⟨attributes, _, rfl⟩ := Layout.complete_ok (hlayouts.of_get? hl hc)
      simp only [hparent, Option.bind_some, he, Option.map_some, Option.getD_some]
      -- a slot that is taken over keeps its number, also if the method is overridden
      obtain ⟨u, hu, hindex'⟩ := Layout.index_assignSlots ht c.methods.keys
      exact ⟨u, hu, hindex'.trans hindex⟩

end Program

end Decaf
