import Decaf.Layout
import Decaf.Proofs.Program.Validity

namespace Decaf

/-!
# Every layout is built on that of the parent

Layouts are completed one after the other, and each is stored in the place of its blank.  As parents
are less deep than their children, a layout is complete before the first one that builds on it, and
it is never touched again.  So in the end the layout of a class is the completion of its blank by
the layout of its parent, both as they are in the end.

* `Layout.complete_ok` — what a completed layout is made of.
* `Program.completeLayouts_induction` — what completing keeps holds of all layouts, also if there is
  an error.
* `Program.get?_completeLayouts_of_not_mem` — a layout is touched only in its own turn.
* `Program.exists_layout` — every class has a layout, whatever the order.
* `Program.Completed` — layouts that are what the layouts of the parents make of them.
* `Program.Valid.completed_layouts` — the layouts of a valid program are.
* `Program.Valid.exists_parent_before` — parents come before children.
-/

/-! ### A single layout -/

namespace Layout

variable {l m : Layout} {parent : Option Layout} {c : ClassDecl}

/-- What is completed keeps its name. -/
theorem name_of_complete {e : Option AttributeRedefined} (h : l.complete parent c = (m, e)) :
    m.name = l.name := by
  unfold complete at h
  dsimp only at h
  split at h <;> rw [← (Prod.mk.inj h).1]

/-- What a completed layout is made of. -/
theorem complete_ok (h : l.complete parent c = (m, none)) :
    ∃ attributes, appendFields ((parent.map (·.attributes)).getD []) c.fields = (attributes, none) ∧
      m = { l with
        attributes
        size := attributes.length + 1
        slots := assignSlots l.name ((parent.map (·.slots)).getD .empty) c.methods.keys } := by
  unfold complete at h
  dsimp only at h
  rcases hfields : appendFields ((parent.map (·.attributes)).getD []) c.fields with
    ⟨attributes, _ | f⟩
  · rw [hfields] at h
    exact ⟨attributes, hfields, (Prod.mk.inj h).1.symm⟩
  · rw [hfields] at h
    cases (Prod.mk.inj h).2

/-- Fields that can be appended are there afterwards, with their types, as well as what was there
    before. -/
theorem mem_appendFields {attributes final : List Attribute} {fs : List Symbol}
    (h : appendFields attributes fs = (final, none)) :
    (∀ a ∈ attributes, a ∈ final) ∧ ∀ f ∈ fs, ∃ a ∈ final, a.type = f.type := by
  induction fs generalizing attributes with
  | nil =>
    obtain rfl := (Prod.mk.inj h).1
    simp
  | cons f fs ih =>
    rw [appendFields] at h
    split at h
    · cases (Prod.mk.inj h).2
    · obtain ⟨hold, hnew⟩ := ih h
      refine ⟨fun a ha => hold a (List.mem_append_left _ ha), fun k hk => ?_⟩
      rcases List.mem_cons.1 hk with rfl | hk
      · exact ⟨_, hold _ (List.mem_append_right _ (List.mem_singleton_self _)), rfl⟩
      · exact hnew k hk

end Layout

/-- Layouts that are stored under their names come up once each in their order. -/
theorem nodup_layoutOrder {layouts : Dict Layout}
    (h : ∀ n l, layouts.get? n = some l → l.name = n) :
    ((layoutOrder layouts).map (·.name)).Nodup := by
  rw [layoutOrder, ((sortByRank_perm _ _).map _).nodup_iff, Dict.map_values_eq_keys h]
  exact Dict.nodup_keys _

namespace Program

variable {p : Program} {name : String} {c : ClassDecl}

/-! ### One layout after the other -/

/-- **Run.** What holds of the layouts that there are, and is kept by completing one, holds of the
    layouts in the end, also if there is an error. -/
theorem completeLayouts_induction {Q : String → Layout → Prop} {ls : List Layout}
    {layouts : Dict Layout} (h : ∀ n k, layouts.get? n = some k → Q n k)
    (hstep : ∀ l ∈ ls, ∀ c parent m e, p.class? l.name = some c →
      (∀ k ∈ parent, Q (l.parent.getD "") k) → l.complete parent c = (m, e) → Q m.name m) :
    ∀ n k, (p.completeLayouts ls layouts).1.get? n = some k → Q n k := by
  induction ls generalizing layouts with
  | nil => exact h
  | cons l ls ih =>
    rw [completeLayouts]
    cases hc : p.class? l.name with
    | none => exact ih h fun k hk => hstep k (List.mem_cons_of_mem l hk)
    | some c =>
      dsimp only
      rcases hm : l.complete (layouts.get? (l.parent.getD "")) c with ⟨m, e⟩
      -- the parent is looked up in what has been completed so far, where the property holds
      have hinsert : ∀ n k, (layouts.insert m.name m).get? n = some k → Q n k := by
        intro n k hk
        rcases Dict.eq_or_get?_of_get?_insert hk with ⟨rfl, rfl⟩ | ⟨_, hk⟩
        · exact hstep l List.mem_cons_self c _ _ e hc (fun k hk => h _ k hk) hm
        · exact h n k hk
      cases e with
      | none => exact ih hinsert fun k hk => hstep k (List.mem_cons_of_mem l hk)
      | some e => exact hinsert

/-- A layout is touched only in its own turn. -/
theorem get?_completeLayouts_of_not_mem {ls : List Layout} {layouts final : Dict Layout}
    (h : p.completeLayouts ls layouts = (final, none)) (hname : name ∉ ls.map (·.name)) :
    final.get? name = layouts.get? name := by
  induction ls generalizing layouts with
  | nil => rw [← (Prod.mk.inj h).1]
  | cons l ls ih =>
    simp only [List.map_cons, List.mem_cons, not_or] at hname
    rw [completeLayouts] at h
    cases hc : p.class? l.name with
    | none =>
      rw [hc] at h
      exact ih h hname.2
    | some c =>
      rw [hc] at h
      dsimp only at h
      rcases hm : l.complete (layouts.get? (l.parent.getD "")) c with ⟨m, _ | e⟩
      · rw [hm] at h
        have hmname : m.name = l.name := Layout.name_of_complete hm
        rw [ih h hname.2, Dict.get?_insert_of_ne _ _ (hmname ▸ hname.1)]
      · rw [hm] at h
        cases (Prod.mk.inj h).2

/-- **In its own turn.** A layout is completed by what there is when its turn comes, and what comes
    after it touches only its own. -/
theorem exists_complete_of_mem {ls : List Layout} {layouts final : Dict Layout}
    (h : p.completeLayouts ls layouts = (final, none)) (hnodup : (ls.map (·.name)).Nodup)
    {l : Layout} (hl : l ∈ ls) (hc : p.class? l.name = some c) :
    ∃ (pre post : List Layout) (before : Dict Layout) (m : Layout), ls = pre ++ l :: post ∧
      l.complete (before.get? (l.parent.getD "")) c = (m, none) ∧ final.get? l.name = some m ∧
      ∀ n, n ≠ l.name → n ∉ post.map (·.name) → final.get? n = before.get? n := by
  induction ls generalizing layouts with
  | nil => cases hl
  | cons k ls ih =>
    rw [List.map_cons, List.nodup_cons] at hnodup
    rw [completeLayouts] at h
    rcases List.mem_cons.1 hl with rfl | hl
    · rw [hc] at h
      dsimp only at h
      rcases hm : l.complete (layouts.get? (l.parent.getD "")) c with ⟨m, _ | e⟩
      · rw [hm] at h
        have hmname : m.name = l.name := Layout.name_of_complete hm
        refine ⟨[], ls, layouts, m, rfl, hm, ?_, fun n hne hn => ?_⟩
        · rw [get?_completeLayouts_of_not_mem h hnodup.1, hmname, Dict.get?_insert_self]
        · rw [get?_completeLayouts_of_not_mem h hn, Dict.get?_insert_of_ne _ _ (hmname ▸ hne)]
      · rw [hm] at h
        cases (Prod.mk.inj h).2
    · -- the turn of another layout, with or without a class, leads to the turns of the rest
      obtain ⟨layouts', h'⟩ : ∃ layouts', p.completeLayouts ls layouts' = (final, none) := by
        cases hk : p.class? k.name with
        | none =>
          rw [hk] at h
          exact ⟨layouts, h⟩
        | some d =>
          rw [hk] at h
          dsimp only at h
          rcases hm : k.complete (layouts.get? (k.parent.getD "")) d with ⟨m, _ | e⟩
          · rw [hm] at h
            exact ⟨_, h⟩
          · rw [hm] at h
            cases (Prod.mk.inj h).2
      obtain ⟨pre, post, before, m, rfl, hrest⟩ := ih h' hnodup.2 hl
      exact ⟨k :: pre, post, before, m, rfl, hrest⟩

/-- **One after the other.** Let no layout come before the one that it builds on.  Then every layout
    is in the end what the layout that it builds on, as that is in the end, makes of it. -/
theorem get?_completeLayouts_of_mem {ls : List Layout} {layouts final : Dict Layout}
    (h : p.completeLayouts ls layouts = (final, none)) (hnodup : (ls.map (·.name)).Nodup)
    (horder : ls.Pairwise fun l m => l.parent.getD "" ≠ m.name)
    (hself : ∀ l ∈ ls, l.parent.getD "" ≠ l.name) {l : Layout} (hl : l ∈ ls)
    (hc : p.class? l.name = some c) :
    ∃ m, final.get? l.name = some m ∧ l.complete (final.get? (l.parent.getD "")) c = (m, none) := by
  obtain ⟨pre, post, before, m, rfl, hm, hget, hbefore⟩ := exists_complete_of_mem h hnodup hl hc
  -- what the layout builds on has had its turn, or has none
  have hparent : l.parent.getD "" ∉ post.map (·.name) := by
    intro hmem
    obtain ⟨k, hk, heq⟩ := List.mem_map.1 hmem
    exact List.rel_of_pairwise_cons (List.pairwise_append.1 horder).2.1 hk heq.symm
  refine ⟨m, hget, ?_⟩
  rw [hbefore _ (hself l hl) hparent, hm]

/-! ### All layouts -/

/-- The layout of a class before it is completed. -/
def blank (p : Program) (name : String) (c : ClassDecl) : Layout :=
  { name, parent := c.parent, depth := p.hierarchy.depth name }

/-- The blanks are those of the classes that are no interfaces. -/
theorem get?_blankLayouts_eq_some_iff {l : Layout} :
    p.blankLayouts.get? name = some l ↔
      ∃ c, p.class? name = some c ∧ c.isInterface = false ∧ l = p.blank name c := by
  rw [blankLayouts, Dict.get?_map, Dict.get?_filter, Option.map_eq_some_iff]
  constructor
  · rintro ⟨c, hc, rfl⟩
    obtain ⟨hget, hclass⟩ := Option.filter_eq_some_iff.1 hc
    exact ⟨c, hget, by simpa using hclass, rfl⟩
  · rintro ⟨c, hc, hclass, rfl⟩
    exact ⟨c, Option.filter_eq_some_iff.2 ⟨hc, by simpa using hclass⟩, rfl⟩

/-- A blank that is in the order of layouts is that of its class. -/
theorem mem_layoutOrder_blankLayouts_iff {l : Layout} :
    l ∈ layoutOrder p.blankLayouts ↔
      ∃ c, p.class? l.name = some c ∧ c.isInterface = false ∧ l = p.blank l.name c := by
  rw [layoutOrder, (sortByRank_perm _ _).mem_iff, Dict.mem_values_iff]
  constructor
  · rintro ⟨n, hn⟩
    obtain ⟨c, hc, hclass, rfl⟩ := get?_blankLayouts_eq_some_iff.1 hn
    exact ⟨c, hc, hclass, rfl⟩
  · intro h
    exact ⟨l.name, get?_blankLayouts_eq_some_iff.2 h⟩

/-- No class has two blanks in the order of layouts. -/
theorem nodup_layoutOrder_blankLayouts : ((layoutOrder p.blankLayouts).map (·.name)).Nodup := by
  refine nodup_layoutOrder fun n l hl => ?_
  obtain ⟨c, _, _, rfl⟩ := get?_blankLayouts_eq_some_iff.1 hl
  rfl

/-- Every class has a layout, in which its own fields are among the attributes. -/
theorem exists_layout (h : p.layouts.2 = none) (hc : p.class? name = some c)
    (hclass : c.isInterface = false) :
    ∃ l ∈ layoutOrder p.layouts.1, l.name = name ∧
      ∀ f ∈ c.fields, ∃ a ∈ l.attributes, a.type = f.type := by
  have hblank : p.blank name c ∈ layoutOrder p.blankLayouts :=
    mem_layoutOrder_blankLayouts_iff.2 ⟨c, hc, hclass, rfl⟩
  obtain ⟨_, _, _, l, _, hl, hget, _⟩ :=
    exists_complete_of_mem (Prod.ext rfl h) nodup_layoutOrder_blankLayouts hblank hc
  have hmem : l ∈ layoutOrder p.layouts.1 := by
    rw [layoutOrder, (sortByRank_perm _ _).mem_iff, Dict.mem_values_iff]
    exact ⟨name, hget⟩
  obtain ⟨attributes, hfields, hl'⟩ := Layout.complete_ok hl
  refine ⟨l, hmem, Layout.name_of_complete hl, ?_⟩
  rw [hl']
  exact (Layout.mem_appendFields hfields).2

/-- Layouts that are what the layouts of the parents make of the blanks. -/
structure Completed (p : Program) (layouts : Dict Layout) : Prop where
  /-- Only classes have layouts. -/
  class_of_get? : ∀ {name : String} {l : Layout}, layouts.get? name = some l →
    ∃ c, p.class? name = some c ∧ c.isInterface = false
  complete : ∀ {name : String} {c : ClassDecl}, p.class? name = some c → c.isInterface = false →
    ∃ l, layouts.get? name = some l ∧
      (p.blank name c).complete (c.parent.bind layouts.get?) c = (l, none)

/-- The layout of a class, in terms of that of its parent. -/
theorem Completed.of_get? {layouts : Dict Layout} (hlayouts : p.Completed layouts) {l : Layout}
    (hl : layouts.get? name = some l) (hc : p.class? name = some c) :
    (p.blank name c).complete (c.parent.bind layouts.get?) c = (l, none) := by
  obtain ⟨d, hd, hclass⟩ := hlayouts.class_of_get? hl
  obtain rfl : d = c := Option.some.inj (hd.symm.trans hc)
  obtain ⟨m, hm, hcomplete⟩ := hlayouts.complete hc hclass
  rw [hl, Option.some.injEq] at hm
  rw [hm, hcomplete]

/-- The layouts are stored under the names of their classes. -/
theorem Completed.name_eq {layouts : Dict Layout} (hlayouts : p.Completed layouts) {l : Layout}
    (hl : layouts.get? name = some l) : l.name = name := by
  obtain ⟨c, hc, _⟩ := hlayouts.class_of_get? hl
  exact Layout.name_of_complete (hlayouts.of_get? hl hc)

/-- A layout has the parent and the depth of its class. -/
theorem Completed.parent_eq {layouts : Dict Layout} (hlayouts : p.Completed layouts) {l : Layout}
    (hl : layouts.get? name = some l) (hc : p.class? name = some c) :
    l.parent = c.parent ∧ l.depth = p.hierarchy.depth name := by
  obtain ⟨attributes, _, rfl⟩ := Layout.complete_ok (hlayouts.of_get? hl hc)
  exact ⟨rfl, rfl⟩

/-- The layouts in their order are the layouts. -/
theorem Completed.mem_layoutOrder_iff {layouts : Dict Layout} (hlayouts : p.Completed layouts)
    {l : Layout} : l ∈ layoutOrder layouts ↔ layouts.get? l.name = some l := by
  rw [layoutOrder, (sortByRank_perm _ _).mem_iff, Dict.mem_values_iff]
  constructor
  · rintro ⟨n, hn⟩
    rw [hlayouts.name_eq hn, hn]
  · intro hl
    exact ⟨l.name, hl⟩

/-- The layouts in their order are those of classes. -/
theorem Completed.class_of_mem_layoutOrder {layouts : Dict Layout} (hlayouts : p.Completed layouts)
    {l : Layout} (hl : l ∈ layoutOrder layouts) :
    ∃ c, p.class? l.name = some c ∧ c.isInterface = false :=
  hlayouts.class_of_get? (hlayouts.mem_layoutOrder_iff.1 hl)

namespace Valid

/-- A blank builds on no blank that is as deep as itself, for a parent is less deep than its
    children. -/
theorem parent_ne_of_depth_le (hp : p.Valid) (hempty : p.class? "" = none) {l m : Layout}
    (hl : l ∈ layoutOrder p.blankLayouts) (hm : m ∈ layoutOrder p.blankLayouts)
    (hdepth : l.depth ≤ m.depth) : l.parent.getD "" ≠ m.name := by
  obtain ⟨c, hc, _, hl⟩ := mem_layoutOrder_blankLayouts_iff.1 hl
  obtain ⟨d, hd, _, hm⟩ := mem_layoutOrder_blankLayouts_iff.1 hm
  intro heq
  rw [hl, hm] at hdepth
  rw [hl] at heq
  cases hparent : c.parent with
  -- the parent that is missing is looked up as the empty name, which is no class
  | none =>
    simp only [blank, hparent, Option.getD_none] at heq
    simp [← heq, hempty] at hd
  | some a =>
    simp only [blank, hparent, Option.getD_some] at heq hdepth
    have hstep := hp.depth_of_parent hc hparent
    rw [← heq] at hdepth
    omega

/-- **Every layout is built on that of the parent.** Where no class has the empty name, the layouts
    of a valid program are what the layouts of the parents make of them. -/
theorem completed_layouts (hp : p.Valid) (hempty : p.class? "" = none) {layouts : Dict Layout}
    (h : p.layouts = (layouts, none)) : p.Completed layouts := by
  -- a name without a blank layout gets none
  have hnone : ∀ {n}, p.blankLayouts.get? n = none → layouts.get? n = none := by
    intro n hn
    have hnot : n ∉ (layoutOrder p.blankLayouts).map (·.name) := by
      intro hmem
      obtain ⟨l, hl, rfl⟩ := List.mem_map.1 hmem
      have hsome := get?_blankLayouts_eq_some_iff.2 (mem_layoutOrder_blankLayouts_iff.1 hl)
      simp [hn] at hsome
    rw [get?_completeLayouts_of_not_mem h hnot, hn]
  constructor
  · intro n l hl
    cases hblank : p.blankLayouts.get? n with
    | none => simp [hnone hblank] at hl
    | some b =>
      obtain ⟨c, hc, hclass, _⟩ := get?_blankLayouts_eq_some_iff.1 hblank
      exact ⟨c, hc, hclass⟩
  · intro n c hc hclass
    have hmem : p.blank n c ∈ layoutOrder p.blankLayouts :=
      mem_layoutOrder_blankLayouts_iff.2 ⟨c, hc, hclass, rfl⟩
    -- a parent is less deep than its children, so no layout is completed before that of its parent
    have horder :=
      (pairwise_sortByRank Layout.depth p.blankLayouts.values).imp_of_mem fun hl hm hdepth =>
        hp.parent_ne_of_depth_le hempty hl hm hdepth
    have hself : ∀ l ∈ layoutOrder p.blankLayouts, l.parent.getD "" ≠ l.name := fun l hl =>
      hp.parent_ne_of_depth_le hempty hl hl (Nat.le_refl _)
    obtain ⟨l, hl, hcomplete⟩ :=
      get?_completeLayouts_of_mem h nodup_layoutOrder_blankLayouts horder hself hmem hc
    refine ⟨l, hl, ?_⟩
    cases hparent : c.parent with
    | none =>
      -- a missing parent is looked up under the empty name, which no class has
      have hblank : p.blankLayouts.get? "" = none := by
        cases hget : p.blankLayouts.get? "" with
        | none => rfl
        | some b =>
          obtain ⟨d, hd, _⟩ := get?_blankLayouts_eq_some_iff.1 hget
          simp [hempty] at hd
      simp only [blank, hparent, Option.getD_none, hnone hblank] at hcomplete
      simpa [blank, hparent] using hcomplete
    | some a =>
      simp only [blank, hparent, Option.getD_some] at hcomplete
      simpa [blank, hparent] using hcomplete

/-- **Parents first.** In the order of layouts, that of the parent comes before that of the
    class. -/
theorem exists_parent_before (hp : p.Valid) {layouts : Dict Layout} (hlayouts : p.Completed layouts)
    {pre post : List Layout} {l : Layout} (horder : layoutOrder layouts = pre ++ l :: post)
    {a : String} (ha : l.parent = some a) : ∃ k ∈ pre, k.name = a := by
  have hl := hlayouts.mem_layoutOrder_iff.1 (show l ∈ layoutOrder layouts by simp [horder])
  obtain ⟨c, hc, _⟩ := hlayouts.class_of_get? hl
  obtain ⟨hparent, hdepth⟩ := hlayouts.parent_eq hl hc
  have hstep := hp.depth_of_parent hc (hparent ▸ ha)
  obtain ⟨d, hd, hclass⟩ := hp.class_of_parent hc (hparent ▸ ha)
  obtain ⟨k, hk, _⟩ := hlayouts.complete hd hclass
  have hdepth' := (hlayouts.parent_eq hk hd).2
  have hname : k.name = a := hlayouts.name_eq hk
  have hmem : k ∈ pre ++ l :: post := horder ▸ hlayouts.mem_layoutOrder_iff.2 (hname ▸ hk)
  refine ⟨k, ?_, hname⟩
  -- the parent is less deep than the class, and what comes later is not
  rcases List.mem_append.1 hmem with hmem | hmem
  · exact hmem
  · have hsorted : (pre ++ l :: post).Pairwise (·.depth ≤ ·.depth) :=
      horder ▸ pairwise_sortByRank _ _
    rcases List.mem_cons.1 hmem with rfl | hmem
    · omega
    · have hle := List.rel_of_pairwise_cons (List.pairwise_append.1 hsorted).2.1 hmem
      omega

end Valid

end Program

end Decaf
