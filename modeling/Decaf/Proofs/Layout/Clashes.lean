import Decaf.Proofs.Layout.Fields

namespace Decaf

/-!
# Fields that are declared again

No class declares two fields of one name, and none declares a field that is inherited when it is
declared.  But an ancestor may be declared later than its descendants, and get a field that one of
them has already.  Layouts are where this comes to light, and it is the only thing that can be wrong
with them.

* `Program.Redeclares` — a class declares a field that a class above it declares too.
* `Program.Sourced` — the attributes of a layout are fields of classes on the chain.
* `Program.Valid.redeclares_of_layouts` — what the layouts report is declared again.
* `Program.Valid.layouts_eq_none_iff` — they report nothing exactly if nothing is.
-/

namespace Layout

variable {l m : Layout} {parent : Option Layout} {c : ClassDecl}

/-- What is there after fields are appended was there before or is one of them, also if one of the
    names is taken. -/
theorem of_mem_appendFields {attributes : List Attribute} {fs : List Symbol} {a : Attribute}
    (ha : a ∈ (appendFields attributes fs).1) :
    a ∈ attributes ∨ ∃ f ∈ fs, f.name = a.name ∧ f.type = a.type := by
  induction fs generalizing attributes with
  | nil => exact .inl ha
  | cons f fs ih =>
    rw [appendFields] at ha
    split at ha
    · exact .inl ha
    · rcases ih ha with ha | ⟨k, hk, hname, htype⟩
      · rcases List.mem_append.1 ha with ha | ha
        · exact .inl ha
        · obtain rfl := List.mem_singleton.1 ha
          exact .inr ⟨f, List.mem_cons_self, rfl, rfl⟩
      · exact .inr ⟨k, List.mem_cons_of_mem f hk, hname, htype⟩

/-- Of fields with names of their own, only one whose name was taken before cannot be appended. -/
theorem appendFields_error {attributes final : List Attribute} {fs : List Symbol} {name : String}
    (hnodup : (fs.map (·.name)).Nodup) (h : appendFields attributes fs = (final, some name)) :
    name ∈ fs.map (·.name) ∧ ∃ a ∈ attributes, a.name = name := by
  induction fs generalizing attributes with
  | nil => cases (Prod.mk.inj h).2
  | cons f fs ih =>
    rw [List.map_cons, List.nodup_cons] at hnodup
    rw [appendFields] at h
    split at h
    · rename_i htaken
      obtain rfl := Option.some.inj (Prod.mk.inj h).2
      exact ⟨List.mem_cons_self, by simpa using htaken⟩
    · obtain ⟨hname, a, ha, heq⟩ := ih hnodup.2 h
      refine ⟨List.mem_cons_of_mem _ hname, a, ?_, heq⟩
      rcases List.mem_append.1 ha with ha | ha
      · exact ha
      · -- the field in front has a name of its own
        obtain rfl := List.mem_singleton.1 ha
        have hfront : f.name = name := heq
        exact absurd (hfront ▸ hname) hnodup.1

/-- The attributes of a completed layout are those of the parent and the fields of the class. -/
theorem of_mem_complete {e : Option AttributeRedefined} (h : l.complete parent c = (m, e))
    {a : Attribute} (ha : a ∈ m.attributes) :
    (∃ k ∈ parent, a ∈ k.attributes) ∨ ∃ f ∈ c.fields, f.name = a.name ∧ f.type = a.type := by
  have hmem : a ∈ (appendFields ((parent.map (·.attributes)).getD []) c.fields).1 := by
    unfold complete at h
    dsimp only at h
    split at h <;> rename_i heq <;> rw [heq] <;> rw [← (Prod.mk.inj h).1] at ha <;> exact ha
  rcases of_mem_appendFields hmem with hparent | hown
  · cases parent with
    | none => cases hparent
    | some k => exact .inl ⟨k, rfl, hparent⟩
  · exact .inr hown

/-- A layout cannot be completed if the class declares a field of the parent again. -/
theorem complete_error {e : AttributeRedefined} (hnodup : (c.fields.map (·.name)).Nodup)
    (h : l.complete parent c = (m, some e)) :
    e.cls = l.name ∧ e.field ∈ c.fields.map (·.name) ∧
      ∃ k ∈ parent, ∃ a ∈ k.attributes, a.name = e.field := by
  unfold complete at h
  dsimp only at h
  rcases hfields : appendFields ((parent.map (·.attributes)).getD []) c.fields with
    ⟨attributes, _ | f⟩
  · rw [hfields] at h
    cases (Prod.mk.inj h).2
  · rw [hfields] at h
    obtain rfl := Option.some.inj (Prod.mk.inj h).2
    obtain ⟨hown, a, ha, hname⟩ := appendFields_error hnodup hfields
    cases parent with
    | none => cases ha
    | some k => exact ⟨rfl, hown, k, rfl, a, ha, hname⟩

end Layout

namespace Program

variable {p : Program} {name : String} {c : ClassDecl}

/-- A class declares a field that a class above it declares too. -/
def Redeclares (p : Program) (cls field : String) : Prop :=
  field ∈ (p.ownFields cls).map (·.name) ∧
    ∃ a ∈ p.hierarchy.ancestors cls, field ∈ (p.ownFields a).map (·.name)

/-- The layout is that of a class, and its attributes are fields of classes on the chain. -/
def Sourced (p : Program) (cls : String) (l : Layout) : Prop :=
  (p.class? cls).isSome ∧ ∀ a ∈ l.attributes, ∃ b ∈ p.chain cls, ∃ f ∈ p.ownFields b,
    f.name = a.name ∧ f.type = a.type

/-- **Where completing fails.** The layouts before the first that cannot be completed are
    complete. -/
theorem exists_of_completeLayouts_error {ls : List Layout} {layouts final : Dict Layout}
    {e : AttributeRedefined} (h : p.completeLayouts ls layouts = (final, some e)) :
    ∃ pre l post before c m, ls = pre ++ l :: post ∧ (p.completeLayouts pre layouts).1 = before ∧
      p.class? l.name = some c ∧ l.complete (before.get? (l.parent.getD "")) c = (m, some e) := by
  induction ls generalizing layouts with
  | nil => cases (Prod.mk.inj h).2
  | cons k ls ih =>
    rw [completeLayouts] at h
    cases hk : p.class? k.name with
    | none =>
      rw [hk] at h
      obtain ⟨pre, l, post, before, c, m, rfl, hbefore, hrest⟩ := ih h
      refine ⟨k :: pre, l, post, before, c, m, rfl, ?_, hrest⟩
      simpa only [completeLayouts, hk] using hbefore
    | some d =>
      rw [hk] at h
      dsimp only at h
      -- either this layout is the first that fails, or the failure is further on
      rcases hm : k.complete (layouts.get? (k.parent.getD "")) d with ⟨m, _ | e'⟩
      · rw [hm] at h
        obtain ⟨pre, l, post, before, c, m', rfl, hbefore, hrest⟩ := ih h
        refine ⟨k :: pre, l, post, before, c, m', rfl, ?_, hrest⟩
        simpa only [completeLayouts, hk, hm] using hbefore
      · rw [hm] at h
        obtain rfl := Option.some.inj (Prod.mk.inj h).2
        exact ⟨[], k, ls, layouts, d, m, rfl, rfl, hk, hm⟩

namespace Valid

/-- A layout that a class builds on is that of its parent, so its attributes are fields of
    ancestors. -/
theorem mem_ancestors_of_sourced (hp : p.Valid) (hempty : p.class? "" = none)
    (hc : p.class? name = some c) {k : Layout} (hk : p.Sourced (c.parent.getD "") k) {a : Attribute}
    (ha : a ∈ k.attributes) :
    ∃ b ∈ p.hierarchy.ancestors name, ∃ f ∈ p.ownFields b, f.name = a.name ∧ f.type = a.type := by
  obtain ⟨hclass, hattributes⟩ := hk
  cases hparent : c.parent with
  | none => simp [hparent, hempty] at hclass
  | some b =>
    rw [hp.ancestors_of_parent hc hparent]
    simpa [hparent] using hattributes a ha

/-- **Step.** Completing a layout keeps the attributes fields of classes on the chain. -/
theorem sourced_of_complete (hp : p.Valid) (hempty : p.class? "" = none) {l m : Layout}
    {parent : Option Layout} {e : Option AttributeRedefined} (hl : l ∈ layoutOrder p.blankLayouts)
    (hc : p.class? l.name = some c) (hparent : ∀ k ∈ parent, p.Sourced (l.parent.getD "") k)
    (h : l.complete parent c = (m, e)) : p.Sourced m.name m := by
  have hblank : l.parent = c.parent := by
    obtain ⟨d, hd, _, hl⟩ := mem_layoutOrder_blankLayouts_iff.1 hl
    obtain rfl := Option.some.inj (hd.symm.trans hc)
    rw [hl]
    rfl
  rw [Layout.name_of_complete h]
  refine ⟨by simp [hc], fun a ha => ?_⟩
  rcases Layout.of_mem_complete h ha with ⟨k, hk, ha⟩ | ⟨f, hf, hfield⟩
  · obtain ⟨b, hb, hfield⟩ := hp.mem_ancestors_of_sourced hempty hc (hblank ▸ hparent k hk) ha
    exact ⟨b, List.mem_cons_of_mem _ hb, hfield⟩
  · exact ⟨l.name, List.mem_cons_self, f, by simpa [ownFields, hc] using hf, hfield⟩

/-- **Run.** The attributes of all layouts are fields of classes on the chain, however many of them
    are complete. -/
theorem sourced_completeLayouts (hp : p.Valid) (hempty : p.class? "" = none) {ls : List Layout}
    (hls : ∀ l ∈ ls, l ∈ layoutOrder p.blankLayouts) :
    ∀ n k, (p.completeLayouts ls p.blankLayouts).1.get? n = some k → p.Sourced n k := by
  refine completeLayouts_induction (fun n b hb => ?_) fun l hl c parent m e hc hparent hm => ?_
  · obtain ⟨c, hc, _, rfl⟩ := get?_blankLayouts_eq_some_iff.1 hb
    exact ⟨by simp [hc], fun a ha => nomatch ha⟩
  · exact hp.sourced_of_complete hempty (hls l hl) hc hparent hm

/-- What the layouts report is declared again. -/
theorem redeclares_of_layouts (hp : p.Valid) (hempty : p.class? "" = none) {e : AttributeRedefined}
    (h : p.layouts.2 = some e) : p.Redeclares e.cls e.field := by
  obtain ⟨pre, l, post, before, c, m, hsplit, rfl, hc, hm⟩ :=
    exists_of_completeLayouts_error (Prod.ext rfl h)
  obtain ⟨hcls, hown, k, hk, a, ha, hname⟩ :=
    Layout.complete_error (hp.lawful.classes hc).nodup_fields hm
  -- the field that is there already comes from a class above
  have hsourced : p.Sourced (l.parent.getD "") k :=
    hp.sourced_completeLayouts hempty (fun l' hl' => by simp [hsplit, hl']) _ k hk
  obtain ⟨d, hd, _, hl⟩ :=
    mem_layoutOrder_blankLayouts_iff.1 (show l ∈ layoutOrder p.blankLayouts by simp [hsplit])
  have hparent : l.parent = d.parent := by
    rw [hl]
    rfl
  obtain ⟨b, hb, f, hf, hfname, _⟩ := hp.mem_ancestors_of_sourced hempty hd (hparent ▸ hsourced) ha
  rw [hcls]
  refine ⟨by simpa [ownFields, hc] using hown, b, hb, ?_⟩
  rw [← hname, ← hfname]
  exact List.mem_map_of_mem hf

/-- Where all layouts are completed, no field is declared again: all fields of a class have names of
    their own. -/
theorem not_redeclares (hp : p.Valid) (hempty : p.class? "" = none) (h : p.layouts.2 = none)
    (cls field : String) : ¬ p.Redeclares cls field := by
  rintro ⟨hown, a, ha, hinherited⟩
  have hcompleted := hp.completed_layouts hempty (Prod.ext rfl h)
  cases hc : p.class? cls with
  | none => simp [ownFields, hc] at hown
  | some c =>
    -- an interface has no field that could be declared again
    have hclass : c.isInterface = false := by
      by_contra hinterface
      have hbare := ((hp.lawful.classes hc).bare (by simpa using hinterface)).2.2
      simp [ownFields, hc, hbare] at hown
    obtain ⟨l, hl, _⟩ := hcompleted.complete hc hclass
    -- the fields along the chain have different names, or the layout would not be complete
    have hnodup := (hp.attributes_eq hcompleted hl).2.1
    rw [allFields, chain, List.reverse_cons, List.flatMap_append, List.flatMap_singleton,
      List.map_append, List.nodup_append] at hnodup
    obtain ⟨f, hf, rfl⟩ := List.mem_map.1 hinherited
    refine hnodup.2.2 f.name (List.mem_map_of_mem (List.mem_flatMap.2 ⟨a, ?_, hf⟩)) _ hown rfl
    exact List.mem_reverse.2 ha

/-- **Nothing else can be wrong.** The layouts of a valid program have no error exactly if no class
    declares a field that a class above it declares too. -/
theorem layouts_eq_none_iff (hp : p.Valid) (hempty : p.class? "" = none) :
    p.layouts.2 = none ↔ ∀ cls field, ¬ p.Redeclares cls field := by
  constructor
  · exact hp.not_redeclares hempty
  · intro h
    cases he : p.layouts.2 with
    | none => rfl
    | some e => exact absurd (hp.redeclares_of_layouts hempty he) (h _ _)

end Valid

end Program

end Decaf
