import Decaf.Proofs.Generation.Functions
import Decaf.Proofs.Generation.Structs
import Decaf.Proofs.Layout.Slots
import Decaf.Proofs.Program.Order

namespace Decaf

/-!
# Modules and the order of declarations

What is generated for a program does not show in which order the program was declared, but for the
fields of classes.  Classes are treated by depth and then by name, and the slots of a dispatch table
by number.  These orders leave no choice: no two classes have both depth and name in common, and no
two slots of a class have the same number.

* `SoleOrder` — a list is the only arrangement of its elements that is in order.
* `pairwise_sortByRank_of_pairwise` — ordering by rank keeps the order within each rank.
* `soleOrder_layoutOrder`, `soleOrder_dispatchOrder` — classes and slots can be arranged in one way
  only.
* `generate_eq_of_perm` — the same declarations in another order give the same errors and the same
  module.
-/

/-! ### Orders that leave no choice -/

/-- The list `ordered` is the only arrangement of `xs` in which `R` holds of every two elements, the
    earlier first. -/
def SoleOrder {α : Type} (R : α → α → Prop) (xs ordered : List α) : Prop :=
  ∀ ys : List α, ys = ordered ↔ ys.Perm xs ∧ ys.Pairwise R

section Ranks

variable {α : Type} {R : α → α → Prop} {rank : α → Nat}

/-- An arrangement is the only one if no two elements can change places. -/
theorem SoleOrder.of_pairwise {xs ordered : List α} (hperm : ordered.Perm xs)
    (hordered : ordered.Pairwise R) (hasymm : ∀ a ∈ xs, ∀ b ∈ xs, R a b → ¬ R b a) :
    SoleOrder R xs ordered := by
  intro ys
  constructor
  · rintro rfl
    exact ⟨hperm, hordered⟩
  · rintro ⟨hys, hpairwise⟩
    refine (hys.trans hperm.symm).eq_of_pairwise (fun a b ha hb hab hba => ?_) hpairwise hordered
    exact absurd hba (hasymm a (hys.mem_iff.1 ha) b (hperm.mem_iff.1 hb) hab)

/-- Of a lower rank, or of the same rank and earlier. -/
def ByRank (rank : α → Nat) (R : α → α → Prop) (a b : α) : Prop :=
  rank a < rank b ∨ rank a = rank b ∧ R a b

theorem pairwise_insertByRank_of_pairwise {a : α} {l : List α} (ha : ∀ b ∈ l, R a b)
    (h : l.Pairwise (ByRank rank R)) : (insertByRank rank a l).Pairwise (ByRank rank R) := by
  induction l with
  | nil => simp [insertByRank]
  | cons b l ih =>
    obtain ⟨hb, hl⟩ := List.pairwise_cons.1 h
    obtain ⟨hab, hal⟩ := List.forall_mem_cons.1 ha
    unfold insertByRank
    split
    · rename_i hle
      refine List.pairwise_cons.2 ⟨fun x hx => ?_, h⟩
      -- what comes after `b` is of no lower rank than `b`
      have hrank : rank b ≤ rank x := by
        rcases List.mem_cons.1 hx with rfl | hx
        · exact Nat.le_refl _
        · rcases hb x hx with hlt | ⟨heq, _⟩
          · exact Nat.le_of_lt hlt
          · exact Nat.le_of_eq heq
      rcases Nat.lt_or_eq_of_le (Nat.le_trans hle hrank) with hlt | heq
      · exact .inl hlt
      · exact .inr ⟨heq, ha x hx⟩
    · rename_i hlt
      refine List.pairwise_cons.2 ⟨fun x hx => ?_, ih hal hl⟩
      rcases List.mem_cons.1 ((insertByRank_perm rank a l).mem_iff.1 hx) with rfl | hx
      · exact .inl (Nat.lt_of_not_le hlt)
      · exact hb x hx

/-- Ordering by rank keeps the order within each rank. -/
theorem pairwise_sortByRank_of_pairwise {l : List α} (h : l.Pairwise R) :
    (sortByRank rank l).Pairwise (ByRank rank R) := by
  induction l with
  | nil => exact .nil
  | cons a l ih =>
    obtain ⟨ha, hl⟩ := List.pairwise_cons.1 h
    refine pairwise_insertByRank_of_pairwise (fun b hb => ?_) (ih hl)
    exact ha b ((sortByRank_perm rank l).mem_iff.1 hb)

end Ranks

/-! ### Layouts and slots -/

/-- Layouts that are stored under their names can be arranged by depth and name in one way only. -/
theorem soleOrder_layoutOrder {layouts : Dict Layout}
    (h : ∀ n l, layouts.get? n = some l → l.name = n) :
    SoleOrder (ByRank Layout.depth (·.name < ·.name)) layouts.values (layoutOrder layouts) := by
  have hnames : layouts.values.Pairwise (·.name < ·.name) := by
    refine List.pairwise_map.2 (layouts.sorted.imp_of_mem fun {x y} hx hy hlt => ?_)
    rwa [h x.1 x.2 (Dict.get?_eq_some_iff.2 hx), h y.1 y.2 (Dict.get?_eq_some_iff.2 hy)]
  refine .of_pairwise (sortByRank_perm _ _) (pairwise_sortByRank_of_pairwise hnames)
    fun a _ b _ hab hba => ?_
  rcases hab with hab | ⟨_, hab⟩ <;> rcases hba with hba | ⟨_, hba⟩
  · omega
  · omega
  · omega
  · exact String.lt_irrefl _ (String.lt_trans hab hba)

/-- Slots without gaps can be arranged by number in one way only. -/
theorem soleOrder_dispatchOrder {l : Layout} (h : Dense l.slots) :
    SoleOrder (·.index < ·.index) l.slots.values l.dispatchOrder := by
  have hindices : l.dispatchOrder.Pairwise (·.index < ·.index) := by
    rw [← List.pairwise_map (f := Slot.index), Layout.dispatchOrder, h.map_index_sortByRank]
    exact List.pairwise_lt_range
  exact .of_pairwise (sortByRank_perm _ _) hindices fun a _ b _ hab hba => by omega

/-- Completing a layout leaves no gap in its slots. -/
theorem Layout.dense_complete {l m : Layout} {parent : Option Layout} {c : ClassDecl}
    {e : Option AttributeRedefined} (hparent : ∀ k ∈ parent, Dense k.slots)
    (h : l.complete parent c = (m, e)) : Dense m.slots := by
  have hinherited : Dense ((parent.map (·.slots)).getD .empty) := by
    cases parent with
    | none => exact dense_empty
    | some k => exact hparent k rfl
  unfold complete at h
  dsimp only at h
  split at h
  · rw [← (Prod.mk.inj h).1]
    exact hinherited
  · rw [← (Prod.mk.inj h).1]
    exact dense_assignSlots hinherited _

namespace Program

/-- Layouts that are stored under their names, and have slots without gaps. -/
def Orderly (layouts : Dict Layout) : Prop :=
  ∀ n l, layouts.get? n = some l → l.name = n ∧ Dense l.slots

/-- The layouts are orderly, also if there is an error. -/
theorem orderly_layouts (p : Program) : Orderly p.layouts.1 := by
  refine completeLayouts_induction (fun n l hl => ?_) fun l _ c parent m e _ hparent hm => ?_
  · obtain ⟨c, _, _, rfl⟩ := get?_blankLayouts_eq_some_iff.1 hl
    exact ⟨rfl, dense_empty⟩
  · exact ⟨rfl, Layout.dense_complete (fun k hk => (hparent k hk).2) hm⟩

end Program

/-! ### Enumerated tables -/

namespace Generator

/-- All stages, with the classes in the order `order` and the slots of each class in the order
    `slots`. -/
def generateIn (order : List Layout) (slots : Layout → List Slot) (p : Program) : Gen Unit := do
  match p.hierarchyErrors with
  | e :: _ => throw (.invalidHierarchy e)
  | [] =>
    buildLayouts p
    declareStructs p order
    order.forM fun l => (ownMethods p l).forM (declareMethod p l.name)
    order.forM fun l => constructVTable l (slots l)
    declareGlobals p

variable {p : Program} {order : List Layout} {slots : Layout → List Slot}

/-- The stages go by the layouts and slots of the program in their orders, and by nothing else. -/
theorem run_generateIn (horder : order = layoutOrder p.layouts.1)
    (hslots : ∀ l ∈ order, slots l = l.dispatchOrder) (g : Generator) :
    (generateIn order slots p).run g = (generate p).run g := by
  unfold generateIn generate
  cases p.hierarchyErrors with
  | cons e es => rfl
  | nil =>
    -- every stage but the first keeps the layouts, so all of them read the same order
    refine run_bind_congr rfl fun _ g₁ h₁ => ?_
    have hlayouts₁ : order = layoutOrder g₁.layouts := by
      rw [(run_buildLayouts_iff.1 h₁).2, horder]
    refine run_bind_congr (by rw [hlayouts₁]; rfl) fun _ g₂ h₂ => ?_
    have hlayouts₂ : order = layoutOrder g₂.layouts := by
      obtain ⟨_, _, rfl, _⟩ := run_declareClasses_ok h₂
      exact hlayouts₁
    refine run_bind_congr (by rw [hlayouts₂]; rfl) fun _ g₃ h₃ => ?_
    have hlayouts₃ : order = layoutOrder g₃.layouts := by
      rw [(run_declareMethods_ok h₃).1.layouts_eq, hlayouts₂]
    refine run_bind_congr ?_ fun _ _ _ => rfl
    rw [forM_congr fun l hl => by rw [hslots l hl], hlayouts₃]
    rfl

/-- **The tables may be enumerated in any order.** Generation with the classes arranged by depth and
    name, and the slots of each class by number, is generation as it is, however the two tables were
    enumerated before. -/
theorem run_generateIn_of_perm (horder : order.Perm p.layouts.1.values)
    (hsorted : order.Pairwise (ByRank Layout.depth (·.name < ·.name)))
    (hslots : ∀ l ∈ order, (slots l).Perm l.slots.values ∧
      (slots l).Pairwise (·.index < ·.index)) (g : Generator) :
    (generateIn order slots p).run g = (generate p).run g := by
  apply run_generateIn
  · exact (soleOrder_layoutOrder (fun n l hl => (p.orderly_layouts n l hl).1) order).2
      ⟨horder, hsorted⟩
  · intro l hl
    obtain ⟨n, hn⟩ := Dict.mem_values_iff.1 (horder.mem_iff.1 hl)
    exact (soleOrder_dispatchOrder (p.orderly_layouts n l hn).2 (slots l)).2 (hslots l hl)

end Generator

/-! ### Whole modules -/

/-- **Order of declarations.** Let all of some declarations be accepted, and also all of them in
    another order, in which the fields of each class come as before.  Then there are the same errors
    in the hierarchy, and generators for the same target make the same of the two programs: they
    fail with the same error, or make the same module.  The orders in which they treat classes and
    slots are the only ones by depth and name, and by number, and generation with the classes and
    slots arranged so, from whatever order they came in, makes the same again. -/
theorem generate_eq_of_perm (ds es : List Decl) (p q : Program)
    (hp : Program.empty.declareAll ds = .ok p) (hq : Program.empty.declareAll es = .ok q)
    (hperm : ds.Perm es)
    (hfields : ∀ cls, ds.filterMap (Decl.fieldOf? cls) = es.filterMap (Decl.fieldOf? cls)) :
    p.hierarchyErrors = q.hierarchyErrors ∧
      (∀ triple, ∃ g h, Generator.create (some p) triple = .ok g ∧
        Generator.create (some q) triple = .ok h ∧
        (Generator.generate p).run g = (Generator.generate q).run h) ∧
      SoleOrder (ByRank Layout.depth (·.name < ·.name)) p.layouts.1.values
        (layoutOrder p.layouts.1) ∧
      (∀ l ∈ p.layouts.1.values, SoleOrder (·.index < ·.index) l.slots.values l.dispatchOrder) ∧
      ∀ (order : List Layout) (slots : Layout → List Slot), order.Perm p.layouts.1.values →
        order.Pairwise (ByRank Layout.depth (·.name < ·.name)) →
        (∀ l ∈ order, (slots l).Perm l.slots.values ∧ (slots l).Pairwise (·.index < ·.index)) →
        ∀ g, (Generator.generateIn order slots p).run g = (Generator.generate p).run g := by
  -- the tables do not depend on the order, and all that follows reads only the tables
  obtain rfl : p = q := Program.eq_of_perm hp hq hperm hfields
  refine ⟨rfl, fun triple => ⟨_, _, rfl, rfl, rfl⟩, ?_, fun l hl => ?_,
    fun order slots horder hsorted hslots =>
      Generator.run_generateIn_of_perm horder hsorted hslots⟩
  · exact soleOrder_layoutOrder fun n l hl => (p.orderly_layouts n l hl).1
  · obtain ⟨n, hn⟩ := Dict.mem_values_iff.1 hl
    exact soleOrder_dispatchOrder (p.orderly_layouts n l hn).2

/-- A class and its parent, both with a method of one name, an interface, a function and a global
    variable, declared in two orders.  In the second order the child comes first, and its methods
    before there is anything to override. -/
theorem generate_child_before_parent :
    let m : Method := { name := "m", params := [], ret := some .int }
    let ds : List Decl :=
      [.class_ "A" none [], .interface "I", .field "A" "x" (some .int), .field "A" "y" (some .bool),
        .method "A" m, .class_ "B" (some "A") ["I"], .method "B" m,
        .method "B" { m with name := "a" }, .function { m with name := "main" },
        .global "v" (some .int)]
    let es : List Decl :=
      [.global "v" (some .int), .class_ "B" (some "A") ["I"], .method "B" { m with name := "a" },
        .method "B" m, .class_ "A" none [], .method "A" m, .field "A" "x" (some .int),
        .field "A" "y" (some .bool), .function { m with name := "main" }, .interface "I"]
    let p := Program.ofDecls ds
    let q := Program.ofDecls es
    Program.empty.declareAll ds = .ok p ∧ Program.empty.declareAll es = .ok q ∧ ds.Perm es ∧
      p.hierarchyErrors = q.hierarchyErrors ∧
      ∃ g h, Generator.create (some p) "" = .ok g ∧ Generator.create (some q) "" = .ok h ∧
        ((Generator.generate q).run h).1.toBool ∧
        (Generator.generate p).run g = (Generator.generate q).run h := by
  intro m ds es p q
  have hp : Program.empty.declareAll ds = .ok p := by decide +kernel
  have hq : Program.empty.declareAll es = .ok q := by decide +kernel
  have hperm : ds.Perm es := by decide +kernel
  have hfields : ∀ cls, ds.filterMap (Decl.fieldOf? cls) = es.filterMap (Decl.fieldOf? cls) :=
    fun _ => rfl
  obtain ⟨herrors, hmodules, _⟩ := generate_eq_of_perm ds es p q hp hq hperm hfields
  obtain ⟨g, h, hg, hh, hrun⟩ := hmodules ""
  refine ⟨hp, hq, hperm, herrors, g, h, hg, hh, ?_, hrun⟩
  cases hh
  decide +kernel

end Decaf
