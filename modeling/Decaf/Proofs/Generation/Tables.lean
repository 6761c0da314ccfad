import Decaf.Proofs.Generation.Functions
import Decaf.Proofs.Generation.Names
import Mathlib.Data.List.Nodup

namespace Decaf.Generator

/-!
# Dispatch tables

Dispatch tables are made parents first.  Each refers to a constant with the name of its class, to
the table of the parent and to the functions in the slots of its class, and nothing that is made
afterwards changes any of these.

* `labelGlobal` — the constant with the name of a class.
* `HasTable` — what the dispatch table of a class is made of.
* `run_constructVTable_ok` — what a single table adds.
* `AddsGlobals` — nothing but global variables and dispatch tables is new.
* `run_constructVTables_ok` — every class has its table, and `nodup_flatMap_madeNames`, what is made
  has its own names.
* `run_declareGlobals_ok` — the functions and global variables of the program are only added.
-/

variable {p : Program} {g g' : Generator} {l : Layout}

/-! ### A single table -/

/-- The constant that holds the name of a class, with a zero byte at its end. -/
def labelGlobal (cls : String) : Llvm.Global :=
  ⟨labelSymbol cls, .chars (cls ++ "\x00")⟩

/-- The dispatch table of a class. -/
def tableGlobal (l : Layout) (parent : Option Llvm.Ref) (methods : List Llvm.Func) : Llvm.Global :=
  ⟨vtableSymbol l.name, .vtable { label := (labelGlobal l.name).ref, parent, methods }⟩

/-- The generator with one more dispatch table, and with the constant that it refers to. -/
def withTable (g : Generator) (l : Layout) (parent : Option Llvm.Ref) (methods : List Llvm.Func) :
    Generator :=
  { (g.addGlobal (labelGlobal l.name)).addGlobal (tableGlobal l parent methods) with
    vtables := g.vtables.insert l.name (tableGlobal l parent methods)
    log := g.log ++ [.constructedVTable l.name methods.length] }

/-- An outcome that does not depend on the state. -/
theorem run_liftM {ε σ α : Type} (x : Except ε α) (s : σ) :
    (liftM x : ExceptT ε (StateM σ) α).run s = (x, s) := rfl

/-- Making a table makes the constant first, or finds it, and then adds the table. -/
theorem exists_run_label_of_run_constructVTable
    (h : (constructVTable l l.dispatchOrder).run g = (.ok (), g')) :
    ∃ label g₁ parent methods table, (Generator.label l.name).run g = (.ok label, g₁) ∧
      parentTable g₁.vtables l = .ok parent ∧ slotFuncs g₁.functions l.dispatchOrder = .ok methods ∧
      table = ⟨vtableSymbol l.name, .vtable { label, parent, methods }⟩ ∧
      g' = { g₁.addGlobal table with vtables := g₁.vtables.insert l.name table }.note
        (.constructedVTable l.name methods.length) := by
  unfold constructVTable at h
  obtain ⟨label, g₁, hlabel, h⟩ := run_bind_ok h
  obtain ⟨_, _, hget, h⟩ := run_bind_ok h
  cases hget
  obtain ⟨parent, _, hlift, h⟩ := run_bind_ok h
  rw [run_liftM] at hlift
  obtain ⟨hparent, rfl⟩ := Prod.mk.inj hlift
  obtain ⟨methods, _, hlift', h⟩ := run_bind_ok h
  rw [run_liftM] at hlift'
  obtain ⟨hmethods, rfl⟩ := Prod.mk.inj hlift'
  rw [run_modify] at h
  exact ⟨label, g₁, parent, methods, _, hlabel, hparent, hmethods, rfl, (Prod.mk.inj h).2.symm⟩

/-- Making a table adds the constant with the name of the class, if there is none of its name, and
    the table. -/
theorem run_constructVTable_ok (hnew : labelSymbol l.name ∉ g.module.globals.map (·.name))
    (h : (constructVTable l l.dispatchOrder).run g = (.ok (), g')) :
    ∃ parent methods, parentTable g.vtables l = .ok parent ∧
      slotFuncs g.functions l.dispatchOrder = .ok methods ∧ g' = g.withTable l parent methods := by
  -- the label is new, so it is made here and not found
  have hlabel : (label l.name).run g =
      (.ok (labelGlobal l.name).ref, g.addGlobal (labelGlobal l.name)) := by
    have hfind : g.module.globals.find? (·.name = labelSymbol l.name) = none := by
      simpa [List.find?_eq_none] using hnew
    unfold label
    rw [run_bind, run_get]
    dsimp only
    rw [hfind]
    rfl
  obtain ⟨_, _, parent, methods, _, hrun, hparent, hmethods, rfl, rfl⟩ :=
    exists_run_label_of_run_constructVTable h
  rw [hlabel] at hrun
  cases hrun
  exact ⟨parent, methods, hparent, hmethods, rfl⟩

/-- The constant with the name of a class is found, or made. -/
theorem run_label (g : Generator) (cls : String) :
    (∃ v ∈ g.module.globals, (label cls).run g = (.ok v.ref, g)) ∨
      (label cls).run g = (.ok (labelGlobal cls).ref, g.addGlobal (labelGlobal cls)) := by
  unfold label
  rw [run_bind, run_get]
  dsimp only
  cases hfind : g.module.globals.find? (·.name = labelSymbol cls) with
  | some v => exact .inl ⟨v, List.mem_of_find?_eq_some hfind, rfl⟩
  | none => exact .inr rfl

/-- A generator grows by nothing but global variables and dispatch tables. -/
structure AddsGlobals (g g' : Generator) : Prop where
  layouts_eq : g'.layouts = g.layouts
  structs_eq : g'.structs = g.structs
  functions_eq : g'.functions = g.functions
  typeDefs_eq : g'.module.typeDefs = g.module.typeDefs
  funcs_eq : g'.module.funcs = g.module.funcs

theorem AddsGlobals.refl (g : Generator) : AddsGlobals g g :=
  ⟨rfl, rfl, rfl, rfl, rfl⟩

theorem AddsGlobals.trans {g₁ g₂ g₃ : Generator} (h : AddsGlobals g₁ g₂) (h' : AddsGlobals g₂ g₃) :
    AddsGlobals g₁ g₃ where
  layouts_eq := h'.layouts_eq.trans h.layouts_eq
  structs_eq := h'.structs_eq.trans h.structs_eq
  functions_eq := h'.functions_eq.trans h.functions_eq
  typeDefs_eq := h'.typeDefs_eq.trans h.typeDefs_eq
  funcs_eq := h'.funcs_eq.trans h.funcs_eq

/-- The constant with the name of a class is a global variable. -/
theorem addsGlobals_of_run_label {cls : String} {r : Llvm.Ref}
    (h : (label cls).run g = (.ok r, g')) : AddsGlobals g g' := by
  rcases run_label g cls with ⟨v, _, hrun⟩ | hrun <;> rw [hrun] at h <;> cases h
  · exact .refl g
  · exact ⟨rfl, rfl, rfl, rfl, rfl⟩

/-- **Run.** Making tables adds nothing else, whatever the names of the classes are. -/
theorem addsGlobals_of_run_constructVTables (h : constructVTables.run g = (.ok (), g')) :
    AddsGlobals g g' := by
  unfold constructVTables at h
  obtain ⟨_, _, hget, hrest⟩ := run_bind_ok h
  cases hget
  refine forM_induction (fun _ t => AddsGlobals g t) hrest (.refl g)
    fun _ _ _ _ _ _ hdone hrun => ?_
  obtain ⟨_, _, _, _, _, hlabel, _, _, _, rfl⟩ := exists_run_label_of_run_constructVTable hrun
  exact (hdone.trans (addsGlobals_of_run_label hlabel)).trans ⟨rfl, rfl, rfl, rfl, rfl⟩

/-- The reference to the table of the parent: there is none exactly if there is no parent. -/
def IsParentRef (g : Generator) (l : Layout) (r : Option Llvm.Ref) : Prop :=
  match l.parent with
  | none => r = none
  | some a => ∃ v, g.vtables.get? a = some v ∧ r = some v.ref

/-- The table of the parent is the one that is known. -/
theorem isParentRef_of_parentTable {r : Option Llvm.Ref} (h : parentTable g.vtables l = .ok r) :
    IsParentRef g l r := by
  unfold parentTable at h
  unfold IsParentRef
  cases hparent : l.parent with
  | none =>
    rw [hparent] at h
    exact (Except.ok.inj h).symm
  | some a =>
    rw [hparent] at h
    cases hv : g.vtables.get? a with
    | none => simp [hv] at h
    | some v =>
      simp only [hv, Except.ok.injEq] at h
      exact ⟨v, hv, h.symm⟩

/-- The table of a parent stays the same. -/
theorem IsParentRef.of_grows {r : Option Llvm.Ref} (h : IsParentRef g l r) (hgrows : Grows g g') :
    IsParentRef g' l r := by
  unfold IsParentRef at h ⊢
  cases hparent : l.parent with
  | none =>
    rw [hparent] at h
    exact h
  | some a =>
    rw [hparent] at h
    obtain ⟨v, hv, hr⟩ := h
    exact ⟨v, hgrows.vtables hv, hr⟩

/-- The functions behind slots, one by one. -/
theorem slotFuncs_eq_ok_iff {functions : Dict Llvm.Func} {slots : List Slot} {fs : List Llvm.Func} :
    slotFuncs functions slots = .ok fs ↔
      slots.map (fun s => functions.get? s.symbol) = fs.map some := by
  refine collect_eq_ok_iff (slotFuncs functions) rfl (fun s slots fs => ?_) slots fs
  rw [slotFuncs]
  cases functions.get? s.symbol with
  | none => simp
  | some f => cases slotFuncs functions slots <;> simp [eq_comm]

/-- The functions behind slots stay the same. -/
theorem slotFuncs_of_grows {slots : List Slot} {fs : List Llvm.Func}
    (h : slotFuncs g.functions slots = .ok fs) (hgrows : Grows g g') :
    slotFuncs g'.functions slots = .ok fs := by
  rw [slotFuncs_eq_ok_iff] at h ⊢
  rw [← h]
  refine List.map_congr_left fun s hs => ?_
  have hmem : g.functions.get? s.symbol ∈ fs.map some := h ▸ List.mem_map_of_mem hs
  obtain ⟨f, _, hf⟩ := List.mem_map.1 hmem
  rw [← hf, hgrows.functions hf.symm]

/-- The class has a dispatch table, with the constant, the parent's table and the functions that
    belong to it. -/
def HasTable (g : Generator) (l : Layout) : Prop :=
  ∃ parent methods, g.vtables.get? l.name = some (tableGlobal l parent methods) ∧
    tableGlobal l parent methods ∈ g.module.globals ∧ labelGlobal l.name ∈ g.module.globals ∧
    IsParentRef g l parent ∧ slotFuncs g.functions l.dispatchOrder = .ok methods

/-- A class keeps its dispatch table. -/
theorem HasTable.of_grows (h : HasTable g l) (hgrows : Grows g g') : HasTable g' l := by
  obtain ⟨parent, methods, hknown, htable, hlabel, hparent, hmethods⟩ := h
  exact ⟨parent, methods, hgrows.vtables hknown, hgrows.mem_globals htable,
    hgrows.mem_globals hlabel, hparent.of_grows hgrows, slotFuncs_of_grows hmethods hgrows⟩

/-- **Step.** A table that is made for a class without one is only added. -/
theorem hasTable_of_run_constructVTable
    (hlabel : labelSymbol l.name ∉ g.module.globals.map (·.name))
    (hnew : g.vtables.get? l.name = none)
    (h : (constructVTable l l.dispatchOrder).run g = (.ok (), g')) :
    Grows g g' ∧ HasTable g' l ∧
      (∀ cls, g'.vtables.get? cls ≠ none → g.vtables.get? cls ≠ none ∨ cls = l.name) ∧
      g'.module.globals.map (·.name) =
        g.module.globals.map (·.name) ++ [labelSymbol l.name, vtableSymbol l.name] ∧
      g'.module.funcs = g.module.funcs := by
  obtain ⟨parent, methods, hparent, hmethods, rfl⟩ := run_constructVTable_ok hlabel h
  have hgrows : Grows g (g.withTable l parent methods) := by
    refine ⟨rfl, rfl, rfl, fun hf => hf, fun {cls v} hv => ?_, fun hf => hf, fun hv => ?_⟩
    · -- the class had no table, so no table is replaced
      have hne : cls ≠ l.name := fun heq => by simp [heq, hnew] at hv
      exact (Dict.get?_insert_of_ne _ _ hne).trans hv
    · exact List.mem_append_left _ (List.mem_append_left _ hv)
  refine ⟨hgrows, ⟨parent, methods, ?_, ?_, ?_, ?_, ?_⟩, fun cls hcls => ?_, ?_, rfl⟩
  · exact Dict.get?_insert_self _ _ _
  · exact List.mem_append_right _ (List.mem_singleton_self _)
  · exact List.mem_append_left _ (List.mem_append_right _ (List.mem_singleton_self _))
  · exact (isParentRef_of_parentTable hparent).of_grows hgrows
  · exact hmethods
  · by_cases heq : cls = l.name
    · exact .inr heq
    · refine .inl fun hnone => hcls ?_
      exact (Dict.get?_insert_of_ne _ _ heq).trans hnone
  · simp [withTable, addGlobal, labelGlobal, tableGlobal]

/-! ### All tables -/

/-- The names of the global variables that are made for a class. -/
def madeNames (l : Layout) : List String :=
  [labelSymbol l.name, vtableSymbol l.name]

/-- What is made for other classes has other names. -/
theorem disjoint_madeNames {l m : Layout} (hl : IsIdentifier l.name) (hm : IsIdentifier m.name)
    (hne : l.name ≠ m.name) : List.Disjoint (madeNames l) (madeNames m) := by
  intro n hn hn'
  simp only [madeNames, List.mem_cons, List.not_mem_nil, or_false] at hn hn'
  rcases hn with rfl | rfl
  · rcases hn' with heq | heq
    · exact hne (labelSymbol_injective hl hm heq)
    · exact labelSymbol_ne_vtableSymbol hm heq
  · rcases hn' with heq | heq
    · exact labelSymbol_ne_vtableSymbol hl heq.symm
    · exact hne (vtableSymbol_injective heq)

/-- What is made for several classes has names of its own. -/
theorem nodup_flatMap_madeNames {ls : List Layout} (hnames : ∀ l ∈ ls, IsIdentifier l.name)
    (hnodup : (ls.map (·.name)).Nodup) : (ls.flatMap madeNames).Nodup := by
  rw [List.nodup_flatMap]
  constructor
  · intro l hl
    have hne : labelSymbol l.name ≠ vtableSymbol l.name := labelSymbol_ne_vtableSymbol (hnames l hl)
    simp [madeNames, hne]
  · refine (List.pairwise_map.1 hnodup).imp_of_mem fun hl hm hne => ?_
    exact disjoint_madeNames (hnames _ hl) (hnames _ hm) hne

/-- What holds in the middle of making tables, of those for the classes `done`: what there was
    before is still there, the functions are the same, and the classes have their tables, under
    names of their own. -/
structure MadeTables (g : Generator) (done : List Layout) (t : Generator) : Prop where
  grows : Grows g t
  tables : ∀ l ∈ done, HasTable t l
  known : ∀ cls, t.vtables.get? cls ≠ none → cls ∈ done.map (·.name)
  names : t.module.globals.map (·.name) = done.flatMap madeNames
  funcs : t.module.funcs = g.module.funcs

/-- **Step.** One more table is made, for a class that has none. -/
theorem MadeTables.step {done : List Layout} {t t' : Generator} (h : MadeTables g done t)
    (hdone : ∀ m ∈ done, IsIdentifier m.name ∧ m.name ≠ l.name) (hl : IsIdentifier l.name)
    (hrun : (constructVTable l l.dispatchOrder).run t = (.ok (), t')) :
    MadeTables g (done ++ [l]) t' := by
  -- the label is new, for what has been made so far was made for other classes
  have hlabel : labelSymbol l.name ∉ t.module.globals.map (·.name) := by
    rw [h.names]
    intro hmem
    obtain ⟨m, hm, hmem⟩ := List.mem_flatMap.1 hmem
    obtain ⟨hword, hne⟩ := hdone m hm
    exact disjoint_madeNames hword hl hne hmem List.mem_cons_self
  have hnew : t.vtables.get? l.name = none := by
    cases hget : t.vtables.get? l.name with
    | none => rfl
    | some v =>
      obtain ⟨m, hm, heq⟩ := List.mem_map.1 (h.known l.name (by simp [hget]))
      exact absurd heq (hdone m hm).2
  obtain ⟨hgrows, htable, hkeys, hmade, hfuncs⟩ := hasTable_of_run_constructVTable hlabel hnew hrun
  constructor
  · exact h.grows.trans hgrows
  · intro m hm
    rcases List.mem_append.1 hm with hm | hm
    · exact (h.tables m hm).of_grows hgrows
    · obtain rfl := List.mem_singleton.1 hm
      exact htable
  · intro cls hcls
    rw [List.map_append]
    rcases hkeys cls hcls with hold | rfl
    · exact List.mem_append_left _ (h.known cls hold)
    · exact List.mem_append_right _ List.mem_cons_self
  · rw [hmade, h.names, List.flatMap_append, List.flatMap_singleton]
    rfl
  · rw [hfuncs, h.funcs]

/-- **Run.** Where there are no global variables and no tables, every class gets its table, and the
    global variables are those that are made for the classes, in their order. -/
theorem madeTables_of_run (hglobals : g.module.globals = [])
    (hvtables : ∀ cls, g.vtables.get? cls = none) {ls : List Layout}
    (hnames : ∀ l ∈ ls, IsIdentifier l.name) (hnodup : (ls.map (·.name)).Nodup)
    (h : (ls.forM fun l => constructVTable l l.dispatchOrder).run g = (.ok (), g')) :
    MadeTables g ls g' := by
  refine forM_induction (MadeTables g) h ?_ fun done l rest t t' horder hmade hrun => ?_
  · exact ⟨.refl g, by simp, fun cls hcls => absurd (hvtables cls) hcls, by simp [hglobals], rfl⟩
  · rw [horder, List.map_append, List.map_cons, List.nodup_append] at hnodup
    have hother : ∀ m ∈ done, m.name ≠ l.name := fun m hm heq =>
      hnodup.2.2 m.name (List.mem_map_of_mem hm) l.name List.mem_cons_self heq
    exact hmade.step (fun m hm => ⟨hnames m (by simp [horder, hm]), hother m hm⟩)
      (hnames l (by simp [horder])) hrun

/-- **All classes.** The stage makes the tables of all classes. -/
theorem run_constructVTables_ok (hglobals : g.module.globals = [])
    (hvtables : ∀ cls, g.vtables.get? cls = none)
    (hnames : ∀ l ∈ layoutOrder g.layouts, IsIdentifier l.name)
    (hnodup : ((layoutOrder g.layouts).map (·.name)).Nodup)
    (h : constructVTables.run g = (.ok (), g')) : MadeTables g (layoutOrder g.layouts) g' := by
  unfold constructVTables at h
  obtain ⟨_, _, hget, hrest⟩ := run_bind_ok h
  cases hget
  exact madeTables_of_run hglobals hvtables hnames hnodup hrest

/-! ### Global variables of the program -/

/-- The generator with one more global variable, all zero and known by its name. -/
def withVariable (g : Generator) (name : String) (t : Llvm.Ty) : Generator :=
  { g.addGlobal ⟨name, .zero t⟩ with globals := g.globals.insert name ⟨name, .zero t⟩ }

theorem Grows.withVariable (g : Generator) (name : String) (t : Llvm.Ty) :
    Grows g (g.withVariable name t) :=
  ⟨rfl, rfl, rfl, fun hf => hf, fun hv => hv, fun hf => hf, fun hv => List.mem_append_left _ hv⟩

/-- Defining a global variable adds it, if its type has a representation. -/
theorem run_defineGlobal_ok {name : String} {type : Option Ty}
    (h : (defineGlobal p name type).run g = (.ok (), g')) :
    ∃ t, g.lower p type = .ok t ∧ g' = g.withVariable name t := by
  unfold defineGlobal at h
  obtain ⟨_, _, hget, hrest⟩ := run_bind_ok h
  cases hget
  cases ht : g.lower p type with
  | error e =>
    rw [ht] at hrest
    cases hrest
  | ok t =>
    rw [ht] at hrest
    cases hrest
    exact ⟨t, rfl, rfl⟩

/-- **Run.** The last stage only adds to what has been made, and the functions and global variables
    of the program come last.  Their types have representations. -/
theorem run_declareGlobals_ok (h : (declareGlobals p).run g = (.ok (), g')) :
    Grows g g' ∧ g'.module.globals.map (·.name) =
      g.module.globals.map (·.name) ++ p.globals.symbols.keys ∧
      g'.module.funcs.map (·.name) = g.module.funcs.map (·.name) ++ p.functions.keys ∧
      (∀ x ∈ p.functions.entries, ∃ f, lowerSignature p g.structs x.1 x.2 [] = .ok f) ∧
      ∀ x ∈ p.globals.symbols.entries, ∃ t, g.lower p x.2.type = .ok t := by
  unfold declareGlobals at h
  obtain ⟨_, g₁, hfunctions, hvariables⟩ := run_bind_ok h
  obtain ⟨hadds, hsignatures⟩ := run_declareFunctions_ok hfunctions
  have hrun := forM_induction (fun done t => Grows g₁ t ∧
    t.module.globals.map (·.name) = g₁.module.globals.map (·.name) ++ done.map (·.1) ∧
    t.module.funcs = g₁.module.funcs ∧ ∀ x ∈ done, ∃ u, g.lower p x.2.type = .ok u) hvariables
    ⟨.refl g₁, by simp, rfl, by simp⟩ ?_
  · obtain ⟨hgrows, hmade, hfuncs, htypes⟩ := hrun
    refine ⟨hadds.toGrows.trans hgrows, ?_, ?_, hsignatures, htypes⟩
    · rw [hmade, hadds.globals_eq]
      rfl
    · rw [hfuncs, funcs_declareFunctions hfunctions]
      rfl
  · rintro done x rest t t' _ ⟨hgrows, hmade, hfuncs, htypes⟩ hrun
    obtain ⟨u, hlower, rfl⟩ := run_defineGlobal_ok hrun
    refine ⟨hgrows.trans (.withVariable t x.1 u), ?_, hfuncs, fun y hy => ?_⟩
    · rw [withVariable, addGlobal, List.map_append, hmade, List.append_assoc, List.map_append]
      rfl
    · rcases List.mem_append.1 hy with hy | hy
      · exact htypes y hy
      · -- the numbers of the structs are still those from before the stage
        obtain rfl := List.mem_singleton.1 hy
        rw [lower, hgrows.structs_eq, hadds.structs_eq] at hlower
        exact ⟨u, hlower⟩

end Decaf.Generator
