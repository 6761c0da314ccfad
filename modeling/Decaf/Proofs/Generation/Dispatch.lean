import Decaf.Proofs.Generation.Structs
import Decaf.Proofs.Generation.Tables
import Decaf.Proofs.Layout.Slots

namespace Decaf

/-!
# Dynamic dispatch

A call of a method goes through the dispatch table of the object's class, at the slot that the
method has in the class that the object is known by.  It reaches the method of the nearest class
that declares one: the slot is the same in all the classes, and the table has the function of the
nearest method there.

* `Generator.Generated` — what holds after all stages have run.
* `Generator.generated_of_run` — it holds after every successful run.
* `Generator.CorrectDispatch` — the slots and the table of a class are right.
* `dispatch_correct` — they are, for every class of every program that is generated.
-/

namespace Generator

variable {p : Program} {g g' : Generator}

/-! ### All stages -/

/-- All stages of a run that succeeds succeed, and the hierarchy is valid. -/
theorem run_generate_ok (h : (generate p).run g = (.ok (), g')) :
    p.hierarchyErrors = [] ∧ ∃ g₁ g₂ g₃ g₄, (buildLayouts p).run g = (.ok (), g₁) ∧
      (declareClasses p).run g₁ = (.ok (), g₂) ∧ (declareMethods p).run g₂ = (.ok (), g₃) ∧
      constructVTables.run g₃ = (.ok (), g₄) ∧ (declareGlobals p).run g₄ = (.ok (), g') := by
  unfold generate at h
  cases herrors : p.hierarchyErrors with
  | cons e es =>
    rw [herrors] at h
    cases h
  | nil =>
    rw [herrors] at h
    obtain ⟨_, g₁, h₁, h⟩ := run_bind_ok h
    obtain ⟨_, g₂, h₂, h⟩ := run_bind_ok h
    obtain ⟨_, g₃, h₃, h⟩ := run_bind_ok h
    obtain ⟨_, g₄, h₄, h₅⟩ := run_bind_ok h
    exact ⟨rfl, g₁, g₂, g₃, g₄, h₁, h₂, h₃, h₄, h₅⟩

/-- Where the names of classes are words, none is empty. -/
theorem class?_empty (hclasses : ∀ {cls c}, p.class? cls = some c → IsIdentifier cls) :
    p.class? "" = none := by
  cases hget : p.class? "" with
  | none => rfl
  | some c => exact absurd rfl (hclasses hget).ne_empty

/-- What holds of a generator after all stages have run for a program. -/
structure Generated (p : Program) (g : Generator) : Prop where
  completed : p.Completed g.layouts
  declared : ∀ {cls : String} {c : ClassDecl}, p.class? cls = some c → c.isInterface = false →
    ∀ m ∈ c.methods.values, Declared p g cls m
  tables : ∀ {cls : String} {l : Layout}, g.layouts.get? cls = some l → HasTable g l
  nodup_globals : (g.module.globals.map (·.name)).Nodup
  /-- The names of the global variables: what is made for the classes, then the variables of the
      program. -/
  globalNames : g.module.globals.map (·.name) =
    (layoutOrder g.layouts).flatMap madeNames ++ p.globals.symbols.keys
  /-- The names of the functions: the methods of the classes, then the functions of the program. -/
  funcNames : g.module.funcs.map (·.name) =
    (layoutOrder g.layouts).flatMap (methodNames p) ++ p.functions.keys

/-- **All stages.** What a successful run of a fresh generator makes, if the names of the program
    are words. -/
theorem generated_of_run (hp : p.Lawful)
    (hclasses : ∀ {cls c}, p.class? cls = some c → IsIdentifier cls)
    (hglobals : ∀ {name v}, p.globals.get? name = some v → IsIdentifier name)
    (hempty : g.module.globals = []) (hnofuncs : g.module.funcs = [])
    (hvtables : g.vtables = .empty) (h : (generate p).run g = (.ok (), g')) : Generated p g' := by
  obtain ⟨herrors, g₁, g₂, g₃, g₄, h₁, h₂, h₃, h₄, h₅⟩ := run_generate_ok h
  have hvalid : p.Valid := ⟨hp, herrors⟩
  obtain ⟨hlayouts, rfl⟩ := run_buildLayouts_iff.1 h₁
  have hcompleted : p.Completed p.layouts.1 :=
    hvalid.completed_layouts (class?_empty hclasses) (Prod.ext rfl hlayouts)
  obtain ⟨defs, log, rfl, _⟩ := run_declareClasses_ok h₂
  obtain ⟨hadds, hmethods⟩ := run_declareMethods_ok h₃
  have horder : layoutOrder g₃.layouts = layoutOrder p.layouts.1 := by rw [hadds.layouts_eq]
  have hnames : ∀ l ∈ layoutOrder g₃.layouts, IsIdentifier l.name := by
    intro l hl
    obtain ⟨c, hc, _⟩ := hcompleted.class_of_mem_layoutOrder (horder ▸ hl)
    exact hclasses hc
  have hnodup : ((layoutOrder g₃.layouts).map (·.name)).Nodup := by
    rw [horder]
    exact nodup_layoutOrder fun _ _ => hcompleted.name_eq
  obtain ⟨hgrows, htables, _, hmade, hfuncs⟩ :=
    run_constructVTables_ok (hadds.globals_eq.trans hempty)
      (fun cls => by rw [hadds.vtables_eq]; exact congrArg (·.get? cls) hvtables) hnames hnodup h₄
  obtain ⟨hgrows', hmade', hfuncs', _⟩ := run_declareGlobals_ok h₅
  have hlast : g'.layouts = p.layouts.1 := by
    rw [hgrows'.layouts_eq, hgrows.layouts_eq, hadds.layouts_eq]
  constructor
  · rw [hlast]
    exact hcompleted
  · intro cls c hc hclass m hm
    obtain ⟨l, hl, _⟩ := hcompleted.complete hc hclass
    have hname : l.name = cls := hcompleted.name_eq hl
    have hmem : l ∈ layoutOrder p.layouts.1 := hcompleted.mem_layoutOrder_iff.2 (hname ▸ hl)
    have hdeclared := hmethods l hmem c (hname ▸ hc) m hm
    rw [hname] at hdeclared
    exact hdeclared.of_grows (hgrows.trans hgrows')
  · intro cls l hl
    rw [hlast] at hl
    have hname : l.name = cls := hcompleted.name_eq hl
    have hmem : l ∈ layoutOrder g₃.layouts := horder ▸ hcompleted.mem_layoutOrder_iff.2 (hname ▸ hl)
    exact (htables l hmem).of_grows hgrows'
  · rw [hmade', hmade, List.nodup_append]
    refine ⟨nodup_flatMap_madeNames hnames hnodup, Dict.nodup_keys _, fun a ha b hb heq => ?_⟩
    -- variables of the program have names without a point
    obtain ⟨v, hv⟩ := Dict.mem_keys_iff.1 hb
    have hword : IsIdentifier b := hglobals hv
    obtain ⟨l, _, ha⟩ := List.mem_flatMap.1 ha
    simp only [madeNames, List.mem_cons, List.not_mem_nil, or_false] at ha
    rcases ha with rfl | rfl
    · exact hword.ne_labelSymbol heq.symm
    · exact hword.ne_vtableSymbol heq.symm
  · rw [hmade', hmade, horder, hlast]
  · rw [hfuncs', hfuncs, funcs_declareMethods h₃, hlast]
    simp [hnofuncs]

/-! ### Slots and tables -/

/-- A method has the slot that it has in the layout of the class. -/
theorem methodSlot_eq_ok_iff {cls m : String} {l : Layout} (hl : g.layouts.get? cls = some l)
    {i : Nat} : g.methodSlot cls m = .ok i ↔ ∃ s, l.slots.get? m = some s ∧ s.index = i := by
  rw [methodSlot, hl]
  dsimp only
  cases l.slots.get? m with
  | none => simp
  | some s => simp

/-- A class above has the slots that it has for the class. -/
theorem Generated.methodSlot_of_mem_chain (hg : Generated p g) (hp : p.Valid) {cls a m : String}
    {l k : Layout} (hl : g.layouts.get? cls = some l) (hk : g.layouts.get? a = some k)
    (ha : a ∈ p.chain cls) {i : Nat} (hi : g.methodSlot a m = .ok i) :
    g.methodSlot cls m = .ok i := by
  obtain ⟨s, hs, hindex⟩ := (methodSlot_eq_ok_iff hk).1 hi
  obtain ⟨t, ht, hindex'⟩ := hp.index_slots hg.completed hl hk ha hs
  exact (methodSlot_eq_ok_iff hl).2 ⟨t, ht, hindex'.trans hindex⟩

/-- There is a slot for just the methods that a class on the chain declares. -/
theorem Generated.exists_methodSlot_iff (hg : Generated p g) (hp : p.Valid) {cls : String}
    {l : Layout} (hl : g.layouts.get? cls = some l) (m : String) :
    (∃ i, g.methodSlot cls m = .ok i) ↔ ∃ a ∈ p.chain cls, p.declares m a := by
  -- the slots are those of the names that the search of the chain finds
  have hsymbols := (hp.slots_eq hg.completed hl).2 m
  have hdeclarer : (p.declarer? cls m).isSome ↔ ∃ a ∈ p.chain cls, p.declares m a := by
    rw [Program.declarer?, List.find?_isSome]
  rw [← hdeclarer]
  constructor
  · rintro ⟨i, hi⟩
    obtain ⟨s, hs, _⟩ := (methodSlot_eq_ok_iff hl).1 hi
    rw [hs] at hsymbols
    cases hd : p.declarer? cls m with
    | none => simp [hd] at hsymbols
    | some d => rfl
  · intro hsome
    obtain ⟨d, hd⟩ := Option.isSome_iff_exists.1 hsome
    rw [hd] at hsymbols
    obtain ⟨s, hs, _⟩ := Option.map_eq_some_iff.1 hsymbols
    exact ⟨s.index, (methodSlot_eq_ok_iff hl).2 ⟨s, hs, rfl⟩⟩

/-- Every number below that of the slots is the slot of one method. -/
theorem existsUnique_methodSlot {cls : String} {l : Layout} (hl : g.layouts.get? cls = some l)
    (hdense : Dense l.slots) {i : Nat} (hi : i < l.slots.size) :
    ∃! m, g.methodSlot cls m = .ok i := by
  obtain ⟨m, s, hs, hindex⟩ := hdense.exists_of_lt hi
  refine ⟨m, (methodSlot_eq_ok_iff hl).2 ⟨s, hs, hindex⟩, fun n hn => ?_⟩
  obtain ⟨t, ht, hindex'⟩ := (methodSlot_eq_ok_iff hl).1 hn
  exact hdense.inj ht hs (hindex'.trans hindex.symm)

/-- There are as many methods in a table as there are slots. -/
theorem length_of_slotFuncs {l : Layout} {methods : List Llvm.Func} (hdense : Dense l.slots)
    (h : slotFuncs g.functions l.dispatchOrder = .ok methods) : methods.length = l.slots.size := by
  have hlen := congrArg List.length (slotFuncs_eq_ok_iff.1 h)
  have horder := congrArg List.length hdense.map_index_sortByRank
  simp only [List.length_map, List.length_range, Layout.dispatchOrder] at hlen horder
  omega

/-- The reference is one to the global variable, and to no other of the module. -/
def RefersTo (g : Generator) (r : Llvm.Ref) (v : Llvm.Global) : Prop :=
  v ∈ g.module.globals ∧ r = v.ref ∧ ∀ w ∈ g.module.globals, w.name = r.name → w = v

/-- Global variables have names of their own, so a name means one of them. -/
theorem Generated.refersTo_ref (hg : Generated p g) {v : Llvm.Global} (hv : v ∈ g.module.globals) :
    RefersTo g v.ref v := by
  refine ⟨hv, rfl, fun w hw hname => ?_⟩
  exact List.inj_on_of_nodup_map hg.nodup_globals hw hv hname

/-- The table that is known for a class is one of the module. -/
theorem Generated.mem_globals_of_vtables (hg : Generated p g) {cls : String} {c : ClassDecl}
    (hc : p.class? cls = some c) (hclass : c.isInterface = false) {v : Llvm.Global}
    (hv : g.vtables.get? cls = some v) : v ∈ g.module.globals := by
  obtain ⟨l, hl, _⟩ := hg.completed.complete hc hclass
  obtain ⟨parent, methods, hknown, htable, _⟩ := hg.tables hl
  rw [hg.completed.name_eq hl, hv, Option.some.injEq] at hknown
  exact hknown ▸ htable

/-- The slots and the dispatch table of a class are right. -/
structure CorrectDispatch (p : Program) (g : Generator) (cls : String) (c : ClassDecl)
    (table : Llvm.VTable) : Prop where
  /-- There is a slot for just the methods that the class or a class above it declares. -/
  slot_iff : ∀ m, (∃ i, g.methodSlot cls m = .ok i) ↔ ∃ a ∈ p.chain cls, p.declares m a
  /-- A slot is a place in the table. -/
  slot_lt : ∀ m i, g.methodSlot cls m = .ok i → i < table.methods.length
  /-- Every place in the table is the slot of one method. -/
  slot_unique : ∀ i < table.methods.length, ∃! m, g.methodSlot cls m = .ok i
  /-- A method of a class above has the same slot there. -/
  slot_above : ∀ a ∈ p.hierarchy.ancestors cls, ∀ m, (∃ b ∈ p.chain a, p.declares m b) →
    g.methodSlot cls m = g.methodSlot a m
  /-- In the slot of a method is the function of the nearest class that declares it, which is also
      the class that owns the method that is looked up. -/
  method : ∀ m i, g.methodSlot cls m = .ok i →
    ∃ d e method f, p.declarer? cls m = some d ∧ p.class? d = some e ∧
      e.method? m = some method ∧ p.method? cls m = some method ∧ method.owner = some d ∧
      table.methods[i]? = some f ∧ f.name = methodSymbol d m ∧
      IsMethodFunc p g.structs d method f ∧ f ∈ g.module.funcs
  /-- There is no table of a parent exactly if there is no parent. -/
  no_parent : table.parent = none ↔ c.parent = none
  /-- The table of the parent is referred to. -/
  parent : ∀ a, c.parent = some a →
    ∃ v r, g.vtables.get? a = some v ∧ table.parent = some r ∧ RefersTo g r v
  /-- There is a constant with the name of the class and a zero byte, and it is referred to. -/
  label : RefersTo g table.label ⟨labelSymbol cls, .chars (cls ++ "\x00")⟩
  /-- The constant is written so. -/
  label_text : ∀ defs, (Llvm.Init.chars (cls ++ "\x00")).text defs = "c\"" ++ cls ++ "\\00\""

/-- The function in the slot of a method is that of the nearest class that declares it. -/
theorem Generated.method_of_slot (hg : Generated p g) (hp : p.Valid) {cls m : String} {l : Layout}
    {methods : List Llvm.Func} (hl : g.layouts.get? cls = some l)
    (hmethods : slotFuncs g.functions l.dispatchOrder = .ok methods) {s : Slot}
    (hs : l.slots.get? m = some s) :
    ∃ d e method f, p.declarer? cls m = some d ∧ p.class? d = some e ∧ e.method? m = some method ∧
      p.method? cls m = some method ∧ method.owner = some d ∧ methods[s.index]? = some f ∧
      f.name = methodSymbol d m ∧ IsMethodFunc p g.structs d method f ∧ f ∈ g.module.funcs := by
  obtain ⟨hdense, _⟩ := hp.slots_eq hg.completed hl
  obtain ⟨d, e, method, hd, he, hinterface, hmethod, hlookup, hname⟩ :=
    hp.method_of_slot hg.completed hl hs
  have hlaw := hp.lawful.classes he
  obtain ⟨f, hf, hknown, hmem⟩ := hg.declared he hinterface method (Dict.mem_values_of_get? hmethod)
  rw [hlaw.method_name hmethod, ← hname] at hknown
  refine ⟨d, e, method, f, hd, he, hmethod, hlookup, hlaw.method_owner hmethod, ?_, ?_, hf, hmem⟩
  · -- the functions stand in the order of the indices, which are dense
    have hplace := congrArg (·[s.index]?) (slotFuncs_eq_ok_iff.1 hmethods)
    simp only [List.getElem?_map, Layout.dispatchOrder, hdense.getElem?_sortByRank hs,
      Option.map_some, hknown] at hplace
    obtain ⟨f', hf', heq⟩ := Option.map_eq_some_iff.1 hplace.symm
    rw [hf', Option.some.inj heq]
  · rw [name_of_lowerSignature hf, hlaw.method_name hmethod]

/-- **Tables and slots.** Where all stages have run, the slots and the table of every class are
    right. -/
theorem Generated.correctDispatch (hg : Generated p g) (hp : p.Valid) {cls : String} {c : ClassDecl}
    (hc : p.class? cls = some c) (hclass : c.isInterface = false) (hword : IsIdentifier cls) :
    ∃ table, g.vtables.get? cls = some ⟨vtableSymbol cls, .vtable table⟩ ∧
      ⟨vtableSymbol cls, .vtable table⟩ ∈ g.module.globals ∧ CorrectDispatch p g cls c table := by
  obtain ⟨l, hl, hcomplete⟩ := hg.completed.complete hc hclass
  obtain ⟨attributes, _, hlayout⟩ := Layout.complete_ok hcomplete
  have hname : l.name = cls := hg.completed.name_eq hl
  have hparent : l.parent = c.parent := by rw [hlayout, Program.blank]
  obtain ⟨hdense, _⟩ := hp.slots_eq hg.completed hl
  obtain ⟨parent, methods, hknown, htable, hlabel, href, hmethods⟩ := hg.tables hl
  -- the slots have no gaps, so there are as many places as slots
  have hlength : methods.length = l.slots.size := length_of_slotFuncs hdense hmethods
  simp only [tableGlobal, hname] at hknown htable
  rw [hname] at hlabel
  refine ⟨_, hknown, htable, ?_⟩
  constructor
  case slot_iff =>
    exact hg.exists_methodSlot_iff hp hl
  case slot_lt =>
    intro m i hi
    obtain ⟨s, hs, rfl⟩ := (methodSlot_eq_ok_iff hl).1 hi
    show s.index < methods.length
    rw [hlength]
    exact hdense.lt hs
  case slot_unique =>
    intro i (hi : i < methods.length)
    exact existsUnique_methodSlot hl hdense (hlength ▸ hi)
  case slot_above =>
    intro a ha m hm
    obtain ⟨d, hd, hd'⟩ := hp.class_of_mem_ancestors hc ha
    -- the class above has a slot for the method, and the class takes it over
    obtain ⟨k, hk, _⟩ := hg.completed.complete hd hd'
    obtain ⟨i, hi⟩ := (hg.exists_methodSlot_iff hp hk m).2 hm
    rw [hi]
    exact hg.methodSlot_of_mem_chain hp hl hk (List.mem_cons_of_mem cls ha) hi
  case method =>
    intro m i hi
    obtain ⟨s, hs, rfl⟩ := (methodSlot_eq_ok_iff hl).1 hi
    exact hg.method_of_slot hp hl hmethods hs
  case no_parent =>
    -- the layout has the parent that the class is declared with
    rw [IsParentRef, hparent] at href
    cases hcp : c.parent with
    | none =>
      rw [hcp] at href
      exact iff_of_true href rfl
    | some a =>
      rw [hcp] at href
      obtain ⟨v, _, rfl⟩ := href
      simp
  case parent =>
    intro a ha
    rw [IsParentRef, hparent, ha] at href
    obtain ⟨v, hv, rfl⟩ := href
    -- the parent is a class too, so its table is in the module
    obtain ⟨d, hd, hd'⟩ := hp.class_of_parent hc ha
    exact ⟨v, v.ref, hv, rfl, hg.refersTo_ref (hg.mem_globals_of_vtables hd hd' hv)⟩
  case label =>
    exact hg.refersTo_ref hlabel
  case label_text =>
    intro defs
    -- a word is written as it is, and only the zero byte is escaped
    have hzero : Llvm.escape "\x00" = "\\00" := by
      rw [Llvm.escape, Text.toList_toUTF8]
      decide
    rw [Llvm.Init.text, escape_append, hword.escape_eq, hzero, ← String.append_assoc,
      String.append_assoc]
    rfl

end Generator

/-- **Dynamic dispatch is correct.** Take a program that declarations over words build and a module
    that is generated for it.  The methods that a class or a class above it declares have slots
    without gaps in its dispatch table, the same as in the tables of the classes above.  In each
    slot is the function of the nearest class that declares the method, which is the one that is
    looked up.  The table refers to the table of the parent, and to a constant with the name of the
    class. -/
theorem dispatch_correct (ds : List Decl) (hwords : ∀ d ∈ ds, IsIdentifier d.name) (triple : String)
    (g₀ g : Generator) (hfresh : Generator.create (some (Program.ofDecls ds)) triple = .ok g₀)
    (hgenerate : (Generator.generate (Program.ofDecls ds)).run g₀ = (.ok (), g)) (cls : String)
    (c : ClassDecl) (hc : (Program.ofDecls ds).class? cls = some c)
    (hclass : c.isInterface = false) :
    ∃ table, g.vtables.get? cls = some ⟨Generator.vtableSymbol cls, .vtable table⟩ ∧
      ⟨Generator.vtableSymbol cls, .vtable table⟩ ∈ g.module.globals ∧
      Generator.CorrectDispatch (Program.ofDecls ds) g cls c table := by
  have hlawful := Program.lawful_ofDecls ds
  -- every name in the tables was in a declaration, and so is an identifier
  have hclasses : ∀ {cls c}, (Program.ofDecls ds).class? cls = some c → IsIdentifier cls := by
    intro cls c hc
    obtain ⟨d, hd, hname⟩ := Program.exists_decl_of_class? hc
    exact Decl.name_of_class? hname ▸ hwords d hd
  have hglobals : ∀ {name v}, (Program.ofDecls ds).globals.get? name = some v →
      IsIdentifier name := by
    intro name v hv
    obtain ⟨type, hmem⟩ := Program.exists_decl_of_global? hv
    exact hwords _ hmem
  cases hfresh
  have hg := Generator.generated_of_run hlawful hclasses hglobals rfl rfl rfl hgenerate
  exact hg.correctDispatch ⟨hlawful, (Generator.run_generate_ok hgenerate).1⟩ hc hclass
    (hclasses hc)

/-- A class that overrides one of the two methods of its parent and is declared before it.  What it
    overrides keeps its slot, and its table has its own function there. -/
theorem dispatch_of_override :
    let ds : List Decl :=
      [.class_ "B" (some "A") [], .method "B" ⟨"g", [], some .int, none⟩,
        .method "B" ⟨"f", [], some .int, none⟩, .class_ "A" none [],
        .method "A" ⟨"h", [], some .int, none⟩, .method "A" ⟨"g", [], some .int, none⟩]
    let g : Generator :=
      ((Generator.generate (Program.ofDecls ds)).run { module := { triple := "" } }).2
    ∃ table i f, g.vtables.get? "B" = some ⟨"B.vtable", .vtable table⟩ ∧
      g.methodSlot "A" "g" = .ok i ∧ g.methodSlot "B" "g" = .ok i ∧
      table.methods[i]? = some f ∧ f.name = "B.g" := by
  intro ds g
  have hgenerate : (Generator.generate (Program.ofDecls ds)).run { module := { triple := "" } } =
      (.ok (), g) :=
    run_eq_of_toBool (by decide +kernel)
  obtain ⟨table, hknown, _, hdispatch⟩ :=
    dispatch_correct ds (by decide) "" _ g rfl hgenerate "B" _ rfl rfl
  obtain ⟨i, hi⟩ := (hdispatch.slot_iff "g").2 ⟨"B", by decide, by decide⟩
  have habove : g.methodSlot "B" "g" = g.methodSlot "A" "g" :=
    hdispatch.slot_above "A" (by decide) "g" ⟨"A", by decide, by decide⟩
  obtain ⟨d, _, _, f, hd, _, _, _, _, hf, hname, _⟩ := hdispatch.method "g" i hi
  have hnearest : (Program.ofDecls ds).declarer? "B" "g" = some "B" := by decide
  obtain rfl := Option.some.inj (hd.symm.trans hnearest)
  exact ⟨table, i, f, hknown, habove ▸ hi, hi, hf, hname⟩

end Decaf
