import Decaf.Proofs.Generation.Representation
import Decaf.Proofs.Layout.Clashes

namespace Decaf

/-!
# Where `void` is stored

There is no value of type `void`, so all that `void` is good for is the result of a function.
Generation keeps it out of parameters and from behind pointers, elements of arrays included,
whatever the program declares.  It does not keep it out of the fields of structs and out of global
variables: these are `void` exactly if they are declared so.

* `Llvm.Ty.Solid` — no pointer in a type points to `void`, and `Llvm.Module.Solid`, none in a module
  does.
* `Generator.solid_of_lowerType` — representations are solid.
* `Generator.Solid` — what is made is solid, and `Generator.Solid.withFunc`, …, that the stages keep
  it so.
* `void_stored_iff_declared` — a field or a global variable is `void` exactly if it is declared so.
* `void_is_stored` — a module that stores `void`.
-/

/-! ### Types without pointers to `void` -/

namespace Llvm

/-- No pointer in the type points to `void`.  An array has a pointer to its elements. -/
def Ty.Solid : Ty → Prop
  | pointer t | arrayRecord t => t ≠ .void ∧ t.Solid
  | _ => True

/-- Nothing in the declaration points to `void`, and no parameter is `void`. -/
def Func.Solid (f : Func) : Prop :=
  f.ret.Solid ∧ ∀ q ∈ f.params, q.type ≠ .void ∧ q.type.Solid

/-- Nothing in the initial value points to `void`: neither its type, nor the references and
    functions of a table. -/
def Init.Solid : Init → Prop
  | zero type => type.Solid
  | chars _ => True
  | vtable table =>
    (Ty.pointer table.label.type).Solid ∧ (∀ r ∈ table.parent, (Ty.pointer r.type).Solid) ∧
      ∀ f ∈ table.methods, f.Solid

/-- Nothing in the module points to `void`, and no parameter is `void`. -/
structure Module.Solid (m : Module) : Prop where
  typeDefs : ∀ d ∈ m.typeDefs, ∀ t ∈ d.fields, t.Solid
  funcs : ∀ f ∈ m.funcs, f.Solid
  globals : ∀ v ∈ m.globals, v.init.Solid

/-- The type of a solid value is solid. -/
theorem Init.Solid.type {init : Init} (h : init.Solid) : init.type.Solid := by
  cases init with
  | zero type => exact h
  | chars | vtable => trivial

/-- A pointer to a struct is solid. -/
theorem Ty.solid_pointer_struct (name : String) (number : Nat) :
    (Ty.pointer (.struct name number)).Solid := by
  unfold struct
  split
  · exact ⟨nofun, trivial⟩
  · exact ⟨nofun, trivial⟩

end Llvm

namespace Generator

variable {p : Program} {g g' : Generator}

/-- **Representations are solid.** An array whose elements would be `void` has none. -/
theorem solid_of_lowerType {structs : Dict Nat} {t : Ty} {u : Llvm.Ty}
    (h : lowerType p structs t = .ok u) : u.Solid := by
  induction t generalizing u with
  | named name =>
    rw [lowerType] at h
    split at h
    · cases h
      exact Llvm.Ty.solid_pointer_struct _ _
    · split at h
      · cases h
        exact ⟨by simp, trivial⟩
      · cases h
  | array elem ih =>
    rw [lowerType] at h
    cases helem : lowerType p structs elem with
    | error e => simp [helem] at h
    | ok v =>
      simp only [helem] at h
      split at h
      · cases h
      · -- only here could something point to `void`, and it is refused
        rename_i hvoid
        cases h
        exact ⟨by simp, hvoid, ih helem⟩
  | error => cases h
  | string | null =>
    cases h
    exact ⟨by simp, trivial⟩
  | int | double | bool | void =>
    cases h
    trivial

theorem solid_of_lowerDeclared {structs : Dict Nat} {type : Option Ty} {u : Llvm.Ty}
    (h : lowerDeclared p structs type = .ok u) : u.Solid := by
  cases type with
  | none => cases h
  | some t => exact solid_of_lowerType h

/-- What a signature is represented by is solid, if what stands before its parameters is. -/
theorem solid_of_lowerSignature {structs : Dict Nat} {name : String} {m : Method}
    {leading : List Llvm.Param} {f : Llvm.Func}
    (h : lowerSignature p structs name m leading = .ok f)
    (hleading : ∀ q ∈ leading, q.type ≠ .void ∧ q.type.Solid) : f.Solid := by
  obtain ⟨ret, params, hret, hparams, rfl⟩ := lowerSignature_ok h
  refine ⟨solid_of_lowerDeclared hret, fun q hq => ?_⟩
  rcases List.mem_append.1 hq with hq | hq
  · exact hleading q hq
  · obtain ⟨r, _, hr, hvoid⟩ := exists_of_forall₂ (forall₂_of_lowerParams hparams).flip hq
    exact ⟨hvoid, solid_of_lowerDeclared hr⟩

/-- The declaration of a method is solid. -/
theorem IsMethodFunc.solid {structs : Dict Nat} {cls : String} {m : Method} {f : Llvm.Func}
    (h : IsMethodFunc p structs cls m f) : f.Solid := by
  refine solid_of_lowerSignature h fun q hq => ?_
  obtain rfl := List.mem_singleton.1 hq
  exact ⟨nofun, Llvm.Ty.solid_pointer_struct _ _⟩

/-! ### One stage after the other -/

/-- What has been made is solid. -/
structure Solid (g : Generator) : Prop where
  funcs : ∀ f ∈ g.module.funcs, f.Solid
  functions : ∀ name f, g.functions.get? name = some f → f.Solid
  globals : ∀ v ∈ g.module.globals, v.init.Solid
  vtables : ∀ cls v, g.vtables.get? cls = some v → (Llvm.Ty.pointer v.init.type).Solid

/-- No global variable is `void`. -/
def StoresNoVoid (g : Generator) : Prop :=
  ∀ v ∈ g.module.globals, v.init.type ≠ .void

theorem StoresNoVoid.addGlobal (h : g.StoresNoVoid) {v : Llvm.Global} (hv : v.init.type ≠ .void) :
    (g.addGlobal v).StoresNoVoid := by
  intro w hw
  rcases List.mem_append.1 hw with hw | hw
  · exact h w hw
  · exact List.mem_singleton.1 hw ▸ hv

namespace Solid

/-- **Step.** One more function. -/
theorem withFunc (h : g.Solid) {f : Llvm.Func} (hf : f.Solid) : (g.withFunc f).Solid where
  funcs k hk := by
    rcases List.mem_append.1 hk with hk | hk
    · exact h.funcs k hk
    · exact List.mem_singleton.1 hk ▸ hf
  functions name k hk := by
    rcases Dict.eq_or_get?_of_get?_insert hk with ⟨_, rfl⟩ | ⟨_, hk⟩
    · exact hf
    · exact h.functions name k hk
  globals := h.globals
  vtables := h.vtables

/-- **Step.** One more global variable. -/
theorem addGlobal (h : g.Solid) {v : Llvm.Global} (hv : v.init.Solid) : (g.addGlobal v).Solid where
  funcs := h.funcs
  functions := h.functions
  globals w hw := by
    rcases List.mem_append.1 hw with hw | hw
    · exact h.globals w hw
    · exact List.mem_singleton.1 hw ▸ hv
  vtables := h.vtables

/-- **Run.** All methods. -/
theorem of_run_declareMethods (h : g.Solid) (hrun : (declareMethods p).run g = (.ok (), g')) :
    g'.Solid := by
  unfold declareMethods at hrun
  obtain ⟨_, _, hget, hrun⟩ := run_bind_ok hrun
  cases hget
  refine forM_induction (fun _ t => t.Solid) hrun h fun _ _ _ t _ _ ht hclass => ?_
  refine forM_induction (fun _ u => u.Solid) hclass ht fun _ _ _ u _ _ hu hmethod => ?_
  obtain ⟨f, hf, _, rfl⟩ := run_declareMethod_ok hmethod
  exact hu.withFunc hf.solid

/-- **Run.** All functions outside of classes. -/
theorem of_run_declareFunctions (h : g.Solid) {entries : List (String × Method)}
    (hrun : (entries.forM fun x => declareFunction p x.1 x.2).run g = (.ok (), g')) : g'.Solid := by
  refine forM_induction (fun _ t => t.Solid) hrun h fun _ _ _ t _ _ ht hfunction => ?_
  obtain ⟨f, hf, _, rfl⟩ := run_declareFunction_ok hfunction
  exact ht.withFunc (solid_of_lowerSignature hf nofun)

/-- **Step.** The constant with the name of a class.  One that is found may have been made for
    another class, but it is not `void`. -/
theorem of_run_label (h : g.Solid) (hstored : g.StoresNoVoid) {cls : String} {r : Llvm.Ref}
    (hrun : (label cls).run g = (.ok r, g')) :
    g'.Solid ∧ g'.StoresNoVoid ∧ (Llvm.Ty.pointer r.type).Solid := by
  rcases run_label g cls with ⟨v, hv, hfound⟩ | hmade
  · rw [hfound] at hrun
    cases hrun
    exact ⟨h, hstored, hstored v hv, (h.globals v hv).type⟩
  · rw [hmade] at hrun
    cases hrun
    exact ⟨h.addGlobal trivial, hstored.addGlobal nofun, nofun, trivial⟩

/-- A dispatch table that is made of what is known is solid. -/
theorem table (h : g.Solid) {l : Layout} {label : Llvm.Ref} {parent : Option Llvm.Ref}
    {methods : List Llvm.Func} (hlabel : (Llvm.Ty.pointer label.type).Solid)
    (hparent : parentTable g.vtables l = .ok parent)
    (hmethods : slotFuncs g.functions l.dispatchOrder = .ok methods) :
    (Llvm.Init.vtable { label, parent, methods }).Solid := by
  refine ⟨hlabel, fun r hr => ?_, fun f hf => ?_⟩
  · -- what points to the table of the parent points to a table made earlier
    have href := isParentRef_of_parentTable hparent
    unfold IsParentRef at href
    cases hl : l.parent with
    | none =>
      rw [hl] at href
      simp [href] at hr
    | some a =>
      rw [hl] at href
      obtain ⟨v, hv, rfl⟩ := href
      obtain rfl := Option.some.inj hr
      exact h.vtables a v hv
  · have hmem : some f ∈ methods.map some := List.mem_map_of_mem hf
    rw [← slotFuncs_eq_ok_iff.1 hmethods] at hmem
    obtain ⟨s, _, hs⟩ := List.mem_map.1 hmem
    exact h.functions _ f hs

/-- **Step.** One more table, and the constant that it refers to. -/
theorem of_run_constructVTable (h : g.Solid) (hstored : g.StoresNoVoid) {l : Layout}
    (hrun : (constructVTable l l.dispatchOrder).run g = (.ok (), g')) :
    g'.Solid ∧ g'.StoresNoVoid := by
  obtain ⟨r, g₁, parent, methods, table, hlabel, hparent, hmethods, rfl, rfl⟩ :=
    exists_run_label_of_run_constructVTable hrun
  obtain ⟨h₁, hstored₁, hr⟩ := h.of_run_label hstored hlabel
  have hadded := h₁.addGlobal (v := ⟨vtableSymbol l.name, _⟩) (h₁.table hr hparent hmethods)
  refine ⟨⟨hadded.funcs, hadded.functions, hadded.globals, fun cls v hv => ?_⟩,
    hstored₁.addGlobal nofun⟩
  rcases Dict.eq_or_get?_of_get?_insert hv with ⟨_, rfl⟩ | ⟨_, hv⟩
  · exact ⟨nofun, trivial⟩
  · exact h₁.vtables cls v hv

/-- **Run.** All tables. -/
theorem of_run_constructVTables (h : g.Solid) (hstored : g.StoresNoVoid)
    (hrun : constructVTables.run g = (.ok (), g')) : g'.Solid ∧ g'.StoresNoVoid := by
  unfold constructVTables at hrun
  obtain ⟨_, _, hget, hrun⟩ := run_bind_ok hrun
  cases hget
  exact forM_induction (fun _ t => t.Solid ∧ t.StoresNoVoid) hrun ⟨h, hstored⟩
    fun _ _ _ _ _ _ ht htable => ht.1.of_run_constructVTable ht.2 htable

end Solid

/-- A global variable of the given name is `void`. -/
def StoresVoid (g : Generator) (name : String) : Prop :=
  ∃ v ∈ g.module.globals, v.name = name ∧ v.init.type = .void

/-- **Step.** One more global variable of the program, which is `void` exactly if it is declared
    so. -/
theorem Solid.of_run_defineGlobal (h : g.Solid) {name : String} {type : Option Ty}
    (hrun : (defineGlobal p name type).run g = (.ok (), g')) :
    g'.Solid ∧ ∀ n, g'.StoresVoid n ↔ g.StoresVoid n ∨ name = n ∧ type = some .void := by
  obtain ⟨t, ht, rfl⟩ := run_defineGlobal_ok hrun
  have hadded := h.addGlobal (v := ⟨name, .zero t⟩) (solid_of_lowerDeclared ht)
  refine ⟨⟨hadded.funcs, hadded.functions, hadded.globals, hadded.vtables⟩, fun n => ?_⟩
  have hvoid : t = .void ↔ type = some .void := by
    rw [← lowerDeclared_eq_void_iff, show lowerDeclared p g.structs type = .ok t from ht,
      Except.ok.injEq]
  simp only [StoresVoid, withVariable, Generator.addGlobal, List.mem_append, List.mem_singleton,
    or_and_right, exists_or, exists_eq_left, Llvm.Init.type, hvoid]

/-- **Run.** The last stage makes global variables `void` exactly if they are declared so. -/
theorem Solid.of_run_declareGlobals (h : g.Solid) (hstored : g.StoresNoVoid)
    (hrun : (declareGlobals p).run g = (.ok (), g')) :
    g'.Solid ∧ ∀ name, g'.StoresVoid name ↔
      ∃ v, p.globals.get? name = some v ∧ v.type = some .void := by
  unfold declareGlobals at hrun
  obtain ⟨_, g₁, hfunctions, hvariables⟩ := run_bind_ok hrun
  have hloop := forM_induction (fun done t => t.Solid ∧
    ∀ name, t.StoresVoid name ↔ ∃ x ∈ done, x.1 = name ∧ x.2.type = some .void) hvariables
    ⟨h.of_run_declareFunctions hfunctions, ?_⟩ ?_
  · obtain ⟨hsolid, hvoid⟩ := hloop
    refine ⟨hsolid, fun name => (hvoid name).trans ?_⟩
    constructor
    · rintro ⟨x, hx, rfl, htype⟩
      exact ⟨x.2, Dict.get?_eq_some_iff.2 hx, htype⟩
    · rintro ⟨v, hv, htype⟩
      exact ⟨(name, v), Dict.get?_eq_some_iff.1 hv, rfl, htype⟩
  · -- nothing is `void` before the first variable
    intro name
    constructor
    · rintro ⟨v, hv, _, htype⟩
      rw [(run_declareFunctions_ok hfunctions).1.globals_eq] at hv
      exact absurd htype (hstored v hv)
    · rintro ⟨x, hx, _⟩
      cases hx
  · rintro done x _ t t' _ ⟨ht, hdone⟩ hvariable
    obtain ⟨ht', hvoid⟩ := ht.of_run_defineGlobal hvariable
    refine ⟨ht', fun name => ?_⟩
    rw [hvoid, hdone]
    simp only [List.mem_append, List.mem_singleton, or_and_right, exists_or, exists_eq_left]

/-- A generator that has made nothing has made nothing `void`. -/
theorem Solid.of_empty (hfuncs : g.module.funcs = []) (hglobals : g.module.globals = [])
    (hfunctions : g.functions = .empty) (hvtables : g.vtables = .empty) :
    g.Solid ∧ g.StoresNoVoid := by
  refine ⟨⟨?_, fun name f hf => ?_, ?_, fun cls v hv => ?_⟩, ?_⟩
  · simp [hfuncs]
  · cases (Dict.get?_empty name).symm.trans (hfunctions ▸ hf)
  · simp [hglobals]
  · cases (Dict.get?_empty cls).symm.trans (hvtables ▸ hv)
  · simp [StoresNoVoid, hglobals]

/-- **All stages.** What a fresh generator makes is solid, and a global variable is `void` exactly
    if it is declared so. -/
theorem solid_of_run_generate {triple : String}
    (h : (generate p).run { module := { triple := triple } } = (.ok (), g)) :
    g.Solid ∧ ∀ name, g.StoresVoid name ↔
      ∃ v, p.globals.get? name = some v ∧ v.type = some .void := by
  obtain ⟨_, g₁, g₂, g₃, g₄, h₁, h₂, h₃, h₄, h₅⟩ := run_generate_ok h
  obtain ⟨_, rfl⟩ := run_buildLayouts_iff.1 h₁
  obtain ⟨defs, log, hg₂, _⟩ := run_declareClasses_ok h₂
  obtain ⟨hsolid₂, hstored₂⟩ : g₂.Solid ∧ g₂.StoresNoVoid := by
    rw [hg₂]
    exact Solid.of_empty rfl rfl rfl rfl
  -- each phase keeps what the one before it has made solid
  have hsolid₃ := hsolid₂.of_run_declareMethods h₃
  have hstored₃ : g₃.StoresNoVoid := by
    rw [StoresNoVoid, (run_declareMethods_ok h₃).1.globals_eq]
    exact hstored₂
  obtain ⟨hsolid₄, hstored₄⟩ := hsolid₃.of_run_constructVTables hstored₃ h₄
  exact hsolid₄.of_run_declareGlobals hstored₄ h₅

/-! ### Structs -/

/-- The fields of a struct are the reference to the dispatch table and the representations of the
    attributes. -/
theorem IsStructOf.mem_fields_iff {structs : Dict Nat} {l : Layout} {d : Llvm.TypeDef}
    (h : IsStructOf p structs l d) {t : Llvm.Ty} :
    t ∈ d.fields ↔ t = .anyPointer ∨
      ∃ a ∈ l.attributes, lowerDeclared p structs a.type = .ok t := by
  obtain ⟨types, htypes, rfl⟩ := h
  have hmem : t ∈ types ↔
      Except.ok t ∈ l.attributes.map fun a => lowerDeclared p structs a.type := by
    rw [fieldTypes_eq_ok_iff.1 htypes, List.mem_map_of_injective fun _ _ => Except.ok.inj]
  rw [List.mem_cons, hmem, List.mem_map]

/-- **All stages.** The structs of a generated module are those of the layouts, in their order. -/
theorem structsOf_of_run_generate {triple : String}
    (h : (generate p).run { module := { triple := triple } } = (.ok (), g)) :
    p.layouts.2 = none ∧
      List.Forall₂ (IsStructOf p g.structs) (layoutOrder p.layouts.1) g.module.typeDefs := by
  obtain ⟨_, g₁, g₂, g₃, g₄, h₁, h₂, h₃, h₄, h₅⟩ := run_generate_ok h
  obtain ⟨hlayouts, rfl⟩ := run_buildLayouts_iff.1 h₁
  obtain ⟨defs, log, rfl, hdefs⟩ := run_declareClasses_ok h₂
  refine ⟨hlayouts, ?_⟩
  rw [structs_of_run_generate h, (run_declareGlobals_ok h₅).1.typeDefs_eq,
    (addsGlobals_of_run_constructVTables h₄).typeDefs_eq, (run_declareMethods_ok h₃).1.typeDefs_eq]
  exact hdefs

end Generator

/-- The types of attributes are those of fields of classes, in whatever order the layouts are
    completed. -/
theorem Program.exists_field_of_mem_attributes {p : Program} {l : Layout}
    (hl : l ∈ layoutOrder p.layouts.1) {a : Attribute} (ha : a ∈ l.attributes) :
    ∃ cls c, p.class? cls = some c ∧ c.isInterface = false ∧ ∃ f ∈ c.fields, f.type = a.type := by
  rw [layoutOrder, (sortByRank_perm _ _).mem_iff, Dict.mem_values_iff] at hl
  obtain ⟨n, hn⟩ := hl
  revert a
  refine completeLayouts_induction (Q := fun _ l => ∀ {a : Attribute}, a ∈ l.attributes →
    ∃ cls c, p.class? cls = some c ∧ c.isInterface = false ∧
      ∃ f ∈ c.fields, f.type = a.type) ?_ ?_ n l hn
  · intro n k hk a ha
    obtain ⟨c, _, _, rfl⟩ := get?_blankLayouts_eq_some_iff.1 hk
    cases ha
  · intro k hk c parent m e hc hparent hm a ha
    obtain ⟨d, hd, hclass, _⟩ := mem_layoutOrder_blankLayouts_iff.1 hk
    obtain rfl := Option.some.inj (hd.symm.trans hc)
    rcases Layout.of_mem_complete hm ha with ⟨b, hb, ha⟩ | ⟨f, hf, _, htype⟩
    · exact hparent b hb ha
    · exact ⟨k.name, d, hc, hclass, f, hf, htype⟩

/-- **What is declared `void` is stored, and nothing else that is `void`.** Take any program that a
    fresh generator has generated.  In the module no parameter is `void` and nothing points to
    `void`.  There is a struct with a `void` field exactly if a class declares one, and a global
    variable is `void` exactly if it is declared so. -/
theorem void_stored_iff_declared (p : Program) (triple : String) (g₀ g : Generator)
    (hfresh : Generator.create (some p) triple = .ok g₀)
    (hgenerate : (Generator.generate p).run g₀ = (.ok (), g)) :
    g.module.Solid ∧
      ((∃ d ∈ g.module.typeDefs, .void ∈ d.fields) ↔
        ∃ cls c, p.class? cls = some c ∧ c.isInterface = false ∧
          ∃ f ∈ c.fields, f.type = some .void) ∧
      ∀ name, (∃ v ∈ g.module.globals, v.name = name ∧ v.init.type = .void) ↔
        ∃ v, p.globals.get? name = some v ∧ v.type = some .void := by
  cases hfresh
  obtain ⟨hsolid, hvariables⟩ := Generator.solid_of_run_generate hgenerate
  obtain ⟨hlayouts, hdefs⟩ := Generator.structsOf_of_run_generate hgenerate
  -- every struct is that of a layout, and every layout has its struct
  have hstruct : ∀ d ∈ g.module.typeDefs,
      ∃ l ∈ layoutOrder p.layouts.1, Generator.IsStructOf p g.structs l d :=
    fun d hd => exists_of_forall₂ hdefs.flip hd
  refine ⟨⟨fun d hd t ht => ?_, hsolid.funcs, hsolid.globals⟩, ⟨?_, ?_⟩, hvariables⟩
  · obtain ⟨l, _, hl⟩ := hstruct d hd
    rcases hl.mem_fields_iff.1 ht with rfl | ⟨a, _, ha⟩
    · exact ⟨nofun, trivial⟩
    · exact Generator.solid_of_lowerDeclared ha
  · rintro ⟨d, hd, hvoid⟩
    obtain ⟨l, hmem, hl⟩ := hstruct d hd
    -- the reference to the dispatch table is not `void`, so an attribute is
    obtain ⟨a, ha, hlower⟩ := (hl.mem_fields_iff.1 hvoid).resolve_left nofun
    obtain ⟨cls, c, hc, hclass, f, hf, htype⟩ := Program.exists_field_of_mem_attributes hmem ha
    exact ⟨cls, c, hc, hclass, f, hf, htype.trans (Generator.lowerDeclared_eq_void_iff.1 hlower)⟩
  · rintro ⟨cls, c, hc, hclass, f, hf, htype⟩
    obtain ⟨l, hmem, _, hfields⟩ := Program.exists_layout hlayouts hc hclass
    obtain ⟨a, ha, hattribute⟩ := hfields f hf
    obtain ⟨d, hd, hl⟩ := exists_of_forall₂ hdefs hmem
    refine ⟨d, hd, hl.mem_fields_iff.2 (.inr ⟨a, ha, ?_⟩)⟩
    exact Generator.lowerDeclared_eq_void_iff.2 (hattribute.trans htype)

/-- A class with a field that is an array of its own objects, and with a method without a result:
    the module stores nothing `void`, though a function returns it. -/
theorem void_is_only_returned :
    let m : Method :=
      { name := "m", params := [⟨"q", some (.array (.named "A"))⟩], ret := some .void }
    let p := Program.ofDecls [.class_ "A" none [], .field "A" "x" (some (.array (.named "A"))),
      .method "A" m, .global "y" (some (.named "A"))]
    ∃ g₀ g, Generator.create (some p) "" = .ok g₀ ∧ (Generator.generate p).run g₀ = (.ok (), g) ∧
      g.module.Solid ∧
      (∀ d ∈ g.module.typeDefs, .void ∉ d.fields) ∧ (∀ v ∈ g.module.globals, v.init.type ≠ .void) ∧
      ∃ f ∈ g.module.funcs, f.ret = .void := by
  intro m p
  let g₀ : Generator := { module := { triple := "" } }
  have hsucceeds : ((Generator.generate p).run g₀).1.toBool := by decide +kernel
  have hrun := run_eq_of_toBool hsucceeds
  obtain ⟨hsolid, hfields, hvariables⟩ := void_stored_iff_declared p "" g₀ _ rfl hrun
  refine ⟨g₀, _, rfl, hrun, hsolid, fun d hd hvoid => ?_, fun v hv hvoid => ?_, ?_⟩
  · obtain ⟨cls, c, hc, _, f, hf, htype⟩ := hfields.1 ⟨d, hd, hvoid⟩
    have hnone : ∀ c ∈ p.classes.values, ∀ f ∈ c.fields, f.type ≠ some .void := by decide +kernel
    exact hnone c (Dict.mem_values_of_get? hc) f hf htype
  · obtain ⟨w, hw, htype⟩ := (hvariables v.name).1 ⟨v, hv, rfl, hvoid⟩
    have hnone : ∀ w ∈ p.globals.symbols.values, w.type ≠ some .void := by decide +kernel
    exact hnone w (Dict.mem_values_of_get? hw) htype
  · decide +kernel

/-- **Stored `void`.** A class with a field that is `void`, and a global variable that is: both are
    stored. -/
theorem void_is_stored :
    let p : Program :=
      .ofDecls [.class_ "A" none [], .field "A" "x" (some .void), .global "y" (some .void)]
    ∃ g₀ g, Generator.create (some p) "" = .ok g₀ ∧ (Generator.generate p).run g₀ = (.ok (), g) ∧
      g.module.typeDefs = [⟨"A", [.anyPointer, .void]⟩] ∧
      ⟨"y", .zero .void⟩ ∈ g.module.globals := by
  intro p
  let g₀ : Generator := { module := { triple := "" } }
  have hsucceeds : ((Generator.generate p).run g₀).1.toBool := by decide +kernel
  refine ⟨g₀, _, rfl, run_eq_of_toBool hsucceeds, ?_, ?_⟩
  · decide +kernel
  · decide +kernel

end Decaf
