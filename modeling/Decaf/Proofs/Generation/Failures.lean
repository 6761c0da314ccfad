import Decaf.Proofs.Generation.Representation
import Decaf.Proofs.Generation.Symbols
import Decaf.Proofs.Layout.Clashes

namespace Decaf

/-!
# When generation fails

Generation goes through five stages, and each may fail in ways of its own.  For a program that
declarations build, over words, only what the program itself says can make it fail: its hierarchy,
fields that are declared again, and types without a representation.  What a later stage expects to
find has always been made by an earlier one.

* `Program.Lowerable` — a type has a representation, said without generators, and
  `Generator.lowers_iff_lowerable`.
* `Program.Generable` — nothing is wrong with the program.
* `Program.Fault` — what is wrong with the program, by the error that tells of it.
* `Generator.fault_of_run_declareMethods`, … — the stages fail for a fault of the program only.
* `Generator.run_constructVTables_ne_error` — dispatch tables can always be made.
* `generate_succeeds_iff` — generation succeeds exactly if nothing is wrong with the program.
-/

/-! ### What may be wrong with a program -/

/-- What is left of a type without the arrays around it. -/
def Ty.base : Ty → Ty
  | .array elem => elem.base
  | t => t

namespace Program

/-- The type has a representation: there is a type, and what its arrays are of is no error, is
    declared if it has a name, and is not `void` inside an array. -/
def Lowerable (p : Program) (type : Option Ty) : Prop :=
  ∃ t, type = some t ∧ t.base ≠ .error ∧ (∀ name, t.base = .named name → p.classes.contains name) ∧
    (t.base = .void → t = .void)

/-- Nothing is wrong with the program. -/
structure Generable (p : Program) : Prop where
  hierarchy : p.hierarchyErrors = []
  not_redeclares : ∀ cls field, ¬ p.Redeclares cls field
  fields : ∀ cls c, p.class? cls = some c → c.isInterface = false →
    ∀ f ∈ c.fields, p.Lowerable f.type
  signatures : ∀ name m, p.HasSignature name m →
    p.Lowerable m.ret ∧ ∀ q ∈ m.params, p.Lowerable q.type ∧ q.type ≠ some .void
  globals : ∀ name v, p.globals.get? name = some v → p.Lowerable v.type

/-- What is wrong with the program, by the error that tells of it. -/
inductive Fault (p : Program) : GenError → Prop
  | invalidHierarchy {e : HierarchyError} :
      p.hierarchyErrors.head? = some e → Fault p (.invalidHierarchy e)
  | attributeRedefined {e : AttributeRedefined} :
      p.Redeclares e.cls e.field → Fault p (.attributeRedefined e)
  /-- The field may be an inherited one. -/
  | fieldType {cls b : String} {c : ClassDecl} {f : Symbol} {reason : LowerError} :
      b ∈ p.chain cls → p.class? b = some c → c.isInterface = false → f ∈ c.fields →
      ¬ p.Lowerable f.type → Fault p (.fieldType cls f.name reason)
  | returnType {name : String} {m : Method} {reason : LowerError} :
      p.HasSignature name m → ¬ p.Lowerable m.ret → Fault p (.returnType name reason)
  | paramType {name : String} {m : Method} {q : Param} {reason : LowerError} :
      p.HasSignature name m → q ∈ m.params → ¬ p.Lowerable q.type →
      Fault p (.paramType q.name name reason)
  | voidParam {name : String} {m : Method} {q : Param} :
      p.HasSignature name m → q ∈ m.params → q.type = some .void → Fault p (.voidParam q.name name)
  | globalType {name : String} {v : Symbol} {reason : LowerError} :
      p.globals.get? name = some v → ¬ p.Lowerable v.type → Fault p (.globalType name reason)

/-- A program with a fault is one with which something is wrong. -/
theorem Fault.not_generable {p : Program} {e : GenError} (h : p.Fault e) : ¬ p.Generable := by
  intro hp
  cases h with
  | invalidHierarchy hhead => simp [hp.hierarchy] at hhead
  | attributeRedefined hfield => exact hp.not_redeclares _ _ hfield
  | fieldType _ hc hclass hf htype => exact htype (hp.fields _ _ hc hclass _ hf)
  | returnType hm htype => exact htype (hp.signatures _ _ hm).1
  | paramType hm hq htype => exact htype ((hp.signatures _ _ hm).2 _ hq).1
  | voidParam hm hq hvoid => exact ((hp.signatures _ _ hm).2 _ hq).2 hvoid
  | globalType hv htype => exact htype (hp.globals _ _ hv)

end Program

namespace Generator

variable {p : Program} {g g' : Generator} {e : GenError}

/-! ### Types with a representation -/

/-- The structs that are known are those of the classes. -/
def KnowsClasses (p : Program) (structs : Dict Nat) : Prop :=
  ∀ cls, structs.get? cls ≠ none ↔ ∃ c, p.class? cls = some c ∧ c.isInterface = false

/-- Where nothing was known, the structs of the classes are known once they have numbers. -/
theorem knowsClasses_numberStructs {layouts : Dict Layout} (h : p.Completed layouts)
    (number : Nat) : KnowsClasses p (numberStructs .empty number (layoutOrder layouts)) := by
  intro cls
  constructor
  · intro hknown
    by_cases hmem : cls ∈ (layoutOrder layouts).map (·.name)
    · obtain ⟨l, hl, rfl⟩ := List.mem_map.1 hmem
      exact h.class_of_mem_layoutOrder hl
    · rw [get?_numberStructs_of_not_mem hmem] at hknown
      exact absurd (Dict.get?_empty cls) hknown
  · rintro ⟨c, hc, hclass⟩
    obtain ⟨l, hl, _⟩ := h.complete hc hclass
    obtain rfl : l.name = cls := h.name_eq hl
    exact get?_numberStructs_of_mem (h.mem_layoutOrder_iff.2 hl) _ _

/-- A named type has a representation exactly if it is declared. -/
theorem lowers_named_iff (hg : KnowsClasses p g.structs) {name : String} :
    g.Lowers p (some (.named name)) ↔ p.classes.contains name := by
  have hnamed : g.lower p (some (.named name)) = lowerType p g.structs (.named name) := rfl
  have hcontains : p.classes.contains name = (p.class? name).isSome := rfl
  rw [Lowers, hnamed, lowerType, hcontains]
  cases hget : g.structs.get? name with
  | some number =>
    obtain ⟨c, hc, _⟩ := (hg name).1 (by simp [hget])
    simp [hc]
  | none =>
    cases hc : p.class? name with
    | none => simp
    | some c =>
      -- a class without a struct is an interface
      have hinterface : c.isInterface = true := by
        by_contra hclass
        exact (hg name).2 ⟨c, hc, by simpa using hclass⟩ hget
      simp [hinterface]

/-- **Representations.** Where the structs of the classes are known, a type has a representation
    exactly if nothing is wrong with it. -/
theorem lowers_iff_lowerable (hg : KnowsClasses p g.structs) (type : Option Ty) :
    g.Lowers p type ↔ p.Lowerable type := by
  cases type with
  | none => simp [Lowers, lower, lowerDeclared, Program.Lowerable]
  | some t =>
    simp only [Program.Lowerable, Option.some.injEq, exists_eq_left']
    induction t with
    | array elem ih =>
      -- an array of arrays is refused for the same reason as its innermost element
      have hvoid : (elem.base = .void → elem = .void) ∧ elem ≠ .void ↔ elem.base ≠ .void := by
        constructor
        · rintro ⟨hbase, hne⟩ heq
          exact hne (hbase heq)
        · intro hne
          refine ⟨fun heq => absurd heq hne, ?_⟩
          rintro rfl
          exact hne rfl
      rw [lowers_array_iff, ih]
      simp only [Ty.base, and_assoc, hvoid, reduceCtorEq, imp_false, ne_eq]
    | named name => simp [lowers_named_iff hg, Ty.base]
    | _ => simp [Lowers, lower, lowerDeclared, lowerType, Ty.base]

/-- A type on which lowering fails has no representation. -/
theorem not_lowerable_of_error (hg : KnowsClasses p g.structs) {type : Option Ty}
    {reason : LowerError} (h : lowerDeclared p g.structs type = .error reason) :
    ¬ p.Lowerable type := by
  rw [← lowers_iff_lowerable hg]
  rintro ⟨u, hu⟩
  cases h.symm.trans hu

/-! ### Layouts and structs -/

/-- The first stage fails for a field that is declared again. -/
theorem fault_of_run_buildLayouts (hp : p.Valid) (hempty : p.class? "" = none)
    (h : (buildLayouts p).run g = (.error e, g')) : p.Fault e := by
  unfold buildLayouts at h
  rcases hlayouts : p.layouts with ⟨layouts, _ | error⟩ <;> rw [hlayouts] at h
  · cases h
  · cases h
    exact .attributeRedefined (hp.redeclares_of_layouts hempty (by rw [hlayouts]))

/-- The fields of a class are represented up to one that has no representation. -/
theorem fieldTypes_error {structs : Dict Nat} {cls : String} {attributes : List Attribute}
    (h : fieldTypes p structs cls attributes = .error e) :
    ∃ a ∈ attributes, ∃ reason, lowerDeclared p structs a.type = .error reason ∧
      e = .fieldType cls a.name reason := by
  refine exists_of_collect_error (fieldTypes p structs cls) nofun (fun a as h => ?_) h
  rw [fieldTypes] at h
  cases ha : lowerDeclared p structs a.type with
  | error reason => simp_all
  | ok t => cases hrest : fieldTypes p structs cls as <;> simp_all

/-- Structs are defined up to one with a field that has no representation. -/
theorem run_defineStructs_error {ls : List Layout}
    (h : (defineStructs p ls).run g = (.error e, g')) :
    ∃ l ∈ ls, fieldTypes p g.structs l.name l.attributes = .error e := by
  induction ls generalizing g with
  | nil => cases h
  | cons l ls ih =>
    rw [defineStructs, run_bind, run_get] at h
    dsimp only at h
    cases htypes : fieldTypes p g.structs l.name l.attributes with
    | error e' =>
      rw [htypes, run_bind, run_modify] at h
      cases h
      exact ⟨l, List.mem_cons_self, htypes⟩
    | ok types =>
      rw [htypes, run_bind, run_modify] at h
      obtain ⟨k, hk, herror⟩ := ih h
      exact ⟨k, List.mem_cons_of_mem l hk, herror⟩

/-- The second stage fails for a field without a representation. -/
theorem fault_of_run_declareClasses (hp : p.Valid) (hempty : p.class? "" = none)
    (hlayouts : p.layouts.2 = none) (hg : g.layouts = p.layouts.1) (hstructs : g.structs = .empty)
    (h : (declareClasses p).run g = (.error e, g')) : p.Fault e := by
  have hcompleted : p.Completed p.layouts.1 := hp.completed_layouts hempty (Prod.ext rfl hlayouts)
  unfold declareClasses at h
  rw [run_bind, run_get] at h
  dsimp only at h
  unfold declareStructs at h
  rw [run_bind, run_modify] at h
  obtain ⟨l, hl, herror⟩ := run_defineStructs_error h
  obtain ⟨a, ha, reason, hlower, rfl⟩ := fieldTypes_error herror
  rw [hg, hcompleted.mem_layoutOrder_iff] at hl
  -- the attribute is a field of a class on the chain
  obtain ⟨c, hc, hclass⟩ := hcompleted.class_of_get? hl
  obtain ⟨_, hsourced⟩ := hp.sourced_completeLayouts hempty (fun _ hl => hl) l.name l hl
  obtain ⟨b, hb, f, hf, hname, htype⟩ := hsourced a ha
  obtain ⟨d, hd, hclass'⟩ := hp.isClass_of_mem_chain hc hclass hb
  have hown : f ∈ d.fields := by simpa [Program.ownFields, hd] using hf
  rw [← hname]
  refine .fieldType hb hd hclass' hown ?_
  rw [htype]
  refine not_lowerable_of_error ?_ hlower
  dsimp only
  rw [hg, hstructs]
  exact knowsClasses_numberStructs hcompleted _

/-! ### Signatures -/

/-- Parameters are represented up to one without a representation, or one that is `void`. -/
theorem lowerParams_error {structs : Dict Nat} {name : String} {qs : List Param}
    (h : lowerParams p structs name qs = .error e) :
    ∃ q ∈ qs, (∃ reason, lowerDeclared p structs q.type = .error reason ∧
        e = .paramType q.name name reason) ∨
      q.type = some .void ∧ e = .voidParam q.name name := by
  refine exists_of_collect_error (lowerParams p structs name) nofun (fun q qs h => ?_) h
  rw [lowerParams] at h
  cases hq : lowerDeclared p structs q.type with
  | error reason => simp_all
  | ok t =>
    rw [hq] at h
    dsimp only at h
    split at h
    · rename_i hvoid
      cases h
      exact .inl (.inr ⟨lowerDeclared_eq_void_iff.1 (hvoid ▸ hq), rfl⟩)
    · cases hrest : lowerParams p structs name qs <;> simp_all

/-- A signature of the program is not represented for a fault of its own. -/
theorem fault_of_lowerSignature (hg : KnowsClasses p g.structs) {name : String} {m : Method}
    {leading : List Llvm.Param} (hm : p.HasSignature name m)
    (h : lowerSignature p g.structs name m leading = .error e) : p.Fault e := by
  unfold lowerSignature at h
  cases hret : lowerDeclared p g.structs m.ret with
  | error reason =>
    rw [hret] at h
    cases h
    exact .returnType hm (not_lowerable_of_error hg hret)
  | ok ret =>
    rw [hret] at h
    cases hparams : lowerParams p g.structs name m.params with
    | ok params =>
      rw [hparams] at h
      cases h
    | error e' =>
      rw [hparams] at h
      cases h
      obtain ⟨q, hq, ⟨reason, hreason, rfl⟩ | ⟨hvoid, rfl⟩⟩ := lowerParams_error hparams
      · exact .paramType hm hq (not_lowerable_of_error hg hreason)
      · exact .voidParam hm hq hvoid

/-- A function is not declared for what is wrong with its signature. -/
theorem run_declareFunc_error {name : String} {m : Method} {leading : List Llvm.Param}
    (h : (declareFunc p name m leading).run g = (.error e, g')) :
    lowerSignature p g.structs name m leading = .error e := by
  unfold declareFunc at h
  rw [run_bind, run_get] at h
  dsimp only at h
  cases hf : lowerSignature p g.structs name m leading with
  | error e' =>
    rw [hf] at h
    cases h
    rfl
  | ok f =>
    rw [hf] at h
    cases h

/-- A method is not declared for what is wrong with its signature, or because its name is known. -/
theorem run_declareMethod_error {cls : String} {m : Method}
    (h : (declareMethod p cls m).run g = (.error e, g')) :
    (∃ leading, lowerSignature p g.structs (methodSymbol cls m.name) m leading = .error e) ∨
      g.functions.get? (methodSymbol cls m.name) ≠ none := by
  unfold declareMethod at h
  rw [run_bind, run_get] at h
  rcases run_bind_error h with h | ⟨f, g₁, hdeclare, h⟩
  · exact .inl ⟨_, run_declareFunc_error h⟩
  · obtain ⟨hf, rfl⟩ := run_declareFunc_ok hdeclare
    rw [run_bind, run_get] at h
    dsimp only at h
    rw [name_of_lowerSignature hf] at h
    refine .inr fun hnone => ?_
    have hfree : (g.addFunc f).functions.contains (methodSymbol cls m.name) = false :=
      Dict.contains_eq_false_iff.2 hnone
    rw [hfree] at h
    cases h

/-! ### Names that are known -/

/-- **Run.** What is known after functions are declared one after the other was known before, or is
    one of them. -/
theorem known_of_run_forM {α : Type} {step : α → Gen Unit} (name : α → String)
    (hstep : ∀ x t t', (step x).run t = (.ok (), t') →
      ∃ f : Llvm.Func, f.name = name x ∧ t' = t.withFunc f)
    {xs : List α} (h : (xs.forM step).run g = (.ok (), g')) {n : String}
    (hn : g'.functions.get? n ≠ none) : g.functions.get? n ≠ none ∨ n ∈ xs.map name := by
  revert hn
  refine forM_induction
    (fun done t => t.functions.get? n ≠ none → g.functions.get? n ≠ none ∨ n ∈ done.map name)
    h .inl ?_
  intro done x _ t t' _ hdone hrun hn
  obtain ⟨f, hf, rfl⟩ := hstep x t t' hrun
  rw [List.map_append, List.map_singleton]
  -- one round makes one function known, that of its name
  by_cases heq : n = f.name
  · rw [heq, hf]
    exact .inr (List.mem_append_right _ (List.mem_singleton_self _))
  · rw [withFunc, Dict.get?_insert_of_ne _ _ heq] at hn
    exact (hdone hn).imp_right (List.mem_append_left _)

/-- **Run.** So it is for the methods of a class. -/
theorem known_of_run_methods {cls : String} {ms : List Method}
    (h : (ms.forM (declareMethod p cls)).run g = (.ok (), g')) {name : String}
    (hname : g'.functions.get? name ≠ none) :
    g.functions.get? name ≠ none ∨ name ∈ ms.map fun m => methodSymbol cls m.name := by
  refine known_of_run_forM (fun m : Method => methodSymbol cls m.name)
    (fun m t t' hrun => ?_) h hname
  obtain ⟨f, hf, _, rfl⟩ := run_declareMethod_ok hrun
  exact ⟨f, name_of_lowerSignature hf, rfl⟩

/-- **Run.** So it is for the functions outside of classes. -/
theorem known_of_run_functions {entries : List (String × Method)}
    (h : (entries.forM fun x => declareFunction p x.1 x.2).run g = (.ok (), g')) {name : String}
    (hname : g'.functions.get? name ≠ none) :
    g.functions.get? name ≠ none ∨ name ∈ entries.map (·.1) := by
  refine known_of_run_forM (fun x : String × Method => x.1) (fun x t t' hrun => ?_) h hname
  obtain ⟨f, hf, _, rfl⟩ := run_declareFunction_ok hrun
  exact ⟨f, name_of_lowerSignature hf, rfl⟩

/-- **Run.** What is known after the methods of several classes are declared was known before, or is
    one of them. -/
theorem known_of_run_classes {ls : List Layout}
    (h : (ls.forM fun l => (ownMethods p l).forM (declareMethod p l.name)).run g = (.ok (), g'))
    {name : String} (hname : g'.functions.get? name ≠ none) :
    g.functions.get? name ≠ none ∨ name ∈ ls.flatMap (methodNames p) := by
  revert hname
  refine forM_induction (fun done t => t.functions.get? name ≠ none →
    g.functions.get? name ≠ none ∨ name ∈ done.flatMap (methodNames p)) h .inl ?_
  intro done l _ t t' _ hdone hrun hname
  rw [List.flatMap_append, List.flatMap_singleton]
  rcases known_of_run_methods hrun hname with hknown | hmem
  · exact (hdone hknown).imp_right (List.mem_append_left _)
  · exact .inr (List.mem_append_right _ hmem)

/-- The functions of methods have names of their own, so none is known when its turn comes. -/
theorem not_known_of_run_methods (hp : p.Lawful)
    (hclasses : ∀ {cls c}, p.class? cls = some c → IsIdentifier cls)
    (hcompleted : p.Completed g.layouts) (hnew : ∀ name, g.functions.get? name = none)
    {done rest : List Layout} {l : Layout} {t u : Generator}
    (horder : layoutOrder g.layouts = done ++ l :: rest)
    (hdone : (done.forM fun l => (ownMethods p l).forM (declareMethod p l.name)).run g =
      (.ok (), t))
    {ms ms' : List Method} {m : Method} (hms : ownMethods p l = ms ++ m :: ms')
    (hbefore : (ms.forM (declareMethod p l.name)).run t = (.ok (), u)) :
    u.functions.get? (methodSymbol l.name m.name) = none := by
  have hnodup : ((layoutOrder g.layouts).flatMap (methodNames p)).Nodup := by
    refine nodup_flatMap_methodNames hp (fun k hk => ?_)
      (nodup_layoutOrder fun _ _ => hcompleted.name_eq)
    obtain ⟨c, hc, _⟩ := hcompleted.class_of_mem_layoutOrder hk
    exact ⟨hclasses hc, c, hc⟩
  have hnames : methodNames p l =
      ms.map (fun m => methodSymbol l.name m.name) ++
        methodSymbol l.name m.name :: ms'.map fun m => methodSymbol l.name m.name := by
    rw [methodNames, hms, List.map_append, List.map_cons]
  rw [horder, List.flatMap_append, List.flatMap_cons, hnames, List.append_assoc,
    List.nodup_append] at hnodup
  obtain ⟨_, hrest, hdisjoint⟩ := hnodup
  -- the name is among neither those of the classes before, nor those of the methods before
  by_contra hknown
  rcases known_of_run_methods hbefore hknown with hknown | hmem
  · rcases known_of_run_classes hdone hknown with hknown | hmem
    · exact hknown (hnew _)
    · exact hdisjoint _ hmem _ (by simp) rfl
  · exact (List.nodup_append.1 hrest).2.2 _ hmem _ (by simp) rfl

/-! ### Methods -/

/-- The third stage fails for a signature of a method.  No method is declared twice, for the names
    of the functions of methods are all different. -/
theorem fault_of_run_declareMethods (hp : p.Lawful)
    (hclasses : ∀ {cls c}, p.class? cls = some c → IsIdentifier cls)
    (hcompleted : p.Completed g.layouts) (hg : KnowsClasses p g.structs)
    (hnew : ∀ name, g.functions.get? name = none) (h : (declareMethods p).run g = (.error e, g')) :
    p.Fault e := by
  unfold declareMethods at h
  rw [run_bind, run_get] at h
  obtain ⟨done, l, rest, t, horder, hdone, hclass⟩ := run_forM_error h
  obtain ⟨ms, m, ms', u, hms, hbefore, hmethod⟩ := run_forM_error hclass
  obtain ⟨c, hc, hclass'⟩ :=
    hcompleted.class_of_mem_layoutOrder (show l ∈ layoutOrder g.layouts by simp [horder])
  have hown : m ∈ c.methods.values := by
    simp [← ownMethods_eq hc, hms]
  -- declaring functions has not changed the structs, so representations are as at the start
  have hu : u.structs = g.structs := by
    have hadds : AddsFuncs g t := forM_induction (fun _ s => AddsFuncs g s) hdone (.refl g)
      fun _ _ _ _ _ _ hs hrun => hs.trans (run_declareMethods_of_class_ok hrun).1
    rw [(run_declareMethods_of_class_ok hbefore).1.structs_eq, hadds.structs_eq]
  rcases run_declareMethod_error hmethod with ⟨leading, herror⟩ | hknown
  · exact fault_of_lowerSignature (hu ▸ hg) (.method hc hclass' hown) herror
  · exact absurd (not_known_of_run_methods hp hclasses hcompleted hnew horder hdone hms hbefore)
      hknown

/-! ### Dispatch tables -/

/-- The functions behind slots are collected up to one that is not known. -/
theorem slotFuncs_error {functions : Dict Llvm.Func} {slots : List Slot}
    (h : slotFuncs functions slots = .error e) : ∃ s ∈ slots, functions.get? s.symbol = none := by
  refine exists_of_collect_error (slotFuncs functions) nofun (fun s slots h => ?_) h
  rw [slotFuncs] at h
  cases hs : functions.get? s.symbol with
  | none => exact .inl rfl
  | some f => cases hrest : slotFuncs functions slots <;> simp_all

/-- A table cannot be made if that of the parent is not known, or the function of a slot. -/
theorem run_constructVTable_error {l : Layout}
    (h : (constructVTable l l.dispatchOrder).run g = (.error e, g')) :
    (∃ a, l.parent = some a ∧ g.vtables.get? a = none) ∨
      ∃ s ∈ l.dispatchOrder, g.functions.get? s.symbol = none := by
  -- the constant with the name is made in any case, and changes neither table
  obtain ⟨r, g₁, hlabel, hvtables, hfunctions⟩ : ∃ r g₁, (label l.name).run g = (.ok r, g₁) ∧
      g₁.vtables = g.vtables ∧ g₁.functions = g.functions := by
    rcases run_label g l.name with ⟨v, _, hrun⟩ | hrun
    · exact ⟨_, _, hrun, rfl, rfl⟩
    · exact ⟨_, _, hrun, rfl, rfl⟩
  unfold constructVTable at h
  rw [run_bind, hlabel] at h
  dsimp only at h
  rw [run_bind, run_get] at h
  dsimp only at h
  rw [hvtables, hfunctions] at h
  rcases run_bind_error h with h | ⟨parent, g₂, _, h⟩
  · rw [run_liftM] at h
    have herror : parentTable g.vtables l = .error e := (Prod.mk.inj h).1
    unfold parentTable at herror
    cases hparent : l.parent with
    | none => simp [hparent] at herror
    | some a =>
      cases hget : g.vtables.get? a with
      | none => exact .inl ⟨a, rfl, hget⟩
      | some v => simp [hparent, hget] at herror
  · rcases run_bind_error h with h | ⟨methods, g₃, _, h⟩
    · rw [run_liftM] at h
      exact .inr (slotFuncs_error (Prod.mk.inj h).1)
    · cases h

/-- The fourth stage does not fail.  Parents come first, so their tables are known, and so are the
    functions in all slots, for they are those of methods of classes. -/
theorem run_constructVTables_ne_error (hp : p.Valid)
    (hclasses : ∀ {cls c}, p.class? cls = some c → IsIdentifier cls)
    (hcompleted : p.Completed g.layouts) (hglobals : g.module.globals = [])
    (hvtables : ∀ cls, g.vtables.get? cls = none)
    (hdeclared : ∀ l ∈ layoutOrder g.layouts, ∀ c, p.class? l.name = some c →
      ∀ m ∈ c.methods.values, Declared p g l.name m) :
    constructVTables.run g ≠ (.error e, g') := by
  intro h
  unfold constructVTables at h
  rw [run_bind, run_get] at h
  obtain ⟨done, l, rest, t, horder, hdone, hfailed⟩ := run_forM_error h
  -- the tables of the classes before the one that fails are made
  have hmade : MadeTables g done t := by
    refine madeTables_of_run hglobals hvtables (fun k hk => ?_) ?_ hdone
    · obtain ⟨c, hc, _⟩ :=
        hcompleted.class_of_mem_layoutOrder (show k ∈ layoutOrder g.layouts by simp [horder, hk])
      exact hclasses hc
    · have hnodup := nodup_layoutOrder fun _ _ => hcompleted.name_eq
      rw [horder, List.map_append] at hnodup
      exact (List.nodup_append.1 hnodup).1
  rcases run_constructVTable_error hfailed with ⟨a, hparent, hnone⟩ | ⟨s, hs, hnone⟩
  · -- the parent is among them
    obtain ⟨k, hk, rfl⟩ := hp.exists_parent_before hcompleted horder hparent
    obtain ⟨_, _, hknown, _⟩ := hmade.tables k hk
    cases hnone.symm.trans hknown
  · -- the slot belongs to a method of a class of the chain, which was declared
    have hl := hcompleted.mem_layoutOrder_iff.1 (show l ∈ layoutOrder g.layouts by simp [horder])
    obtain ⟨m, hm⟩ := Dict.mem_values_iff.1 ((sortByRank_perm _ _).mem_iff.1 hs)
    obtain ⟨d, c, method, _, hc, hclass, hmethod, _, hsymbol⟩ := hp.method_of_slot hcompleted hl hm
    obtain ⟨k, hk, _⟩ := hcompleted.complete hc hclass
    obtain rfl : k.name = d := hcompleted.name_eq hk
    obtain ⟨f, _, hknown, _⟩ := hdeclared k (hcompleted.mem_layoutOrder_iff.2 hk) c hc method
      (Dict.mem_values_of_get? hmethod)
    rw [(hp.lawful.classes hc).method_name hmethod, ← hsymbol] at hknown
    cases hnone.symm.trans (hmade.grows.functions hknown)

/-! ### Functions and global variables -/

/-- A function outside of classes is not declared for what is wrong with its signature, or because
    its name is known. -/
theorem run_declareFunction_error {name : String} {m : Method}
    (h : (declareFunction p name m).run g = (.error e, g')) :
    lowerSignature p g.structs name m [] = .error e ∨ g.functions.get? name ≠ none := by
  unfold declareFunction at h
  rw [run_bind, run_get] at h
  dsimp only at h
  cases hget : g.functions.get? name with
  | some f => exact .inr (by simp)
  | none =>
    have hfree : g.functions.contains name = false := Dict.contains_eq_false_iff.2 hget
    rw [hfree] at h
    rcases run_bind_error h with h | ⟨f, g₁, _, h⟩
    · exact .inl (run_declareFunc_error h)
    · cases h

/-- A global variable is not defined for its type. -/
theorem run_defineGlobal_error {name : String} {type : Option Ty}
    (h : (defineGlobal p name type).run g = (.error e, g')) :
    ∃ reason, lowerDeclared p g.structs type = .error reason ∧ e = .globalType name reason := by
  unfold defineGlobal at h
  rw [run_bind, run_get] at h
  dsimp only at h
  cases ht : g.lower p type with
  | ok t =>
    rw [ht] at h
    cases h
  | error reason =>
    rw [ht] at h
    cases h
    exact ⟨reason, ht, rfl⟩

/-- The last stage fails for a signature of a function or the type of a global variable.  No
    function is declared twice, for its name is no name of a method's function. -/
theorem fault_of_run_declareGlobals
    (hfunctions : ∀ {name f}, p.functions.get? name = some f → IsIdentifier name)
    (hg : KnowsClasses p g.structs)
    (hknown : ∀ name, g.functions.get? name ≠ none → ∃ cls m, name = methodSymbol cls m)
    (h : (declareGlobals p).run g = (.error e, g')) : p.Fault e := by
  unfold declareGlobals at h
  rcases run_bind_error h with h | ⟨_, g₁, hdeclared, h⟩
  · obtain ⟨done, x, rest, t, hentries, hdone, hfailed⟩ := run_forM_error h
    have hx : p.functions.get? x.1 = some x.2 := Dict.get?_eq_some_iff.2 (by simp [hentries])
    have ht : t.structs = g.structs := (run_declareFunctions_ok hdone).1.structs_eq
    rcases run_declareFunction_error hfailed with herror | htaken
    · exact fault_of_lowerSignature (ht ▸ hg) (.function hx) herror
    · exfalso
      -- the name would have to be that of a method, or of an earlier function
      rcases known_of_run_functions hdone htaken with hold | hmem
      · obtain ⟨cls, m, heq⟩ := hknown _ hold
        exact (hfunctions hx).ne_methodSymbol heq
      · have hnodup := Dict.nodup_keys p.functions
        rw [Dict.keys, hentries, List.map_append, List.nodup_append] at hnodup
        exact hnodup.2.2 _ hmem _ List.mem_cons_self rfl
  · obtain ⟨done, x, rest, t, hentries, hdone, hfailed⟩ := run_forM_error h
    have hx : p.globals.get? x.1 = some x.2 := Dict.get?_eq_some_iff.2 (by simp [hentries])
    have ht : t.structs = g₁.structs := forM_induction (fun _ s => s.structs = g₁.structs) hdone rfl
      fun _ _ _ _ _ _ hs hrun => by
        obtain ⟨u, _, rfl⟩ := run_defineGlobal_ok hrun
        exact hs
    obtain ⟨reason, hreason, rfl⟩ := run_defineGlobal_error hfailed
    -- no stage after the second one has touched the structs
    have hlast : t.structs = g.structs := ht.trans (run_declareFunctions_ok hdeclared).1.structs_eq
    exact .globalType hx (not_lowerable_of_error (hlast ▸ hg) hreason)

/-! ### All stages -/

section Fresh

variable {triple : String}

/-- **All stages.** A fresh generator fails for a fault of the program only, if the names of the
    program are words. -/
theorem fault_of_run_generate (hp : p.Lawful)
    (hclasses : ∀ {cls c}, p.class? cls = some c → IsIdentifier cls)
    (hfunctions : ∀ {name f}, p.functions.get? name = some f → IsIdentifier name)
    (h : (generate p).run { module := { triple := triple } } = (.error e, g')) : p.Fault e := by
  unfold generate at h
  cases herrors : p.hierarchyErrors with
  | cons error errors =>
    rw [herrors] at h
    cases h
    exact .invalidHierarchy (by rw [herrors]; rfl)
  | nil =>
    rw [herrors] at h
    dsimp only at h
    have hvalid : p.Valid := ⟨hp, herrors⟩
    have hempty : p.class? "" = none := class?_empty hclasses
    rcases run_bind_error h with h | ⟨_, g₁, h₁, h⟩
    · exact fault_of_run_buildLayouts hvalid hempty h
    obtain ⟨hlayouts, rfl⟩ := run_buildLayouts_iff.1 h₁
    have hcompleted : p.Completed p.layouts.1 :=
      hvalid.completed_layouts hempty (Prod.ext rfl hlayouts)
    rcases run_bind_error h with h | ⟨_, g₂, h₂, h⟩
    · exact fault_of_run_declareClasses hvalid hempty hlayouts rfl rfl h
    obtain ⟨defs, log, rfl, _⟩ := run_declareClasses_ok h₂
    have hknows := knowsClasses_numberStructs hcompleted 0
    rcases run_bind_error h with h | ⟨_, g₃, h₃, h⟩
    · exact fault_of_run_declareMethods hp hclasses hcompleted hknows
        (fun name => Dict.get?_empty name) h
    obtain ⟨hadds, hmethods⟩ := run_declareMethods_ok h₃
    have hlayouts₃ : g₃.layouts = p.layouts.1 := hadds.layouts_eq
    have hknows₃ : KnowsClasses p g₃.structs := hadds.structs_eq ▸ hknows
    rcases run_bind_error h with h | ⟨_, g₄, h₄, h⟩
    · refine absurd h (run_constructVTables_ne_error hvalid hclasses
        (hlayouts₃ ▸ hcompleted) hadds.globals_eq ?_ ?_)
      · rw [hadds.vtables_eq]
        exact fun cls => Dict.get?_empty cls
      · rw [hlayouts₃]
        exact hmethods
    have hadds₄ := addsGlobals_of_run_constructVTables h₄
    refine fault_of_run_declareGlobals hfunctions (hadds₄.structs_eq ▸ hknows₃)
      (fun name hname => ?_) h
    -- only functions of methods have been made known so far
    rw [hadds₄.functions_eq] at hname
    unfold declareMethods at h₃
    rw [run_bind, run_get] at h₃
    rcases known_of_run_classes h₃ hname with hold | hmem
    · exact absurd (Dict.get?_empty name) hold
    · obtain ⟨l, _, hmem⟩ := List.mem_flatMap.1 hmem
      obtain ⟨m, _, rfl⟩ := List.mem_map.1 hmem
      exact ⟨l.name, m.name, rfl⟩

/-- **All stages.** Nothing is wrong with a program that a fresh generator has generated. -/
theorem generable_of_run_generate (hp : p.Lawful) (hempty : p.class? "" = none)
    (h : (generate p).run { module := { triple := triple } } = (.ok (), g')) : p.Generable := by
  obtain ⟨herrors, _, _, _, _, h₁, _⟩ := run_generate_ok h
  have hvalid : p.Valid := ⟨hp, herrors⟩
  obtain ⟨hlayouts, _⟩ := run_buildLayouts_iff.1 h₁
  have hcompleted : p.Completed p.layouts.1 :=
    hvalid.completed_layouts hempty (Prod.ext rfl hlayouts)
  -- the structs that are known at the end are those of the classes, so representations are
  -- lowerability
  have hknows : KnowsClasses p g'.structs := by
    rw [structs_of_run_generate h]
    exact knowsClasses_numberStructs hcompleted 0
  have hlowered := lowered_of_run_generate h
  constructor
  · exact herrors
  · exact (hvalid.layouts_eq_none_iff hempty).1 hlayouts
  · intro cls c hc hclass f hf
    exact (lowers_iff_lowerable hknows _).1 (hlowered.fields hc hclass f hf)
  · intro name m hm
    obtain ⟨_, f, hf⟩ := exists_lowerSignature_of_run_generate h hm
    obtain ⟨ret, params, hret, hparams, _⟩ := lowerSignature_ok hf
    refine ⟨(lowers_iff_lowerable hknows _).1 ⟨ret, hret⟩, fun q hq => ?_⟩
    obtain ⟨hlowers, hvoid⟩ := lowers_of_lowerParams hparams hq
    exact ⟨(lowers_iff_lowerable hknows _).1 hlowers, hvoid⟩
  · intro name v hv
    exact (lowers_iff_lowerable hknows _).1 (hlowered.globals v (Dict.mem_values_of_get? hv))

end Fresh

end Generator

/-- **Generation fails for what is wrong with the program, and for nothing else.** Take a program
    that declarations build, over words, and a fresh generator.  It succeeds exactly if the
    hierarchy is valid, no class declares a field that a class above it declares too, and the types
    of the fields of classes, of results, of parameters and of global variables have
    representations, the parameters not being `void`.  An error always tells of something that is
    wrong with the program; no function is found to be declared twice, no table of a parent is
    missing, and no function of a slot. -/
theorem generate_succeeds_iff (ds : List Decl) (hwords : ∀ d ∈ ds, IsIdentifier d.name)
    (triple : String) (g₀ : Generator)
    (hfresh : Generator.create (some (Program.ofDecls ds)) triple = .ok g₀) :
    ((∃ g, (Generator.generate (Program.ofDecls ds)).run g₀ = (.ok (), g)) ↔
        (Program.ofDecls ds).Generable) ∧
      ∀ e g, (Generator.generate (Program.ofDecls ds)).run g₀ = (.error e, g) →
        (Program.ofDecls ds).Fault e ∧ (∀ f, e ≠ .declaredTwice f) ∧
          (∀ a cls, e ≠ .noParentTable a cls) ∧ ∀ s, e ≠ .noMethodFunction s := by
  have hp := Program.lawful_ofDecls ds
  have hclasses : ∀ {cls c}, (Program.ofDecls ds).class? cls = some c → IsIdentifier cls := by
    intro cls c hc
    obtain ⟨d, hd, hname⟩ := Program.exists_decl_of_class? hc
    exact Decl.name_of_class? hname ▸ hwords d hd
  have hfault : ∀ e g, (Generator.generate (Program.ofDecls ds)).run g₀ = (.error e, g) →
      (Program.ofDecls ds).Fault e := by
    intro e g h
    cases hfresh
    refine Generator.fault_of_run_generate hp hclasses (fun {name f} hf => ?_) h
    obtain ⟨d, hd, hname⟩ := Program.exists_decl_of_function? hf
    exact hname ▸ hwords d hd
  refine ⟨⟨?_, fun hgenerable => ?_⟩, fun e g h => ?_⟩
  · rintro ⟨g, h⟩
    cases hfresh
    exact Generator.generable_of_run_generate hp (Generator.class?_empty hclasses) h
  · rcases hrun : (Generator.generate (Program.ofDecls ds)).run g₀ with ⟨e | ⟨⟩, g⟩
    · exact absurd hgenerable (hfault e g hrun).not_generable
    · exact ⟨g, rfl⟩
  · have hcause := hfault e g h
    refine ⟨hcause, ?_, ?_, ?_⟩
    · rintro f rfl
      -- none of these errors tells of a fault
      cases hcause
    · rintro a cls rfl
      cases hcause
    · rintro s rfl
      cases hcause

/-- A class and its parent, the class declared first: they can be generated, unless the parent gets
    the field that the class has already. -/
theorem generate_fails_for_late_field :
    let m : Method :=
      { name := "m", params := [⟨"q", some (.array (.named "A"))⟩], ret := some .void }
    let ds : List Decl :=
      [.class_ "B" (some "A") [], .field "B" "x" (some .int), .method "B" m, .class_ "A" none [],
        .method "A" m, .function { m with name := "main" }, .global "v" (some (.named "B"))]
    let late := ds ++ [.field "A" "x" (some .int)]
    (∀ d ∈ late, IsIdentifier d.name) ∧ (Program.ofDecls ds).Generable ∧
      ¬ (Program.ofDecls late).Generable ∧
      (Program.ofDecls late).Fault (.attributeRedefined ⟨"x", "B"⟩) := by
  intro m ds late
  have hlate : ∀ d ∈ late, IsIdentifier d.name := by decide
  have hds : ∀ d ∈ ds, IsIdentifier d.name := fun d hd => hlate d (List.mem_append_left _ hd)
  let g₀ : Generator := { module := { triple := "" } }
  obtain ⟨hiff, _⟩ := generate_succeeds_iff ds hds "" g₀ rfl
  obtain ⟨hiff', herror⟩ := generate_succeeds_iff late hlate "" g₀ rfl
  have hsucceeds : ((Generator.generate (Program.ofDecls ds)).run g₀).1.toBool := by decide +kernel
  have hfails : ((Generator.generate (Program.ofDecls late)).run g₀).1 =
      .error (.attributeRedefined ⟨"x", "B"⟩) := by
    decide +kernel
  refine ⟨hlate, hiff.1 ⟨_, run_eq_of_toBool hsucceeds⟩, fun hgenerable => ?_, ?_⟩
  · obtain ⟨g, hg⟩ := hiff'.2 hgenerable
    rw [hg] at hfails
    cases hfails
  · rcases hrun : (Generator.generate (Program.ofDecls late)).run g₀ with ⟨outcome, g⟩
    rw [hrun] at hfails
    obtain rfl : outcome = .error (.attributeRedefined ⟨"x", "B"⟩) := hfails
    exact (herror _ g hrun).1

end Decaf
