import Decaf.Generator
import Decaf.Proofs.Run
import Decaf.Proofs.Dict
import Mathlib.Data.List.Forall2

namespace Decaf.Generator

/-!
# Declarations of functions

A function is declared at most once under a name, so what is known by a name stays known by it.
Declaring methods and functions adds to the module and to what is known, and leaves everything else
alone.

* `Grows` — what has been made is still there, and `AddsFuncs`, nothing but functions is new.
* `forall₂_of_lowerParams`, `lowerSignature_ok` — what a signature is represented by.
* `IsMethodFunc` — the declaration of a method, with the object on which it is called in front.
* `run_declareMethods_ok` — every method of every class is declared and known by its name.
* `run_declareFunctions_ok` — the functions outside of classes are only added, and have
  representations.
* `funcs_declareMethods`, `funcs_declareFunctions` — the names of the functions, in the order of
  their declaration.
-/

variable {p : Program} {g g' : Generator}

/-! ### Growing generators -/

/-- What has been made is still there.  The layouts and the structs with their numbers have not
    changed. -/
structure Grows (g g' : Generator) : Prop where
  layouts_eq : g'.layouts = g.layouts
  structs_eq : g'.structs = g.structs
  typeDefs_eq : g'.module.typeDefs = g.module.typeDefs
  functions : ∀ {name : String} {f : Llvm.Func}, g.functions.get? name = some f →
    g'.functions.get? name = some f
  vtables : ∀ {cls : String} {v : Llvm.Global}, g.vtables.get? cls = some v →
    g'.vtables.get? cls = some v
  mem_funcs : ∀ {f : Llvm.Func}, f ∈ g.module.funcs → f ∈ g'.module.funcs
  mem_globals : ∀ {v : Llvm.Global}, v ∈ g.module.globals → v ∈ g'.module.globals

theorem Grows.refl (g : Generator) : Grows g g where
  layouts_eq := rfl
  structs_eq := rfl
  typeDefs_eq := rfl
  functions h := h
  vtables h := h
  mem_funcs h := h
  mem_globals h := h

theorem Grows.trans {g₁ g₂ g₃ : Generator} (h : Grows g₁ g₂) (h' : Grows g₂ g₃) : Grows g₁ g₃ where
  layouts_eq := h'.layouts_eq.trans h.layouts_eq
  structs_eq := h'.structs_eq.trans h.structs_eq
  typeDefs_eq := h'.typeDefs_eq.trans h.typeDefs_eq
  functions hf := h'.functions (h.functions hf)
  vtables hv := h'.vtables (h.vtables hv)
  mem_funcs hf := h'.mem_funcs (h.mem_funcs hf)
  mem_globals hv := h'.mem_globals (h.mem_globals hv)

/-! ### Adding functions -/

/-- The generator with one more function, known by its name. -/
def withFunc (g : Generator) (f : Llvm.Func) : Generator :=
  { g.addFunc f with functions := g.functions.insert f.name f }

/-- A generator grows by nothing but functions. -/
structure AddsFuncs (g g' : Generator) : Prop extends Grows g g' where
  vtables_eq : g'.vtables = g.vtables
  globals_eq : g'.module.globals = g.module.globals

theorem AddsFuncs.refl (g : Generator) : AddsFuncs g g :=
  ⟨.refl g, rfl, rfl⟩

theorem AddsFuncs.trans {g₁ g₂ g₃ : Generator} (h : AddsFuncs g₁ g₂) (h' : AddsFuncs g₂ g₃) :
    AddsFuncs g₁ g₃ :=
  ⟨h.toGrows.trans h'.toGrows, h'.vtables_eq.trans h.vtables_eq, h'.globals_eq.trans h.globals_eq⟩

/-- A function whose name is new is only added. -/
theorem AddsFuncs.withFunc {f : Llvm.Func} (hnew : g.functions.get? f.name = none) :
    AddsFuncs g (g.withFunc f) := by
  refine ⟨⟨rfl, rfl, rfl, fun {name f'} hf' => ?_, fun h => h, fun h => List.mem_append_left _ h,
    fun h => h⟩, rfl, rfl⟩
  have hne : name ≠ f.name := fun heq => by simp [heq, hnew] at hf'
  exact (Dict.get?_insert_of_ne _ _ hne).trans hf'

/-! ### Single declarations -/

/-- Parameters are represented one by one, and none of them by nothing. -/
theorem forall₂_of_lowerParams {structs : Dict Nat} {name : String} {qs : List Param}
    {params : List Llvm.Param} (h : lowerParams p structs name qs = .ok params) :
    List.Forall₂ (fun q r => lowerDeclared p structs q.type = .ok r.type ∧
        r.type ≠ .void) qs params := by
  induction qs generalizing params with
  | nil =>
    cases h
    exact .nil
  | cons q qs ih =>
    rw [lowerParams] at h
    cases hq : lowerDeclared p structs q.type with
    | error e => simp [hq] at h
    | ok t =>
      simp only [hq] at h
      -- a parameter of type `void` is refused
      split at h
      · cases h
      · rename_i hvoid
        cases hqs : lowerParams p structs name qs with
        | error e => simp [hqs] at h
        | ok rest =>
          simp only [hqs, Except.ok.injEq] at h
          subst h
          exact .cons ⟨hq, hvoid⟩ (ih hqs)

/-- What a signature is represented by. -/
theorem lowerSignature_ok {structs : Dict Nat} {name : String} {m : Method}
    {leading : List Llvm.Param} {f : Llvm.Func}
    (h : lowerSignature p structs name m leading = .ok f) :
    ∃ ret params, lowerDeclared p structs m.ret = .ok ret ∧
      lowerParams p structs name m.params = .ok params ∧
      f = ⟨name, ret, leading ++ params⟩ := by
  unfold lowerSignature at h
  split at h
  · cases h
  · rename_i ret hret
    split at h
    · cases h
    · rename_i params hparams
      exact ⟨ret, params, hret, hparams, (Except.ok.inj h).symm⟩

/-- A declaration has the name that it was asked for. -/
theorem name_of_lowerSignature {structs : Dict Nat} {name : String} {m : Method}
    {leading : List Llvm.Param} {f : Llvm.Func}
    (h : lowerSignature p structs name m leading = .ok f) : f.name = name := by
  obtain ⟨ret, params, _, _, rfl⟩ := lowerSignature_ok h
  rfl

/-- Declaring a function adds its declaration to the module. -/
theorem run_declareFunc_ok {name : String} {m : Method} {leading : List Llvm.Param} {f : Llvm.Func}
    (h : (declareFunc p name m leading).run g = (.ok f, g')) :
    lowerSignature p g.structs name m leading = .ok f ∧ g' = g.addFunc f := by
  unfold declareFunc at h
  obtain ⟨_, _, hget, hrest⟩ := run_bind_ok h
  cases hget
  cases hf : lowerSignature p g.structs name m leading with
  | error e =>
    rw [hf] at hrest
    cases hrest
  | ok f' =>
    rw [hf] at hrest
    obtain ⟨_, _, hmodify, hpure⟩ := run_bind_ok hrest
    cases hmodify
    cases hpure
    exact ⟨rfl, rfl⟩

/-- The object on which a method is called. -/
def receiver (structs : Dict Nat) (cls : String) : Llvm.Param :=
  ⟨"this", .pointer (.struct cls ((structs.get? cls).getD 0))⟩

/-- The declaration of a method of a class. -/
def IsMethodFunc (p : Program) (structs : Dict Nat) (cls : String) (m : Method)
    (f : Llvm.Func) : Prop :=
  lowerSignature p structs (methodSymbol cls m.name) m [receiver structs cls] = .ok f

/-- Declaring a method adds its declaration, under a name that is new. -/
theorem run_declareMethod_ok {cls : String} {m : Method}
    (h : (declareMethod p cls m).run g = (.ok (), g')) :
    ∃ f, IsMethodFunc p g.structs cls m f ∧ g.functions.get? f.name = none ∧ g' = g.withFunc f := by
  unfold declareMethod at h
  obtain ⟨_, _, hget, hrest⟩ := run_bind_ok h
  cases hget
  obtain ⟨f, g₁, hdeclare, hrest⟩ := run_bind_ok hrest
  obtain ⟨hf, rfl⟩ := run_declareFunc_ok hdeclare
  obtain ⟨_, _, hget, hrest⟩ := run_bind_ok hrest
  cases hget
  refine ⟨f, hf, ?_⟩
  by_cases hknown : (g.addFunc f).functions.contains f.name
  · rw [if_pos hknown] at hrest
    cases hrest
  · rw [if_neg hknown] at hrest
    cases hrest
    exact ⟨Dict.contains_eq_false_iff.1 (Bool.eq_false_iff.2 hknown), rfl⟩

/-- Declaring a function outside of classes adds its declaration, under a name that is new. -/
theorem run_declareFunction_ok {name : String} {m : Method}
    (h : (declareFunction p name m).run g = (.ok (), g')) :
    ∃ f, lowerSignature p g.structs name m [] = .ok f ∧ g.functions.get? f.name = none ∧
      g' = g.withFunc f := by
  unfold declareFunction at h
  obtain ⟨_, _, hget, hrest⟩ := run_bind_ok h
  cases hget
  by_cases hknown : g.functions.contains name
  · rw [if_pos hknown] at hrest
    cases hrest
  · rw [if_neg hknown] at hrest
    obtain ⟨f, _, hdeclare, hregister⟩ := run_bind_ok hrest
    obtain ⟨hf, rfl⟩ := run_declareFunc_ok hdeclare
    cases hregister
    have hname := name_of_lowerSignature hf
    exact ⟨f, hf, Dict.contains_eq_false_iff.1 (by simpa [hname] using hknown), rfl⟩

/-! ### All methods, and all functions -/

/-- The method is declared in the module and known by its name. -/
def Declared (p : Program) (g : Generator) (cls : String) (m : Method) : Prop :=
  ∃ f, IsMethodFunc p g.structs cls m f ∧
    g.functions.get? (methodSymbol cls m.name) = some f ∧ f ∈ g.module.funcs

/-- Declared methods stay declared. -/
theorem Declared.of_grows {cls : String} {m : Method} (h : Declared p g cls m)
    (hgrows : Grows g g') : Declared p g' cls m := by
  obtain ⟨f, hf, hknown, hmem⟩ := h
  exact ⟨f, hgrows.structs_eq ▸ hf, hgrows.functions hknown, hgrows.mem_funcs hmem⟩

/-- **Step.** After a method is declared, it is. -/
theorem declared_of_run_declareMethod {cls : String} {m : Method}
    (h : (declareMethod p cls m).run g = (.ok (), g')) : AddsFuncs g g' ∧ Declared p g' cls m := by
  obtain ⟨f, hf, hnew, rfl⟩ := run_declareMethod_ok h
  refine ⟨.withFunc hnew, f, hf, ?_, ?_⟩
  · rw [← name_of_lowerSignature hf]
    exact Dict.get?_insert_self _ _ _
  · exact List.mem_append_right _ (List.mem_singleton_self f)

/-- After the methods of a class are declared, each of them is. -/
theorem run_declareMethods_of_class_ok {cls : String} {ms : List Method}
    (h : (ms.forM (declareMethod p cls)).run g = (.ok (), g')) :
    AddsFuncs g g' ∧ ∀ m ∈ ms, Declared p g' cls m := by
  refine forM_induction (fun done t => AddsFuncs g t ∧ ∀ m ∈ done, Declared p t cls m) h
    ⟨.refl g, by simp⟩ ?_
  rintro done m rest t t' _ ⟨hadds, hdone⟩ hrun
  obtain ⟨hadds', hm⟩ := declared_of_run_declareMethod hrun
  refine ⟨hadds.trans hadds', fun k hk => ?_⟩
  rcases List.mem_append.1 hk with hk | hk
  · exact (hdone k hk).of_grows hadds'.toGrows
  · obtain rfl := List.mem_singleton.1 hk
    exact hm

theorem ownMethods_eq {l : Layout} {c : ClassDecl} (hc : p.class? l.name = some c) :
    ownMethods p l = c.methods.values := by
  rw [ownMethods, hc, Option.map_some, Option.getD_some]

/-- **Run.** After the stage every method that a class declares itself is declared and known by its
    name. -/
theorem run_declareMethods_ok (h : (declareMethods p).run g = (.ok (), g')) :
    AddsFuncs g g' ∧ ∀ l ∈ layoutOrder g.layouts, ∀ c, p.class? l.name = some c →
      ∀ m ∈ c.methods.values, Declared p g' l.name m := by
  unfold declareMethods at h
  obtain ⟨_, _, hget, hrest⟩ := run_bind_ok h
  cases hget
  refine forM_induction (fun done t => AddsFuncs g t ∧ ∀ l ∈ done, ∀ c, p.class? l.name = some c →
    ∀ m ∈ c.methods.values, Declared p t l.name m) hrest ⟨.refl g, by simp⟩ ?_
  rintro done l rest t t' _ ⟨hadds, hdone⟩ hrun
  obtain ⟨hadds', hall⟩ := run_declareMethods_of_class_ok hrun
  refine ⟨hadds.trans hadds', fun k hk c hc m hm => ?_⟩
  rcases List.mem_append.1 hk with hk | hk
  · exact (hdone k hk c hc m hm).of_grows hadds'.toGrows
  · obtain rfl := List.mem_singleton.1 hk
    exact hall m (by rwa [ownMethods_eq hc])

/-- **Run.** Functions outside of classes are only added, and their signatures have
    representations. -/
theorem run_declareFunctions_ok {entries : List (String × Method)}
    (h : (entries.forM fun x => declareFunction p x.1 x.2).run g = (.ok (), g')) :
    AddsFuncs g g' ∧ ∀ x ∈ entries, ∃ f, lowerSignature p g.structs x.1 x.2 [] = .ok f := by
  refine forM_induction (fun done t => AddsFuncs g t ∧
    ∀ x ∈ done, ∃ f, lowerSignature p g.structs x.1 x.2 [] = .ok f) h ⟨.refl g, by simp⟩ ?_
  rintro done x rest t t' _ ⟨hadds, hdone⟩ hrun
  obtain ⟨f, hf, hnew, rfl⟩ := run_declareFunction_ok hrun
  refine ⟨hadds.trans (.withFunc hnew), fun y hy => ?_⟩
  rcases List.mem_append.1 hy with hy | hy
  · exact hdone y hy
  · obtain rfl := List.mem_singleton.1 hy
    exact ⟨f, hadds.structs_eq ▸ hf⟩

/-! ### The names of what is declared -/

/-- The names of the functions that are declared for the methods of a class. -/
def methodNames (p : Program) (l : Layout) : List String :=
  (ownMethods p l).map fun m => methodSymbol l.name m.name

/-- **Run.** The functions that the stage declares are those of the methods, class by class. -/
theorem funcs_declareMethods (h : (declareMethods p).run g = (.ok (), g')) :
    g'.module.funcs.map (·.name) =
      g.module.funcs.map (·.name) ++ (layoutOrder g.layouts).flatMap (methodNames p) := by
  unfold declareMethods at h
  obtain ⟨_, _, hget, hrest⟩ := run_bind_ok h
  cases hget
  refine forM_induction (fun done t => t.module.funcs.map (·.name) =
    g.module.funcs.map (·.name) ++ done.flatMap (methodNames p)) hrest (by simp) ?_
  intro done l rest t t' _ hdone hrun
  -- the loop over the methods of a single class
  have hclass : t'.module.funcs.map (·.name) = t.module.funcs.map (·.name) ++ methodNames p l := by
    refine forM_induction (fun ms u => u.module.funcs.map (·.name) =
      t.module.funcs.map (·.name) ++ ms.map fun m => methodSymbol l.name m.name) hrun (by simp) ?_
    intro ms m _ u u' _ hms hmethod
    obtain ⟨f, hf, _, rfl⟩ := run_declareMethod_ok hmethod
    rw [withFunc, addFunc, List.map_append, hms, List.map_singleton, name_of_lowerSignature hf,
      List.append_assoc, List.map_append, List.map_singleton]
  rw [hclass, hdone, List.append_assoc, List.flatMap_append, List.flatMap_singleton]

/-- **Run.** The functions outside of classes are declared under their own names. -/
theorem funcs_declareFunctions {entries : List (String × Method)}
    (h : (entries.forM fun x => declareFunction p x.1 x.2).run g = (.ok (), g')) :
    g'.module.funcs.map (·.name) = g.module.funcs.map (·.name) ++ entries.map (·.1) := by
  refine forM_induction (fun done t => t.module.funcs.map (·.name) =
    g.module.funcs.map (·.name) ++ done.map (·.1)) h (by simp) ?_
  intro done x _ t t' _ hdone hrun
  obtain ⟨f, hf, _, rfl⟩ := run_declareFunction_ok hrun
  rw [withFunc, addFunc, List.map_append, hdone, List.map_singleton, name_of_lowerSignature hf,
    List.append_assoc, List.map_append, List.map_singleton]

end Decaf.Generator
