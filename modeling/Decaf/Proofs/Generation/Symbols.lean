import Decaf.Proofs.Generation.Dispatch

namespace Decaf

/-!
# Symbols of a module

The functions and the global variables of a module share their names: methods, dispatch tables, the
constants with the names of the classes, and the functions and variables of the program.  A point
keeps nearly all of them apart.  What it does not keep apart is the dispatch table of a class and a
method `vtable` of the class, and nothing else guards against that method.

* `nodup_flatMap_methodNames` — the functions of methods have names of their own.
* `Generator.Generated.nodup_funcs` — so have all functions.
* `Generator.Generated.shared_iff` — the names that a function and a global variable share.
* `symbols_nodup_iff` — the symbols of a module are distinct exactly if no class has a method
  `vtable`.
* `vtable_method_collides` — a module in which two symbols are the same.
-/

namespace Generator

variable {p : Program} {g : Generator} {name : String}

/-! ### The functions of methods -/

/-- The functions of the methods of a class are named after these, in the order of their names. -/
theorem methodNames_eq (hp : p.Lawful) {l : Layout} {c : ClassDecl}
    (hc : p.class? l.name = some c) :
    methodNames p l = c.methods.keys.map (methodSymbol l.name) := by
  have hnames : c.methods.values.map (·.name) = c.methods.keys :=
    Dict.map_values_eq_keys fun _ _ h => (hp.classes hc).method_name h
  rw [methodNames, ownMethods_eq hc, ← hnames, List.map_map]
  rfl

/-- What is declared for the methods of several classes has names of its own. -/
theorem nodup_flatMap_methodNames (hp : p.Lawful) {ls : List Layout}
    (hclasses : ∀ l ∈ ls, IsIdentifier l.name ∧ ∃ c, p.class? l.name = some c)
    (hnodup : (ls.map (·.name)).Nodup) : (ls.flatMap (methodNames p)).Nodup := by
  rw [List.nodup_flatMap]
  constructor
  · intro l hl
    obtain ⟨hword, c, hc⟩ := hclasses l hl
    rw [methodNames_eq hp hc]
    exact (Dict.nodup_keys _).map fun m n h => (methodSymbol_injective hword hword h).2
  · refine (List.pairwise_map.1 hnodup).imp_of_mem fun {l k} hl hk hne => ?_
    -- the class is part of the name, in front of the first point
    intro n hn hn'
    obtain ⟨hword, c, hc⟩ := hclasses l hl
    obtain ⟨hword', d, hd⟩ := hclasses k hk
    rw [methodNames_eq hp hc] at hn
    rw [methodNames_eq hp hd] at hn'
    obtain ⟨m, _, rfl⟩ := List.mem_map.1 hn
    obtain ⟨m', _, heq⟩ := List.mem_map.1 hn'
    exact hne (methodSymbol_injective hword hword' heq.symm).1

/-! ### All symbols -/

namespace Generated

/-- The classes that have a layout are declared, and their names are words. -/
theorem class_of_mem_layoutOrder (hg : Generated p g)
    (hclasses : ∀ {cls c}, p.class? cls = some c → IsIdentifier cls) {l : Layout}
    (hl : l ∈ layoutOrder g.layouts) :
    IsIdentifier l.name ∧ ∃ c, p.class? l.name = some c ∧ c.isInterface = false := by
  obtain ⟨c, hc, hclass⟩ := hg.completed.class_of_mem_layoutOrder hl
  exact ⟨hclasses hc, c, hc, hclass⟩

/-- Every class has a layout. -/
theorem exists_mem_layoutOrder (hg : Generated p g) {cls : String} {c : ClassDecl}
    (hc : p.class? cls = some c) (hclass : c.isInterface = false) :
    ∃ l ∈ layoutOrder g.layouts, l.name = cls := by
  obtain ⟨l, hl, _⟩ := hg.completed.complete hc hclass
  have hname : l.name = cls := hg.completed.name_eq hl
  exact ⟨l, hg.completed.mem_layoutOrder_iff.2 (hname ▸ hl), hname⟩

/-- **Functions.** No two functions have the same name. -/
theorem nodup_funcs (hg : Generated p g) (hp : p.Lawful)
    (hclasses : ∀ {cls c}, p.class? cls = some c → IsIdentifier cls)
    (hfunctions : ∀ {name f}, p.functions.get? name = some f → IsIdentifier name) :
    (g.module.funcs.map (·.name)).Nodup := by
  have horder : ∀ l ∈ layoutOrder g.layouts, IsIdentifier l.name ∧
      ∃ c, p.class? l.name = some c := by
    intro l hl
    obtain ⟨hword, c, hc, _⟩ := hg.class_of_mem_layoutOrder hclasses hl
    exact ⟨hword, c, hc⟩
  rw [hg.funcNames, List.nodup_append]
  refine ⟨nodup_flatMap_methodNames hp horder ?_, Dict.nodup_keys _, ?_⟩
  · exact nodup_layoutOrder fun _ _ => hg.completed.name_eq
  · -- the name of a method has a point in it, and that of a function has none
    intro a ha b hb heq
    obtain ⟨f, hf⟩ := Dict.mem_keys_iff.1 hb
    obtain ⟨l, hl, ha⟩ := List.mem_flatMap.1 ha
    obtain ⟨_, c, hc⟩ := horder l hl
    rw [methodNames_eq hp hc] at ha
    obtain ⟨m, _, rfl⟩ := List.mem_map.1 ha
    exact (hfunctions hf).ne_methodSymbol heq.symm

/-- **Shared names.** A function and a global variable have the same name exactly if they are a
    method `vtable` and the dispatch table of its class. -/
theorem shared_iff (hg : Generated p g) (hp : p.Lawful)
    (hclasses : ∀ {cls c}, p.class? cls = some c → IsIdentifier cls)
    (hfunctions : ∀ {name f}, p.functions.get? name = some f → IsIdentifier name)
    (hglobals : ∀ {name v}, p.globals.get? name = some v → IsIdentifier name) :
    name ∈ g.module.funcs.map (·.name) ∧ name ∈ g.module.globals.map (·.name) ↔
      ∃ cls c, p.class? cls = some c ∧ c.isInterface = false ∧ c.method? "vtable" ≠ none ∧
        name = vtableSymbol cls := by
  rw [hg.funcNames, hg.globalNames, List.mem_append, List.mem_append]
  constructor
  · rintro ⟨hfunc, hglobal⟩
    rcases hfunc with hfunc | hfunc
    · -- the function of a method
      obtain ⟨l, hl, hname⟩ := List.mem_flatMap.1 hfunc
      obtain ⟨hword, c, hc, hclass⟩ := hg.class_of_mem_layoutOrder hclasses hl
      rw [methodNames_eq hp hc] at hname
      obtain ⟨m, hm, rfl⟩ := List.mem_map.1 hname
      rcases hglobal with hglobal | hglobal
      · obtain ⟨k, hk, hmade⟩ := List.mem_flatMap.1 hglobal
        obtain ⟨hword', _⟩ := hg.class_of_mem_layoutOrder hclasses hk
        simp only [madeNames, List.mem_cons, List.not_mem_nil, or_false] at hmade
        rcases hmade with heq | heq
        · exact absurd heq.symm (labelSymbol_ne_methodSymbol hword)
        · rw [vtableSymbol_eq] at heq
          obtain ⟨hcls, rfl⟩ := methodSymbol_injective hword hword' heq
          obtain ⟨d, hd⟩ := Dict.mem_keys_iff.1 hm
          refine ⟨l.name, c, hc, hclass, ?_, (vtableSymbol_eq l.name).symm⟩
          rw [ClassDecl.method?, hd]
          exact Option.some_ne_none d
      · obtain ⟨v, hv⟩ := Dict.mem_keys_iff.1 hglobal
        exact absurd rfl (hglobals hv).ne_methodSymbol
    · -- a function of the program, which has a word for a name
      obtain ⟨f, hf⟩ := Dict.mem_keys_iff.1 hfunc
      have hword : IsIdentifier name := hfunctions hf
      rcases hglobal with hglobal | hglobal
      · obtain ⟨k, _, hmade⟩ := List.mem_flatMap.1 hglobal
        simp only [madeNames, List.mem_cons, List.not_mem_nil, or_false] at hmade
        rcases hmade with heq | heq
        · exact absurd heq hword.ne_labelSymbol
        · exact absurd heq hword.ne_vtableSymbol
      · obtain ⟨v, hv⟩ := Dict.mem_keys_iff.1 hglobal
        rcases hp.separate name with hnone | hnone
        · exact absurd (hnone.symm.trans hf) (by simp)
        · exact absurd (hnone.symm.trans hv) (by simp)
  · rintro ⟨cls, c, hc, hclass, hmethod, rfl⟩
    obtain ⟨l, hl, rfl⟩ := hg.exists_mem_layoutOrder hc hclass
    refine ⟨.inl (List.mem_flatMap.2 ⟨l, hl, ?_⟩),
      .inl (List.mem_flatMap.2 ⟨l, hl, by simp [madeNames]⟩)⟩
    rw [methodNames_eq hp hc, vtableSymbol_eq]
    exact List.mem_map_of_mem (Dict.mem_keys_iff.2 (Option.ne_none_iff_exists'.1 hmethod))

end Generated

end Generator

/-- **Symbols are distinct but for methods `vtable`.** Take a program that declarations over words
    build and a module that is generated for it by a generator that has made nothing.  No two
    functions of the module have the same name, and no two global variables.  A function and a
    global variable have the same name exactly if they are a method `vtable` and the dispatch table
    of its class.  So all symbols are distinct exactly if no class declares such a method. -/
theorem symbols_nodup_iff (ds : List Decl) (hwords : ∀ d ∈ ds, IsIdentifier d.name)
    (triple : String) (g₀ g : Generator)
    (hfresh : Generator.create (some (Program.ofDecls ds)) triple = .ok g₀)
    (hgenerate : (Generator.generate (Program.ofDecls ds)).run g₀ = (.ok (), g)) :
    let p := Program.ofDecls ds
    let funcs := g.module.funcs.map (·.name)
    let globals := g.module.globals.map (·.name)
    funcs.Nodup ∧ globals.Nodup ∧
      (∀ name, name ∈ funcs ∧ name ∈ globals ↔
        ∃ cls c, p.class? cls = some c ∧ c.isInterface = false ∧
          c.method? "vtable" ≠ none ∧ name = Generator.vtableSymbol cls) ∧
      ((funcs ++ globals).Nodup ↔
        ∀ cls c, p.class? cls = some c → c.isInterface = false → c.method? "vtable" = none) := by
  intro p funcs globals
  have hlawful : p.Lawful := Program.lawful_ofDecls ds
  have hclasses : ∀ {cls c}, p.class? cls = some c → IsIdentifier cls := by
    intro cls c hc
    obtain ⟨d, hd, hname⟩ := Program.exists_decl_of_class? hc
    exact Decl.name_of_class? hname ▸ hwords d hd
  have hfunctions : ∀ {name f}, p.functions.get? name = some f → IsIdentifier name := by
    intro name f hf
    obtain ⟨d, hd, rfl⟩ := Program.exists_decl_of_function? hf
    exact hwords d hd
  have hglobals : ∀ {name v}, p.globals.get? name = some v → IsIdentifier name := by
    intro name v hv
    obtain ⟨type, hmem⟩ := Program.exists_decl_of_global? hv
    exact hwords _ hmem
  cases hfresh
  have hg := Generator.generated_of_run hlawful hclasses hglobals rfl rfl rfl hgenerate
  have hfuncs : funcs.Nodup := hg.nodup_funcs hlawful hclasses hfunctions
  -- what a function and a global variable can share is the name of a dispatch table
  have hshared : ∀ name, name ∈ funcs ∧ name ∈ globals ↔
      ∃ cls c, p.class? cls = some c ∧ c.isInterface = false ∧
        c.method? "vtable" ≠ none ∧ name = Generator.vtableSymbol cls :=
    fun name => hg.shared_iff hlawful hclasses hfunctions hglobals
  refine ⟨hfuncs, hg.nodup_globals, hshared, ?_⟩
  -- each kind has distinct names, so only shared ones are left to rule out
  rw [List.nodup_append]
  constructor
  · intro ⟨_, _, hdisjoint⟩ cls c hc hclass
    by_contra hmethod
    obtain ⟨hfunc, hglobal⟩ := (hshared _).2 ⟨cls, c, hc, hclass, hmethod, rfl⟩
    exact hdisjoint _ hfunc _ hglobal rfl
  · intro hnone
    refine ⟨hfuncs, hg.nodup_globals, fun a ha b hb heq => ?_⟩
    subst heq
    obtain ⟨cls, c, hc, hclass, hmethod, _⟩ := (hshared a).1 ⟨ha, hb⟩
    exact hmethod (hnone cls c hc hclass)

/-- A class with a field and a method, a class below it, a function and a global variable: all their
    symbols are distinct, also where words with underscores resemble each other. -/
theorem symbols_nodup_of_underscores :
    let ds : List Decl :=
      [.class_ "A" none [], .class_ "A_b" (some "A") [], .field "A" "x" (some .int),
        .method "A" ⟨"b_c", [], some .int, none⟩, .method "A_b" ⟨"c", [], some .int, none⟩,
        .function ⟨"A_b_c", [], some .int, none⟩, .global "A_vtable" (some .int)]
    let g : Generator :=
      ((Generator.generate (Program.ofDecls ds)).run { module := { triple := "" } }).2
    (g.module.funcs.map (·.name) ++ g.module.globals.map (·.name)).Nodup := by
  intro ds g
  have hgenerate : (Generator.generate (Program.ofDecls ds)).run { module := { triple := "" } } =
      (.ok (), g) :=
    run_eq_of_toBool (by decide +kernel)
  refine (symbols_nodup_iff ds (by decide) "" _ g rfl hgenerate).2.2.2.2 fun cls c hc _ => ?_
  have hall : (Program.ofDecls ds).classes.values.all fun c => (c.method? "vtable").isNone := by
    decide +kernel
  exact Option.isNone_iff_eq_none.1 (List.all_eq_true.1 hall c (Dict.mem_values_of_get? hc))

/-- A class with a method `vtable`: its function and its dispatch table have the same name, and
    still the run succeeds. -/
theorem vtable_method_collides :
    let ds : List Decl := [.class_ "A" none [], .method "A" ⟨"vtable", [], some .void, none⟩]
    let run := (Generator.generate (Program.ofDecls ds)).run { module := { triple := "" } }
    (∀ d ∈ ds, IsIdentifier d.name) ∧ run.1.toBool ∧
      "A.vtable" ∈ run.2.module.funcs.map (·.name) ∧
      "A.vtable" ∈ run.2.module.globals.map (·.name) ∧
      ¬ (run.2.module.funcs.map (·.name) ++ run.2.module.globals.map (·.name)).Nodup := by
  decide +kernel

end Decaf
