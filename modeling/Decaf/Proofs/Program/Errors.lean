import Decaf.Proofs.Program.Validity

namespace Decaf

/-!
# What is wrong with a hierarchy

A hierarchy is judged class by class, in the order of the names.  First comes what is wrong with the
parent of a class: that there is no such class, or that it is an interface, or, only where neither
is the case, that parents lead in a circle.  Then come the interfaces that are none, in the order in
which the class lists them.

* `Program.ParentFault` — what is wrong with the parent of a class, said without a search.
* `Program.Lawful.parentError?_eq_some_iff` — this is what is found.
* `Program.Lawful.filter_hierarchyErrors` — the errors of a single class, in their order.
* `Program.Lawful.hierarchyErrors_eq_nil_iff` — when there are none.
* `Program.JudgedExactly`, `hierarchy_judged_exactly` — the hierarchy of every program that
  declarations build is judged so.
-/

/-- The class that the error is about. -/
def HierarchyError.cls : HierarchyError → String
  | undefinedParent cls _ | interfaceParent cls _ | cycle cls | undefinedInterface cls _ => cls

namespace Program

variable {p : Program} {cls : String} {c : ClassDecl} {e : HierarchyError}

/-! ### Parents -/

/-- The class is declared with the parent `a`. -/
def IsParent (p : Program) (cls a : String) : Prop :=
  ∃ c, p.class? cls = some c ∧ c.parent = some a

/-- The parent of the class is declared, and it is a class. -/
def HasClassParent (p : Program) (cls : String) : Prop :=
  ∃ a d, p.IsParent cls a ∧ p.class? a = some d ∧ d.isInterface = false

/-- Following the parents with which classes are declared, from the class on, some class comes up
    again. -/
def Revisits (p : Program) (cls : String) : Prop :=
  ∃ a, Relation.ReflTransGen p.IsParent cls a ∧ Relation.TransGen p.IsParent a a

/-- What is wrong with the parent of a class.  The circle may be one on which the class does not
    stand itself. -/
inductive ParentFault (p : Program) (cls : String) : HierarchyError → Prop
  | undefined {a : String} (hparent : p.IsParent cls a) (ha : p.class? a = none) :
      ParentFault p cls (.undefinedParent cls a)
  | interface {a : String} {d : ClassDecl} (hparent : p.IsParent cls a) (hd : p.class? a = some d)
      (hinterface : d.isInterface) : ParentFault p cls (.interfaceParent cls a)
  | cycle (hparent : p.HasClassParent cls) (hrevisits : p.Revisits cls) :
      ParentFault p cls (.cycle cls)

namespace Lawful

/-- The hierarchy has the parents with which classes are declared. -/
theorem isParent_eq (hp : p.Lawful) : p.IsParent = p.hierarchy.IsParent := by
  funext cls a
  rw [Hierarchy.IsParent, hp.edges, Option.bind_eq_some_iff]
  rfl

/-- A walk runs into itself exactly if the declared parents do. -/
theorem loops_trail_iff_revisits (hp : p.Lawful) :
    (p.hierarchy.trail cls).loops ↔ p.Revisits cls := by
  rw [Hierarchy.loops_trail_iff, Revisits, hp.isParent_eq]
  rfl

/-- **The parent of a class.** What is found to be wrong with it is what is wrong with it. -/
theorem parentError?_eq_some_iff (hp : p.Lawful) (hc : p.class? cls = some c) :
    p.parentError? c = some e ↔ p.ParentFault cls e := by
  have hname : c.name = cls := (hp.classes hc).named
  -- a class is declared once, so its parent is the one that it is declared with
  have hsole : ∀ {a}, p.IsParent cls a → c.parent = some a := by
    rintro a ⟨c', hc', hparent⟩
    rwa [Option.some.inj (hc.symm.trans hc')]
  rw [parentError?, hname]
  constructor
  · intro h
    cases hparent : c.parent with
    | none => simp [hparent] at h
    | some a =>
      have hisParent : p.IsParent cls a := ⟨c, hc, hparent⟩
      cases hd : p.class? a with
      | none =>
        simp only [hparent, hd, Option.some.injEq] at h
        exact h ▸ .undefined hisParent hd
      | some d =>
        cases hinterface : d.isInterface with
        | true =>
          simp only [hparent, hd, hinterface, if_true, Option.some.injEq] at h
          exact h ▸ .interface hisParent hd hinterface
        | false =>
          simp only [hparent, hd, hinterface, Bool.false_eq_true, if_false,
            Option.ite_none_right_eq_some, Option.some.injEq] at h
          exact h.2 ▸ .cycle ⟨a, d, hisParent, hd, hinterface⟩ (hp.loops_trail_iff_revisits.1 h.1)
  · intro h
    cases h with
    | undefined hparent ha => simp [hsole hparent, ha]
    | interface hparent hd hinterface => simp [hsole hparent, hd, hinterface]
    | cycle hparent hrevisits =>
      obtain ⟨a, d, hisParent, hd, hclass⟩ := hparent
      simp [hsole hisParent, hd, hclass, hp.loops_trail_iff_revisits.2 hrevisits]

/-! ### Single classes -/

/-- Errors of a class are about that class. -/
theorem cls_of_mem_errorsOf (hp : p.Lawful) (hc : p.class? cls = some c) (he : e ∈ p.errorsOf c) :
    e.cls = cls := by
  rw [errorsOf, (hp.classes hc).named, List.mem_append, Option.mem_toList,
    hp.parentError?_eq_some_iff hc] at he
  rcases he with hparent | hlisted
  · cases hparent <;> rfl
  · obtain ⟨i, _, rfl⟩ := List.mem_map.1 hlisted
    rfl

/-- The classes of a program, in the order in which they are judged, have names in ascending
    order. -/
theorem pairwise_values (hp : p.Lawful) : p.classes.values.Pairwise (·.name < ·.name) := by
  have hnames : p.classes.values.map (·.name) = p.classes.keys :=
    Dict.map_values_eq_keys fun _ _ h => (hp.classes h).named
  rw [← List.pairwise_map (f := ClassDecl.name) (R := (· < ·)), hnames]
  exact List.pairwise_map.2 p.classes.sorted

/-- **The errors of a class.** Of all the errors, those about a class are its own, in their
    order. -/
theorem filter_hierarchyErrors (hp : p.Lawful) (hc : p.class? cls = some c) :
    p.hierarchyErrors.filter (·.cls = cls) = p.errorsOf c := by
  have hname : c.name = cls := (hp.classes hc).named
  have hown : ∀ d ∈ p.classes.values, ∀ e ∈ p.errorsOf d, e.cls = d.name := by
    intro d hd e he
    obtain ⟨n, hn⟩ := Dict.mem_values_iff.1 hd
    rw [hp.cls_of_mem_errorsOf hn he, (hp.classes hn).named]
  -- the class is judged once, and no class before or after it has its name
  obtain ⟨front, rest, hvalues⟩ := List.append_of_mem (Dict.mem_values_of_get? hc)
  have hsorted := hp.pairwise_values
  rw [hvalues, List.pairwise_append, List.pairwise_cons] at hsorted
  obtain ⟨_, ⟨hrest, _⟩, hfront⟩ := hsorted
  have hothers : ∀ ds : List ClassDecl, (∀ d ∈ ds, d ∈ p.classes.values ∧ d.name ≠ cls) →
      ds.flatMap (fun d => (p.errorsOf d).filter (·.cls = cls)) = [] := by
    intro ds hds
    refine List.flatMap_eq_nil_iff.2 fun d hd => List.filter_eq_nil_iff.2 fun e he => ?_
    obtain ⟨hmem, hne⟩ := hds d hd
    simpa [hown d hmem e he] using hne
  have hself : (p.errorsOf c).filter (·.cls = cls) = p.errorsOf c := by
    refine List.filter_eq_self.2 fun e he => ?_
    simpa using hp.cls_of_mem_errorsOf hc he
  rw [hierarchyErrors, List.filter_flatMap, hvalues, List.flatMap_append, List.flatMap_cons, hself,
    hothers front, hothers rest, List.nil_append, List.append_nil]
  · intro d hd
    refine ⟨by simp [hvalues, hd], fun heq => ?_⟩
    exact String.lt_irrefl _ (heq.trans hname.symm ▸ hrest d hd)
  · intro d hd
    refine ⟨by simp [hvalues, hd], fun heq => ?_⟩
    exact String.lt_irrefl _ (heq.trans hname.symm ▸ hfront d hd c List.mem_cons_self)

/-! ### All classes -/

/-- Errors are about declared classes, and each is an error of its class. -/
theorem mem_hierarchyErrors_iff (hp : p.Lawful) :
    e ∈ p.hierarchyErrors ↔ ∃ c, p.class? e.cls = some c ∧ e ∈ p.errorsOf c := by
  rw [hierarchyErrors, List.mem_flatMap]
  constructor
  · rintro ⟨c, hc, he⟩
    obtain ⟨n, hn⟩ := Dict.mem_values_iff.1 hc
    exact ⟨c, hp.cls_of_mem_errorsOf hn he ▸ hn, he⟩
  · rintro ⟨c, hc, he⟩
    exact ⟨c, Dict.mem_values_of_get? hc, he⟩

/-- **Circles.** The error about a circle is made of just the classes whose parents are classes and
    lead into one. -/
theorem cycle_mem_hierarchyErrors_iff (hp : p.Lawful) :
    .cycle cls ∈ p.hierarchyErrors ↔ p.HasClassParent cls ∧ p.Revisits cls := by
  rw [hp.mem_hierarchyErrors_iff]
  constructor
  · rintro ⟨c, hc, he⟩
    rw [errorsOf, List.mem_append, Option.mem_toList, hp.parentError?_eq_some_iff hc] at he
    rcases he with hfault | hlisted
    · cases hfault with
      | cycle hparent hrevisits => exact ⟨hparent, hrevisits⟩
    · simp at hlisted
  · rintro ⟨hparent, hrevisits⟩
    obtain ⟨_, _, ⟨c, hc, _⟩, _⟩ := id hparent
    have hfault : p.parentError? c = some (.cycle cls) :=
      (hp.parentError?_eq_some_iff hc).2 (.cycle hparent hrevisits)
    exact ⟨c, hc, by simp [errorsOf, hfault]⟩

/-- Errors are in the order of the names of their classes. -/
theorem pairwise_hierarchyErrors (hp : p.Lawful) : p.hierarchyErrors.Pairwise (·.cls ≤ ·.cls) := by
  rw [hierarchyErrors, List.pairwise_flatMap]
  constructor
  · -- the reports on one class name it, and the classes come in the order of their names
    intro c hc
    obtain ⟨n, hn⟩ := Dict.mem_values_iff.1 hc
    refine List.pairwise_of_forall_mem_list fun e he f hf => ?_
    have hsame : e.cls = f.cls :=
      (hp.cls_of_mem_errorsOf hn he).trans (hp.cls_of_mem_errorsOf hn hf).symm
    exact hsame ▸ String.le_refl e.cls
  · refine hp.pairwise_values.imp_of_mem fun {c d} hc hd hlt e he f hf => ?_
    obtain ⟨n, hn⟩ := Dict.mem_values_iff.1 hc
    obtain ⟨k, hk⟩ := Dict.mem_values_iff.1 hd
    rw [hp.cls_of_mem_errorsOf hn he, hp.cls_of_mem_errorsOf hk hf, ← (hp.classes hn).named,
      ← (hp.classes hk).named]
    exact Std.le_of_lt hlt

/-- **Valid hierarchies.** There is no error exactly if all parents are classes, all listed
    interfaces are interfaces, and no class is above itself. -/
theorem hierarchyErrors_eq_nil_iff (hp : p.Lawful) :
    p.hierarchyErrors = [] ↔
      (∀ cls c, p.class? cls = some c →
        (∀ a, c.parent = some a → ∃ d, p.class? a = some d ∧ d.isInterface = false) ∧
          ∀ i ∈ c.interfaces, ∃ d, p.class? i = some d ∧ d.isInterface) ∧
        ∀ a, ¬ Relation.TransGen p.IsParent a a := by
  constructor
  · intro herrors
    have hvalid : p.Valid := ⟨hp, herrors⟩
    refine ⟨fun cls c hc => ⟨fun a => hvalid.class_of_parent hc,
      fun i => hvalid.interface_of_mem hc⟩, fun a ha => ?_⟩
    -- a class on a cycle would have no end of parents
    obtain ⟨b, ⟨c, hc, _⟩, _⟩ := Relation.TransGen.head'_iff.1 ha
    obtain ⟨line, hl⟩ := hvalid.exists_line hc
    exact hl.not_revisits ⟨a, .refl, hp.isParent_eq ▸ ha⟩
  · rintro ⟨hclasses, hacyclic⟩
    refine List.eq_nil_iff_forall_not_mem.2 fun e he => ?_
    obtain ⟨c, hc, he⟩ := hp.mem_hierarchyErrors_iff.1 he
    generalize e.cls = cls at hc
    rw [errorsOf, List.mem_append, Option.mem_toList, hp.parentError?_eq_some_iff hc] at he
    -- an error is about the parent of a class or about a listed interface
    rcases he with hfault | hlisted
    · cases hfault with
      | undefined hparent ha =>
        obtain ⟨c', hc', hparent⟩ := hparent
        obtain ⟨d, hd, _⟩ := (hclasses _ c' hc').1 _ hparent
        rw [ha] at hd
        cases hd
      | interface hparent hd hinterface =>
        obtain ⟨c', hc', hparent⟩ := hparent
        obtain ⟨d', hd', hclass⟩ := (hclasses _ c' hc').1 _ hparent
        rw [Option.some.inj (hd.symm.trans hd'), hclass] at hinterface
        cases hinterface
      | cycle _ hrevisits =>
        obtain ⟨a, _, hback⟩ := hrevisits
        exact hacyclic a hback
    · obtain ⟨i, hi, _⟩ := List.mem_map.1 hlisted
      obtain ⟨hmem, hnone⟩ := List.mem_filter.1 hi
      obtain ⟨d, hd, hinterface⟩ := (hclasses _ c hc).2 i hmem
      simp [isInterface, hd, hinterface] at hnone

end Lawful

/-- The errors of a program say what is wrong with its hierarchy, all of it and nothing else, in
    order. -/
structure JudgedExactly (p : Program) : Prop where
  /-- There is no error exactly if parents are declared classes, listed interfaces are declared
      interfaces, and no class is above itself. -/
  valid_iff : p.hierarchyErrors = [] ↔
    (∀ cls c, p.class? cls = some c →
      (∀ a, c.parent = some a → ∃ d, p.class? a = some d ∧ d.isInterface = false) ∧
        ∀ i ∈ c.interfaces, ∃ d, p.class? i = some d ∧ d.isInterface) ∧
      ∀ a, ¬ Relation.TransGen p.IsParent a a
  /-- A class has the error about a circle exactly if its parent is a declared class and parents
      lead from it into a circle, whether it stands on the circle or not. -/
  cycle_iff : ∀ cls, .cycle cls ∈ p.hierarchyErrors ↔ p.HasClassParent cls ∧ p.Revisits cls
  /-- Errors are about declared classes. -/
  declared : ∀ e ∈ p.hierarchyErrors, ∃ c, p.class? e.cls = some c
  /-- They are in the order of the names of the classes. -/
  ordered : p.hierarchyErrors.Pairwise (·.cls ≤ ·.cls)
  /-- For each class there is first what is wrong with its parent, which is one thing at most, and
      then an error for each name that it lists and that is no interface, in the order in which they
      are listed. -/
  of_class : ∀ cls c, p.class? cls = some c → ∃ parent : Option HierarchyError,
    (∀ e, parent = some e ↔ p.ParentFault cls e) ∧
      p.hierarchyErrors.filter (·.cls = cls) =
        parent.toList ++ (c.interfaces.filter fun i => !p.isInterface i).map
          (.undefinedInterface cls)

end Program

/-- **Hierarchies are judged exactly.** Take any program that declarations build, in any order,
    where parents and interfaces need not be declared.  The errors of its hierarchy say what is
    wrong with it, all of it and nothing else, by the names of the classes, and for each class the
    parent before the interfaces. -/
theorem hierarchy_judged_exactly (ds : List Decl) : (Program.ofDecls ds).JudgedExactly := by
  have hp : (Program.ofDecls ds).Lawful := Program.lawful_ofDecls ds
  refine ⟨hp.hierarchyErrors_eq_nil_iff, fun _ => hp.cycle_mem_hierarchyErrors_iff, fun e he => ?_,
    hp.pairwise_hierarchyErrors, fun cls c hc => ?_⟩
  · obtain ⟨c, hc, _⟩ := hp.mem_hierarchyErrors_iff.1 he
    exact ⟨c, hc⟩
  · refine ⟨(Program.ofDecls ds).parentError? c, fun _ => hp.parentError?_eq_some_iff hc, ?_⟩
    rw [hp.filter_hierarchyErrors hc, Program.errorsOf, (hp.classes hc).named]

-- a class below a circle, a class below a name that is not declared, one below an interface, and
-- names that are no interfaces
example :
    (Program.ofDecls
      [.class_ "D" (some "C") ["K", "B", "I"], .class_ "C" (some "B") [], .class_ "B" (some "C") [],
        .class_ "E" (some "Z") ["Z"], .interface "I",
        .class_ "A" (some "I") ["I"]]).hierarchyErrors =
      [.interfaceParent "A" "I", .cycle "B", .cycle "C", .cycle "D", .undefinedInterface "D" "K",
        .undefinedInterface "D" "B", .undefinedParent "E" "Z", .undefinedInterface "E" "Z"] := by
  decide +kernel

end Decaf
