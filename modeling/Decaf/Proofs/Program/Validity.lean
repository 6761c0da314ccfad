import Decaf.Program.Validity
import Decaf.Proofs.Hierarchy
import Decaf.Proofs.Program.Declarations

namespace Decaf.Program

/-!
# Valid hierarchies

Where nothing is wrong with the hierarchy of a program, every class has a line of declared classes
above it, each the parent of the one before, that ends at a class without a parent.  So what is said
of a class may be proved from its parent upwards.

* `Valid` — a program whose parts fit together and whose hierarchy has no error.
* `Valid.induction` — what passes from a parent to its children, and holds of classes without a
  parent, holds of all.
* `Lawful.chain_of_parent_eq_none`, `Valid.chain_of_parent` — the chain of a class in terms of that
  of its parent.
* `Valid.class_of_mem_ancestors`, `Valid.class_of_mem_chain` — the classes above a class are
  declared.
-/

variable {p : Program} {name : String} {c : ClassDecl}

/-- The parts of the program fit together, and nothing is wrong with its hierarchy. -/
structure Valid (p : Program) : Prop where
  lawful : p.Lawful
  errors : p.hierarchyErrors = []

namespace Lawful

/-- The parent of a declared class is the one that it is declared with. -/
theorem parent?_eq (hp : p.Lawful) (hc : p.class? name = some c) :
    p.hierarchy.parent? name = c.parent := by
  rw [hp.edges, hc, Option.bind_some]

/-- The empty name is nobody's parent. -/
theorem parent?_ne_empty (hp : p.Lawful) (name : String) : p.hierarchy.parent? name ≠ some "" := by
  rw [hp.edges]
  intro h
  obtain ⟨c, hc, hparent⟩ := Option.bind_eq_some_iff.1 h
  exact (hp.classes hc).parent_ne_empty hparent

/-- The chain of a class is its line. -/
theorem chain_eq_of_line (hp : p.Lawful) {line : List String} (hl : p.hierarchy.Line name line) :
    p.chain name = line := by
  obtain ⟨rest, rfl⟩ := hl.eq_cons
  rw [chain, Hierarchy.ancestors_eq_of_line hp.parent?_ne_empty hl]

/-- The chain of a class without a parent. -/
theorem chain_of_parent_eq_none (hp : p.Lawful) (hc : p.class? name = some c)
    (hparent : c.parent = none) : p.chain name = [name] :=
  hp.chain_eq_of_line (.top (by rw [hp.parent?_eq hc, hparent]))

end Lawful

namespace Valid

/-- Nothing is wrong with any class. -/
theorem errorsOf_eq_nil (hp : p.Valid) (hc : p.class? name = some c) : p.errorsOf c = [] :=
  List.flatMap_eq_nil_iff.1 hp.errors c (Dict.mem_values_of_get? hc)

/-- Nothing is wrong with the parent of any class. -/
theorem parentError?_eq_none (hp : p.Valid) (hc : p.class? name = some c) :
    p.parentError? c = none := by
  have hnil := (List.append_eq_nil_iff.1 (hp.errorsOf_eq_nil hc)).1
  cases herror : p.parentError? c with
  | none => rfl
  | some e => simp [herror] at hnil

/-- Parents are declared, and they are classes. -/
theorem class_of_parent (hp : p.Valid) (hc : p.class? name = some c) {a : String}
    (hparent : c.parent = some a) : ∃ d, p.class? a = some d ∧ d.isInterface = false := by
  have hnone := hp.parentError?_eq_none hc
  rw [parentError?, hparent] at hnone
  cases hd : p.class? a with
  | none => simp [hd] at hnone
  | some d =>
    refine ⟨d, rfl, ?_⟩
    by_cases hinterface : d.isInterface
    · simp [hd, hinterface] at hnone
    · simpa using hinterface

/-- Every class has a line. -/
theorem exists_line (hp : p.Valid) (hc : p.class? name = some c) :
    ∃ line, p.hierarchy.Line name line := by
  cases hparent : c.parent with
  | none => exact ⟨[name], .top (by rw [hp.lawful.parent?_eq hc, hparent])⟩
  | some a =>
    obtain ⟨d, hd, hclass⟩ := hp.class_of_parent hc hparent
    have hnone := hp.parentError?_eq_none hc
    rw [← Hierarchy.loops_trail_eq_false_iff, ← (hp.lawful.classes hc).named]
    by_cases hloops : (p.hierarchy.trail c.name).loops
    · simp [parentError?, hparent, hd, hclass, hloops] at hnone
    · simpa using hloops

/-- **From parents to children.** What holds of classes without a parent, and passes from a parent
    to its children, holds of every class. -/
theorem induction (hp : p.Valid) {P : String → Prop}
    (top : ∀ n c, p.class? n = some c → c.parent = none → P n)
    (up : ∀ n c a d, p.class? n = some c → c.parent = some a → p.class? a = some d →
      d.isInterface = false → P a → P n)
    (hc : p.class? name = some c) : P name := by
  obtain ⟨line, hl⟩ := hp.exists_line hc
  induction hl generalizing c with
  | top hpar =>
    rw [hp.lawful.parent?_eq hc] at hpar
    exact top _ c hc hpar
  | @up n a line hpar _ ih =>
    rw [hp.lawful.parent?_eq hc] at hpar
    obtain ⟨d, hd, hclass⟩ := hp.class_of_parent hc hpar
    exact up n c a d hc hpar hd hclass (ih hd)

/-- The chain of a class with a parent goes on with that of the parent. -/
theorem chain_of_parent (hp : p.Valid) (hc : p.class? name = some c) {a : String}
    (hparent : c.parent = some a) : p.chain name = name :: p.chain a := by
  obtain ⟨d, hd, _⟩ := hp.class_of_parent hc hparent
  obtain ⟨line, hl⟩ := hp.exists_line hd
  rw [hp.lawful.chain_eq_of_line hl]
  exact hp.lawful.chain_eq_of_line (.up (by rw [hp.lawful.parent?_eq hc, hparent]) hl)

/-- The ancestors of a class with a parent are the chain of the parent. -/
theorem ancestors_of_parent (hp : p.Valid) (hc : p.class? name = some c) {a : String}
    (hparent : c.parent = some a) : p.hierarchy.ancestors name = p.chain a :=
  (List.cons.inj (hp.chain_of_parent hc hparent)).2

/-- A class is one step deeper than its parent. -/
theorem depth_of_parent (hp : p.Valid) (hc : p.class? name = some c) {a : String}
    (hparent : c.parent = some a) : p.hierarchy.depth name = p.hierarchy.depth a + 1 := by
  rw [Hierarchy.depth, hp.ancestors_of_parent hc hparent]
  rfl

/-- The classes of a chain are declared, and above its first there are no interfaces. -/
theorem class_of_mem_ancestors (hp : p.Valid) (hc : p.class? name = some c) {a : String}
    (ha : a ∈ p.hierarchy.ancestors name) : ∃ d, p.class? a = some d ∧ d.isInterface = false := by
  revert ha
  refine hp.induction
    (P := fun n => a ∈ p.hierarchy.ancestors n → ∃ d, p.class? a = some d ∧ d.isInterface = false)
    ?_ ?_ hc
  · intro n c hc hparent ha
    have hnil : p.hierarchy.ancestors n = [] :=
      (List.cons.inj (hp.lawful.chain_of_parent_eq_none hc hparent)).2
    simp [hnil] at ha
  · intro n c b d hc hparent hd hclass ih ha
    rw [hp.ancestors_of_parent hc hparent] at ha
    rcases List.mem_cons.1 ha with rfl | ha
    · exact ⟨d, hd, hclass⟩
    · exact ih ha

/-- The classes of a chain are declared. -/
theorem class_of_mem_chain (hp : p.Valid) (hc : p.class? name = some c) {a : String}
    (ha : a ∈ p.chain name) : ∃ d, p.class? a = some d := by
  rcases List.mem_cons.1 ha with rfl | ha
  · exact ⟨c, hc⟩
  · obtain ⟨d, hd, _⟩ := hp.class_of_mem_ancestors hc ha
    exact ⟨d, hd⟩

/-- There are no interfaces on the chain of a class that is none. -/
theorem isClass_of_mem_chain (hp : p.Valid) (hc : p.class? name = some c)
    (hclass : c.isInterface = false) {a : String} (ha : a ∈ p.chain name) :
    ∃ d, p.class? a = some d ∧ d.isInterface = false := by
  rcases List.mem_cons.1 ha with rfl | ha
  · exact ⟨c, hc, hclass⟩
  · exact hp.class_of_mem_ancestors hc ha

/-- What a class lists as its interfaces are declared, and they are interfaces. -/
theorem interface_of_mem (hp : p.Valid) (hc : p.class? name = some c) {i : String}
    (hi : i ∈ c.interfaces) : ∃ d, p.class? i = some d ∧ d.isInterface := by
  have hnil := (List.append_eq_nil_iff.1 (hp.errorsOf_eq_nil hc)).2
  rw [List.map_eq_nil_iff, List.filter_eq_nil_iff] at hnil
  simpa [isInterface, Option.any_eq_true] using hnil i hi

/-- What a class lists as its interfaces are interfaces. -/
theorem isInterface_of_mem (hp : p.Valid) (hc : p.class? name = some c) {i : String}
    (hi : i ∈ c.interfaces) {d : ClassDecl} (hd : p.class? i = some d) : d.isInterface := by
  obtain ⟨e, he, hinterface⟩ := hp.interface_of_mem hc hi
  rwa [Option.some.inj (hd.symm.trans he)]

/-- No class is above itself. -/
theorem not_mem_ancestors (hp : p.Valid) (hc : p.class? name = some c) :
    name ∉ p.hierarchy.ancestors name := by
  obtain ⟨line, hl⟩ := hp.exists_line hc
  have hchain : p.chain name = line := hp.lawful.chain_eq_of_line hl
  have hnodup : (p.chain name).Nodup := hchain ▸ hl.nodup
  exact (List.nodup_cons.1 hnodup).1

/-- No two classes are above each other. -/
theorem not_mem_ancestors_of_mem (hp : p.Valid) {a : String} (ha : a ∈ p.hierarchy.ancestors name) :
    name ∉ p.hierarchy.ancestors a := by
  intro hback
  have hup {c b : String} (hb : b ∈ p.hierarchy.ancestors c) :
      Relation.TransGen p.hierarchy.IsParent c b :=
    Relation.TransGen.mono (fun _ _ hstep => hstep.1) c b (Hierarchy.mem_ancestors_iff.1 hb).2
  have hrevisits : p.hierarchy.Revisits name := ⟨name, .refl, (hup ha).trans (hup hback)⟩
  -- a class that is not declared has no parent, and so it has a line as well
  have hline : ∃ line, p.hierarchy.Line name line := by
    cases hc : p.class? name with
    | none => exact ⟨[name], .top (by rw [hp.lawful.edges, hc, Option.bind_none])⟩
    | some c => exact hp.exists_line hc
  obtain ⟨line, hl⟩ := hline
  exact hl.not_revisits hrevisits

/-- The chain of an ancestor is the end of the chain. -/
theorem chain_suffix_of_mem (hp : p.Valid) (hc : p.class? name = some c) {a : String}
    (ha : a ∈ p.chain name) : p.chain a <:+ p.chain name := by
  obtain ⟨line, hl⟩ := hp.exists_line hc
  rw [hp.lawful.chain_eq_of_line hl] at ha ⊢
  obtain ⟨rest, hrest, hsuffix⟩ := hl.of_mem ha
  rw [hp.lawful.chain_eq_of_line hrest]
  exact hsuffix

end Valid

end Decaf.Program
