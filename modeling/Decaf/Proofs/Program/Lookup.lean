import Decaf.Program.Lookup
import Decaf.Proofs.Dict

namespace Decaf.Program

/-!
# Where look-ups end

A member that is found is one that some class or interface declares.

* `exists_name_of_mem_declared`, `mem_declared` — the declarations of the classes of a line are
  found under names of the line, and the other way round.
* `exists_class_of_field?`, `exists_class_of_method?` — the class behind a field or a method that is
  found.
-/

variable {p : Program}

/-- The declarations of the named classes belong to these names. -/
theorem exists_name_of_mem_declared {names : List String} {c : ClassDecl}
    (h : c ∈ p.declared names) : ∃ name ∈ names, p.class? name = some c := by
  induction names with
  | nil => cases h
  | cons name names ih =>
    rw [declared] at h
    cases hname : p.class? name with
    | none => simp [hname] at h
    | some d =>
      simp only [hname, List.mem_cons] at h
      rcases h with rfl | h
      · exact ⟨name, List.mem_cons_self, hname⟩
      · obtain ⟨other, hmem, hother⟩ := ih h
        exact ⟨other, List.mem_cons_of_mem name hmem, hother⟩

/-- Where all the named classes are declared, their declarations are all there. -/
theorem mem_declared {names : List String} (hall : ∀ name ∈ names, ∃ d, p.class? name = some d)
    {name : String} (hname : name ∈ names) {c : ClassDecl} (hc : p.class? name = some c) :
    c ∈ p.declared names := by
  induction names with
  | nil => cases hname
  | cons other names ih =>
    obtain ⟨d, hd⟩ := hall other List.mem_cons_self
    simp only [declared, hd, List.mem_cons]
    rcases List.mem_cons.1 hname with rfl | hname
    · exact .inl (Option.some.inj (hc.symm.trans hd))
    · exact .inr (ih (fun n hn => hall n (List.mem_cons_of_mem other hn)) hname)

/-- A field that is found is declared by a class of the chain. -/
theorem exists_class_of_field? {cls name : String} {t : Option Ty}
    (h : p.field? cls name = some t) :
    ∃ a ∈ p.chain cls, ∃ c f, p.class? a = some c ∧ c.field? name = some f ∧ f.type = t := by
  obtain ⟨f, hf, hft⟩ := Option.map_eq_some_iff.1 h
  obtain ⟨a, ha, hbind⟩ := List.exists_of_findSome?_eq_some hf
  obtain ⟨c, hc, hfield⟩ := Option.bind_eq_some_iff.1 hbind
  exact ⟨a, ha, c, f, hc, hfield, hft⟩

/-- A method that is found is declared by a class or by an interface. -/
theorem exists_class_of_method? {cls name : String} {m : Method} (h : p.method? cls name = some m) :
    ∃ a c, p.class? a = some c ∧ c.method? name = some m := by
  rcases Option.or_eq_some_iff.1 h with h | ⟨_, h⟩
  · obtain ⟨c, hc, hm⟩ := List.exists_of_findSome?_eq_some h
    obtain ⟨a, _, ha⟩ := exists_name_of_mem_declared hc
    exact ⟨a, c, ha, hm⟩
  · obtain ⟨c, _, hpromised⟩ := List.exists_of_findSome?_eq_some h
    obtain ⟨i, _, hbind⟩ := List.exists_of_findSome?_eq_some hpromised
    obtain ⟨d, hd, hm⟩ := Option.bind_eq_some_iff.1 hbind
    exact ⟨i, d, hd, hm⟩

end Decaf.Program
