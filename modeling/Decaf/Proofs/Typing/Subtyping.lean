import Decaf.Proofs.Program.Validity
import Decaf.Proofs.Typing.Acceptance

namespace Decaf

/-!
# Subtypes are ordered

Which types may stand for which is read off the classes above a class and off the interfaces that
these list.  In a program that declarations build, with a valid hierarchy, this is an order: of
names, whether they are declared or not, and of types, as long as the error type is left out, which
fits everywhere.  Two things carry the proof.  The chain of a class on a chain is the end of that
chain, so what is above a class is also above what is below it; and above an interface, or a name
that is not declared, there is nothing.

* `Program.Lawful.subtype_iff_eq` — names above which there is nothing.
* `Program.Valid.above` — the two ways to be above a name.
* `Program.Valid.subtype_trans`, `Program.Valid.subtype_antisymm` — subtypes are ordered.
* `Program.Valid.assignable_trans`, `Program.Valid.assignable_antisymm` — and so are the types.
* `subtypes_are_ordered` — the same of the tests that decide these relations.
-/

namespace Program

variable {p : Program} {a b c : String}

/-! ### Names -/

/-- A name is its own subtype. -/
theorem subtype_refl (p : Program) (a : String) : p.Subtype a a :=
  ⟨a, List.mem_cons_self, .inl rfl⟩

/-- The chain of a name that is not declared. -/
theorem Lawful.chain_of_class?_eq_none (hp : p.Lawful) (ha : p.class? a = none) :
    p.chain a = [a] := by
  refine hp.chain_eq_of_line (.top ?_)
  rw [hp.edges, ha, Option.bind_none]

/-- **Nothing above.** Above an interface, or a name that is not declared, there is only itself. -/
theorem Lawful.subtype_iff_eq (hp : p.Lawful) (ha : ∀ d, p.class? a = some d → d.isInterface) :
    p.Subtype a b ↔ a = b := by
  constructor
  · rintro ⟨x, hx, habove⟩
    cases hd : p.class? a with
    | none =>
      rw [hp.chain_of_class?_eq_none hd, List.mem_singleton] at hx
      subst hx
      rcases habove with rfl | ⟨d, hd', _⟩
      · rfl
      · rw [hd] at hd'
        cases hd'
    | some d =>
      -- an interface has no parent and lists no interfaces
      obtain ⟨hparent, hlists, _⟩ := (hp.classes hd).bare (ha d hd)
      rw [hp.chain_of_parent_eq_none hd hparent, List.mem_singleton] at hx
      subst hx
      rcases habove with rfl | ⟨d', hd', hmem⟩
      · rfl
      · obtain rfl := Option.some.inj (hd.symm.trans hd')
        rw [hlists] at hmem
        cases hmem
  · rintro rfl
    exact p.subtype_refl a

namespace Valid

/-- What is above a name stands on its chain, or there is nothing above it in turn. -/
theorem above (hp : p.Valid) (h : p.Subtype a b) : b ∈ p.chain a ∨ ∀ c, p.Subtype b c ↔ b = c := by
  obtain ⟨x, hx, rfl | ⟨d, hd, hlist⟩⟩ := h
  · exact .inl hx
  · refine .inr fun c => hp.lawful.subtype_iff_eq fun i hi => ?_
    exact hp.isInterface_of_mem hd hlist hi

/-- The chain of a name on a chain is the end of that chain, whether the names are declared or
    not. -/
theorem chain_suffix (hp : p.Valid) (hb : b ∈ p.chain a) : p.chain b <:+ p.chain a := by
  cases ha : p.class? a with
  | none =>
    rw [hp.lawful.chain_of_class?_eq_none ha, List.mem_singleton] at hb
    subst hb
    exact List.suffix_rfl
  | some c => exact hp.chain_suffix_of_mem ha hb

/-- **Transitivity.** -/
theorem subtype_trans (hp : p.Valid) (hab : p.Subtype a b) (hbc : p.Subtype b c) :
    p.Subtype a c := by
  rcases hp.above hab with hchain | htop
  · -- what is found along the chain of `b` is found along the chain of `a`, which ends with it
    obtain ⟨x, hx, habove⟩ := hbc
    exact ⟨x, (hp.chain_suffix hchain).subset hx, habove⟩
  · rwa [← (htop c).1 hbc]

/-- **Antisymmetry.** -/
theorem subtype_antisymm (hp : p.Valid) (hab : p.Subtype a b) (hba : p.Subtype b a) : a = b := by
  rcases hp.above hab with hb | htop
  · rcases hp.above hba with ha | htop
    · -- each chain is the end of the other, so they are the same and start with the same class
      have hle : (p.chain a).length ≤ (p.chain b).length := (hp.chain_suffix ha).length_le
      have hsame : p.chain b = p.chain a := (hp.chain_suffix hb).eq_of_length_le hle
      exact (List.cons.inj hsame).1.symm
    · exact (htop b).1 hab
  · exact ((htop a).1 hba).symm

/-! ### Types -/

variable {s t u : Ty}

/-- **Transitivity.** Null stays below what is above a class or an array. -/
theorem assignable_trans (hp : p.Valid) (hst : p.Assignable s t) (htu : p.Assignable t u) :
    p.Assignable s u := by
  cases hst with
  | refl => exact htu
  | null ht =>
    cases htu with
    | refl => exact .null ht
    | null hu => exact .null hu
    | subtype => exact .null rfl
  | subtype hab =>
    cases htu with
    | refl => exact .subtype hab
    | subtype hbc => exact .subtype (hp.subtype_trans hab hbc)

/-- **Antisymmetry.** -/
theorem assignable_antisymm (hp : p.Valid) (hst : p.Assignable s t) (hts : p.Assignable t s) :
    s = t := by
  cases hst with
  | refl => rfl
  | null ht =>
    cases hts with
    | refl => rfl
    | null => rfl
  | subtype hab =>
    cases hts with
    | refl => rfl
    | subtype hba => rw [hp.subtype_antisymm hab hba]

end Valid

/-- Null is below itself, and below classes, interfaces and arrays. -/
theorem assignable_null_iff {t : Ty} :
    p.Assignable .null t ↔ t = .null ∨ (∃ cls, t = .named cls) ∨ ∃ elem, t = .array elem := by
  constructor
  · intro h
    cases h with
    | refl => exact .inl rfl
    | null ht =>
      cases t with
      | named cls => exact .inr (.inl ⟨cls, rfl⟩)
      | array elem => exact .inr (.inr ⟨elem, rfl⟩)
      | _ => cases ht
  · rintro (rfl | ⟨cls, rfl⟩ | ⟨elem, rfl⟩)
    · exact .refl
    · exact .null rfl
    · exact .null rfl

/-- Above an array there is only itself. -/
theorem array_assignable_iff {elem t : Ty} : p.Assignable (.array elem) t ↔ t = .array elem := by
  constructor
  · intro h
    cases h
    rfl
  · rintro rfl
    exact .refl

/-- Below an array there is only itself and null. -/
theorem assignable_array_iff {elem t : Ty} :
    p.Assignable t (.array elem) ↔ t = .array elem ∨ t = .null := by
  constructor
  · intro h
    cases h with
    | refl => exact .inl rfl
    | null => exact .inr rfl
  · rintro (rfl | rfl)
    · exact .refl
    · exact .null rfl

end Program

/-- **Subtypes are ordered.** Take a program that declarations build, with a valid hierarchy.  The
    test for subtypes is reflexive, transitive and antisymmetric on all names, declared or not.  So
    is the test for assignability on all types but the error type.  There null is below itself and
    below the classes, interfaces and arrays, and below nothing else.  Above an array there is only
    itself, and below it only itself and null. -/
theorem subtypes_are_ordered (ds : List Decl) (hvalid : (Program.ofDecls ds).hierarchyErrors = []) :
    let p := Program.ofDecls ds
    (∀ a, p.isSubtype a a) ∧
      (∀ a b c, p.isSubtype a b → p.isSubtype b c → p.isSubtype a c) ∧
      (∀ a b, p.isSubtype a b → p.isSubtype b a → a = b) ∧
      (∀ t, t ≠ .error → p.isAssignable t t) ∧
      (∀ s t u, s ≠ .error → t ≠ .error → u ≠ .error →
        p.isAssignable s t → p.isAssignable t u → p.isAssignable s u) ∧
      (∀ s t, s ≠ .error → t ≠ .error → p.isAssignable s t → p.isAssignable t s → s = t) ∧
      (∀ t, t ≠ .error →
        (p.isAssignable .null t ↔ t = .null ∨ (∃ cls, t = .named cls) ∨ ∃ elem, t = .array elem)) ∧
      ∀ elem t, t ≠ .error → (p.isAssignable (.array elem) t ↔ t = .array elem) ∧
        (p.isAssignable t (.array elem) ↔ t = .array elem ∨ t = .null) := by
  intro p
  have hp : p.Valid := ⟨Program.lawful_ofDecls ds, hvalid⟩
  -- what is computed is the relation, as long as no type is wrong
  refine ⟨fun a => ?_, fun a b c hab hbc => ?_, fun a b hab hba => ?_, fun t ht => ?_,
    fun s t u hs ht hu hst htu => ?_, fun s t hs ht hst hts => ?_, fun t ht => ?_,
    fun elem t ht => ⟨?_, ?_⟩⟩
  · exact Program.isSubtype_iff.2 (p.subtype_refl a)
  · rw [Program.isSubtype_iff] at hab hbc ⊢
    exact hp.subtype_trans hab hbc
  · rw [Program.isSubtype_iff] at hab hba
    exact hp.subtype_antisymm hab hba
  · exact (Program.isAssignable_iff ht ht).2 .refl
  · rw [Program.isAssignable_iff hs ht] at hst
    rw [Program.isAssignable_iff ht hu] at htu
    exact (Program.isAssignable_iff hs hu).2 (hp.assignable_trans hst htu)
  · rw [Program.isAssignable_iff hs ht] at hst
    rw [Program.isAssignable_iff ht hs] at hts
    exact hp.assignable_antisymm hst hts
  · rw [Program.isAssignable_iff (by simp) ht]
    exact Program.assignable_null_iff
  · rw [Program.isAssignable_iff (by simp) ht]
    exact Program.array_assignable_iff
  · rw [Program.isAssignable_iff ht (by simp)]
    exact Program.assignable_array_iff

/-- The class at the top lists an interface, and a class below it one with the empty name.  The
    lowest class may stand for both interfaces, they do not stand for it, and its arrays do not
    stand for theirs. -/
theorem subtypes_ordered_below_interface :
    let ds : List Decl :=
      [.class_ "C" (some "B") [], .class_ "B" (some "A") [""], .interface "I", .interface "",
        .class_ "A" none ["I"]]
    let p := Program.ofDecls ds
    (p.isSubtype "C" "B" ∧ p.isSubtype "B" "I" ∧ p.isSubtype "C" "I") ∧
      p.isAssignable (.named "C") (.named "") ∧ ¬ p.isAssignable (.named "I") (.named "C") ∧
      ¬ p.isAssignable (.array (.named "C")) (.array (.named "I")) := by
  intro ds p
  have hCB : p.isSubtype "C" "B" := by decide +kernel
  have hBI : p.isSubtype "B" "I" := by decide +kernel
  have hCI : p.isAssignable (.named "C") (.named "I") := by decide +kernel
  obtain ⟨_, htrans, _, _, htypes, hanti, _, harray⟩ := subtypes_are_ordered ds (by decide +kernel)
  refine ⟨⟨hCB, hBI, htrans "C" "B" "I" hCB hBI⟩, ?_, fun hIC => ?_, fun hle => ?_⟩
  · exact htypes (.named "C") (.named "B") (.named "") (by simp) (by simp) (by simp)
      (by decide +kernel) (by decide +kernel)
  · have hsame := hanti (.named "I") (.named "C") (by simp) (by simp) hIC hCI
    simp at hsame
  · have hsame := (harray (.named "C") (.array (.named "I")) (by simp)).1.1 hle
    simp at hsame

end Decaf
