import Decaf.Proofs.Layout.Slots
import Decaf.Proofs.Program.Lookup
import Decaf.Proofs.Typing.Subtyping

namespace Decaf

/-!
# Members of subtypes

Members are looked for along the chain of a class, and methods also in the interfaces that classes
of the chain list.  What may stand for a class has its chain at the end of its own, and what may
stand for an interface has a class on its chain that lists it.  So whatever is found in a type is
found in all its subtypes, though it need not be the same declaration: the nearest class that
declares a method comes before the others, and every class comes before the interfaces.

* `Program.isSome_field?_iff`, `Program.Valid.isSome_method?_iff` — when a member is found.
* `Program.Valid.field?_of_subtype`, `Program.Valid.method?_of_subtype` — what is found in a type is
  found in its subtypes.
* `Program.Valid.method?_of_nearest`, `Program.Valid.listed_of_method?` — which method it is.
* `members_of_subtypes` — the same of programs that declarations build.
-/

namespace Program

variable {p : Program} {cls sub super name : String}

/-! ### When a member is found -/

/-- A field is found exactly if a class of the chain declares it. -/
theorem isSome_field?_iff :
    (p.field? cls name).isSome ↔
      ∃ a ∈ p.chain cls, ∃ c, p.class? a = some c ∧ (c.field? name).isSome := by
  rw [field?, Option.isSome_map, List.findSome?_isSome_iff]
  simp only [Option.isSome_bind, Option.any_eq_true]

/-- Among classes that are all declared, a search succeeds exactly if one of them answers. -/
theorem isSome_findSome?_declared_iff {α : Type} {names : List String}
    (hall : ∀ a ∈ names, ∃ d, p.class? a = some d) (F : ClassDecl → Option α) :
    ((p.declared names).findSome? F).isSome ↔
      ∃ a ∈ names, ∃ c, p.class? a = some c ∧ (F c).isSome := by
  rw [List.findSome?_isSome_iff]
  constructor
  · rintro ⟨c, hc, hF⟩
    obtain ⟨a, ha, hclass⟩ := exists_name_of_mem_declared hc
    exact ⟨a, ha, c, hclass, hF⟩
  · rintro ⟨a, ha, c, hc, hF⟩
    exact ⟨c, mem_declared hall ha hc, hF⟩

/-- A class declares a method if it has one of that name. -/
theorem declares_iff {a : String} :
    p.declares name a ↔ ∃ c, p.class? a = some c ∧ (c.method? name).isSome := by
  rw [declares, Option.isSome_bind, Option.any_eq_true]

/-- A class has a method by promise if an interface that it lists declares it. -/
theorem isSome_promised?_iff {c : ClassDecl} :
    (p.promised? c name).isSome ↔ ∃ i ∈ c.interfaces, p.declares name i := by
  rw [promised?, List.findSome?_isSome_iff]
  rfl

namespace Valid

/-- A chain with a declared class starts with one. -/
theorem class_of_mem_chain_of_class (hp : p.Valid) {a : String} {c : ClassDecl}
    (ha : a ∈ p.chain cls) (hc : p.class? a = some c) : ∃ d, p.class? cls = some d := by
  cases hd : p.class? cls with
  | some d => exact ⟨d, rfl⟩
  | none =>
    rw [hp.lawful.chain_of_class?_eq_none hd, List.mem_singleton] at ha
    rw [ha, hd] at hc
    cases hc

/-- **When a method is found.** A class of the chain declares it, or lists an interface that
    does. -/
theorem isSome_method?_iff (hp : p.Valid) :
    (p.method? cls name).isSome ↔
      ∃ a ∈ p.chain cls, p.declares name a ∨
        ∃ c, p.class? a = some c ∧ ∃ i ∈ c.interfaces, p.declares name i := by
  cases hcls : p.class? cls with
  | none =>
    -- nothing is found in a class that is not declared, and its chain is itself alone
    have hnone : p.method? cls name = none := by simp [method?, chain, declared, hcls]
    simp [hnone, hp.lawful.chain_of_class?_eq_none hcls, declares, hcls]
  | some d =>
    have hall : ∀ a ∈ p.chain cls, ∃ e, p.class? a = some e :=
      fun a ha => hp.class_of_mem_chain hcls ha
    rw [method?, Option.isSome_or, Bool.or_eq_true, isSome_findSome?_declared_iff hall,
      isSome_findSome?_declared_iff hall]
    constructor
    · rintro (⟨a, ha, hdeclares⟩ | ⟨a, ha, c, hc, hpromised⟩)
      · exact ⟨a, ha, .inl (declares_iff.2 hdeclares)⟩
      · exact ⟨a, ha, .inr ⟨c, hc, isSome_promised?_iff.1 hpromised⟩⟩
    · rintro ⟨a, ha, hdeclares | ⟨c, hc, hlisted⟩⟩
      · exact .inl ⟨a, ha, declares_iff.1 hdeclares⟩
      · exact .inr ⟨a, ha, c, hc, isSome_promised?_iff.2 hlisted⟩

/-! ### What is found in subtypes -/

/-- What may stand for a name has the name's chain at the end of its own, or a class on its chain
    lists the name, which is an interface then, with nothing above it. -/
theorem chain_subset_or_listed (hp : p.Valid) (h : p.Subtype sub super) :
    p.chain super ⊆ p.chain sub ∨
      ∃ a ∈ p.chain sub, ∃ c i, p.class? a = some c ∧ super ∈ c.interfaces ∧
        p.class? super = some i ∧ i.fields = [] ∧ i.interfaces = [] ∧ p.chain super = [super] := by
  obtain ⟨a, ha, rfl | ⟨c, hc, hlist⟩⟩ := h
  · exact .inl (hp.chain_suffix ha).subset
  · obtain ⟨i, hi, hinterface⟩ := hp.interface_of_mem hc hlist
    obtain ⟨hparent, hlists, hfields⟩ := (hp.lawful.classes hi).bare hinterface
    exact .inr ⟨a, ha, c, i, hc, hlist, hi, hfields, hlists,
      hp.lawful.chain_of_parent_eq_none hi hparent⟩

/-- **Fields of subtypes.** What is found in a type is found in its subtypes. -/
theorem field?_of_subtype (hp : p.Valid) (h : p.Subtype sub super)
    (hfield : (p.field? super name).isSome) : (p.field? sub name).isSome := by
  obtain ⟨a, ha, c, hc, hname⟩ := isSome_field?_iff.1 hfield
  rcases hp.chain_subset_or_listed h with hsubset | ⟨_, _, _, i, _, _, hi, hfields, _, hchain⟩
  · exact isSome_field?_iff.2 ⟨a, hsubset ha, c, hc, hname⟩
  · -- an interface has no fields
    rw [hchain, List.mem_singleton] at ha
    rw [ha, hi, Option.some.injEq] at hc
    simp [← hc, ClassDecl.field?, hfields] at hname

/-- **Methods of subtypes.** What is found in a type is found in its subtypes. -/
theorem method?_of_subtype (hp : p.Valid) (h : p.Subtype sub super)
    (hmethod : (p.method? super name).isSome) : (p.method? sub name).isSome := by
  obtain ⟨a, ha, hfound⟩ := hp.isSome_method?_iff.1 hmethod
  rcases hp.chain_subset_or_listed h with hsubset | ⟨b, hb, c, i, hc, hlist, hi, _, hlists, hchain⟩
  · exact hp.isSome_method?_iff.2 ⟨a, hsubset ha, hfound⟩
  · rw [hchain, List.mem_singleton] at ha
    subst ha
    refine hp.isSome_method?_iff.2 ⟨b, hb, .inr ⟨c, hc, a, hlist, ?_⟩⟩
    rcases hfound with hdeclares | ⟨i', hi', _, hmem, _⟩
    · exact hdeclares
    · -- an interface lists no interfaces
      rw [hi, Option.some.injEq] at hi'
      rw [← hi', hlists] at hmem
      cases hmem

/-! ### Which method is found -/

/-- **The nearest class.** The method that is found is the one of the first class on the chain that
    declares it. -/
theorem method?_of_nearest (hp : p.Valid) {front rest : List String} {a : String} {c : ClassDecl}
    {m : Method} (hchain : p.chain cls = front ++ a :: rest)
    (hfront : ∀ b ∈ front, ¬ p.declares name b) (hc : p.class? a = some c)
    (hm : c.method? name = some m) : p.method? cls name = some m := by
  have hdeclares : p.declares name a := declares_iff.2 ⟨c, hc, by simp [hm]⟩
  have hnearest : p.declarer? cls name = some a := by
    rw [declarer?, hchain, List.find?_append, List.find?_eq_none.2 hfront, Option.none_or,
      List.find?_cons, hdeclares]
  have hmem : a ∈ p.chain cls := by simp [hchain]
  obtain ⟨d, hd⟩ := hp.class_of_mem_chain_of_class hmem hc
  obtain ⟨e, m', he, hm', hfound⟩ := hp.method?_of_declarer? hd hnearest
  obtain rfl := Option.some.inj (hc.symm.trans he)
  rw [hfound, ← hm', hm]

/-- **Interfaces come last.** Where no class of the chain declares the method, what is found is
    declared by an interface that a class of the chain lists. -/
theorem listed_of_method? (hp : p.Valid) {m : Method}
    (hnone : ∀ a ∈ p.chain cls, ¬ p.declares name a) (hm : p.method? cls name = some m) :
    ∃ a ∈ p.chain cls, ∃ c i d, p.class? a = some c ∧ i ∈ c.interfaces ∧ p.class? i = some d ∧
      d.isInterface ∧ d.method? name = some m := by
  rcases Option.or_eq_some_iff.1 hm with hm | ⟨_, hm⟩
  · obtain ⟨c, hc, hmethod⟩ := List.exists_of_findSome?_eq_some hm
    obtain ⟨a, ha, hclass⟩ := exists_name_of_mem_declared hc
    exact absurd (declares_iff.2 ⟨c, hclass, by simp [hmethod]⟩) (hnone a ha)
  · obtain ⟨c, hc, hpromised⟩ := List.exists_of_findSome?_eq_some hm
    obtain ⟨a, ha, hclass⟩ := exists_name_of_mem_declared hc
    obtain ⟨i, hi, hbind⟩ := List.exists_of_findSome?_eq_some hpromised
    obtain ⟨d, hd, hmethod⟩ := Option.bind_eq_some_iff.1 hbind
    exact ⟨a, ha, c, i, d, hclass, hi, hd, hp.isInterface_of_mem hclass hi hd, hmethod⟩

end Valid

end Program

/-- **Members are there in every subtype.** Take a program that declarations build, with a valid
    hierarchy.  Every field and every method that is found in a type is found in each of its
    subtypes.  If a class of the chain declares a method, the one that is found is that of the
    nearest such class, and it is owned by that class.  Else, what is found is declared by an
    interface that a class of the chain lists, and it is owned by that interface. -/
theorem members_of_subtypes (ds : List Decl) (hvalid : (Program.ofDecls ds).hierarchyErrors = []) :
    let p := Program.ofDecls ds
    (∀ sub super, p.isSubtype sub super →
        (∀ f, (p.field? super f).isSome → (p.field? sub f).isSome) ∧
          ∀ m, (p.method? super m).isSome → (p.method? sub m).isSome) ∧
      (∀ cls m front a rest c k, p.chain cls = front ++ a :: rest →
        (∀ b ∈ front, ¬ p.declares m b) →
        p.class? a = some c → c.method? m = some k → p.method? cls m = some k ∧ k.owner = some a) ∧
      ∀ cls m k, (∀ a ∈ p.chain cls, ¬ p.declares m a) → p.method? cls m = some k →
        ∃ a ∈ p.chain cls, ∃ c i d, p.class? a = some c ∧ i ∈ c.interfaces ∧ p.class? i = some d ∧
          d.isInterface ∧ d.method? m = some k ∧ k.owner = some i := by
  intro p
  have hp : p.Valid := ⟨Program.lawful_ofDecls ds, hvalid⟩
  refine ⟨fun sub super h => ?_, fun cls m front a rest c k hchain hfront hc hk => ?_,
    fun cls m k hnone hk => ?_⟩
  · have hsub : p.Subtype sub super := Program.isSubtype_iff.1 h
    exact ⟨fun f => hp.field?_of_subtype hsub, fun m => hp.method?_of_subtype hsub⟩
  · exact ⟨hp.method?_of_nearest hchain hfront hc hk, (hp.lawful.classes hc).method_owner hk⟩
  · obtain ⟨a, ha, c, i, d, hc, hi, hd, hinterface, hm⟩ := hp.listed_of_method? hnone hk
    exact ⟨a, ha, c, i, d, hc, hi, hd, hinterface, hm, (hp.lawful.classes hd).method_owner hm⟩

/-- The class at the top lists an interface, and a class below it overrides a method.  The lowest
    class has the field and the methods of both: the overriding method, and the promised one that no
    class declares. -/
theorem members_below_interface :
    let ds : List Decl :=
      [.class_ "C" (some "B") [], .class_ "B" (some "A") [], .method "B" ⟨"m", [], some .int, none⟩,
        .interface "I", .method "I" ⟨"n", [], some .bool, none⟩, .class_ "A" none ["I"],
        .field "A" "x" (some .int), .method "A" ⟨"m", [], some .int, none⟩]
    let p := Program.ofDecls ds
    (p.isSubtype "C" "A" ∧ (p.field? "C" "x").isSome) ∧
      (p.isSubtype "C" "I" ∧ (p.method? "C" "n").isSome) ∧
      (∃ k, p.method? "C" "m" = some k ∧ k.owner = some "B") ∧
      ∃ k, p.method? "C" "n" = some k ∧ k.owner = some "I" := by
  intro ds p
  obtain ⟨hfound, hnearest, hlisted⟩ := members_of_subtypes ds (by decide +kernel)
  have hCA : p.isSubtype "C" "A" := by decide +kernel
  have hCI : p.isSubtype "C" "I" := by decide +kernel
  have hn : (p.method? "C" "n").isSome := (hfound "C" "I" hCI).2 "n" (by decide +kernel)
  refine ⟨⟨hCA, (hfound "C" "A" hCA).1 "x" (by decide +kernel)⟩, ⟨hCI, hn⟩, ?_, ?_⟩
  · exact ⟨_, hnearest "C" "m" ["C"] "B" ["A"] _ _ (by decide +kernel) (by decide +kernel) rfl rfl⟩
  · obtain ⟨k, hk⟩ := Option.isSome_iff_exists.1 hn
    obtain ⟨a, ha, c, i, d, hc, hi, _, _, _, howner⟩ := hlisted "C" "n" k (by decide +kernel) hk
    -- the only interface that a class of the chain lists
    have hlists : ∀ a ∈ p.chain "C", ∀ i ∈ ((p.class? a).map (·.interfaces)).getD [], i = "I" := by
      decide +kernel
    have hclass : p.class? a = some c := hc
    obtain rfl : i = "I" := hlists a ha i (by simpa [hclass] using hi)
    exact ⟨k, hk, howner⟩

end Decaf
