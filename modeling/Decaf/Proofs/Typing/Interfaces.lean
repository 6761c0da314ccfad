import Decaf.Proofs.Layout.Slots
import Decaf.Proofs.Program.Overriding
import Decaf.Proofs.Typing.Acceptance

namespace Decaf

/-!
# Calls through interfaces

A class that lists an interface may stand where the interface is expected, and a call through the
interface is judged by the signature that the interface declares.  Nothing compares that signature
with what the class has under the name: the class may declare a method of another signature, above
or below the class that lists the interface, and two interfaces of a class may differ.  What is
certain is that the class has a method of the name.  Where what stands for the promise has the
promised signature, calls on the class are judged just as calls through the interface.

* `signatureRule_congr` — how a call is judged depends on the types in the signature.
* `Program.Provides` — the methods that may stand for a name in a class.
* `Program.Valid.exists_provided` — what an interface declares is found in every class that may
  stand for it.
* `calls_through_interface` — how calls on the class are judged, and `promises_are_not_checked`,
  what may go wrong.
-/

/-! ### Calls and signatures -/

section Rules

variable {p : Program} {pos : Position} {argPos : List Position} {args : List (Option Ty)}
    {m n : Method}

/-- How arguments are judged depends on the types of the parameters, not on their names. -/
theorem argumentsRule_congr {ret : Option Ty} {index : Nat} {ps qs : List Param}
    (h : ps.map (·.type) = qs.map (·.type)) :
    argumentsRule p ret index argPos args ps = argumentsRule p ret index argPos args qs := by
  induction ps generalizing qs index argPos args with
  | nil =>
    obtain rfl : qs = [] := by simpa using h.symm
    rfl
  | cons a ps ih =>
    cases qs with
    | nil => simp at h
    | cons b qs =>
      obtain ⟨htype, hrest⟩ : a.type = b.type ∧ ps.map (·.type) = qs.map (·.type) := by
        simpa using h
      match argPos, args with
      | [], _ | _ :: _, [] => rfl
      | pos :: argPos, arg :: args => simp only [argumentsRule, htype, ih hrest]

/-- How a call is judged depends on the name and on the types in the signature. -/
theorem signatureRule_congr (hname : m.name = n.name) (h : m.SameSignature n) :
    signatureRule p pos m argPos args = signatureRule p pos n argPos args := by
  have hlen : m.params.length = n.params.length := by simpa using congrArg List.length h.1
  rw [signatureRule, signatureRule, hname, hlen, h.2, argumentsRule_congr h.1]

/-- A call on an object of a declared class that has the method is judged by its signature. -/
theorem methodRule_of_method? {cls name : String} {c : ClassDecl} (hc : p.class? cls = some c)
    (hm : p.method? cls name = some m) :
    methodRule p pos name argPos (some (.named cls)) args =
      (signatureRule p pos m argPos args).after [.callResolved cls name (m.owner.getD "")] := by
  have hdeclared : p.classes.contains cls := Option.isSome_iff_exists.2 ⟨c, hc⟩
  simp [methodRule, inClassOf, hdeclared, hm]

/-- Calls on objects of two classes are judged alike if the methods have the same name and
    signature. -/
theorem methodRule_congr {cls other name : String} {c d : ClassDecl} (hc : p.class? cls = some c)
    (hd : p.class? other = some d) (hm : p.method? cls name = some m)
    (hn : p.method? other name = some n) (hname : m.name = n.name) (h : m.SameSignature n) :
    (methodRule p pos name argPos (some (.named cls)) args).result =
        (methodRule p pos name argPos (some (.named other)) args).result ∧
      (methodRule p pos name argPos (some (.named cls)) args).findings =
        (methodRule p pos name argPos (some (.named other)) args).findings := by
  rw [methodRule_of_method? hc hm, methodRule_of_method? hd hn, signatureRule_congr hname h,
    Verdict.findings_after, Verdict.findings_after]
  exact ⟨rfl, rfl⟩

end Rules

/-! ### What stands for a promise -/

namespace Program

variable {p : Program} {cls iface name : String} {c i : ClassDecl} {m n : Method}

/-- The methods that may stand for a name in a class: the one of the nearest class that declares it;
    or, if no class of the chain does, those of the interfaces that classes of the chain list. -/
inductive Provides (p : Program) (cls name : String) (n : Method) : Prop
  | nearest {a : String} {d : ClassDecl} (ha : p.declarer? cls name = some a)
      (hd : p.class? a = some d) (hn : d.method? name = some n)
  | promised (hnone : p.declarer? cls name = none) {a j : String} {d k : ClassDecl}
      (ha : a ∈ p.chain cls) (hd : p.class? a = some d) (hj : j ∈ d.interfaces)
      (hk : p.class? j = some k) (hinterface : k.isInterface) (hn : k.method? name = some n)

/-- What stands for a name has the name. -/
theorem Provides.name_eq (hp : p.Lawful) (h : p.Provides cls name n) : n.name = name := by
  cases h with
  | nearest _ hd hn => exact (hp.classes hd).method_name hn
  | promised _ _ _ _ hk _ hn => exact (hp.classes hk).method_name hn

namespace Valid

/-- An interface has the methods that it declares. -/
theorem method?_of_isInterface (hp : p.Valid) (hi : p.class? iface = some i)
    (hinterface : i.isInterface) : p.method? iface name = i.method? name := by
  obtain ⟨hparent, hlists, _⟩ := (hp.lawful.classes hi).bare hinterface
  rw [method?, hp.lawful.chain_of_parent_eq_none hi hparent]
  simp [declared, hi, promised?, hlists]

/-- **Promises are kept in name.** What an interface declares is found in every class that may stand
    for the interface: it is what stands for the name there. -/
theorem exists_provided (hp : p.Valid) (hc : p.class? cls = some c) (hi : p.class? iface = some i)
    (hm : i.method? name = some m) (hsub : p.Subtype cls iface) :
    ∃ n, p.method? cls name = some n ∧ p.Provides cls name n := by
  cases hnearest : p.declarer? cls name with
  | some a =>
    obtain ⟨d, n, hd, hn, hfound⟩ := hp.method?_of_declarer? hc hnearest
    exact ⟨n, hfound, .nearest hnearest hd hn⟩
  | none =>
    have hundeclared : ∀ a ∈ p.chain cls, ∀ d, p.class? a = some d → d.method? name = none := by
      intro a ha d hd
      have hnot := List.find?_eq_none.1 hnearest a ha
      simpa [declares, hd] using hnot
    have hclasses : (p.declared (p.chain cls)).findSome? (·.method? name) = none := by
      rw [List.findSome?_eq_none_iff]
      intro d hd
      obtain ⟨a, ha, hd⟩ := exists_name_of_mem_declared hd
      exact hundeclared a ha d hd
    -- the interface is not on the chain itself, so some class of the chain lists it
    obtain ⟨a, ha, d, hd, hlist⟩ :
        ∃ a ∈ p.chain cls, ∃ d, p.class? a = some d ∧ iface ∈ d.interfaces := by
      obtain ⟨a, ha, rfl | ⟨d, hd, hlist⟩⟩ := hsub
      · simp [hundeclared a ha i hi] at hm
      · exact ⟨a, ha, d, hd, hlist⟩
    have hpromise : (p.promised? d name).isSome := by
      rw [promised?, List.findSome?_isSome_iff]
      exact ⟨iface, hlist, by simp [hi, hm]⟩
    have hsome : ((p.declared (p.chain cls)).findSome? (p.promised? · name)).isSome := by
      rw [List.findSome?_isSome_iff]
      exact ⟨d, mem_declared (fun _ hb => hp.class_of_mem_chain hc hb) ha hd, hpromise⟩
    obtain ⟨n, hn⟩ := Option.isSome_iff_exists.1 hsome
    obtain ⟨e, he, hpromised⟩ := List.exists_of_findSome?_eq_some hn
    obtain ⟨b, hb, hclass⟩ := exists_name_of_mem_declared he
    obtain ⟨j, hj, hbind⟩ := List.exists_of_findSome?_eq_some hpromised
    obtain ⟨k, hk, hkn⟩ := Option.bind_eq_some_iff.1 hbind
    refine ⟨n, ?_, .promised hnearest hb hclass hj hk (hp.isInterface_of_mem hclass hj hk) hkn⟩
    rw [method?, hclasses, Option.none_or, hn]

end Valid

end Program

/-- **Calls through interfaces.** Take a program that declarations build, with a valid hierarchy, an
    interface with a method, and a class that may stand for the interface.  The class has a method
    of the name: that of the nearest class on its chain that declares one, or, if no class of the
    chain does, that of an interface that a class of the chain lists.  If what may stand for the
    name there has the types that the interface declares, so has the method that is found, and every
    call on an object of the class is judged as the same call through the interface: it has the same
    type, and there is the same to complain about. -/
theorem calls_through_interface (ds : List Decl)
    (hvalid : (Program.ofDecls ds).hierarchyErrors = []) (cls iface name : String) (c i : ClassDecl)
    (m : Method) (hc : (Program.ofDecls ds).class? cls = some c)
    (hi : (Program.ofDecls ds).class? iface = some i) (hinterface : i.isInterface)
    (hm : i.method? name = some m) (hsub : (Program.ofDecls ds).isSubtype cls iface) :
    ∃ n, (Program.ofDecls ds).method? cls name = some n ∧ (Program.ofDecls ds).Provides cls name n ∧
      ((∀ k, (Program.ofDecls ds).Provides cls name k → k.SameSignature m) →
        n.SameSignature m ∧ ∀ pos argPos args,
          (methodRule (Program.ofDecls ds) pos name argPos (some (.named cls)) args).result =
              (methodRule (Program.ofDecls ds) pos name argPos (some (.named iface)) args).result ∧
            (methodRule (Program.ofDecls ds) pos name argPos (some (.named cls)) args).findings =
              (methodRule (Program.ofDecls ds) pos name argPos
                (some (.named iface)) args).findings) := by
  have hp : (Program.ofDecls ds).Valid := ⟨Program.lawful_ofDecls ds, hvalid⟩
  obtain ⟨n, hn, hprovides⟩ := hp.exists_provided hc hi hm (Program.isSubtype_iff.1 hsub)
  refine ⟨n, hn, hprovides, fun hconforms => ⟨hconforms n hprovides, fun pos argPos args => ?_⟩⟩
  -- an interface has no parent, so its own methods are all that the search finds
  have hiface : (Program.ofDecls ds).method? iface name = some m := by
    rw [hp.method?_of_isInterface hi hinterface, hm]
  have hname : n.name = m.name := by
    rw [hprovides.name_eq hp.lawful, (hp.lawful.classes hi).method_name hm]
  exact methodRule_congr hc hi hn hiface hname (hconforms n hprovides)

/-- The method stands above the class that lists the interface, and has the promised types. -/
theorem calls_of_inherited_method :
    let ds : List Decl :=
      [.interface "I", .method "I" ⟨"m", [⟨"x", some .int⟩], some .int, none⟩,
        .class_ "B" (some "A") ["I"], .class_ "A" none [],
        .method "A" ⟨"m", [⟨"y", some .int⟩], some .int, none⟩]
    let p := Program.ofDecls ds
    p.isSubtype "B" "I" ∧ ∃ n, p.method? "B" "m" = some n ∧ n.owner = some "A" ∧
      ∀ pos argPos args,
        (methodRule p pos "m" argPos (some (.named "B")) args).findings =
          (methodRule p pos "m" argPos (some (.named "I")) args).findings := by
  intro ds p
  have hsub : p.isSubtype "B" "I" := by decide +kernel
  have hnearest : p.declarer? "B" "m" = some "A" := by decide +kernel
  have hmethod : (p.class? "A").bind (·.method? "m") =
      some ⟨"m", [⟨"y", some .int⟩], some .int, some "A"⟩ := by
    decide +kernel
  have honly : ∀ k, p.Provides "B" "m" k → k = ⟨"m", [⟨"y", some .int⟩], some .int, some "A"⟩ := by
    intro k hk
    cases hk with
    | @nearest a d ha hd hk =>
      obtain rfl : "A" = a := Option.some.inj (hnearest.symm.trans ha)
      rw [hd, Option.bind_some, hk] at hmethod
      exact Option.some.inj hmethod
    | promised hnone =>
      rw [hnearest] at hnone
      cases hnone
  obtain ⟨n, hn, hprovides, hcalls⟩ :=
    calls_through_interface ds (by decide +kernel) "B" "I" "m" _ _ _ rfl rfl rfl rfl hsub
  have hsame : ∀ k, p.Provides "B" "m" k →
      k.SameSignature ⟨"m", [⟨"x", some .int⟩], some .int, some "I"⟩ := by
    intro k hk
    rw [honly k hk]
    exact ⟨rfl, rfl⟩
  exact ⟨hsub, n, hn, by rw [honly n hprovides],
    fun pos argPos args => ((hcalls hsame).2 pos argPos args).2⟩

/-- Promises are not checked.  One class declares a method of the name with another signature, and
    another class lists two interfaces that differ.  All declarations are accepted, there is no
    error in the hierarchy, and both classes may stand for the interface; but their methods do not
    have the promised signature, and a call that is fine through the interface is refused on their
    objects. -/
theorem promises_are_not_checked :
    let m : Method := { name := "m", params := [⟨"x", some .int⟩], ret := some .int }
    let n : Method := { name := "m", params := [], ret := some .bool }
    let ds : List Decl :=
      [.interface "I", .method "I" m, .interface "J", .method "J" n, .class_ "C" none ["I"],
        .method "C" n, .class_ "D" none ["J", "I"]]
    let p := Program.ofDecls ds
    let call (cls : String) := methodRule p .start "m" [.start] (some (.named cls)) [some .int]
    Program.empty.declareAll ds = .ok p ∧ p.hierarchyErrors = [] ∧
      p.method? "I" "m" = some { m with owner := some "I" } ∧ (call "I").findings = [] ∧
      (p.isSubtype "C" "I" ∧ p.method? "C" "m" = some { n with owner := some "C" } ∧
        (call "C").findings ≠ []) ∧
      (p.isSubtype "D" "I" ∧ p.method? "D" "m" = some { n with owner := some "J" } ∧
        (call "D").findings ≠ []) ∧
      ¬ n.SameSignature m := by
  intro m n ds p call
  refine ⟨by decide +kernel, by decide +kernel, by decide +kernel, by decide +kernel,
    by decide +kernel, by decide +kernel, fun h => ?_⟩
  cases h.2

end Decaf
