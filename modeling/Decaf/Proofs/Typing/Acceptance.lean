import Decaf.Proofs.Typing.System
import Decaf.Proofs.Typing.Verdict

namespace Decaf

/-!
# When a rule has nothing to complain about

Each rule of the checker sorts the types of a node's parts into those that it accepts and those that
it complains about.  Here is, rule by rule, what it accepts, provided that no part is wrong already:
the conditions are those of the type system.

* `Verdict.Accepts` — a verdict gives a type and complains about nothing.
* `compoundRule_accepts_iff`, `stepRule_accepts_iff`, `indexRule_accepts_iff`, … — what the rules
  accept.
* `Program.isAssignable_iff` — the test of assignability decides the relation of the type system.
-/

/-- A verdict without complaints that gives the type `t`. -/
def Verdict.Accepts (v : Verdict) (t : Option Ty) : Prop :=
  v.findings = [] ∧ v.result = .ok t

namespace Verdict

@[simp] theorem accepts_ok_iff {u : Ty} {t : Option Ty} :
    (Verdict.ok u).Accepts t ↔ t = some u := by
  simp [Accepts, ok, findings, eq_comm]

@[simp] theorem not_accepts_blame {pos : Position} {c : Complaint} {t : Option Ty} :
    ¬ (blame pos c).Accepts t := by
  simp [Accepts, blame, findings, Event.finding?]

@[simp] theorem not_accepts_untyped {t : Option Ty} : ¬ untyped.Accepts t := by
  simp [Accepts, untyped]

@[simp] theorem accepts_after_iff {events : List Event} {v : Verdict} {t : Option Ty} :
    (v.after events).Accepts t ↔ events.filterMap Event.finding? = [] ∧ v.Accepts t := by
  simp [Accepts, after, findings, and_assoc]

theorem accepts_ite_iff {c : Prop} [Decidable c] {v w : Verdict} {t : Option Ty} :
    (if c then v else w).Accepts t ↔ if c then v.Accepts t else w.Accepts t := by
  split <;> rfl

end Verdict

variable {p : Program} {pos : Position} {t : Option Ty}

@[simp] theorem not_accepts_mismatch {op : String} {l : Option Ty} {r : Ty} :
    ¬ (mismatch pos op l r).Accepts t :=
  Verdict.not_accepts_blame

/-! ### Assignability -/

/-- The test for subtypes decides the relation. -/
theorem Program.isSubtype_iff {sub super : String} :
    p.isSubtype sub super ↔ p.Subtype sub super := by
  simp [Program.isSubtype, Program.Subtype, Option.any_eq_true]

/-- The test for assignability decides the relation, the error type apart. -/
theorem Program.isAssignable_iff {src dst : Ty} (hs : src ≠ .error) (hd : dst ≠ .error) :
    p.isAssignable src dst ↔ p.Assignable src dst := by
  constructor
  · intro h
    simp only [Program.isAssignable, Bool.or_eq_true, decide_eq_true_eq] at h
    rcases h with ((h | h) | rfl) | h
    · cases src <;> simp [Ty.isError] at h hs
    · cases dst <;> simp [Ty.isError] at h hd
    · exact .refl
    · split at h
      · exact .null h
      · exact .subtype (isSubtype_iff.1 h)
      · cases h
  · intro h
    cases h with
    | refl => simp [Program.isAssignable]
    | null ht => simp [Program.isAssignable, ht]
    | subtype h => simp [Program.isAssignable, isSubtype_iff.2 h]

/-! ### Operators -/

/-- What an operator with a right operand only accepts. -/
theorem compoundRule_accepts_iff_of_unary {form : Form} {op : String} {target : Bool} {r : Ty}
    (hr : r ≠ .error) (hform : form.mayBeUnary) :
    (compoundRule p pos form op target none (some r)).Accepts t ↔
      match form with
      | .arithmetic => r.isNumeric ∧ t = some r
      | .logical => r = .bool ∧ t = some .bool
      | _ => False := by
  unfold compoundRule
  cases form <;> simp [hr, operatorRule, Form.mayBeUnary, Verdict.accepts_ite_iff] at hform ⊢

/-- What an operator with two operands accepts. -/
theorem compoundRule_accepts_iff {form : Form} {op : String} {target : Bool} {l r : Ty}
    (hl : l ≠ .error) (hr : r ≠ .error) :
    (compoundRule p pos form op target (some l) (some r)).Accepts t ↔
      match form with
      | .arithmetic => r.isNumeric ∧ l = r ∧ t = some r
      | .relational => l.isNumeric ∧ l = r ∧ t = some .bool
      | .equality => l ≠ .void ∧ r ≠ .void ∧ (p.Assignable l r ∨ p.Assignable r l) ∧ t = some .bool
      | .logical => r = .bool ∧ l = .bool ∧ t = some .bool
      | .assignment => target ∧ p.Assignable r l ∧ t = some l := by
  unfold compoundRule
  cases form <;> cases target <;>
    simp [hl, hr, operatorRule, Verdict.accepts_ite_iff, Program.isAssignable_iff, and_assoc]

/-- What an increment or decrement accepts. -/
theorem stepRule_accepts_iff {op : String} {target : Bool} {u : Ty} (hu : u ≠ .error) :
    (stepRule pos op target (some u)).Accepts t ↔ target ∧ u.isNumeric ∧ t = some u := by
  unfold stepRule
  cases target <;> simp [Verdict.accepts_ite_iff]

/-! ### Members and elements -/

/-- What the rule of an element accepts. -/
theorem indexRule_accepts_iff {subscriptPos : Position} {b s : Ty} (hb : b ≠ .error)
    (hs : s ≠ .error) :
    (indexRule pos subscriptPos (some b) (some s)).Accepts t ↔
      s = .int ∧ ∃ u, b = .array u ∧ t = some u := by
  unfold indexRule
  by_cases hint : s = .int
  · cases b <;> simp [hint] at hb ⊢
  · simp [hs, hint, Event.finding?]

/-- A look-up in the class of an expression accepts what the class accepts, if the expression has
    one. -/
theorem inClassOf_accepts_iff {member : String} {b : Ty} (hb : b ≠ .error)
    {look : String → Verdict} :
    (inClassOf p pos member (some b) look).Accepts t ↔
      ∃ cls, b = .named cls ∧ p.classes.contains cls ∧ (look cls).Accepts t := by
  unfold inClassOf
  cases b <;> simp [Verdict.accepts_ite_iff] at hb ⊢

/-- What the rule of a field of an expression accepts. -/
theorem fieldRule_accepts_iff {name : String} {b : Ty} (hb : b ≠ .error) :
    (fieldRule p pos name (some b)).Accepts t ↔
      ∃ cls, b = .named cls ∧ p.classes.contains cls ∧ p.field? cls name = some t := by
  unfold fieldRule
  rw [inClassOf_accepts_iff hb]
  refine exists_congr fun cls => and_congr_right fun _ => and_congr_right fun _ => ?_
  cases p.field? cls name with
  | none => simp
  | some u => simp [Verdict.Accepts, Verdict.findings, Event.finding?]

/-- What the rule of a name alone accepts. -/
theorem variableRule_accepts_iff {env : Env} {name : String} :
    (variableRule env pos name).Accepts t ↔
      env.context.typeOf? name = some t ∨
        env.context.typeOf? name = none ∧
          (env.context.cls.bind (env.program.field? · name) = some t ∨
            env.context.cls.bind (env.program.field? · name) = none ∧
            env.program.global? name = some t) := by
  unfold variableRule
  -- the three tables are searched in turn, and the first that knows the name decides
  cases env.context.typeOf? name with
  | some u => simp [Verdict.Accepts, Verdict.findings]
  | none =>
    cases env.context.cls.bind (env.program.field? · name) with
    | some u => simp [Verdict.Accepts, Verdict.findings, Event.finding?]
    | none =>
      cases env.program.global? name with
      | some u => simp [Verdict.Accepts, Verdict.findings]
      | none => simp

/-! ### Calls -/

/-- The first argument, unless it is known to be wrong, is compared with the first parameter. -/
theorem argumentsRule_cons {ret : Option Ty} {index : Nat} {pos : Position} {poss : List Position}
    {a u : Ty} {args : List (Option Ty)} {q : Param} {params : List Param} (ha : a ≠ .error)
    (hu : q.type = some u) :
    argumentsRule p ret index (pos :: poss) (some a :: args) (q :: params) =
      .after (if p.isAssignable a u then [] else [.found ⟨pos, .badArgument index a u⟩])
        (argumentsRule p ret (index + 1) poss args params) := by
  cases a <;> simp [argumentsRule, hu] at ha ⊢

/-- What the comparison of arguments with parameters accepts, if there are as many of the ones as of
    the others. -/
theorem argumentsRule_accepts_iff {ret : Option Ty} {args : List Ty}
    (hargs : ∀ a ∈ args, a ≠ .error) {params : List Param}
    (hparams : ∀ q ∈ params, SoundType q.type) (hlen : args.length = params.length)
    {poss : List Position} (hposs : poss.length = args.length) (index : Nat) :
    (argumentsRule p ret index poss (args.map some) params).Accepts t ↔
      t = ret ∧ List.Forall₂ (fun a (q : Param) =>
        ∃ u, q.type = some u ∧ p.Assignable a u) args params := by
  induction args generalizing params poss index with
  | nil =>
    obtain rfl : params = [] := by simpa using hlen.symm
    simp [argumentsRule, Verdict.Accepts, Verdict.findings, eq_comm]
  | cons a args ih =>
    cases params with
    | nil => simp at hlen
    | cons q params =>
      cases poss with
      | nil => simp at hposs
      | cons ps poss =>
        have ha : a ≠ .error := hargs a List.mem_cons_self
        obtain ⟨u, hu, herr⟩ := hparams q List.mem_cons_self
        have hune : u ≠ .error := fun h => by simp [h, Ty.mentionsError] at herr
        have hrest := ih (fun b hb => hargs b (List.mem_cons_of_mem a hb))
          (fun r hr => hparams r (List.mem_cons_of_mem q hr)) (by simpa using hlen)
          (by simpa using hposs) (index + 1)
        have hfirst : (∃ u, q.type = some u ∧ p.Assignable a u) ↔ p.isAssignable a u := by
          rw [Program.isAssignable_iff ha hune]
          simp [hu]
        -- the first argument is judged by itself, and adds nothing to the type
        rw [List.map_cons, argumentsRule_cons ha hu, Verdict.accepts_after_iff, hrest,
          List.forall₂_cons, hfirst]
        by_cases hfit : p.isAssignable a u
        · simp [hfit]
        · simp [hfit, Event.finding?]

/-- What the rule of a call whose method is found accepts. -/
theorem signatureRule_accepts_iff {m : Method} (hm : m.Sound) {args : List Ty}
    (hargs : ∀ a ∈ args, a ≠ .error) {poss : List Position} (hposs : poss.length = args.length) :
    (signatureRule p pos m poss (args.map some)).Accepts t ↔ t = m.ret ∧ m.Takes p args := by
  unfold signatureRule
  by_cases hlen : args.length = m.params.length
  · simp only [List.length_map, hlen, ne_eq, not_true_eq_false, if_false]
    exact argumentsRule_accepts_iff hargs hm.params hlen hposs 1
  · -- arguments that fit are as many as the parameters
    have hnot : ¬ m.Takes p args := fun h => hlen h.length_eq
    simp [hlen, hnot]

/-- What the rule of a call on an expression accepts. -/
theorem methodRule_accepts_iff {name : String} {b : Ty} (hb : b ≠ .error)
    (hm : ∀ cls m, p.method? cls name = some m → m.Sound) {args : List Ty}
    (hargs : ∀ a ∈ args, a ≠ .error) {poss : List Position} (hposs : poss.length = args.length) :
    (methodRule p pos name poss (some b) (args.map some)).Accepts t ↔
      (∃ u, b = .array u ∧ name = "length" ∧ args = [] ∧ t = some .int) ∨
        ∃ cls m, b = .named cls ∧ p.classes.contains cls ∧ p.method? cls name = some m ∧ t = m.ret ∧
          m.Takes p args := by
  -- arrays have one method, and it is not looked up in a class
  by_cases harray : ∃ u, b = .array u
  · obtain ⟨u, rfl⟩ := harray
    unfold methodRule
    simp [Verdict.accepts_ite_iff, arrayLength]
  · unfold methodRule
    split
    · next u hu => exact absurd ⟨u, Option.some.inj hu⟩ harray
    rw [inClassOf_accepts_iff hb]
    constructor
    · rintro ⟨cls, rfl, hcls, hlook⟩
      cases hmethod : p.method? cls name with
      | none => simp [hmethod] at hlook
      | some m =>
        simp only [hmethod, Verdict.accepts_after_iff,
          signatureRule_accepts_iff (hm cls m hmethod) hargs hposs] at hlook
        exact .inr ⟨cls, m, rfl, hcls, hmethod, hlook.2⟩
    · rintro (⟨u, rfl, _⟩ | ⟨cls, m, rfl, hcls, hmethod, hret⟩)
      · exact absurd ⟨u, rfl⟩ harray
      · refine ⟨cls, rfl, hcls, ?_⟩
        simp only [hmethod, Verdict.accepts_after_iff,
          signatureRule_accepts_iff (hm cls m hmethod) hargs hposs]
        exact ⟨rfl, hret⟩

/-- What the rule of a call by name alone accepts. -/
theorem functionRule_accepts_iff {env : Env} {name : String}
    (hm : ∀ cls m, env.program.method? cls name = some m → m.Sound)
    (hf : ∀ f, env.program.function? name = some f → f.Sound) {args : List Ty}
    (hargs : ∀ a ∈ args, a ≠ .error) {poss : List Position} (hposs : poss.length = args.length) :
    (functionRule env pos name poss (args.map some)).Accepts t ↔
      ∃ m, (env.context.cls.bind (env.program.method? · name) = some m ∨
          env.context.cls.bind (env.program.method? · name) = none ∧
          env.program.function? name = some m) ∧
        t = m.ret ∧ m.Takes env.program args := by
  unfold functionRule
  cases hmethod : env.context.cls.bind (env.program.method? · name) with
  | some m =>
    obtain ⟨cls, _, hcls⟩ := Option.bind_eq_some_iff.1 hmethod
    simp [signatureRule_accepts_iff (hm cls m hcls) hargs hposs, Event.finding?]
  | none =>
    cases hfun : env.program.function? name with
    | some f => simp [signatureRule_accepts_iff (hf f hfun) hargs hposs]
    | none => simp

/-! ### New objects and arrays -/

/-- What the rule of a new object accepts. -/
theorem newRule_accepts_iff {ref : ClassRef} {name : String} :
    (newRule p ref name).Accepts t ↔
      ∃ c, p.class? name = some c ∧ c.isInterface = false ∧ t = some (.named name) := by
  unfold newRule
  cases p.class? name with
  | none => simp
  | some c => cases hc : c.isInterface <;> simp [hc]

/-- A written type is resolved without a complaint exactly if it means something. -/
theorem resolve_eq_ok_iff {r : TypeRef} {u : Ty} :
    ((resolve p r).1.filterMap Event.finding? = [] ∧ (resolve p r).2 = .ok u) ↔ r.Denotes p u := by
  induction r generalizing u with
  | missing =>
    constructor
    · rintro ⟨_, h⟩
      cases h
    · intro h
      cases h
  | primitive src =>
    unfold resolve
    constructor
    · rintro ⟨_, h⟩
      cases hkey : Ty.ofKeyword? src.literal with
      | none => simp [hkey] at h
      | some v =>
        simp only [hkey, Except.ok.injEq] at h
        exact .primitive (h ▸ hkey)
    · intro h
      cases h with
      | primitive hkey => simp [hkey]
  | named ref =>
    unfold resolve
    constructor
    · rintro ⟨hquiet, h⟩
      cases hname : ref.name with
      | none => simp [hname] at h
      | some name =>
        simp only [hname, Except.ok.injEq] at h hquiet
        -- a class that is not declared still gives a type, but with a complaint
        by_cases hdecl : p.classes.contains name
        · exact h ▸ .named hname hdecl
        · simp [hdecl, Event.finding?] at hquiet
    · intro h
      cases h with
      | named hname hdecl => simp [hname, hdecl]
  | array src elem ih =>
    unfold resolve
    constructor
    · rintro ⟨hquiet, h⟩
      rcases helem : resolve p elem with ⟨events, flaw | v⟩
      · simp [helem] at h
      · simp only [helem, Except.ok.injEq, List.filterMap_append,
          List.append_eq_nil_iff] at h hquiet
        have hdenotes : elem.Denotes p v := ih.1 (by simp [helem, hquiet.1])
        -- so does an array of `void`
        by_cases hvoid : v = .void
        · simp [hvoid, Event.finding?] at hquiet
        · exact h ▸ .array hdenotes hvoid
    · intro h
      cases h with
      | @array _ _ v hdenotes hvoid =>
        obtain ⟨hquiet, hok⟩ := ih.2 hdenotes
        rcases helem : resolve p elem with ⟨events, flaw | w⟩
        · simp [helem] at hok
        · simp only [helem, Except.ok.injEq] at hquiet hok
          simp [hquiet, hok, hvoid]

/-- What the rule of a new array accepts. -/
theorem newArrayRule_accepts_iff {src : Origin} {sizePos : Position} {elem : TypeRef} {s : Ty}
    (hs : s ≠ .error) :
    (newArrayRule p src sizePos elem (some s)).Accepts t ↔
      s = .int ∧ ∃ u, elem.Denotes p u ∧ u ≠ .void ∧ t = some (.array u) := by
  unfold newArrayRule
  rw [Verdict.accepts_after_iff]
  -- the size is judged before the elements, and a complaint about it is enough
  by_cases hint : s = .int
  · constructor
    · rintro ⟨-, h⟩
      rcases hres : resolve p (.array src elem) with ⟨events, flaw | v⟩
      · simp [hres, Verdict.Accepts] at h
      · simp only [hres, Verdict.Accepts, Verdict.findings, Except.ok.injEq] at h
        have hdenotes : (TypeRef.array src elem).Denotes p v :=
          resolve_eq_ok_iff.1 (by simp [hres, h.1])
        cases hdenotes with
        | @array _ _ u helem hvoid => exact ⟨hint, u, helem, hvoid, h.2.symm⟩
    · rintro ⟨-, u, helem, hvoid, rfl⟩
      have hdenotes : (TypeRef.array src elem).Denotes p (.array u) := .array helem hvoid
      obtain ⟨hquiet, hok⟩ := resolve_eq_ok_iff.2 hdenotes
      rcases hres : resolve p (.array src elem) with ⟨events, flaw | v⟩
      · simp [hres] at hok
      · simp only [hres, Except.ok.injEq] at hquiet hok
        simp [hint, Verdict.Accepts, Verdict.findings, hquiet, hok]
  · simp [hs, hint, Event.finding?]

end Decaf
