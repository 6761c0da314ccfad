import Decaf.Proofs.Typing.Settling

namespace Decaf

/-!
# What a rule may say

The rules are written so that a mistake is complained about where it is made and nowhere else: a
node that depends on a wrong one is wrong too, without another word, and a node that is wrong on its
own account has something to say.  Every rule sees to this itself.  So it is said once what is asked
of a rule, and shown of each of them.

* `Expr.operands`, `Expr.fitted` — the parts that the type of a node is made from, and those that
  only have to fit.
* `Verdict.Fair` — what a rule may say if no operand is wrong.
* `Env.rule_fair` — what it does say, and `Env.rule_of_wrong`, what it says if an operand is wrong.
-/

/-! ### Operands and parts that have to fit -/

namespace Expr

/-- The parts that the type of a node is made from. -/
def operands : Expr → List Expr
  | compound _ _ _ left right => if left.isAbsent then [right] else [left, right]
  | index _ _ base _ => [base]
  | member _ recv _ | call _ recv _ _ => recv.parts
  | step _ _ operand => [operand]
  | _ => []

/-- The parts that only have to fit: the subscript of an element, the arguments of a call and the
    size of an array. -/
def fitted : Expr → List Expr
  | index _ _ _ subscript => [subscript]
  | call _ _ _ args => args
  | newArray _ _ size _ => [size]
  | _ => []

theorem parts_eq (e : Expr) : e.parts = e.operands ++ e.fitted := by
  cases e <;> simp [parts, operands, fitted]

theorem mem_parts_of_mem_operands {e o : Expr} (h : o ∈ e.operands) : o ∈ e.parts := by
  rw [parts_eq]
  exact List.mem_append_left _ h

/-- Whether the node is an element of an array. -/
def isElement : Expr → Bool
  | index .. => true
  | _ => false

/-- Whether the node keeps its type in spite of the complaint. -/
def bears : Expr → Complaint → Bool
  | index .., .badSubscript _ | call .., .badArgument .. | newArray .., .badSize _
  | newArray .., .badElement _ | newArray .., .undeclaredClass _ => true
  | _, _ => false

end Expr

/-- The number of the part that does not fit, from zero, if the complaint is about one that only has
    to fit. -/
def Complaint.misfit? : Complaint → Option Nat
  | badSubscript _ | badSize _ => some 0
  | badArgument index _ _ => some (index - 1)
  | _ => none

/-- A complaint that leaves a node its type, where `types` are those of the parts that have to fit.
    If it is about such a part, the part is not known to be wrong. -/
def Expr.Remark (e : Expr) (types : List Ty) (c : Complaint) : Prop :=
  e.bears c ∧ ∀ i, c.misfit? = some i → ∃ t, types[i]? = some t ∧ t ≠ .error

/-! ### Rules that say no more than they should -/

/-- **What is asked of a rule if no operand is wrong.** It gives the error type only with a
    complaint, and any other type only without one, remarks apart, which have the property `Q`. -/
structure Verdict.Fair (Q : Complaint → Prop) (v : Verdict) : Prop where
  type : ∃ t, v.result = .ok (some t) ∧ (t ≠ .error → t.mentionsError = false)
  cause : v.result = .ok (some .error) → v.findings ≠ []
  remarks : ∀ f ∈ v.findings, Q f.complaint ∨ v.result = .ok (some .error) ∧
    f.complaint.misfit? = none

section Rules

variable {Q : Complaint → Prop} {p : Program} {pos : Position}

namespace Verdict

/-- A type that does not mention the error type may be given, with remarks. -/
theorem fair_typed {events : List Event} {t : Ty} (ht : t.mentionsError = false)
    (hevents : ∀ f ∈ events.filterMap Event.finding?, Q f.complaint) :
    Fair Q { events, result := .ok (some t) } where
  type := ⟨t, rfl, fun _ => ht⟩
  cause h := by
    cases h
    cases ht
  remarks f hf := .inl (hevents f hf)

theorem fair_ok {t : Ty} (ht : t.mentionsError = false) : (ok t).Fair Q :=
  fair_typed ht (by simp)

theorem fair_blame {c : Complaint} (hc : c.misfit? = none) : (blame pos c).Fair Q where
  type := ⟨.error, rfl, fun h => absurd rfl h⟩
  cause _ := by simp [blame, findings, Event.finding?]
  remarks f hf := by
    have hf' : f = ⟨pos, c⟩ := by simpa [blame, findings, Event.finding?] using hf
    exact .inr ⟨rfl, by rw [hf', hc]⟩

theorem fair_ite {c : Prop} [Decidable c] {v w : Verdict} (hv : v.Fair Q) (hw : w.Fair Q) :
    (if c then v else w).Fair Q := by
  split
  · exact hv
  · exact hw

/-- Remarks may come before what a rule says. -/
theorem Fair.after {v : Verdict} (hv : v.Fair Q) {events : List Event}
    (hevents : ∀ f ∈ events.filterMap Event.finding?, Q f.complaint) : (v.after events).Fair Q where
  type := hv.type
  cause h hnil := by
    rw [findings_after, List.append_eq_nil_iff] at hnil
    exact hv.cause h hnil.2
  remarks f hf := by
    rw [findings_after, List.mem_append] at hf
    rcases hf with hf | hf
    · exact .inl (hevents f hf)
    · exact hv.remarks f hf

/-- A declaration that can be relied on gives its type, with nothing to say. -/
theorem fair_declared {events : List Event} {t : Option Ty} (ht : SoundType t)
    (hevents : events.filterMap Event.finding? = []) : Fair Q { events, result := .ok t } := by
  obtain ⟨u, rfl, hu⟩ := ht
  exact fair_typed hu (by simp [hevents])

end Verdict

open Verdict

theorem mismatch_fair {op : String} {left : Option Ty} {right : Ty} :
    (mismatch pos op left right).Fair Q := by
  cases left <;> exact fair_blame rfl

theorem operatorRule_fair {form : Form} {op : String} {left : Option Ty} {right : Ty}
    (hleft : left = none → form.mayBeUnary) (hl : ∀ l ∈ left, l.mentionsError = false)
    (hr : right.mentionsError = false) : (operatorRule p pos form op left right).Fair Q := by
  cases left with
  | none =>
    cases form with
    | arithmetic => exact fair_ite (fair_ok hr) mismatch_fair
    | logical => exact fair_ite (fair_ok rfl) mismatch_fair
    | _ => cases hleft rfl
  | some l =>
    cases form with
    | arithmetic => exact fair_ite (fair_ok hr) mismatch_fair
    | assignment => exact fair_ite (fair_ok (hl l rfl)) mismatch_fair
    | _ => exact fair_ite (fair_ok rfl) mismatch_fair

theorem compoundRule_fair {form : Form} {op : String} {target : Bool} {left : Option Ty}
    {right : Ty} (hleft : left = none → form.mayBeUnary) (hl : ∀ l ∈ left, l.mentionsError = false)
    (hr : right.mentionsError = false) :
    (compoundRule p pos form op target left (some right)).Fair Q := by
  have hne : ¬(left = some .error ∨ some right = some .error) := by
    rintro (rfl | h)
    · exact Ty.ne_error_of_mentionsError (hl .error rfl) rfl
    · exact Ty.ne_error_of_mentionsError hr (Option.some.inj h)
  unfold compoundRule
  rw [if_neg hne]
  split
  · exact fair_blame rfl
  · rename_i heq
    cases heq
    exact operatorRule_fair hleft hl hr
  · rename_i heq
    cases heq

theorem stepRule_fair {op : String} {target : Bool} {t : Ty} (ht : t.mentionsError = false) :
    (stepRule pos op target (some t)).Fair Q := by
  cases t with
  | error => cases ht
  | _ => exact fair_ite (fair_blame rfl) (fair_ite (fair_ok ht) (fair_blame rfl))

/-- What is said about a part that has to be an integer: nothing if it is one, and nothing if it is
    wrong already. -/
theorem integer_remarks {s : Ty} {d : Complaint} (hQ : s ≠ .error → Q d) :
    ∀ f ∈ (if s = .error ∨ s = .int then [] else [Event.found ⟨pos, d⟩]).filterMap Event.finding?,
      Q f.complaint := by
  split
  · simp
  · rename_i hne
    push Not at hne
    simpa [Event.finding?] using hQ hne.1

theorem indexRule_fair {subscriptPos : Position} {b s : Ty} (hb : b.mentionsError = false)
    (hQ : s ≠ .error → Q (.badSubscript s)) :
    (indexRule pos subscriptPos (some b) (some s)).Fair Q := by
  refine Fair.after ?_ (integer_remarks hQ)
  cases b with
  | error => cases hb
  | array elem => exact fair_ok hb
  | _ => exact fair_blame rfl

theorem inClassOf_fair {member : String} {b : Ty} (hb : b.mentionsError = false)
    {look : String → Verdict} (hlook : ∀ cls, (look cls).Fair Q) :
    (inClassOf p pos member (some b) look).Fair Q := by
  cases b with
  | error => cases hb
  | named cls => exact fair_ite (hlook cls) (fair_blame rfl)
  | _ => exact fair_blame rfl

/-- The comparison of arguments with parameters makes remarks, about arguments that are not known to
    be wrong. -/
theorem argumentsRule_fair {ret : Option Ty} (hret : SoundType ret) {index : Nat}
    {argPos : List Position} {args : List Ty} {params : List Param}
    (hparams : ∀ q ∈ params, SoundType q.type)
    (hQ : ∀ i a t, args[i]? = some a → a ≠ .error → Q (.badArgument (index + i) a t)) :
    (argumentsRule p ret index argPos (args.map some) params).Fair Q := by
  induction args generalizing index argPos params with
  | nil =>
    rw [List.map_nil, argumentsRule]
    · exact fair_declared hret rfl
    · simp
  | cons arg args ih =>
    cases argPos with
    | nil => exact fair_declared hret rfl
    | cons q argPos =>
      cases params with
      | nil => exact fair_declared hret rfl
      | cons param params =>
        have hrest : (argumentsRule p ret (index + 1) argPos (args.map some) params).Fair Q := by
          refine ih (fun q hq => hparams q (List.mem_cons_of_mem _ hq)) fun i a t ha hne => ?_
          rw [Nat.add_assoc, Nat.add_comm 1 i]
          exact hQ (i + 1) a t ha hne
        by_cases harg : arg = .error
        · -- an argument that is wrong already is passed over
          subst harg
          exact hrest
        · obtain ⟨t, ht, _⟩ := hparams param List.mem_cons_self
          rw [List.map_cons, argumentsRule_cons harg ht]
          refine hrest.after ?_
          split
          · simp
          · simpa [Event.finding?] using hQ 0 arg t rfl harg

theorem signatureRule_fair {m : Method} (hm : m.Sound) {argPos : List Position} {args : List Ty}
    (hQ : ∀ i a t, args[i]? = some a → a ≠ .error → Q (.badArgument (1 + i) a t)) :
    (signatureRule p pos m argPos (args.map some)).Fair Q :=
  fair_ite (fair_blame rfl) (argumentsRule_fair hm.ret hm.params hQ)

theorem newRule_fair {ref : ClassRef} {name : String} : (newRule p ref name).Fair Q := by
  unfold newRule
  split
  · exact fair_ite (fair_blame rfl) (fair_ok rfl)
  · exact fair_blame rfl

/-- A written type is never the error type, declared or not. -/
theorem mentionsError_of_resolve {r : TypeRef} {t : Ty} (h : (resolve p r).2 = .ok t) :
    t.mentionsError = false := by
  induction r generalizing t with
  | missing => cases h
  | primitive src =>
    cases hkey : Ty.ofKeyword? src.literal with
    | none => simp [resolve, hkey] at h
    | some u =>
      obtain rfl : u = t := by simpa [resolve, hkey] using h
      have hdenotes : (TypeRef.primitive src).Denotes p u := .primitive hkey
      exact hdenotes.mentionsError
  | named ref =>
    cases hname : ref.name with
    | none => simp [resolve, hname] at h
    | some name =>
      obtain rfl : .named name = t := by simpa [resolve, hname] using h
      rfl
  | array src elem ih =>
    rcases helem : resolve p elem with ⟨events, flaw | u⟩
    · simp [resolve, helem] at h
    · obtain rfl : .array u = t := by simpa [resolve, helem] using h
      show u.mentionsError = false
      exact ih (by rw [helem])

/-- What can be said about a written type: a class is not declared, or there are no arrays of an
    element type. -/
theorem resolve_remarks (hclass : ∀ name, Q (.undeclaredClass name))
    (helem : ∀ t, Q (.badElement t)) {r : TypeRef} :
    ∀ f ∈ (resolve p r).1.filterMap Event.finding?, Q f.complaint := by
  induction r with
  | missing => simp [resolve]
  | primitive src =>
    unfold resolve
    split <;> simp
  | named ref =>
    cases hname : ref.name with
    | none => simp [resolve, hname]
    | some name =>
      simp only [resolve, hname]
      split
      · simp
      · simpa [Event.finding?] using hclass name
  -- the remarks on the element come first, and then that on what it turned out to be
  | array src elem ih =>
    rcases hres : resolve p elem with ⟨events, flaw | t⟩
    · rw [hres] at ih
      simpa only [resolve, hres] using ih
    · rw [hres] at ih
      intro f hf
      simp only [resolve, hres, List.filterMap_append, List.mem_append] at hf
      rcases hf with hf | hf
      · exact ih f hf
      · split at hf
        · simp only [Event.finding?, List.filterMap_cons, List.filterMap_nil,
            List.mem_singleton] at hf
          subst hf
          exact helem t
        · cases hf

theorem newArrayRule_fair {src : Origin} {sizePos : Position} {elem : TypeRef}
    (hwell : elem.WellFormed) {size : Ty} (hsize : size ≠ .error → Q (.badSize size))
    (hclass : ∀ name, Q (.undeclaredClass name)) (helem : ∀ t, Q (.badElement t)) :
    (newArrayRule p src sizePos elem (some size)).Fair Q := by
  refine Fair.after ?_ (integer_remarks hsize)
  have harray : (TypeRef.array src elem).WellFormed := .array hwell
  have hremarks := resolve_remarks (p := p) hclass helem (r := .array src elem)
  obtain ⟨t, ht⟩ := (exists_resolve_eq_ok_iff (p := p)).2 harray
  have hclean : t.mentionsError = false := mentionsError_of_resolve ht
  rcases hres : resolve p (.array src elem) with ⟨events, result⟩
  rw [hres] at ht hremarks
  subst ht
  exact fair_typed hclean hremarks

end Rules

/-! ### The rule of a node -/

section Nodes

variable {env : Env} {Q : Complaint → Prop} {pos : Position} {name : String}

open Verdict

theorem fieldRule_fair (henv : env.Clean) {b : Ty} (hb : b.mentionsError = false) :
    (fieldRule env.program pos name (some b)).Fair Q := by
  refine inClassOf_fair hb fun cls => ?_
  cases hfield : env.program.field? cls name with
  | some t => exact fair_declared (henv.of_field hfield) rfl
  | none => exact fair_blame rfl

theorem variableRule_fair (henv : env.Clean) : (variableRule env pos name).Fair Q := by
  unfold variableRule
  split
  · rename_i hlocal
    exact fair_declared (henv.of_local hlocal) rfl
  · split
    · rename_i hfield
      obtain ⟨cls, _, hfield⟩ := Option.bind_eq_some_iff.1 hfield
      exact fair_declared (henv.of_field hfield) rfl
    · split
      · rename_i hglobal
        exact fair_declared (henv.of_global hglobal) rfl
      · exact fair_blame rfl

theorem methodRule_fair (henv : env.Clean) {argPos : List Position} {b : Ty}
    (hb : b.mentionsError = false) {args : List Ty}
    (hQ : ∀ i a t, args[i]? = some a → a ≠ .error → Q (.badArgument (1 + i) a t)) :
    (methodRule env.program pos name argPos (some b) (args.map some)).Fair Q := by
  cases b with
  | array elem => exact fair_ite (fair_blame rfl) (fair_ite (fair_blame rfl) (fair_ok rfl))
  | _ =>
    simp only [methodRule]
    refine inClassOf_fair hb fun cls => ?_
    cases hmethod : env.program.method? cls name with
    | some m =>
      exact (signatureRule_fair (henv.of_method hmethod) hQ).after (by simp [Event.finding?])
    | none => exact fair_blame rfl

theorem functionRule_fair (henv : env.Clean) {argPos : List Position} {args : List Ty}
    (hQ : ∀ i a t, args[i]? = some a → a ≠ .error → Q (.badArgument (1 + i) a t)) :
    (functionRule env pos name argPos (args.map some)).Fair Q := by
  unfold functionRule
  split
  · rename_i hmethod
    obtain ⟨cls, _, hmethod⟩ := Option.bind_eq_some_iff.1 hmethod
    exact (signatureRule_fair (henv.of_method hmethod) hQ).after (by simp [Event.finding?])
  · split
    · rename_i hfunction
      exact signatureRule_fair (henv.of_function hfunction) hQ
    · exact fair_blame rfl

theorem leafRule_fair {ctx : Context} {kind : Leaf} : (leafRule ctx pos kind).Fair Q := by
  cases kind with
  | this_ =>
    cases hcls : ctx.cls with
    | some cls => simpa only [leafRule, hcls] using fair_ok rfl
    | none => simpa only [leafRule, hcls] using fair_blame rfl
  | _ => exact fair_ok rfl

/-- Remarks about the only part that has to fit. -/
theorem Expr.remark_single {e : Expr} {s : Ty} {d : Complaint} (hbears : e.bears d)
    (hd : d.misfit? = some 0) (hs : s ≠ .error) : e.Remark [s] d := by
  refine ⟨hbears, fun i hi => ⟨s, ?_, hs⟩⟩
  obtain rfl : 0 = i := Option.some.inj (hd.symm.trans hi)
  rfl

/-- Remarks about the arguments of a call. -/
theorem Expr.remark_badArgument {id : NodeId} {recv : Receiver Expr} {name : Option Ident}
    {args : List Expr} {types : List Ty} (i : Nat) (a t : Ty) (ha : types[i]? = some a)
    (hne : a ≠ .error) : (Expr.call id recv name args).Remark types (.badArgument (1 + i) a t) := by
  refine ⟨rfl, fun j hj => ⟨a, ?_, hne⟩⟩
  obtain rfl : i = j := by simpa [Complaint.misfit?] using hj
  exact ha

/-- **No operand is wrong.** The rule of an intact node then gives the error type only with a
    complaint, and another type only without one, remarks apart. -/
theorem Env.rule_fair (henv : env.Clean) {e : Expr} (he : e.Intact) {ops fits : List Ty}
    (hops : ops.length = e.operands.length) (hfits : fits.length = e.fitted.length)
    (hsound : ∀ t ∈ ops, t.mentionsError = false) :
    (env.rule e ((ops ++ fits).map some)).Fair (e.Remark fits) := by
  obtain ⟨hflaw, hwritten⟩ := he
  -- the number of parts of each kind of node is fixed, arguments apart, and so are the types that
  -- its rule sees
  cases e with
  | absent => cases hflaw
  | hollow => cases hflaw
  | leaf => exact leafRule_fair
  | compound id form op left right =>
    obtain ⟨hunary, ⟨token, rfl, _⟩, _⟩ := flaw?_compound_eq_none_iff.1 hflaw
    obtain rfl := List.length_eq_zero_iff.1 hfits
    cases hleft : left.isAbsent with
    | true =>
      obtain rfl : left = .absent := by cases left <;> first | rfl | cases hleft
      obtain ⟨r, rfl⟩ := List.length_eq_one_iff.1 hops
      exact compoundRule_fair (fun _ => hunary rfl) (by simp) (hsound r List.mem_cons_self)
    | false =>
      simp only [Expr.operands, hleft] at hops
      obtain ⟨l, r, rfl⟩ := List.length_eq_two.1 hops
      have hl : ∀ t ∈ some l, t.mentionsError = false := by simpa using hsound l List.mem_cons_self
      exact compoundRule_fair (fun h => by cases h) hl (hsound r (by simp))
  | index id src base subscript =>
    obtain ⟨b, rfl⟩ := List.length_eq_one_iff.1 hops
    obtain ⟨s, rfl⟩ := List.length_eq_one_iff.1 hfits
    exact indexRule_fair (hsound b List.mem_cons_self) fun hs => Expr.remark_single rfl rfl hs
  | member id recv name =>
    obtain rfl := List.length_eq_zero_iff.1 hfits
    cases name with
    | none => cases hflaw
    | some name =>
      cases recv with
      | qualified base =>
        obtain ⟨b, rfl⟩ := List.length_eq_one_iff.1 hops
        exact fieldRule_fair henv (hsound b List.mem_cons_self)
      | unqualified => exact variableRule_fair henv
      | hollow => cases hflaw
      | absent => cases hflaw
  | call id recv name args =>
    cases name with
    | none => cases hflaw
    | some name =>
      cases recv with
      | qualified base =>
        obtain ⟨b, rfl⟩ := List.length_eq_one_iff.1 hops
        exact methodRule_fair henv (hsound b List.mem_cons_self) Expr.remark_badArgument
      | unqualified =>
        obtain rfl := List.length_eq_zero_iff.1 hops
        exact functionRule_fair henv Expr.remark_badArgument
      | hollow => cases hflaw
      | absent => cases hflaw
  | new id src cls =>
    cases cls with
    | none => cases hflaw
    | some ref => exact newRule_fair
  | newArray id src size elem =>
    obtain rfl := List.length_eq_zero_iff.1 hops
    obtain ⟨s, rfl⟩ := List.length_eq_one_iff.1 hfits
    -- what is said about the written type is about no part
    exact newArrayRule_fair (hwritten elem (List.mem_singleton_self elem))
      (fun hs => Expr.remark_single rfl rfl hs)
      (fun name => ⟨rfl, fun i hi => by cases hi⟩) fun t => ⟨rfl, fun i hi => by cases hi⟩
  | step id op operand =>
    obtain rfl := List.length_eq_zero_iff.1 hfits
    cases op with
    | none => cases hflaw
    | some op =>
      obtain ⟨t, rfl⟩ := List.length_eq_one_iff.1 hops
      exact stepRule_fair (hsound t List.mem_cons_self)

/-- **An operand is wrong.** Then the rule of an intact node gives the error type, and has nothing
    to say, except that an element may still say something about its subscript. -/
theorem Env.rule_of_wrong {e : Expr} (he : e.Intact) {ops fits : List Ty}
    (hops : ops.length = e.operands.length) (hfits : fits.length = e.fitted.length)
    (hwrong : .error ∈ ops) :
    (env.rule e ((ops ++ fits).map some)).result = .ok (some .error) ∧
      ∀ f ∈ (env.rule e ((ops ++ fits).map some)).findings, e.isElement ∧
        e.Remark fits f.complaint := by
  obtain ⟨hflaw, _⟩ := he
  -- the verdict of all rules but one
  have hsilent : ∀ {v : Verdict}, v = .silent → v.result = .ok (some .error) ∧
      ∀ f ∈ v.findings, e.isElement ∧ e.Remark fits f.complaint := by
    rintro _ rfl
    exact ⟨rfl, fun f hf => by cases hf⟩
  cases e with
  | compound id form op left right =>
    obtain ⟨_, ⟨token, rfl, _⟩, _⟩ := flaw?_compound_eq_none_iff.1 hflaw
    obtain rfl := List.length_eq_zero_iff.1 hfits
    refine hsilent (if_pos ?_)
    cases hleft : left.isAbsent with
    | true =>
      simp only [Expr.operands, hleft] at hops
      obtain ⟨r, rfl⟩ := List.length_eq_one_iff.1 hops
      simpa [operandTypes, eq_comm] using hwrong
    | false =>
      simp only [Expr.operands, hleft] at hops
      obtain ⟨l, r, rfl⟩ := List.length_eq_two.1 hops
      simpa [operandTypes, eq_comm] using hwrong
  | index id src base subscript =>
    obtain ⟨b, rfl⟩ := List.length_eq_one_iff.1 hops
    obtain ⟨s, rfl⟩ := List.length_eq_one_iff.1 hfits
    obtain rfl := List.mem_singleton.1 hwrong
    -- the subscript is looked at all the same
    refine ⟨rfl, fun f hf => ⟨rfl, ?_⟩⟩
    replace hf : f ∈ (Verdict.silent.after _).findings := hf
    rw [findings_after, List.mem_append] at hf
    rcases hf with hf | hf
    · exact integer_remarks (fun hs => Expr.remark_single rfl rfl hs) f hf
    · cases hf
  | member id recv name =>
    obtain rfl := List.length_eq_zero_iff.1 hfits
    cases name with
    | none => cases hflaw
    | some name =>
      cases recv with
      | qualified base =>
        obtain ⟨b, rfl⟩ := List.length_eq_one_iff.1 hops
        obtain rfl := List.mem_singleton.1 hwrong
        exact hsilent rfl
      | _ =>
        obtain rfl := List.length_eq_zero_iff.1 hops
        cases hwrong
  | call id recv name args =>
    cases name with
    | none => cases hflaw
    | some name =>
      cases recv with
      | qualified base =>
        obtain ⟨b, rfl⟩ := List.length_eq_one_iff.1 hops
        obtain rfl := List.mem_singleton.1 hwrong
        exact hsilent rfl
      | _ =>
        obtain rfl := List.length_eq_zero_iff.1 hops
        cases hwrong
  | step id op operand =>
    obtain rfl := List.length_eq_zero_iff.1 hfits
    cases op with
    | none => cases hflaw
    | some op =>
      obtain ⟨t, rfl⟩ := List.length_eq_one_iff.1 hops
      obtain rfl := List.mem_singleton.1 hwrong
      exact hsilent rfl
  | _ =>
    -- the type of the other nodes is made from no part
    obtain rfl := List.length_eq_zero_iff.1 hops
    cases hwrong

end Nodes

end Decaf
