import Decaf.Proofs.Program.Extension
import Decaf.Proofs.Typing.Acceptance
import Decaf.Proofs.Typing.Frame

namespace Decaf

/-!
# What was accepted stays accepted

A program grows by new classes with their members, functions and global variables.  An expression
that has a type, and about which nothing was said, keeps that type, and still nothing is said about
it: no new declaration comes between a name and its old meaning, and none takes the ground from
under a comparison of types.  The reason is that a rule which accepts says word for word the same
over the larger program.

This takes that the classes above a declared class are declared.  Declarations alone always see to
that where the hierarchy is valid.  Where a class was linked to a parent that is not declared, a
class that is declared later may become that parent, and its members may hide what a name meant.

* `Verdict.Keeps` — a verdict that accepts is repeated.
* `Env.rule_keeps` — a rule that accepts says the same over a larger program.
* `keepsRun` — a run without complaints is the same there.
* `accepted_in_extension` — what was accepted stays accepted, and `linked_parent_captures_name`,
  what may go wrong.
-/

/-- If the verdict `v` accepts, `w` is the same verdict. -/
def Verdict.Keeps (v w : Verdict) : Prop :=
  ∀ t, v.Accepts t → w = v

namespace Verdict

variable {v w : Verdict}

theorem Keeps.refl (v : Verdict) : v.Keeps v :=
  fun _ _ => rfl

/-- Complaints do not have to be repeated. -/
theorem keeps_blame (pos : Position) (c : Complaint) (w : Verdict) : (blame pos c).Keeps w :=
  fun _ h => absurd h not_accepts_blame

/-- Neither have failures. -/
theorem keeps_untyped (w : Verdict) : untyped.Keeps w :=
  fun _ h => absurd h not_accepts_untyped

/-- A verdict that depends on a condition is repeated where the condition still holds. -/
theorem keeps_ite {c c' : Prop} [Decidable c] [Decidable c'] (h : c → c') (pos : Position)
    (complaint : Complaint) :
    (if c then v else blame pos complaint).Keeps (if c' then v else blame pos complaint) := by
  by_cases hc : c
  · rw [if_pos hc, if_pos (h hc)]
    exact .refl v
  · rw [if_neg hc]
    exact keeps_blame _ _ _

/-- What is said before is repeated too, if it is no complaint. -/
theorem Keeps.after {events events' : List Event}
    (hevents : events.filterMap Event.finding? = [] → events' = events) (h : v.Keeps w) :
    (v.after events).Keeps (w.after events') := by
  intro t ht
  obtain ⟨hquiet, haccepts⟩ := accepts_after_iff.1 ht
  rw [hevents hquiet, h t haccepts]

end Verdict

open Verdict

/-- A remark that is not made where a condition holds is not made where the condition still
    holds. -/
theorem remark_eq {c c' : Prop} [Decidable c] [Decidable c'] (h : c → c') (f : Finding)
    (hquiet : (if c then [] else [Event.found f]).filterMap Event.finding? = []) :
    (if c' then [] else [Event.found f]) = if c then [] else [Event.found f] := by
  by_cases hc : c
  · rw [if_pos hc, if_pos (h hc)]
  · simp [hc, Event.finding?] at hquiet

/-! ### Rules that read the program -/

section Rules

variable {p q : Program} {pos : Position} {name : String}

theorem operatorRule_keeps (h : p.Extends q) (form : Form) (op : String) (left : Option Ty)
    (right : Ty) :
    (operatorRule p pos form op left right).Keeps (operatorRule q pos form op left right) := by
  cases form with
  | arithmetic => exact .refl _
  | logical => exact .refl _
  | relational => cases left <;> exact .refl _
  | equality =>
    cases left with
    | none => exact .refl _
    | some l =>
      exact keeps_ite (fun ⟨hl, hr, hfit⟩ => ⟨hl, hr, hfit.imp h.isAssignable h.isAssignable⟩) pos _
  | assignment =>
    cases left with
    | none => exact .refl _
    | some l => exact keeps_ite h.isAssignable pos _

theorem compoundRule_keeps (h : p.Extends q) (form : Form) (op : String) (target : Bool)
    (left right : Option Ty) :
    (compoundRule p pos form op target left right).Keeps
      (compoundRule q pos form op target left right) := by
  unfold compoundRule
  split
  · exact .refl _
  · split
    · exact .refl _
    · exact operatorRule_keeps h _ _ _ _
    · exact .refl _

/-- A look-up in a class is repeated if the class is declared and the look-up in it is repeated. -/
theorem inClassOf_keeps (h : p.Extends q) {look look' : String → Verdict}
    (hlook : ∀ cls c, p.class? cls = some c → (look cls).Keeps (look' cls)) (base : Option Ty) :
    (inClassOf p pos name base look).Keeps (inClassOf q pos name base look') := by
  cases base with
  | none => exact .refl _
  | some t =>
    cases t with
    | named cls =>
      show Verdict.Keeps (if p.classes.contains cls then _ else _)
        (if q.classes.contains cls then _ else _)
      by_cases hcls : p.classes.contains cls
      · obtain ⟨c, hc⟩ := Option.isSome_iff_exists.1 hcls
        have hcls' : q.classes.contains cls := Option.isSome_iff_exists.2 ⟨c, h.classes hc⟩
        rw [if_pos hcls, if_pos hcls']
        exact hlook cls c hc
      · rw [if_neg hcls]
        exact keeps_blame _ _ _
    | _ => exact .refl _

theorem fieldRule_keeps (h : p.Extends q) (hp : p.Closed) (base : Option Ty) :
    (fieldRule p pos name base).Keeps (fieldRule q pos name base) := by
  refine inClassOf_keeps h (fun cls c hc => ?_) base
  rw [h.field?_eq hp hc]
  exact .refl _

theorem argumentsRule_keeps (h : p.Extends q) (ret : Option Ty) (index : Nat) (poss : List Position)
    (args : List (Option Ty)) (params : List Param) :
    (argumentsRule p ret index poss args params).Keeps
      (argumentsRule q ret index poss args params) := by
  induction args generalizing index poss params with
  | nil => cases poss <;> exact .refl _
  | cons arg args ih =>
    cases poss with
    | nil => exact .refl _
    | cons ps poss =>
      cases params with
      | nil => exact .refl _
      | cons param params =>
        cases arg with
        | none => exact keeps_untyped _
        | some a =>
          -- an argument that is wrong already is passed over in both programs
          by_cases ha : a = .error
          · subst ha
            exact ih (index + 1) poss params
          · cases hu : param.type with
            | none => simp [argumentsRule, hu, keeps_untyped]
            | some u =>
              rw [argumentsRule_cons ha hu, argumentsRule_cons ha hu]
              exact (ih (index + 1) poss params).after (remark_eq h.isAssignable _)

theorem signatureRule_keeps (h : p.Extends q) (m : Method) (argPos : List Position)
    (args : List (Option Ty)) :
    (signatureRule p pos m argPos args).Keeps (signatureRule q pos m argPos args) := by
  unfold signatureRule
  split
  · exact .refl _
  · exact argumentsRule_keeps h _ _ _ _ _

theorem methodRule_keeps (h : p.Extends q) (hp : p.Closed) (argPos : List Position)
    (base : Option Ty) (args : List (Option Ty)) :
    (methodRule p pos name argPos base args).Keeps (methodRule q pos name argPos base args) := by
  unfold methodRule
  split
  · exact .refl _
  · refine inClassOf_keeps h (fun cls c hc => ?_) _
    rw [h.method?_eq hp hc]
    cases p.method? cls name with
    | none => exact .refl _
    | some m => exact (signatureRule_keeps h m argPos args).after fun _ => rfl

theorem newRule_keeps (h : p.Extends q) (ref : ClassRef) :
    (newRule p ref name).Keeps (newRule q ref name) := by
  unfold newRule
  cases hc : p.class? name with
  | none => exact keeps_blame _ _ _
  | some c =>
    rw [h.classes hc]
    exact .refl _

/-- A written type that means something without a complaint means the same. -/
theorem resolve_eq (h : p.Extends q) {r : TypeRef} {t : Ty} (hok : (resolve p r).2 = .ok t)
    (hquiet : (resolve p r).1.filterMap Event.finding? = []) : resolve q r = resolve p r := by
  induction r generalizing t with
  | missing => rfl
  | primitive src => rfl
  | named ref =>
    unfold resolve at hquiet ⊢
    cases hname : ref.name with
    | none => rfl
    | some name =>
      simp only [hname] at hquiet ⊢
      -- without a finding the class is declared, and it stays so
      rw [remark_eq (fun hcls => ?_) _ hquiet]
      obtain ⟨c, hc⟩ := Option.isSome_iff_exists.1 hcls
      exact Option.isSome_iff_exists.2 ⟨c, h.classes hc⟩
  | array src elem ih =>
    unfold resolve at hok hquiet ⊢
    rcases helem : resolve p elem with ⟨events, flaw | u⟩
    · simp [helem] at hok
    · simp only [helem, List.filterMap_append, List.append_eq_nil_iff] at hquiet
      rw [ih (by rw [helem]) (by rw [helem]; exact hquiet.1), helem]

theorem newArrayRule_keeps (h : p.Extends q) (src : Origin) (sizePos : Position) (elem : TypeRef)
    (size : Option Ty) :
    (newArrayRule p src sizePos elem size).Keeps (newArrayRule q src sizePos elem size) := by
  cases size with
  | none => exact .refl _
  | some s =>
    refine Keeps.after (fun _ => rfl) fun t ht => ?_
    rcases hres : resolve p (.array src elem) with ⟨events, flaw | u⟩
    · simp [hres, Accepts] at ht
    · simp only [hres, Accepts, findings] at ht
      rw [resolve_eq h (by rw [hres]) (by rw [hres]; exact ht.1), hres]

end Rules

/-! ### All nodes -/

/-- The surroundings `env'` are those of `env`, over a program that extends a closed one.  The class
    around is declared. -/
structure Env.Extends (env env' : Env) : Prop where
  program : env.program.Extends env'.program
  closed : env.program.Closed
  context : env'.context = env.context
  declared : ∀ cls, env.context.cls = some cls → ∃ c, env.program.class? cls = some c

section Nodes

variable {env env' : Env} {pos : Position} {name : String}

/-- A search in the class around has the same result if a search in a declared class has. -/
theorem Env.Extends.bind_cls_eq {α : Type} (h : env.Extends env') {look look' : String → Option α}
    (hlook : ∀ cls c, env.program.class? cls = some c → look' cls = look cls) :
    env'.context.cls.bind look' = env.context.cls.bind look := by
  rw [h.context]
  cases hcls : env.context.cls with
  | none => rfl
  | some cls =>
    obtain ⟨c, hc⟩ := h.declared cls hcls
    exact hlook cls c hc

/-- **Variables.** No new field and no new global variable comes before what the name meant. -/
theorem variableRule_keeps (h : env.Extends env') :
    (variableRule env pos name).Keeps (variableRule env' pos name) := by
  have hfield : env'.context.cls.bind (env'.program.field? · name) =
      env.context.cls.bind (env.program.field? · name) :=
    h.bind_cls_eq fun _ _ hc => h.program.field?_eq h.closed hc name
  unfold variableRule
  rw [hfield, h.context]
  cases env.context.typeOf? name with
  | some t => exact .refl _
  | none =>
    cases env.context.cls.bind (env.program.field? · name) with
    | some t => exact .refl _
    | none =>
      cases hglobal : env.program.global? name with
      | some t =>
        rw [h.program.globals hglobal]
        exact .refl _
      | none => exact keeps_blame _ _ _

/-- **Functions.** No new method and no new function comes before what the name meant. -/
theorem functionRule_keeps (h : env.Extends env') (argPos : List Position)
    (args : List (Option Ty)) :
    (functionRule env pos name argPos args).Keeps (functionRule env' pos name argPos args) := by
  have hmethod : env'.context.cls.bind (env'.program.method? · name) =
      env.context.cls.bind (env.program.method? · name) :=
    h.bind_cls_eq fun _ _ hc => h.program.method?_eq h.closed hc name
  unfold functionRule
  rw [hmethod]
  cases env.context.cls.bind (env.program.method? · name) with
  | some m => exact (signatureRule_keeps h.program m argPos args).after fun _ => rfl
  | none =>
    cases hfun : env.program.function? name with
    | some f =>
      rw [h.program.functions hfun]
      exact signatureRule_keeps h.program f argPos args
    | none => exact keeps_blame _ _ _

/-- **Step.** A rule that accepts says the same over the larger program. -/
theorem Env.rule_keeps (h : env.Extends env') (e : Expr) (types : List (Option Ty)) :
    (env.rule e types).Keeps (env'.rule e types) := by
  unfold Env.rule
  split
  · rw [h.context]
    exact .refl _
  · exact compoundRule_keeps h.program _ _ _ _ _
  · exact .refl _
  · exact fieldRule_keeps h.program h.closed _
  · exact variableRule_keeps h
  · exact methodRule_keeps h.program h.closed _ _ _
  · exact functionRule_keeps h _ _
  · exact newRule_keeps h.program _
  · exact newArrayRule_keeps h.program _ _ _ _
  · exact .refl _
  · exact .refl _

end Nodes

/-! ### Runs -/

/-- A run that gives `e` a type and complains about nothing is the same in the surroundings
    `env'`. -/
def KeepsRun (env env' : Env) (e : Expr) : Prop :=
  ∀ (c c' : Checker) (t : Option Ty),
    (checkExpr env e).run c = (.ok t, c') → c'.findings = c.findings →
    (checkExpr env' e).run c = (.ok t, c')

variable {env env' : Env}

/-- If nothing is complained about in the end, nothing was complained about on the way. -/
theorem findings_eq_of_prefix {c c₁ c' : Checker} (h : c.findings <+: c₁.findings)
    (h' : c₁.findings <+: c'.findings) (hquiet : c'.findings = c.findings) :
    c₁.findings = c.findings ∧ c'.findings = c₁.findings := by
  have hle : c₁.findings.length ≤ c.findings.length := hquiet ▸ h'.length_le
  have heq : c.findings = c₁.findings := h.eq_of_length_le hle
  exact ⟨heq.symm, hquiet.trans heq⟩

/-- Runs on several expressions are the same if runs on each of them are. -/
theorem run_checkExprs_of_keepsRun {es : List Expr} (hes : ∀ e ∈ es, KeepsRun env env' e)
    {c c' : Checker} {ts : List (Option Ty)} (hrun : (checkExprs env es).run c = (.ok ts, c'))
    (hquiet : c'.findings = c.findings) : (checkExprs env' es).run c = (.ok ts, c') := by
  induction es generalizing c ts with
  | nil => exact hrun
  | cons e es ih =>
    rw [checkExprs] at hrun
    obtain ⟨t, c₁, hfirst, hrun⟩ := run_bind_ok hrun
    obtain ⟨us, c₂, hrest, hend⟩ := run_bind_ok hrun
    cases hend
    have hgrow := findings_isPrefix_run_checkExpr env e c
    have hgrow' := findings_isPrefix_run_checkExprs env es c₁
    rw [hfirst] at hgrow
    rw [hrest] at hgrow'
    -- the findings only grow, so none of the two runs has added any
    obtain ⟨hquiet₁, hquiet₂⟩ := findings_eq_of_prefix hgrow hgrow' hquiet
    rw [checkExprs, run_bind, hes e List.mem_cons_self c c₁ t hfirst hquiet₁]
    dsimp only
    rw [run_bind, ih (fun e' he' => hes e' (List.mem_cons_of_mem e he')) hrest hquiet₂]
    rfl

/-- **Run.** A run that gives a type and complains about nothing is the same over a larger
    program. -/
theorem keepsRun (h : env.Extends env') (e : Expr) : KeepsRun env env' e := by
  induction e using Expr.induction_parts with
  | h e ih =>
    intro c c' t hrun hquiet
    cases hid : e.id? with
    | none =>
      cases e with
      | absent => cases hrun
      | hollow => cases hrun
      | _ => cases hid
    | some id =>
      rw [checkExpr_eq_visit _ hid, Checker.run_visit_eq_settle] at hrun ⊢
      cases hnew : c.typeOf? id with
      | some u => simpa only [hnew] using hrun
      | none =>
        cases hflaw : e.flaw? with
        | some flaw =>
          rw [hnew, hflaw] at hrun
          cases hrun
        | none =>
          simp only [hnew, hflaw] at hrun ⊢
          rcases hparts : (checkExprs env e.parts).run c with ⟨failure | types, c₁⟩
          · rw [hparts] at hrun
            cases hrun
          · rw [hparts] at hrun
            obtain ⟨hres, rfl⟩ := Prod.mk.inj hrun
            have hgrow := findings_isPrefix_run_checkExprs env e.parts c
            rw [hparts] at hgrow
            have hsettle : (c₁.settle id (env.rule e types)).findings =
                c₁.findings ++ (env.rule e types).findings :=
              Checker.findings_settle c₁ id _
            obtain ⟨hquiet₁, hquiet₂⟩ := findings_eq_of_prefix hgrow ⟨_, hsettle.symm⟩ hquiet
            -- neither the parts nor the node itself are complained about
            have hrule : (env.rule e types).findings = [] := by
              rw [hsettle] at hquiet₂
              exact List.append_right_eq_self.1 hquiet₂
            rw [run_checkExprs_of_keepsRun ih hparts hquiet₁]
            dsimp only
            rw [Env.rule_keeps h e types t ⟨hrule, hres⟩, hres]

/-- **What was accepted stays accepted.** Take a program with a valid hierarchy in which the classes
    above a declared class are declared, as they always are where declarations alone have built it.
    Add new classes and interfaces, members of these, functions and global variables, all of which
    are accepted.  If a checker that has seen nothing gives an expression a type and has no
    complaint, in a context of the old program, then over the new program it gives the same type and
    has no complaint; it even ends in the same state. -/
theorem accepted_in_extension (p : Program) (hvalid : p.hierarchyErrors = [])
    (habove : ∀ cls c, p.class? cls = some c →
      ∀ a ∈ p.hierarchy.ancestors cls, ∃ d, p.class? a = some d)
    (ds : List Decl) (q : Program) (hq : p.declareAll ds = .ok q)
    (hmembers : ∀ d ∈ ds, ∀ cls x, d.member? = some (cls, x) → p.class? cls = none)
    (ctx : Context) (hctx : ∀ cls, ctx.cls = some cls → ∃ c, p.class? cls = some c) (e : Expr)
    (t : Option Ty) (hok : (({} : Checker).check ⟨p, ctx⟩ e).1 = .ok t)
    (hquiet : (({} : Checker).check ⟨p, ctx⟩ e).2.diagnostics = []) :
    (({} : Checker).check ⟨q, ctx⟩ e).1 = .ok t ∧
      (({} : Checker).check ⟨q, ctx⟩ e).2.diagnostics = [] ∧
      ({} : Checker).check ⟨q, ctx⟩ e = ({} : Checker).check ⟨p, ctx⟩ e := by
  have hext : Env.Extends ⟨p, ctx⟩ ⟨q, ctx⟩ :=
    { program := Program.extends_declareAll hq hmembers
      closed :=
        ⟨fun hc => habove _ _ hc, fun hc _ hi => Program.class_of_mem_interfaces hvalid hc hi⟩
      context := rfl
      declared := hctx }
  rcases hrun : ({} : Checker).check ⟨p, ctx⟩ e with ⟨r, c'⟩
  rw [hrun] at hok hquiet
  obtain rfl : r = .ok t := hok
  -- a run without findings is one that the larger program repeats step by step
  have hfindings : c'.findings = ({} : Checker).findings := List.map_eq_nil_iff.1 hquiet
  have hsame : ({} : Checker).check ⟨q, ctx⟩ e = (.ok t, c') :=
    keepsRun hext e {} c' t hrun hfindings
  rw [hsame]
  exact ⟨rfl, hquiet, rfl⟩

/-- A class uses its field and a global variable.  Then comes a class below it with a field of the
    name of the variable, and a function of the name of the field. -/
theorem accepted_beside_new_names :
    let p := Program.ofDecls [.class_ "A" none ["I"], .interface "I", .field "A" "x" (some .int),
      .global "y" (some .int)]
    let ds : List Decl :=
      [.class_ "B" (some "A") ["J"], .field "B" "y" (some .string),
        .function ⟨"x", [], some .void, none⟩]
    let q := ds.foldl Program.after p
    let plus : Token := { kind := .mark .plus, literal := "+", pos := .start }
    let x : Expr := .member 0 .unqualified (some ⟨"x", ⟨"x", .start⟩⟩)
    let y : Expr := .member 1 .unqualified (some ⟨"y", ⟨"y", .start⟩⟩)
    let sum : Expr := .compound 2 .arithmetic (some plus) x y
    p.declareAll ds = .ok q ∧ q.field? "B" "y" = some (some .string) ∧
      (({} : Checker).check ⟨p, { cls := some "A" }⟩ sum).1 = .ok (some .int) ∧
      (({} : Checker).check ⟨q, { cls := some "A" }⟩ sum).1 = .ok (some .int) ∧
      (({} : Checker).check ⟨q, { cls := some "A" }⟩ sum).2.diagnostics = [] := by
  intro p ds q plus x y sum
  have hvalid : p.hierarchyErrors = [] := by decide +kernel
  have hp : p.Valid := ⟨Program.lawful_ofDecls _, hvalid⟩
  have hq : p.declareAll ds = .ok q := by decide +kernel
  have hmembers : ∀ d ∈ ds, ∀ cls x, d.member? = some (cls, x) → p.class? cls = none := by
    have hB : p.class? "B" = none := by decide +kernel
    simp [ds, Decl.member?, hB]
  have hctx : ∀ cls, some "A" = some cls → ∃ c, p.class? cls = some c := by
    rintro _ ⟨⟩
    exact Option.isSome_iff_exists.1 (by decide +kernel)
  have hok : (({} : Checker).check ⟨p, { cls := some "A" }⟩ sum).1 = .ok (some .int) := by
    decide +kernel
  obtain ⟨hok', hquiet', _⟩ :=
    accepted_in_extension p hvalid (fun _ _ hc => hp.closed.ancestors hc) ds q hq hmembers
      { cls := some "A" } hctx sum (some .int) hok (by decide +kernel)
  exact ⟨hq, by decide +kernel, hok, hok', hquiet'⟩

/-- **A parent that is declared late.** The class `A` is linked to a class `B` that is not declared,
    and a variable of `A` is the global one.  The hierarchy is valid, since the link is not what `A`
    was declared with.  Once `B` is declared, with a field of that name, the variable is the field,
    and of another type. -/
theorem linked_parent_captures_name :
    let old := Program.ofDecls [.class_ "A" none [], .global "x" (some .int)]
    let p : Program := { old with hierarchy := ⟨Dict.empty.insert "A" "B"⟩ }
    let ds : List Decl := [.class_ "B" none [], .field "B" "x" (some .string)]
    let q := ds.foldl Program.after p
    let x : Expr := .member 0 .unqualified (some ⟨"x", ⟨"x", .start⟩⟩)
    old.link "A" "B" = .ok p ∧ p.hierarchyErrors = [] ∧ p.declareAll ds = .ok q ∧
      p.class? "B" = none ∧
      ({} : Checker).check ⟨p, { cls := some "A" }⟩ x =
        (.ok (some .int), { types := [(0, some .int)] }) ∧
      (({} : Checker).check ⟨q, { cls := some "A" }⟩ x).1 = .ok (some .string) := by
  decide +kernel

end Decaf
