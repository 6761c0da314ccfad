import Decaf.Proofs.Typing.Settling
import Decaf.Proofs.Typing.Steps
import Mathlib.Data.Set.List

namespace Decaf

/-!
# Malformed trees are the only failures

Where every declaration has a type, the checker fails on an expression exactly if the tree is
malformed.  Nothing that is declared matters, and neither does what the checker has seen before:
type errors are complaints, never failures.

* `Checker.Sound` — a checker knows well-formed nodes only, and knows a type for each of them.
* `Checker.failsAsMalformed` — a run of a sound checker fails only on a malformed tree.
* `check_fails_iff_malformed` — when a checker fails, whatever it has been asked before.
-/

/-! ### What a checker knows -/

namespace Checker

variable {U : Expr → Prop} {c c' : Checker} {env : Env}

/-- What the checker knows is well-formed, and has a type. -/
def Sound (U : Expr → Prop) (c : Checker) : Prop :=
  ∀ e, U e → ∀ t, c.known? e = some t → e.WellFormed ∧ t ≠ none

/-- The parts of a node whose types are known are well-formed, and their types are there. -/
theorem Sound.parts (hU : Coherent U) (hc : c.Sound U) {e : Expr} (he : U e)
    {types : List (Option Ty)} (htypes : e.parts.map c.known? = types.map some) :
    (∀ s ∈ e.parts, s.WellFormed) ∧
      ∃ us : List Ty, types = us.map some ∧ us.length = e.parts.length := by
  -- a sound checker has no absent types
  have hthere : types ∈ Set.range (List.map some) := by
    rw [Set.range_list_map]
    intro t ht
    have hmem : some t ∈ e.parts.map c.known? := htypes ▸ List.mem_map_of_mem ht
    obtain ⟨s, hs, hst⟩ := List.mem_map.1 hmem
    obtain ⟨u, rfl⟩ := Option.ne_none_iff_exists'.1 (hc s (hU.part he hs) t hst).2
    exact ⟨u, rfl⟩
  constructor
  · intro s hs
    have hmem : c.known? s ∈ types.map some := htypes ▸ List.mem_map_of_mem hs
    obtain ⟨t, _, ht⟩ := List.mem_map.1 hmem
    exact (hc s (hU.part he hs) t ht.symm).1
  · obtain ⟨us, rfl⟩ := hthere
    refine ⟨us, rfl, ?_⟩
    simpa using (congrArg List.length htypes).symm

/-- What a node's rule says to a sound checker: either the node is well-formed and gets a type, or
    it is malformed and the rule fails for that. -/
theorem Sound.rule (hU : Coherent U) (hc : c.Sound U) (henv : env.Complete) {e : Expr} (he : U e)
    (hflaw : e.flaw? = none) {types : List (Option Ty)}
    (htypes : e.parts.map c.known? = types.map some) :
    (e.WellFormed ∧ (env.rule e types).Settles e.Near) ∨
      (¬ e.WellFormed ∧ (env.rule e types).Breaks e.Near) := by
  obtain ⟨hparts, us, rfl, hlen⟩ := hc.parts hU he htypes
  have hplaces : ∀ s ∈ e.parts, s.pos? ≠ none := fun s hs => (hparts s hs).pos?_ne_none
  by_cases hintact : e.Intact
  · exact .inl ⟨Expr.wellFormed_iff.2 ⟨hintact, hparts⟩, Env.rule_settles henv hintact hplaces hlen⟩
  · exact .inr ⟨fun h => hintact (Expr.wellFormed_iff.1 h).1,
      Env.rule_breaks hflaw hintact hplaces hlen⟩

/-- **Step.** A checker that learns about a node learns about a well-formed one. -/
theorem Sound.step (hU : Coherent U) (hc : c.Sound U) (h : Step Env.Complete U c c') :
    c'.Sound U := by
  intro e' he' t ht
  cases h with | @rule env e id types henv he hid hnew hflaw hparts
  rcases known?_settle hU he he' hid hnew ht with hold | ⟨rfl, hres⟩
  · exact hc e' he' t hold
  · -- the node itself: its rule gave it the type, so the tree was not broken
    rcases hc.rule hU henv he hflaw hparts with ⟨hwell, hsettles⟩ | ⟨_, hbreaks⟩
    · obtain ⟨u, hu⟩ := hsettles.type
      rw [hres] at hu
      cases hu
      exact ⟨hwell, Option.some_ne_none u⟩
    · obtain ⟨flaw, hflaw⟩ := hbreaks.flaw
      rw [hres] at hflaw
      cases hflaw

/-- **Run.** A checker that is sound stays so. -/
theorem Sound.steps (hU : Coherent U) (hc : c.Sound U) (h : Steps Env.Complete U c c') :
    c'.Sound U := by
  induction h with
  | refl => exact hc
  | tail _ hstep ih => exact ih.step hU hstep

theorem sound_empty : ({} : Checker).Sound U := by
  intro e _ t ht
  obtain ⟨id, _, ht⟩ := exists_id_of_known? ht
  cases ht

/-- What is complained about during a run stands somewhere in the nodes that the run is about. -/
theorem Sound.findings (hU : Coherent U) (hc : c.Sound U) {W : Expr → Prop} (hW : ∀ e, W e → U e)
    (hparts : ∀ e, W e → ∀ s ∈ e.parts, W s) (h : Steps Env.Complete W c c') :
    ∃ new, c'.findings = c.findings ++ new ∧ ∀ f ∈ new, ∃ s, W s ∧ s.Shows f.pos := by
  induction h with
  | refl => exact ⟨[], by simp, by simp⟩
  | @tail c₁ c₂ hsteps hstep ih =>
    obtain ⟨new, hnew, hshows⟩ := ih
    have hc₁ : c₁.Sound U := hc.steps hU (Steps.mono (fun _ h => h) hW hsteps)
    cases hstep with | @rule env e id types henv he hid _ hflaw htypes
    refine ⟨new ++ (env.rule e types).findings, by rw [findings_settle, hnew, List.append_assoc],
      fun f hf => ?_⟩
    rcases List.mem_append.1 hf with hf | hf
    · exact hshows f hf
    · have hnear : e.Near f.pos := by
        rcases hc₁.rule hU henv (hW e he) hflaw htypes with ⟨_, hsettles⟩ | ⟨_, hbreaks⟩
        · exact hsettles.places f hf
        · exact hbreaks.places f hf
      obtain ⟨s, rfl | hs, hpos⟩ := hnear
      · exact ⟨s, he, hpos⟩
      · exact ⟨s, hparts e he s hs, hpos⟩

/-! ### When a run fails -/

/-- A run on `e` by a sound checker fails only if `e` is malformed, and says so. -/
def FailsAsMalformed (U : Expr → Prop) (env : Env) (e : Expr) : Prop :=
  ∀ c : Checker, c.Sound U → ∀ failure, ((checkExpr env e).run c).1 = .error failure →
    ¬ e.WellFormed ∧ ∃ flaw, failure = .malformed flaw

/-- A run on several expressions fails only if one of them is malformed. -/
theorem malformed_of_run_checkExprs (hU : Coherent U) (henv : env.Complete) {es : List Expr}
    (hes : ∀ e ∈ es, U e) (hfails : ∀ e ∈ es, FailsAsMalformed U env e) (hc : c.Sound U)
    {failure : Failure} (h : ((checkExprs env es).run c).1 = .error failure) :
    (∃ e ∈ es, ¬ e.WellFormed) ∧ ∃ flaw, failure = .malformed flaw := by
  induction es generalizing c with
  | nil => cases h
  | cons e es ih =>
    rw [checkExprs, run_bind] at h
    rcases hrun : (checkExpr env e).run c with ⟨failure' | t, c₁⟩
    · rw [hrun] at h
      cases h
      obtain ⟨hbad, hflaw⟩ := hfails e List.mem_cons_self c hc failure (by rw [hrun])
      exact ⟨⟨e, List.mem_cons_self, hbad⟩, hflaw⟩
    · rw [hrun] at h
      dsimp only at h
      -- the part before was checked, so what is known is still sound when the next is
      have hc₁ : c₁.Sound U := by
        have hsteps := steps_check (E := Env.Complete) hU henv (hes e List.mem_cons_self) c
        rw [check, hrun] at hsteps
        exact hc.steps hU hsteps
      rw [run_bind] at h
      rcases hruns : (checkExprs env es).run c₁ with ⟨failure' | ts, c₂⟩
      · rw [hruns] at h
        cases h
        obtain ⟨⟨e', he', hbad⟩, hflaw⟩ := ih (fun e' he' => hes e' (List.mem_cons_of_mem e he'))
          (fun e' he' => hfails e' (List.mem_cons_of_mem e he')) hc₁ (by rw [hruns])
        exact ⟨⟨e', List.mem_cons_of_mem e he', hbad⟩, hflaw⟩
      · rw [hruns] at h
        cases h

/-- **Only malformed trees fail.** -/
theorem failsAsMalformed (hU : Coherent U) (henv : env.Complete) (e : Expr) :
    U e → FailsAsMalformed U env e := by
  induction e using Expr.induction_parts with
  | h e ih =>
    intro he c hc failure hfails
    cases hid : e.id? with
    | none =>
      -- nothing is there to be looked at
      cases e with
      | absent =>
        cases hfails
        exact ⟨fun h => (by cases h), _, rfl⟩
      | hollow =>
        cases hfails
        exact ⟨fun h => (by cases h), _, rfl⟩
      | _ => cases hid
    | some id =>
      rw [checkExpr_eq_visit env hid, run_visit] at hfails
      cases hnew : c.typeOf? id with
      | some t => simp [hnew] at hfails
      | none =>
        cases hflaw : e.flaw? with
        | some flaw =>
          simp only [hnew, hflaw, Except.error.injEq] at hfails
          subst hfails
          refine ⟨fun hwell => ?_, flaw, rfl⟩
          rw [(Expr.wellFormed_iff.1 hwell).1.1] at hflaw
          cases hflaw
        | none =>
          have hparts : ∀ s ∈ e.parts, U s := fun s hs => hU.part he hs
          obtain ⟨hsteps, hknown⟩ := steps_checkExprs_of_runsInSteps
            (fun s hs => steps_checkExpr hU env s (hparts s hs)) c
          rcases hrun : (checkExprs env e.parts).run c with ⟨failure' | types, c₁⟩
          · -- one of the parts is malformed, and so is the whole
            simp only [hnew, hflaw, hrun, Except.error.injEq] at hfails
            subst hfails
            obtain ⟨⟨s, hs, hbad⟩, hmalformed⟩ := malformed_of_run_checkExprs hU henv hparts
              (fun s hs => ih s hs (hparts s hs)) hc (by rw [hrun])
            exact ⟨fun hwell => hbad ((Expr.wellFormed_iff.1 hwell).2 s hs), hmalformed⟩
          · -- the parts have types, so only the rule of the node itself is left to fail
            rw [hrun] at hsteps hknown
            have hc₁ : c₁.Sound U := by
              refine hc.steps hU (hsteps.mono (by rintro _ rfl; exact henv) ?_)
              rintro s ⟨p, hp, hs⟩
              exact hU.of_within (hparts p hp) hs
            simp only [hnew, hflaw, hrun] at hfails
            rcases hc₁.rule hU henv he hflaw (hknown types rfl) with ⟨_, hsettles⟩ | ⟨hbad, hbreaks⟩
            · obtain ⟨t, ht⟩ := hsettles.type
              simp [ht] at hfails
            · obtain ⟨flaw, hres⟩ := hbreaks.flaw
              simp only [hres, Except.error.injEq] at hfails
              exact ⟨hbad, flaw, hfails.symm⟩

end Checker

/-- **Malformed trees are the only failures.** Let `U` be the nodes there are: a number belongs to
    one of them, and they come with their parts.  Take a checker that was asked to type some of
    them, and that may have failed on the way, and ask it for `e`, all of it where every declaration
    has a type.  It fails exactly if `e` is malformed, whatever is declared and whatever it knows.
    If it fails, it names the flaw and knows nothing about `e` itself; otherwise it gives a type.
    In either case its new complaints are about places that are shown somewhere in `e`. -/
theorem check_fails_iff_malformed (U : Expr → Prop) (hU : Coherent U) (rs : List Request)
    (hrs : ∀ r ∈ rs, r.env.Complete ∧ ∀ e ∈ r.exprs, U e) (env : Env) (henv : env.Complete)
    (e : Expr) (he : U e) :
    let c := Checker.ofRequests rs
    ((∃ failure, (c.check env e).1 = .error failure) ↔ ¬ e.WellFormed) ∧
      (∀ failure, (c.check env e).1 = .error failure →
        (∃ flaw, failure = .malformed flaw) ∧ (c.check env e).2.known? e = none) ∧
      (∀ t, (c.check env e).1 = .ok t → t ≠ none ∧ (c.check env e).2.known? e = some t) ∧
      ∃ new, (c.check env e).2.findings = c.findings ++ new ∧
        ∀ f ∈ new, ∃ s : Expr, s.Within e ∧ s.Shows f.pos := by
  intro c
  -- what is known before is known of well-formed nodes only, and stays so
  have hsound : c.Sound U := Checker.sound_empty.steps hU (Checker.steps_serveAll hU hrs {})
  have hafter : (c.check env e).2.Sound U := hsound.steps hU (Checker.steps_check hU henv he c)
  have hfails := Checker.failsAsMalformed hU henv e he c hsound
  obtain ⟨hsteps, hknown⟩ := Checker.steps_checkExpr hU env e he c
  refine ⟨⟨fun ⟨failure, h⟩ => (hfails failure h).1, fun hbad => ?_⟩, fun failure h => ?_,
    fun t h => ?_, ?_⟩
  · cases hrun : (c.check env e).1 with
    | error failure => exact ⟨failure, rfl⟩
    | ok t => exact absurd (hafter e he t (hknown t hrun)).1 hbad
  · -- a type would make the expression well-formed
    obtain ⟨hbad, hflaw⟩ := hfails failure h
    refine ⟨hflaw, ?_⟩
    by_contra hne
    obtain ⟨t, ht⟩ := Option.ne_none_iff_exists'.1 hne
    exact hbad (hafter e he t ht).1
  · exact ⟨(hafter e he t (hknown t h)).2, hknown t h⟩
  · have hwithin : Checker.Steps Env.Complete (·.Within e) c (c.check env e).2 :=
      hsteps.mono (by rintro _ rfl; exact henv) fun _ h => h
    exact hsound.findings hU (fun _ hs => hU.of_within he hs)
      (fun _ hs _ hpart => .of_mem_parts hpart hs) hwithin

/-- A new array whose elements are of a type that is no keyword.  Its size was typed before, where
    it was not declared; that complaint does not matter, and neither does it matter that the size is
    declared now. -/
theorem check_fails_on_unknown_keyword :
    let size : Expr := .member 0 .unqualified (some ⟨"n", ⟨"n", .start⟩⟩)
    let array : Expr :=
      .newArray 1 ⟨"new", .start⟩ size (.array ⟨"[]", .start⟩ (.primitive ⟨"float", .start⟩))
    let outside : Env := { program := .empty }
    let scope : Scope :=
      { kind := .local_, symbols := Dict.empty.insert "n" ⟨"n", .local_, some .int, none⟩ }
    let inside : Env := { program := .empty, context := { scopes := [scope] } }
    let c := Checker.ofRequests [.check outside size]
    ¬ array.WellFormed ∧
      (c.check inside array).1 = .error (.malformed (.unknownPrimitive "float")) ∧
      c.known? size = some (some .error) ∧ (c.check inside array).2.known? array = none := by
  intro size array outside scope inside c
  have hshare : Coherent (· ∈ [array, size]) :=
    coherent_of_list (by simp [array, size, Expr.parts, Receiver.parts]) (by decide)
  have houtside : outside.Complete := by
    constructor <;> simp [outside, Program.empty, Dict.values, Dict.empty]
  have hinside : inside.Complete := by
    constructor <;> simp [inside, scope, Program.empty, Dict.values, Dict.empty, Dict.insert,
      Dict.place]
  obtain ⟨hfails, hflaw, _, _⟩ := check_fails_iff_malformed _ hshare [.check outside size]
    (by simpa [Request.env, Request.exprs] using houtside) inside hinside array (by simp)
  have hrun : (c.check inside array).1 = .error (.malformed (.unknownPrimitive "float")) := by
    decide
  exact ⟨hfails.1 ⟨_, hrun⟩, hrun, by decide, (hflaw _ hrun).2⟩

end Decaf
