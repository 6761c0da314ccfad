import Decaf.Proofs.Typing.Steps

namespace Decaf

/-!
# Typing is local

A run of the checker looks at what is known about the nodes of its expressions, and at nothing else
that the checker remembers.  It writes down the types of these nodes only, and adds to the record
without looking at it.  So checkers that know the same about the nodes do the same, wherever the run
ends.

* `Checker.SameOn` — two checkers know the same about some nodes.
* `Checker.Alike` — from two checkers, two runs do the same.
* `Local` — a computation that is about some nodes only.
* `local_checkExpr`, `local_checkExprs` — the checker is local to the nodes of what it is given.
-/

namespace Checker

variable {S : NodeId → Prop} {c d c₁ d₁ : Checker} {α β : Type}

/-- The checkers know the same about the nodes in `S`. -/
def SameOn (S : NodeId → Prop) (c d : Checker) : Prop :=
  ∀ id, S id → c.typeOf? id = d.typeOf? id

theorem SameOn.refl (S : NodeId → Prop) (c : Checker) : c.SameOn S c :=
  fun _ _ => rfl

/-- Two runs, from `c` to `x` and from `d` to `y`, have the same result, record the same, and
    afterwards the same is known about the nodes in `S`.  About other nodes nothing is learned. -/
structure Alike (S : NodeId → Prop) (c d : Checker) (x y : Except Failure α × Checker) : Prop where
  result : x.1 = y.1
  log : ∃ events, x.2.log = c.log ++ events ∧ y.2.log = d.log ++ events
  same : x.2.SameOn S y.2
  outside : ∀ id, ¬ S id → x.2.typeOf? id = c.typeOf? id

/-- Runs that do nothing are alike. -/
theorem Alike.rest (h : c.SameOn S d) (r : Except Failure α) : Alike S c d (r, c) (r, d) where
  result := rfl
  log := ⟨[], by simp⟩
  same := h
  outside _ _ := rfl

/-- Runs that go on alike are alike. -/
theorem Alike.trans {x y : Except Failure α × Checker} {x' y' : Except Failure β × Checker}
    (h : Alike S c d x y) (h' : Alike S x.2 y.2 x' y') : Alike S c d x' y' where
  result := h'.result
  log := by
    obtain ⟨events, hc, hd⟩ := h.log
    obtain ⟨more, hc', hd'⟩ := h'.log
    refine ⟨events ++ more, ?_, ?_⟩
    · rw [hc', hc, List.append_assoc]
    · rw [hd', hd, List.append_assoc]
  same := h'.same
  outside id hid := (h'.outside id hid).trans (h.outside id hid)

/-- A rule that speaks about a node in `S` says the same to both. -/
theorem Alike.settle (h : c.SameOn S d) {id : NodeId} (hid : S id) (v : Verdict) :
    Alike S c d (v.result, c.settle id v) (v.result, d.settle id v) where
  result := rfl
  log := ⟨v.events, log_settle c id v, log_settle d id v⟩
  same i hi := by
    by_cases hi' : i = id
    · subst hi'
      cases hres : v.result with
      | error failure =>
        -- a rule that fails leaves the node as it was
        simp only [Checker.settle, hres]
        exact h i hi
      | ok t => rw [typeOf?_settle_self hres, typeOf?_settle_self hres]
    · rw [typeOf?_settle_of_ne hi', typeOf?_settle_of_ne hi']
      exact h i hi
  outside i hi := by
    have hne : i ≠ id := fun heq => hi (heq ▸ hid)
    exact typeOf?_settle_of_ne hne

/-- What typing a node does, in terms of what its rule says. -/
theorem run_visit_eq_settle (env : Env) (id : NodeId) (e : Expr) (parts : Check (List (Option Ty)))
    (c : Checker) :
    (visit env id e parts).run c =
      match c.typeOf? id with
      | some t => (.ok t, c)
      | none =>
        match e.flaw? with
        | some flaw => (.error (.malformed flaw), c)
        | none =>
          match parts.run c with
          | (.error failure, c) => (.error failure, c)
          | (.ok types, c) => ((env.rule e types).result, c.settle id (env.rule e types)) := by
  rw [run_visit]
  cases c.typeOf? id with
  | some t => rfl
  | none =>
    cases e.flaw? with
    | some flaw => rfl
    | none =>
      rcases parts.run c with ⟨failure | types, c'⟩
      · rfl
      · cases hres : (env.rule e types).result <;> simp only [settle, hres]

end Checker

open Checker

/-! ### Local computations -/

/-- The computation is about nodes in `S` only: where the same is known about these, it does the
    same. -/
def Local {α : Type} (S : NodeId → Prop) (x : Check α) : Prop :=
  ∀ c d : Checker, c.SameOn S d → Alike S c d (x.run c) (x.run d)

namespace Local

variable {S : NodeId → Prop} {α β : Type} {env : Env}

theorem pure (a : α) : Local S (Pure.pure a) :=
  fun _ _ h => .rest h (.ok a)

theorem throw (failure : Failure) : Local S (MonadExcept.throw failure : Check α) :=
  fun _ _ h => .rest h (.error failure)

/-- **Sequencing.** -/
theorem bind {x : Check α} {f : α → Check β} (hx : Local S x) (hf : ∀ a, Local S (f a)) :
    Local S (x >>= f) := by
  intro c d h
  have hfirst := hx c d h
  rw [run_bind, run_bind]
  rcases hc : x.run c with ⟨r, c₁⟩
  rcases hd : x.run d with ⟨r', d₁⟩
  rw [hc, hd] at hfirst
  obtain rfl : r = r' := hfirst.result
  cases r with
  | error failure => exact hfirst.trans (.rest hfirst.same (.error failure))
  | ok a => exact hfirst.trans (hf a c₁ d₁ hfirst.same)

/-- **Step.** Typing a node in `S` is local if typing its parts is. -/
theorem visit {id : NodeId} (hid : S id) (e : Expr) {parts : Check (List (Option Ty))}
    (hparts : Local S parts) : Local S (visit env id e parts) := by
  intro c d h
  rw [run_visit_eq_settle, run_visit_eq_settle, h id hid]
  cases d.typeOf? id with
  | some t => exact .rest h (.ok t)
  | none =>
    cases e.flaw? with
    | some flaw => exact .rest h (.error (.malformed flaw))
    | none =>
      have hfirst := hparts c d h
      rcases hc : parts.run c with ⟨r, c₁⟩
      rcases hd : parts.run d with ⟨r', d₁⟩
      rw [hc, hd] at hfirst
      obtain rfl : r = r' := hfirst.result
      cases r with
      | error failure => exact hfirst.trans (.rest hfirst.same (.error failure))
      | ok types => exact hfirst.trans (.settle hfirst.same hid (env.rule e types))

/-- What was complained about stays, and what is new comes after it. -/
theorem findings_isPrefix {x : Check α} (hx : Local S x) (c : Checker) :
    c.findings <+: (x.run c).2.findings := by
  obtain ⟨events, hlog, _⟩ := (hx c c (.refl S c)).log
  rw [Checker.findings, Checker.findings, hlog, List.filterMap_append]
  exact List.prefix_append _ _

end Local

variable {S : NodeId → Prop} {env : Env}

/-- Typing several expressions is local if typing each of them is. -/
theorem local_checkExprs_of_local {es : List Expr} (hes : ∀ e ∈ es, Local S (checkExpr env e)) :
    Local S (checkExprs env es) := by
  induction es with
  | nil => exact .pure []
  | cons e es ih =>
    rw [checkExprs]
    refine (hes e List.mem_cons_self).bind fun t => ?_
    refine (ih fun e' he' => hes e' (List.mem_cons_of_mem e he')).bind fun ts => ?_
    exact .pure (t :: ts)

/-- **Run.** Typing an expression is local to its nodes. -/
theorem local_checkExpr (env : Env) (e : Expr) :
    (∀ s : Expr, s.Within e → ∀ id, s.id? = some id → S id) → Local S (checkExpr env e) := by
  induction e using Expr.induction_parts with
  | h e ih =>
    intro hnodes
    cases hid : e.id? with
    | none =>
      cases e with
      | absent => exact .throw _
      | hollow => exact .throw _
      | _ => cases hid
    | some id =>
      rw [checkExpr_eq_visit env hid]
      refine .visit (hnodes e .self id hid) e (local_checkExprs_of_local fun c hc => ?_)
      exact ih c hc fun s hs => hnodes s (.part hc hs)

/-- So is typing several expressions. -/
theorem local_checkExprs (env : Env) {es : List Expr}
    (hnodes : ∀ e ∈ es, ∀ s : Expr, s.Within e → ∀ id, s.id? = some id → S id) :
    Local S (checkExprs env es) :=
  local_checkExprs_of_local fun e he => local_checkExpr env e (hnodes e he)

/-- A run keeps the complaints that there were. -/
theorem findings_isPrefix_run_checkExpr (env : Env) (e : Expr) (c : Checker) :
    c.findings <+: ((checkExpr env e).run c).2.findings :=
  (local_checkExpr (S := fun _ => True) env e fun _ _ _ _ => trivial).findings_isPrefix c

theorem findings_isPrefix_run_checkExprs (env : Env) (es : List Expr) (c : Checker) :
    c.findings <+: ((checkExprs env es).run c).2.findings :=
  (local_checkExprs (S := fun _ => True) env fun _ _ _ _ _ _ => trivial).findings_isPrefix c

end Decaf
