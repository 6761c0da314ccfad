import Decaf.Proofs.Run
import Decaf.Typing.Check

namespace Decaf

/-!
# What the rules say without a memory

A checker remembers the types of the nodes that it has seen.  The rules by themselves need no
memory: what they say about a node depends on what they say about its parts, and on nothing else.

* `Expr.Within` — one expression is a part of another, at any depth.
* `Env.verdict` — what the rules say about a node, all parts being looked at anew.
* `Env.verdict_eq` — a verdict is made from the verdicts on the parts.
* `Env.Quiet` — the rules complain about no part of an expression.
-/

/-! ### Parts at any depth -/

/-- `s` is `e`, or a part of it, or a part of a part, and so on. -/
inductive Expr.Within (s : Expr) : Expr → Prop
  | self : s.Within s
  | part {e c : Expr} (hc : c ∈ e.parts) (h : s.Within c) : s.Within e

namespace Expr.Within

/-- Parts of parts are parts. -/
theorem trans {s c e : Expr} (hs : s.Within c) (hc : c.Within e) : s.Within e := by
  induction hc with
  | self => exact hs
  | part hmem _ ih => exact .part hmem ih

/-- The parts of a node lie within whatever the node lies within. -/
theorem of_mem_parts {s c e : Expr} (hs : s ∈ c.parts) (hc : c.Within e) : s.Within e :=
  trans (.part hs .self) hc

end Expr.Within

/-- What lies within an expression is the expression itself, or lies within one of its parts. -/
theorem Expr.within_iff {s e : Expr} : s.Within e ↔ s = e ∨ ∃ c ∈ e.parts, s.Within c := by
  constructor
  · intro h
    cases h with
    | self => exact .inl rfl
    | part hc h => exact .inr ⟨_, hc, h⟩
  · rintro (rfl | ⟨c, hc, h⟩)
    · exact .self
    · exact .part hc h

/-! ### Verdicts on whole expressions -/

/-- The types that verdicts give, up to the first failure. -/
def Verdict.collect : List Verdict → Except Failure (List (Option Ty))
  | [] => .ok []
  | v :: vs =>
    match v.result with
    | .error failure => .error failure
    | .ok t =>
      match collect vs with
      | .error failure => .error failure
      | .ok ts => .ok (t :: ts)

/-- The complaints of a verdict. -/
def Verdict.findings (v : Verdict) : List Finding :=
  v.events.filterMap Event.finding?

/-- What is said first is complained about first. -/
theorem Verdict.findings_after (events : List Event) (v : Verdict) :
    (v.after events).findings = events.filterMap Event.finding? ++ v.findings := by
  rw [findings, after, List.filterMap_append, findings]

/-- What the rules say about a node.  Its events are those of the node itself, its parts apart. -/
def Env.verdict (env : Env) (e : Expr) : Verdict :=
  match e.flaw? with
  | some flaw => .malformed flaw
  | none =>
    match Verdict.collect (e.parts.attach.map fun c => env.verdict c.1) with
    | .error failure => { result := .error failure }
    | .ok types => env.rule e types
termination_by sizeOf e
decreasing_by exact Expr.sizeOf_lt_of_mem_parts c.2

/-- **Parts first.** What the rules say about a node is made from what they say about its parts. -/
theorem Env.verdict_eq (env : Env) (e : Expr) :
    env.verdict e =
      match e.flaw? with
      | some flaw => .malformed flaw
      | none =>
        match Verdict.collect (e.parts.map env.verdict) with
        | .error failure => { result := .error failure }
        | .ok types => env.rule e types := by
  rw [Env.verdict, List.attach_map_val]

/-- The verdict on a sound node whose parts have types is that of its rule. -/
theorem Env.verdict_eq_rule {env : Env} {e : Expr} {types : List (Option Ty)}
    (hflaw : e.flaw? = none) (htypes : Verdict.collect (e.parts.map env.verdict) = .ok types) :
    env.verdict e = env.rule e types := by
  rw [Env.verdict_eq, hflaw, htypes]

/-- A node with a type has no flaw, its parts have types, and its rule gives the type. -/
theorem Env.verdict_ok {env : Env} {e : Expr} {t : Option Ty} (h : (env.verdict e).result = .ok t) :
    e.flaw? = none ∧ ∃ types, Verdict.collect (e.parts.map env.verdict) = .ok types ∧
      env.verdict e = env.rule e types := by
  rw [Env.verdict_eq] at h
  cases hflaw : e.flaw? with
  | some flaw => simp [hflaw, Verdict.malformed] at h
  | none =>
    cases htypes : Verdict.collect (e.parts.map env.verdict) with
    | error failure => simp [hflaw, htypes] at h
    | ok types => exact ⟨rfl, types, rfl, env.verdict_eq_rule hflaw htypes⟩

/-- A node with a type is there. -/
theorem Env.id?_ne_none_of_verdict_ok {env : Env} {e : Expr} {t : Option Ty}
    (h : (env.verdict e).result = .ok t) : e.id? ≠ none := by
  obtain ⟨hflaw, _⟩ := Env.verdict_ok h
  intro hid
  cases e with
  | absent => cases hflaw
  | hollow => cases hflaw
  | _ => cases hid

/-- Verdicts give types exactly when each of them gives one. -/
theorem Verdict.collect_eq_ok_iff {vs : List Verdict} {types : List (Option Ty)} :
    Verdict.collect vs = .ok types ↔ vs.map (·.result) = types.map .ok := by
  refine Decaf.collect_eq_ok_iff Verdict.collect rfl (fun v vs types => ?_) vs types
  rw [Verdict.collect]
  cases v.result with
  | error failure => simp
  | ok t => cases Verdict.collect vs <;> simp [eq_comm]

/-- Nodes within a node that has a type have types. -/
theorem Env.verdict_ok_of_within {env : Env} {s e : Expr} (hs : s.Within e) {t : Option Ty}
    (h : (env.verdict e).result = .ok t) : ∃ u, (env.verdict s).result = .ok u := by
  induction hs generalizing t with
  | self => exact ⟨t, h⟩
  | @part e c hc _ ih =>
    obtain ⟨_, types, htypes, _⟩ := Env.verdict_ok h
    rw [Verdict.collect_eq_ok_iff, List.map_map] at htypes
    have hmem : (env.verdict c).result ∈ types.map Except.ok := htypes ▸ List.mem_map_of_mem hc
    obtain ⟨u, _, hu⟩ := List.mem_map.1 hmem
    exact ih hu.symm

/-- Nodes within a node that has a type are there. -/
theorem Env.id?_ne_none_of_within {env : Env} {s e : Expr} (hs : s.Within e) {t : Option Ty}
    (ht : (env.verdict e).result = .ok t) : s.id? ≠ none := by
  obtain ⟨u, hu⟩ := Env.verdict_ok_of_within hs ht
  exact Env.id?_ne_none_of_verdict_ok hu

/-- The rules complain about no part of the expression, at any depth. -/
def Env.Quiet (env : Env) (e : Expr) : Prop :=
  ∀ s : Expr, s.Within e → (env.verdict s).findings = []

/-- An expression is quiet if nothing is said about it and its parts are quiet. -/
theorem Env.quiet_iff {env : Env} {e : Expr} :
    env.Quiet e ↔ (env.verdict e).findings = [] ∧ ∀ c ∈ e.parts, env.Quiet c := by
  constructor
  · intro h
    exact ⟨h e .self, fun c hc s hs => h s (.part hc hs)⟩
  · rintro ⟨he, hparts⟩ s hs
    rcases Expr.within_iff.1 hs with rfl | ⟨c, hc, hs⟩
    · exact he
    · exact hparts c hc s hs

end Decaf
