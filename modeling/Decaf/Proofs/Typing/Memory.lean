import Decaf.Proofs.Run
import Decaf.Proofs.Typing.Verdict

namespace Decaf

/-!
# A checker's memory is harmless

A checker looks at a node only once, however many ways lead to it.  As long as a number belongs to
one node, what it remembers of a node is what the rules would say about it again.  So a run of the
checker is described exactly without it: the nodes that are new are completed in the order in which
a walk through the parts leaves them, and each is recorded with its own verdict.

* `Coherent` — a number belongs to one node.
* `Expr.newNodes` — the nodes that a walk completes, in their order.
* `Checker.Agrees` — what is remembered is what the rules say.
* `Checker.run_checkExpr` — the outcome of a run, and the state after it.
* `Checker.check_fresh` — a run of a checker that has seen nothing, and
  `Checker.diagnostics_check_fresh_eq_nil_iff`, when it is silent.
-/

/-! ### Shared nodes -/

/-- The expressions in `U` come with their parts, and a number belongs to one of them only. -/
structure Coherent (U : Expr → Prop) : Prop where
  part : ∀ {e c : Expr}, U e → c ∈ e.parts → U c
  unique : ∀ {a b : Expr} {id : NodeId}, U a → U b → a.id? = some id → b.id? = some id → a = b

/-- The parts of an expression in `U`, at any depth, are in `U`. -/
theorem Coherent.of_within {U : Expr → Prop} (hU : Coherent U) {s e : Expr} (he : U e)
    (hs : s.Within e) : U s := by
  induction hs with
  | self => exact he
  | part hc _ ih => exact ih (hU.part he hc)

/-- Inside an expression a number belongs to one node, which may occur in several places. -/
def Expr.Coherent (e : Expr) : Prop :=
  ∀ a b : Expr, a.Within e → b.Within e → ∀ id, a.id? = some id → b.id? = some id → a = b

/-- The parts of a coherent expression, at any depth, are coherent together. -/
theorem Expr.Coherent.within {e : Expr} (h : e.Coherent) : Decaf.Coherent (·.Within e) where
  part hs hc := .of_mem_parts hc hs
  unique ha hb hida hidb := h _ _ ha hb _ hida hidb

/-- In particular, an expression among expressions that are coherent together is coherent. -/
theorem Coherent.coherent {U : Expr → Prop} (hU : Coherent U) {e : Expr} (he : U e) : e.Coherent :=
  fun _ _ ha hb _ hida hidb => hU.unique (hU.of_within he ha) (hU.of_within he hb) hida hidb

/-! ### The order of a walk -/

/-- The nodes that walks from `as` complete, one walk after the other, where `walk` is a single
    one. -/
def walkAll {α : Type} (walk : List NodeId → α → List Expr) :
    (seen : List NodeId) → List α → List Expr
  | _, [] => []
  | seen, a :: as =>
    walk seen a ++ walkAll walk (((walk seen a).filterMap Expr.id?).reverse ++ seen) as

theorem walkAll_map {α β : Type} (walk : List NodeId → β → List Expr) (f : α → β)
    (seen : List NodeId) (as : List α) :
    walkAll walk seen (as.map f) = walkAll (fun seen a => walk seen (f a)) seen as := by
  induction as generalizing seen with
  | nil => rfl
  | cons a as ih => simp only [List.map_cons, walkAll, ih]

/-- The nodes that a walk through `e` completes, parts before the node that they belong to.  Nodes
    that have been `seen` are passed over, with their parts. -/
def Expr.newNodes (seen : List NodeId) (e : Expr) : List Expr :=
  match e.id? with
  | none => []
  | some id =>
    if id ∈ seen then []
    else walkAll (fun seen c => newNodes seen c.1) seen e.parts.attach ++ [e]
termination_by sizeOf e
decreasing_by exact sizeOf_lt_of_mem_parts c.2

/-- A node that has not been seen is completed after its parts. -/
theorem Expr.newNodes_of_not_mem {seen : List NodeId} {e : Expr} {id : NodeId}
    (hid : e.id? = some id) (hseen : id ∉ seen) :
    e.newNodes seen = walkAll newNodes seen e.parts ++ [e] := by
  have hparts :
      walkAll (fun seen (c : { x // x ∈ e.parts }) => newNodes seen c.1) seen e.parts.attach =
      walkAll newNodes seen e.parts := by
    rw [← walkAll_map newNodes Subtype.val seen e.parts.attach, List.attach_map_subtype_val]
  rw [newNodes, hid]
  simp only [hseen, if_false, hparts]

/-- A node that has been seen is passed over. -/
theorem Expr.newNodes_of_mem {seen : List NodeId} {e : Expr} {id : NodeId} (hid : e.id? = some id)
    (hseen : id ∈ seen) : e.newNodes seen = [] := by
  rw [newNodes, hid]
  simp only [hseen, if_true]

theorem Expr.newNodes_of_id_none {seen : List NodeId} {e : Expr} (hid : e.id? = none) :
    e.newNodes seen = [] := by
  rw [newNodes, hid]

/-- What walks from several expressions complete, each of them completes. -/
theorem mem_walkAll {walk : List NodeId → Expr → List Expr} {seen : List NodeId} {es : List Expr}
    {s : Expr} (h : s ∈ walkAll walk seen es) : ∃ e ∈ es, ∃ seen', s ∈ walk seen' e := by
  induction es generalizing seen with
  | nil => cases h
  | cons e es ih =>
    rcases List.mem_append.1 h with h | h
    · exact ⟨e, List.mem_cons_self, seen, h⟩
    · obtain ⟨e', he', seen', h⟩ := ih h
      exact ⟨e', List.mem_cons_of_mem e he', seen', h⟩

/-- A walk through an expression stays within it. -/
theorem Expr.within_of_mem_newNodes (e : Expr) :
    ∀ {seen : List NodeId} {s : Expr}, s ∈ e.newNodes seen → s.Within e := by
  induction e using Expr.induction_parts with
  | h e ih =>
    intro seen s hs
    cases hid : e.id? with
    | none => simp [newNodes_of_id_none hid] at hs
    | some id =>
      by_cases hseen : id ∈ seen
      · simp [newNodes_of_mem hid hseen] at hs
      · rw [newNodes_of_not_mem hid hseen, List.mem_append, List.mem_singleton] at hs
        rcases hs with hs | rfl
        · obtain ⟨c, hc, _, hs⟩ := mem_walkAll hs
          exact .part hc (ih c hc hs)
        · exact .self

/-! ### Walks miss nothing -/

/-- The nodes in `D` are those with the numbers `seen`, and come with their parts. -/
structure Walked (U : Expr → Prop) (D : List Expr) (seen : List NodeId) : Prop where
  mem : ∀ s ∈ D, U s
  seen_iff : ∀ id, id ∈ seen ↔ ∃ s ∈ D, s.id? = some id
  part : ∀ s ∈ D, ∀ c ∈ s.parts, c ∈ D

/-- One more node is walked through once its parts are. -/
theorem Walked.snoc {U : Expr → Prop} {D : List Expr} {seen : List NodeId} {e : Expr} {id : NodeId}
    (h : Walked U D seen) (he : U e) (hid : e.id? = some id) (hparts : ∀ c ∈ e.parts, c ∈ D) :
    Walked U (D ++ [e]) (id :: seen) where
  mem s hs := by
    rcases List.mem_append.1 hs with hs | hs
    · exact h.mem s hs
    · rwa [List.mem_singleton.1 hs]
  seen_iff i := by
    rw [List.mem_cons, h.seen_iff]
    constructor
    · rintro (rfl | ⟨s, hs, hsid⟩)
      · exact ⟨e, by simp, hid⟩
      · exact ⟨s, by simp [hs], hsid⟩
    · rintro ⟨s, hs, hsid⟩
      rcases List.mem_append.1 hs with hs | hs
      · exact .inr ⟨s, hs, hsid⟩
      · rw [List.mem_singleton.1 hs, hid] at hsid
        exact .inl (Option.some.inj hsid).symm
  part s hs c hc := by
    rcases List.mem_append.1 hs with hs | hs
    · exact List.mem_append_left _ (h.part s hs c hc)
    · rw [List.mem_singleton.1 hs] at hc
      exact List.mem_append_left _ (hparts c hc)

/-- If single walks miss nothing, walks one after the other miss nothing. -/
theorem Walked.walkAll {U : Expr → Prop} {es : List Expr}
    (hes : ∀ e ∈ es, ∀ {D : List Expr} {seen : List NodeId}, Walked U D seen →
      Walked U (D ++ e.newNodes seen) (((e.newNodes seen).filterMap Expr.id?).reverse ++ seen) ∧
        e ∈ D ++ e.newNodes seen)
    {D : List Expr} {seen : List NodeId} (h : Walked U D seen) :
    Walked U (D ++ Decaf.walkAll Expr.newNodes seen es)
        (((Decaf.walkAll Expr.newNodes seen es).filterMap Expr.id?).reverse ++ seen) ∧
      ∀ e ∈ es, e ∈ D ++ Decaf.walkAll Expr.newNodes seen es := by
  induction es generalizing D seen with
  | nil => exact ⟨by simpa [Decaf.walkAll] using h, by simp⟩
  | cons e es ih =>
    obtain ⟨hfirst, hmem⟩ := hes e List.mem_cons_self h
    -- the rest is walked with what the first has added to the names seen
    obtain ⟨hrest, hmems⟩ := ih (fun e' he' => hes e' (List.mem_cons_of_mem e he')) hfirst
    rw [Decaf.walkAll]
    refine ⟨?_, fun e' he' => ?_⟩
    · simpa only [List.filterMap_append, List.reverse_append, List.append_assoc] using hrest
    · rw [← List.append_assoc]
      rcases List.mem_cons.1 he' with rfl | he'
      · exact List.mem_append_left _ hmem
      · exact hmems e' he'

/-- A walk through an expression without missing parts misses none of its nodes. -/
theorem Walked.newNodes {U : Expr → Prop} (hU : Coherent U) (e : Expr) :
    U e → (∀ s : Expr, s.Within e → s.id? ≠ none) →
    ∀ {D : List Expr} {seen : List NodeId}, Walked U D seen →
      Walked U (D ++ e.newNodes seen) (((e.newNodes seen).filterMap Expr.id?).reverse ++ seen) ∧
        e ∈ D ++ e.newNodes seen := by
  induction e using Expr.induction_parts with
  | h e ih =>
    intro he hids D seen hD
    obtain ⟨id, hid⟩ := Option.ne_none_iff_exists'.1 (hids e .self)
    by_cases hseen : id ∈ seen
    · -- the node that was seen under the number is the node itself
      obtain ⟨s, hs, hsid⟩ := (hD.seen_iff id).1 hseen
      obtain rfl := hU.unique (hD.mem s hs) he hsid hid
      rw [Expr.newNodes_of_mem hid hseen]
      exact ⟨by simpa using hD, by simpa using hs⟩
    · obtain ⟨hparts, hmems⟩ := hD.walkAll fun c hc _ _ hD' =>
        ih c hc (hU.part he hc) (fun s hs => hids s (.part hc hs)) hD'
      have hsnoc := hparts.snoc he hid hmems
      rw [Expr.newNodes_of_not_mem hid hseen]
      refine ⟨?_, by simp⟩
      simpa [hid] using hsnoc

/-- Whatever lies within a node that was walked through was walked through. -/
theorem Walked.mem_of_within {U : Expr → Prop} {D : List Expr} {seen : List NodeId}
    (h : Walked U D seen) {s e : Expr} (hs : s.Within e) (he : e ∈ D) : s ∈ D := by
  induction hs with
  | self => exact he
  | part hc _ ih => exact ih (h.part _ he _ hc)

/-- **Nothing is missed.** A walk that has seen nothing completes exactly the nodes of the
    expression. -/
theorem Expr.mem_newNodes_iff {e : Expr} (he : e.Coherent)
    (hids : ∀ s : Expr, s.Within e → s.id? ≠ none) {s : Expr} : s ∈ e.newNodes [] ↔ s.Within e := by
  constructor
  · intro hs
    exact e.within_of_mem_newNodes hs
  · intro hs
    have hstart : Walked (·.Within e) [] [] := ⟨by simp, by simp, by simp⟩
    obtain ⟨hwalked, hmem⟩ := Walked.newNodes he.within e .self hids hstart
    rw [List.nil_append] at hwalked hmem
    exact hwalked.mem_of_within hs hmem

/-! ### The state of a checker along a walk -/

namespace Checker

variable {env : Env} {U : Expr → Prop}

/-- The numbers of the nodes that a checker has seen, the last one first. -/
def seen (c : Checker) : List NodeId :=
  c.types.map (·.1)

/-- The checker after a node has been completed: what the rules say about the node is on record. -/
def complete (env : Env) (c : Checker) (s : Expr) : Checker :=
  match s.id?, (env.verdict s).result with
  | some id, .ok t => (c.record (env.verdict s).events).annotate id t
  | _, _ => c

/-- What a checker remembers of the expressions in `U` is what the rules say about them. -/
def Agrees (env : Env) (U : Expr → Prop) (c : Checker) : Prop :=
  ∀ s id t, U s → s.id? = some id → c.typeOf? id = some t → (env.verdict s).result = .ok t

theorem typeOf?_eq_none_iff {c : Checker} {id : NodeId} : c.typeOf? id = none ↔ id ∉ c.seen := by
  rw [typeOf?, List.lookup_eq_none_iff, seen, List.mem_map]
  constructor
  · rintro h ⟨p, hp, rfl⟩
    simpa using h p hp
  · intro h p hp
    simpa using fun heq : id = p.1 => h ⟨p, hp, heq.symm⟩

theorem complete_eq {c : Checker} {s : Expr} {id : NodeId} {t : Option Ty} (hid : s.id? = some id)
    (ht : (env.verdict s).result = .ok t) :
    c.complete env s = (c.record (env.verdict s).events).annotate id t := by
  rw [complete, hid, ht]

/-- Completing a node keeps the agreement with the rules. -/
theorem Agrees.complete (hU : Coherent U) {c : Checker} (hc : c.Agrees env U) {s : Expr}
    (hs : U s) : (c.complete env s).Agrees env U := by
  unfold Checker.complete
  split
  · rename_i id t hid ht
    intro s' id' t' hs' hid' ht'
    by_cases heq : id' = id
    · subst heq
      obtain rfl := hU.unique hs' hs hid' hid
      have hval : t = t' := by simpa [typeOf?, annotate] using ht'
      rw [ht, hval]
    · refine hc s' id' t' hs' hid' ?_
      have hne : (id' == id) = false := by simpa using heq
      simpa [typeOf?, annotate, record, List.lookup_cons, hne] using ht'
  · exact hc

/-- Completing several nodes keeps the agreement with the rules. -/
theorem Agrees.foldl_complete (hU : Coherent U) {l : List Expr} (hl : ∀ s ∈ l, U s) {c : Checker}
    (hc : c.Agrees env U) : (l.foldl (Checker.complete env) c).Agrees env U := by
  induction l generalizing c with
  | nil => exact hc
  | cons s l ih =>
    exact ih (fun s' hs' => hl s' (List.mem_cons_of_mem s hs'))
      (hc.complete hU (hl s List.mem_cons_self))

/-- Completed nodes are seen. -/
theorem seen_foldl_complete {l : List Expr} (hl : ∀ s ∈ l, ∃ t, (env.verdict s).result = .ok t)
    (c : Checker) : (l.foldl (complete env) c).seen = (l.filterMap Expr.id?).reverse ++ c.seen := by
  induction l generalizing c with
  | nil => rfl
  | cons s l ih =>
    have hrest := ih (fun s' hs' => hl s' (List.mem_cons_of_mem s hs')) (c.complete env s)
    obtain ⟨t, ht⟩ := hl s List.mem_cons_self
    rw [List.foldl_cons, hrest]
    cases hid : s.id? with
    | none =>
      have hsame : c.complete env s = c := by rw [complete, hid]
      simp [hid, hsame]
    | some id =>
      rw [complete_eq hid ht]
      simp [hid, seen, annotate, record]

/-- The record after completed nodes. -/
theorem log_foldl_complete {l : List Expr} (hl : ∀ s ∈ l, ∃ t, (env.verdict s).result = .ok t)
    (hids : ∀ s ∈ l, s.id? ≠ none) (c : Checker) :
    (l.foldl (complete env) c).log = c.log ++ l.flatMap fun s => (env.verdict s).events := by
  induction l generalizing c with
  | nil => simp
  | cons s l ih =>
    have hrest := ih (fun s' hs' => hl s' (List.mem_cons_of_mem s hs'))
      (fun s' hs' => hids s' (List.mem_cons_of_mem s hs')) (c.complete env s)
    obtain ⟨t, ht⟩ := hl s List.mem_cons_self
    obtain ⟨id, hid⟩ := Option.ne_none_iff_exists'.1 (hids s List.mem_cons_self)
    rw [List.foldl_cons, hrest, complete_eq hid ht]
    simp [annotate, record]

/-! ### Runs -/

/-- What typing a node does, given a way to type its parts. -/
theorem run_visit (env : Env) (id : NodeId) (e : Expr) (parts : Check (List (Option Ty)))
    (c : Checker) :
    (visit env id e parts).run c =
      match c.typeOf? id with
      | some t => (.ok t, c)
      | none =>
        match e.flaw? with
        | some flaw => (.error (.malformed flaw), c)
        | none =>
          match parts.run c with
          | (.error failure, c) => (.error failure, c)
          | (.ok types, c) =>
            match (env.rule e types).result with
            | .error failure => (.error failure, c.record (env.rule e types).events)
            | .ok t => (.ok t, (c.record (env.rule e types).events).annotate id t) := by
  unfold visit
  rw [run_bind, run_get]
  dsimp only
  -- the cases are those of the definition: known, with a flaw, a part that fails, ruled on
  cases c.typeOf? id with
  | some t => rfl
  | none =>
    cases e.flaw? with
    | some flaw => rfl
    | none =>
      dsimp only
      rw [run_bind]
      rcases parts.run c with ⟨failure | types, c'⟩
      · rfl
      · dsimp only
        rw [run_bind, run_modify]
        dsimp only
        cases (env.rule e types).result <;> rfl

/-- What a run on `e` comes to: the verdict of the rules, and the new nodes completed. -/
def RunsAsRuled (env : Env) (U : Expr → Prop) (e : Expr) : Prop :=
  ∀ c : Checker, c.Agrees env U → ((checkExpr env e).run c).1 = (env.verdict e).result ∧
    ∀ t, (env.verdict e).result = .ok t →
      ((checkExpr env e).run c).2 = (e.newNodes c.seen).foldl (complete env) c

/-- Runs on several expressions, one after the other, come to the same as single ones. -/
theorem run_checkExprs_of_runsAsRuled (hU : Coherent U) {es : List Expr} (hes : ∀ e ∈ es, U e)
    (hruns : ∀ e ∈ es, RunsAsRuled env U e) {c : Checker} (hc : c.Agrees env U) :
    ((checkExprs env es).run c).1 = Verdict.collect (es.map env.verdict) ∧
      ∀ ts, Verdict.collect (es.map env.verdict) = .ok ts →
        ((checkExprs env es).run c).2 =
          (walkAll Expr.newNodes c.seen es).foldl (complete env) c := by
  induction es generalizing c with
  | nil => exact ⟨rfl, fun _ _ => rfl⟩
  | cons e es ih =>
    obtain ⟨hfirst, hstate⟩ := hruns e List.mem_cons_self c hc
    rw [checkExprs, run_bind, List.map_cons, Verdict.collect]
    rcases hrun : (checkExpr env e).run c with ⟨r, c₁⟩
    rw [hrun] at hfirst hstate
    cases hr : (env.verdict e).result with
    | error failure =>
      rw [hr] at hfirst
      obtain rfl : r = .error failure := hfirst
      exact ⟨rfl, fun ts hts => by cases hts⟩
    | ok t =>
      rw [hr] at hfirst
      obtain rfl : r = .ok t := hfirst
      have hc₁ : c₁ = (e.newNodes c.seen).foldl (complete env) c := hstate t hr
      -- the nodes that are new lie within `e`, so they are in `U` and have types
      have hwithin : ∀ s ∈ e.newNodes c.seen, s.Within e := fun s hs => e.within_of_mem_newNodes hs
      have hmem : ∀ s ∈ e.newNodes c.seen, U s :=
        fun s hs => hU.of_within (hes e List.mem_cons_self) (hwithin s hs)
      have htypes : ∀ s ∈ e.newNodes c.seen, ∃ t, (env.verdict s).result = .ok t := fun s hs =>
        Env.verdict_ok_of_within (hwithin s hs) hr
      have hagrees : c₁.Agrees env U := hc₁ ▸ hc.foldl_complete hU hmem
      have hseen : c₁.seen = ((e.newNodes c.seen).filterMap Expr.id?).reverse ++ c.seen := by
        rw [hc₁, seen_foldl_complete htypes]
      obtain ⟨hrest, hstates⟩ := ih (fun e' he' => hes e' (List.mem_cons_of_mem e he'))
        (fun e' he' => hruns e' (List.mem_cons_of_mem e he')) hagrees
      dsimp only
      rw [run_bind]
      rcases hruns' : (checkExprs env es).run c₁ with ⟨rs, c₂⟩
      rw [hruns'] at hrest hstates
      cases hrs : Verdict.collect (es.map env.verdict) with
      | error failure =>
        rw [hrs] at hrest
        obtain rfl : rs = .error failure := hrest
        exact ⟨rfl, fun ts hts => by cases hts⟩
      | ok ts =>
        rw [hrs] at hrest
        obtain rfl : rs = .ok ts := hrest
        refine ⟨rfl, fun _ _ => ?_⟩
        show c₂ = _
        have hc₂ : c₂ = (walkAll Expr.newNodes c₁.seen es).foldl (complete env) c₁ := hstates ts hrs
        rw [hc₂, hseen, walkAll, List.foldl_append, ← hc₁]

/-- **Runs are as the rules say.** Typing an expression comes to what the rules say about it,
    however much has been seen before, and completes the nodes that are new. -/
theorem run_checkExpr (hU : Coherent U) (e : Expr) : U e → RunsAsRuled env U e := by
  induction e using Expr.induction_parts with
  | h e ih =>
    intro he c hc
    cases hid : e.id? with
    | none =>
      -- nothing is there, which is what is complained about
      cases e with
      | absent =>
        exact ⟨by rw [Env.verdict_eq]; rfl, fun t ht => by rw [Env.verdict_eq] at ht; cases ht⟩
      | hollow =>
        exact ⟨by rw [Env.verdict_eq]; rfl, fun t ht => by rw [Env.verdict_eq] at ht; cases ht⟩
      | _ => cases hid
    | some id =>
      rw [checkExpr_eq_visit env hid, run_visit]
      cases hseen : c.typeOf? id with
      | some t =>
        have hmem : id ∈ c.seen := Decidable.of_not_not fun hnot => by
          rw [typeOf?_eq_none_iff.2 hnot] at hseen
          cases hseen
        have hverdict := hc e id t he hid hseen
        rw [Expr.newNodes_of_mem hid hmem]
        exact ⟨hverdict.symm, fun _ _ => rfl⟩
      | none =>
        have hnot : id ∉ c.seen := typeOf?_eq_none_iff.1 hseen
        obtain ⟨hparts, hstate⟩ := run_checkExprs_of_runsAsRuled hU (fun _ hs => hU.part he hs)
          (fun s hs => ih s hs (hU.part he hs)) hc
        rw [Env.verdict_eq]
        cases hflaw : e.flaw? with
        | some flaw => exact ⟨rfl, fun t ht => by cases ht⟩
        | none =>
          rcases hrun : (checkExprs env e.parts).run c with ⟨r, c₁⟩
          rw [hrun] at hparts hstate
          cases htypes : Verdict.collect (e.parts.map env.verdict) with
          | error failure =>
            rw [htypes] at hparts
            obtain rfl : r = .error failure := hparts
            exact ⟨rfl, fun t ht => by cases ht⟩
          | ok types =>
            rw [htypes] at hparts
            obtain rfl : r = .ok types := hparts
            have hc₁ : c₁ = (walkAll Expr.newNodes c.seen e.parts).foldl (complete env) c :=
              hstate types htypes
            have hverdict : env.verdict e = env.rule e types := Env.verdict_eq_rule hflaw htypes
            dsimp only
            cases hres : (env.rule e types).result with
            | error failure => exact ⟨rfl, fun t ht => by cases ht⟩
            | ok t =>
              refine ⟨rfl, fun _ _ => ?_⟩
              show (c₁.record (env.rule e types).events).annotate id t = _
              rw [Expr.newNodes_of_not_mem hid hnot, List.foldl_append, ← hc₁, List.foldl_cons,
                List.foldl_nil, complete_eq hid (by rw [hverdict, hres]), hverdict]

/-- **A first run.** The outcome of a checker that has seen nothing is what the rules say, and its
    complaints are those about the nodes of the expression, each node once, parts before the node
    that they belong to. -/
theorem check_fresh (env : Env) {e : Expr} (he : e.Coherent) :
    (({} : Checker).check env e).1 = (env.verdict e).result ∧
      ∀ t, (env.verdict e).result = .ok t →
        (({} : Checker).check env e).2.findings = (e.newNodes []).flatMap fun s =>
          (env.verdict s).findings := by
  have hagrees : ({} : Checker).Agrees env (·.Within e) := fun s id t _ _ ht => by cases ht
  obtain ⟨hresult, hstate⟩ := run_checkExpr he.within e .self {} hagrees
  refine ⟨hresult, fun t ht => ?_⟩
  have hwithin : ∀ s ∈ e.newNodes [], s.Within e := fun s hs => e.within_of_mem_newNodes hs
  -- where the whole gets a type, so does every node of it
  have htypes : ∀ s ∈ e.newNodes [], ∃ t, (env.verdict s).result = .ok t := fun s hs =>
    Env.verdict_ok_of_within (hwithin s hs) ht
  have hids : ∀ s ∈ e.newNodes [], s.id? ≠ none := fun s hs =>
    Env.id?_ne_none_of_within (hwithin s hs) ht
  have hlog := log_foldl_complete htypes hids {}
  show ((checkExpr env e).run {}).2.log.filterMap Event.finding? = _
  rw [hstate t ht]
  show ((e.newNodes []).foldl (complete env) {}).log.filterMap Event.finding? = _
  rw [hlog]
  simp only [List.nil_append, List.filterMap_flatMap, Verdict.findings]

/-- A first run that gives a type complains about nothing exactly if the rules do. -/
theorem diagnostics_check_fresh_eq_nil_iff {env : Env} {e : Expr} (he : e.Coherent) {t : Option Ty}
    (ht : (env.verdict e).result = .ok t) :
    (({} : Checker).check env e).2.diagnostics = [] ↔ env.Quiet e := by
  have hids : ∀ s : Expr, s.Within e → s.id? ≠ none := fun s hs => Env.id?_ne_none_of_within hs ht
  rw [diagnostics, List.map_eq_nil_iff, (check_fresh env he).2 t ht, List.flatMap_eq_nil_iff]
  constructor
  · intro h s hs
    exact h s ((Expr.mem_newNodes_iff he hids).2 hs)
  · intro h s hs
    exact h s (e.within_of_mem_newNodes hs)

end Checker

end Decaf
