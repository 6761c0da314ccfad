import Decaf.Proofs.Typing.Settling
import Decaf.Proofs.Typing.Steps
import Mathlib.Data.List.Nodup

namespace Decaf

/-!
# Shared nodes are typed as if they were not shared

A node that is part of an expression in several places is typed once.  A checker without a memory
would walk through the whole tree and come to the node along every way that leads to it.  Both give
the node the same type; and of the complaints that the second would make again and again, the first
makes those of the first time.

* `Expr.visits` — the walk through the whole tree, and `firstVisits`, the first time that each node
  comes up.
* `Expr.newNodes_eq_firstVisits` — a walk with a memory completes the nodes in the order of the
  first visits.
* `Env.exists_verdict_of_wellFormed` — without a memory, too, every well-formed tree gets a type.
* `Checker.known?_check_fresh`, `Checker.findings_check_fresh` — what is remembered of a node is
  what is found without a memory, and what is complained about.
* `shared_nodes_reported_once` — a checker that has seen nothing, against one without a memory.
-/

/-! ### The walk through the whole tree -/

namespace Expr

/-- The nodes in the order in which a walk through the whole tree leaves them, parts first and from
    left to right.  A node comes up as often as there are ways to it. -/
def visits (e : Expr) : List Expr :=
  (e.parts.attach.flatMap fun c => visits c.1) ++ [e]
termination_by sizeOf e
decreasing_by exact sizeOf_lt_of_mem_parts c.2

theorem visits_eq (e : Expr) : e.visits = e.parts.flatMap visits ++ [e] := by
  rw [visits, List.flatMap_subtype (g := visits) fun _ _ => rfl, List.unattach_attach]

/-- The walk comes to all nodes of the expression, and to no others. -/
theorem mem_visits_iff {s e : Expr} : s ∈ e.visits ↔ s.Within e := by
  induction e using Expr.induction_parts with
  | h e ih =>
    rw [visits_eq, List.mem_append, List.mem_singleton, List.mem_flatMap, within_iff, or_comm]
    exact or_congr_right (exists_congr fun c => and_congr_right fun hc => ih c hc)

end Expr

/-! ### First visits -/

/-- The nodes of a walk, each where it comes up for the first time. -/
def firstVisits : List Expr → List Expr
  | [] => []
  | s :: rest => s :: (firstVisits rest).filter (·.id? ≠ s.id?)

theorem mem_of_mem_firstVisits {walk : List Expr} {s : Expr} (h : s ∈ firstVisits walk) :
    s ∈ walk := by
  induction walk with
  | nil => exact h
  | cons a walk ih =>
    rcases List.mem_cons.1 h with rfl | h
    · exact List.mem_cons_self
    · exact List.mem_cons_of_mem a (ih (List.mem_filter.1 h).1)

/-- Every number of a walk has a first visit. -/
theorem exists_mem_firstVisits {walk : List Expr} {s : Expr} (h : s ∈ walk) :
    ∃ r ∈ firstVisits walk, r.id? = s.id? := by
  induction walk with
  | nil => cases h
  | cons a walk ih =>
    by_cases hid : s.id? = a.id?
    · exact ⟨a, List.mem_cons_self, hid.symm⟩
    · have hmem : s ∈ walk := by
        rcases List.mem_cons.1 h with rfl | h
        · exact absurd rfl hid
        · exact h
      obtain ⟨r, hr, hrid⟩ := ih hmem
      refine ⟨r, List.mem_cons_of_mem a (List.mem_filter.2 ⟨hr, ?_⟩), hrid⟩
      simpa [hrid] using hid

/-- No number has two first visits. -/
theorem nodup_id?_firstVisits (walk : List Expr) : ((firstVisits walk).map Expr.id?).Nodup := by
  induction walk with
  | nil => exact List.nodup_nil
  | cons a walk ih =>
    rw [firstVisits, List.map_cons, List.nodup_cons]
    constructor
    · intro hmem
      obtain ⟨s, hs, hid⟩ := List.mem_map.1 hmem
      simpa [hid] using (List.mem_filter.1 hs).2
    · exact ih.sublist (List.filter_sublist.map _)

/-- In a walk after another, the first visits are those to nodes that the other has not come to. -/
theorem firstVisits_append (walk more : List Expr) :
    firstVisits (walk ++ more) =
      firstVisits walk ++ (firstVisits more).filter fun s => s.id? ∉ walk.map Expr.id? := by
  induction walk with
  | nil => simp [firstVisits]
  | cons a walk ih =>
    rw [List.cons_append, firstVisits, firstVisits, ih, List.filter_append, List.filter_filter,
      List.cons_append]
    congr 2
    refine List.filter_congr fun s _ => ?_
    simp [not_or]

/-! ### A walk with a memory -/

/-- The first visits of a walk to nodes that have not been seen before. -/
def freshVisits (seen : List NodeId) (walk : List Expr) : List Expr :=
  (firstVisits walk).filter fun s => s.id? ∉ seen.map some

/-- In a walk after another, the other has seen what it came to. -/
theorem freshVisits_append {seen : List NodeId} {walk more : List Expr}
    (hids : ∀ s ∈ walk, s.id? ≠ none) :
    freshVisits seen (walk ++ more) =
      freshVisits seen walk ++
        freshVisits (((freshVisits seen walk).filterMap Expr.id?).reverse ++ seen) more := by
  rw [freshVisits, firstVisits_append, List.filter_append, List.filter_filter]
  refine congrArg (freshVisits seen walk ++ ·) (List.filter_congr fun s _ => ?_)
  -- a node is seen by then exactly if it was seen before or the walk came to it
  have hseen : s.id? ∈ (((freshVisits seen walk).filterMap Expr.id?).reverse ++ seen).map some ↔
      s.id? ∈ seen.map some ∨ s.id? ∈ walk.map Expr.id? := by
    constructor
    · intro h
      rw [List.map_append, List.mem_append] at h
      rcases h with h | h
      · obtain ⟨id, hid, heq⟩ := List.mem_map.1 h
        obtain ⟨r, hr, hrid⟩ := List.mem_filterMap.1 (List.mem_reverse.1 hid)
        have hwalk : r ∈ walk := mem_of_mem_firstVisits (List.mem_filter.1 hr).1
        exact .inr (List.mem_map.2 ⟨r, hwalk, hrid.trans heq⟩)
      · exact .inl h
    · intro h
      rw [List.map_append, List.mem_append]
      by_cases hold : s.id? ∈ seen.map some
      · exact .inr hold
      · obtain ⟨v, hv, hvid⟩ := List.mem_map.1 (h.resolve_left hold)
        obtain ⟨r, hr, hrid⟩ := exists_mem_firstVisits hv
        obtain ⟨id, hid⟩ := Option.ne_none_iff_exists'.1 (hids r (mem_of_mem_firstVisits hr))
        have hfresh : r ∈ freshVisits seen walk := by
          refine List.mem_filter.2 ⟨hr, ?_⟩
          rw [hrid, hvid]
          simpa using hold
        refine .inl (List.mem_map.2 ⟨id,
          List.mem_reverse.2 (List.mem_filterMap.2 ⟨r, hfresh, hid⟩), ?_⟩)
        rw [← hvid, ← hrid, hid]
  simp only [hseen, not_or, Bool.decide_and]

/-- If single walks with a memory complete the nodes in the order of their first visits, so do walks
    one after the other. -/
theorem walkAll_newNodes_eq {U : Expr → Prop} (hU : Coherent U) {es : List Expr}
    (hmem : ∀ e ∈ es, U e) (hids : ∀ e ∈ es, ∀ s : Expr, s.Within e → s.id? ≠ none)
    (hes : ∀ e ∈ es, ∀ {D : List Expr} {seen : List NodeId}, Walked U D seen →
      e.newNodes seen = freshVisits seen e.visits)
    {D : List Expr} {seen : List NodeId} (h : Walked U D seen) :
    walkAll Expr.newNodes seen es = freshVisits seen (es.flatMap Expr.visits) := by
  induction es generalizing D seen with
  | nil => rfl
  | cons e es ih =>
    have hfirst := hes e List.mem_cons_self h
    -- the first walk adds to the memory just what it completes, so the rest goes on from there
    obtain ⟨hwalked, _⟩ :=
      Walked.newNodes hU e (hmem e List.mem_cons_self) (hids e List.mem_cons_self) h
    have hrest := ih (fun e' he' => hmem e' (List.mem_cons_of_mem e he'))
      (fun e' he' => hids e' (List.mem_cons_of_mem e he'))
        (fun e' he' => hes e' (List.mem_cons_of_mem e he')) hwalked
    have hvisits : ∀ s ∈ e.visits, s.id? ≠ none := fun s hs =>
      hids e List.mem_cons_self s (Expr.mem_visits_iff.1 hs)
    rw [walkAll, hrest, List.flatMap_cons, freshVisits_append hvisits, ← hfirst]

/-- **A walk with a memory.** It completes the nodes that are new to it, in the order of their first
    visits. -/
theorem Expr.newNodes_eq_freshVisits {U : Expr → Prop} (hU : Decaf.Coherent U) (e : Expr) :
    U e → (∀ s : Expr, s.Within e → s.id? ≠ none) →
    ∀ {D : List Expr} {seen : List NodeId}, Walked U D seen →
      e.newNodes seen = freshVisits seen e.visits := by
  induction e using Expr.induction_parts with
  | h e ih =>
    intro he hids D seen hD
    obtain ⟨id, hid⟩ := Option.ne_none_iff_exists'.1 (hids e .self)
    by_cases hseen : id ∈ seen
    · -- all of the expression has been seen with it
      obtain ⟨s, hs, hsid⟩ := (hD.seen_iff id).1 hseen
      obtain rfl := hU.unique (hD.mem s hs) he hsid hid
      rw [newNodes_of_mem hid hseen, eq_comm, freshVisits, List.filter_eq_nil_iff]
      intro r hr
      have hwithin : r.Within s := mem_visits_iff.1 (mem_of_mem_firstVisits hr)
      obtain ⟨i, hi⟩ := Option.ne_none_iff_exists'.1 (hids r hwithin)
      have hold : i ∈ seen := (hD.seen_iff i).2 ⟨r, hD.mem_of_within hwithin hs, hi⟩
      simpa [hi] using hold
    · have hparts : walkAll newNodes seen e.parts = freshVisits seen (e.parts.flatMap visits) :=
        walkAll_newNodes_eq hU (fun c hc => hU.part he hc) (fun c hc s hs => hids s (.part hc hs))
          (fun c hc _ _ hD' => ih c hc (hU.part he hc) (fun s hs => hids s (.part hc hs)) hD') hD
      -- the node comes up among its parts nowhere
      have hnew : e.id? ∉ (e.parts.flatMap visits).map Expr.id? := by
        intro hmem
        obtain ⟨s, hs, hsid⟩ := List.mem_map.1 hmem
        obtain ⟨c, hc, hs⟩ := List.mem_flatMap.1 hs
        exact hU.id?_ne_of_within_part he hc (mem_visits_iff.1 hs) hid (hsid.trans hid)
      rw [newNodes_of_not_mem hid hseen, hparts, visits_eq, freshVisits, freshVisits,
        firstVisits_append, List.filter_append]
      congr 1
      have hself : [e].filter (fun s => s.id? ∉ (e.parts.flatMap visits).map Expr.id?) = [e] := by
        simpa using hnew
      rw [firstVisits, firstVisits, List.filter_nil, hself, eq_comm, List.filter_eq_self]
      have hfresh : e.id? ∉ seen.map some := by simpa [hid] using hseen
      simpa using hfresh

/-- **Each node at its first visit.** A walk with a memory that is empty at first completes the
    nodes of the expression in the order of their first visits. -/
theorem Expr.newNodes_eq_firstVisits {e : Expr} (he : e.Coherent)
    (hids : ∀ s : Expr, s.Within e → s.id? ≠ none) : e.newNodes [] = firstVisits e.visits := by
  have hstart : Walked (·.Within e) [] [] := ⟨by simp, by simp, by simp⟩
  rw [newNodes_eq_freshVisits he.within e .self hids hstart, freshVisits, List.filter_eq_self]
  simp

/-! ### Typing without a memory -/

/-- The parts of a well-formed tree, at any depth, are well-formed. -/
theorem Expr.WellFormed.of_within {s e : Expr} (hs : s.Within e) (he : e.WellFormed) :
    s.WellFormed := by
  induction hs with
  | self => exact he
  | part hc _ ih => exact ih ((Expr.wellFormed_iff.1 he).2 _ hc)

/-- Verdicts that all give a type give a list of types. -/
theorem Verdict.exists_collect_eq_ok {vs : List Verdict}
    (h : ∀ v ∈ vs, ∃ t, v.result = .ok (some t)) :
    ∃ us : List Ty, Verdict.collect vs = .ok (us.map some) := by
  induction vs with
  | nil => exact ⟨[], rfl⟩
  | cons v vs ih =>
    obtain ⟨t, ht⟩ := h v List.mem_cons_self
    obtain ⟨us, hus⟩ := ih fun w hw => h w (List.mem_cons_of_mem v hw)
    exact ⟨t :: us, by simp [Verdict.collect, ht, hus]⟩

/-- **Without a memory.** Where every declaration has a type, every well-formed tree gets a type. -/
theorem Env.exists_verdict_of_wellFormed {env : Env} (henv : env.Complete) {e : Expr}
    (he : e.WellFormed) : ∃ t, (env.verdict e).result = .ok (some t) := by
  induction e using Expr.induction_parts with
  | h e ih =>
    obtain ⟨hintact, hparts⟩ := Expr.wellFormed_iff.1 he
    obtain ⟨us, hus⟩ :
        ∃ us : List Ty, Verdict.collect (e.parts.map env.verdict) = .ok (us.map some) := by
      refine Verdict.exists_collect_eq_ok fun v hv => ?_
      obtain ⟨c, hc, rfl⟩ := List.mem_map.1 hv
      exact ih c hc (hparts c hc)
    have hlen : us.length = e.parts.length := by
      simpa using (congrArg List.length (Verdict.collect_eq_ok_iff.1 hus)).symm
    rw [Env.verdict_eq_rule hintact.1 hus]
    exact (Env.rule_settles henv hintact (fun s hs => (hparts s hs).pos?_ne_none) hlen).type

/-- **What is remembered is right.** After a first run that gives a type, the type that is known for
    a node is the one that is found without a memory. -/
theorem Checker.known?_check_fresh {env : Env} {e : Expr} (he : e.Coherent) {t : Option Ty}
    (ht : (env.verdict e).result = .ok t) {s : Expr} (hs : s.Within e) {u : Option Ty}
    (hu : (env.verdict s).result = .ok u) : (({} : Checker).check env e).2.known? s = some u := by
  have hstart : ({} : Checker).Agrees env (·.Within e) := fun _ _ _ _ _ h => by cases h
  obtain ⟨hresult, hstate⟩ := run_checkExpr he.within e .self {} hstart
  have hagrees : (({} : Checker).check env e).2.Agrees env (·.Within e) := by
    rw [check, hstate t ht]
    exact hstart.foldl_complete he.within fun r hr => e.within_of_mem_newNodes hr
  -- something is known for every part of what has a type, so for the node
  have hclosed : (({} : Checker).check env e).2.Closed (·.Within e) :=
    closed_empty.steps he.within (steps_check (E := fun _ => True) he.within trivial .self {})
  have hroot : (({} : Checker).check env e).2.known? e = some t :=
    (steps_checkExpr he.within env e .self {}).2 t (hresult.trans ht)
  have hknown : (({} : Checker).check env e).2.known? s ≠ none := by
    refine hclosed.known_of_within he.within hs .self ?_
    rw [hroot]
    exact Option.some_ne_none t
  obtain ⟨v, hv⟩ := Option.ne_none_iff_exists'.1 hknown
  obtain ⟨id, hid, hv'⟩ := exists_id_of_known? hv
  have hsame : (env.verdict s).result = .ok v := hagrees s id v hs hid hv'
  rw [hu, Except.ok.injEq] at hsame
  rw [hv, hsame]

/-- **What is complained about.** After a first run that gives a type, the complaints are those of
    the nodes themselves, each node at its first visit. -/
theorem Checker.findings_check_fresh {env : Env} {e : Expr} (he : e.Coherent) {t : Option Ty}
    (ht : (env.verdict e).result = .ok t) :
    (({} : Checker).check env e).2.findings = (firstVisits e.visits).flatMap fun s =>
      (env.verdict s).findings := by
  rw [(check_fresh env he).2 t ht,
    Expr.newNodes_eq_firstVisits he fun s hs => Env.id?_ne_none_of_within hs ht]

/-- **Shared nodes are typed as if they were not shared, and reported once.** Where every
    declaration has a type, let a checker that has seen nothing type a well-formed expression, whose
    nodes may be shared: a number only has to belong to one node.  It gives every node the type that
    is found for the tree at that node without a memory.  Its diagnostics are those that the rules
    of the nodes make themselves, node after node, each node once, at the first time that a walk
    through the whole tree leaves it. -/
theorem shared_nodes_reported_once (env : Env) (henv : env.Complete) (e : Expr)
    (hwell : e.WellFormed) (hshare : e.Coherent) :
    let run := ({} : Checker).check env e
    run.1 = (env.verdict e).result ∧
      (∀ s : Expr, s.Within e →
        ∃ t, (env.verdict s).result = .ok (some t) ∧ run.2.known? s = some (some t)) ∧
      run.2.diagnostics =
        (firstVisits e.visits).flatMap (fun s => (env.verdict s).findings.map Finding.diagnostic) ∧
      (firstVisits e.visits).Nodup ∧ ∀ s : Expr, s ∈ firstVisits e.visits ↔ s.Within e := by
  intro run
  obtain ⟨t, ht⟩ := Env.exists_verdict_of_wellFormed henv hwell
  have hids : ∀ s : Expr, s.Within e → s.id? ≠ none := fun s hs => Env.id?_ne_none_of_within hs ht
  refine ⟨(Checker.check_fresh env hshare).1, fun s hs => ?_, ?_,
    List.Nodup.of_map Expr.id? (nodup_id?_firstVisits _), fun s => ?_⟩
  · obtain ⟨u, hu⟩ := Env.exists_verdict_of_wellFormed henv (hwell.of_within hs)
    exact ⟨u, hu, Checker.known?_check_fresh hshare ht hs hu⟩
  · rw [Checker.diagnostics, Checker.findings_check_fresh hshare ht, List.map_flatMap]
  · rw [← Expr.newNodes_eq_firstVisits hshare hids]
    exact Expr.mem_newNodes_iff hshare hids

/-- An argument that is passed twice: the sum of an undeclared variable and a text, which is there
    twice itself.  Every mistake is reported once. -/
theorem shared_argument_reported_once :
    let x : Expr := .member 0 .unqualified (some ⟨"x", ⟨"x", .start⟩⟩)
    let text : Expr := .leaf 1 ⟨"\"\"", .start⟩ .string
    let plus : Token := { kind := .mark .plus, literal := "+", pos := .start }
    let sum : Expr := .compound 2 .arithmetic (some plus) text text
    let index : Expr := .index 3 ⟨"[", .start⟩ x sum
    let call : Expr := .call 4 .unqualified (some ⟨"f", ⟨"f", .start⟩⟩) [index, sum, index]
    let env : Env := { program := .empty }
    call.visits.length = 14 ∧ (firstVisits call.visits).Nodup ∧
      (({} : Checker).check env call).2.known? sum = some (some .error) ∧
      (firstVisits call.visits).flatMap (fun s => (env.verdict s).findings.map Finding.diagnostic) =
        [⟨.undeclaredIdentifier, .start, "No declaration found for variable 'x'", []⟩,
          ⟨.typeMismatch, .start, "Incompatible operands: string + string", ["string", "string"]⟩,
          ⟨.undeclaredMethod, .start, "No declaration found for function 'f'", []⟩] := by
  intro x text plus sum index call env
  have henv : env.Complete := by
    constructor <;> simp [env, Program.empty, Dict.values, Dict.empty]
  have hsum : sum.WellFormed := .arithmetic (by decide) .leaf .leaf
  have hindex : index.WellFormed := .index .bareName hsum
  have hwell : call.WellFormed := .function (by simp [hindex, hsum])
  have hnodes : Coherent (· ∈ [call, index, sum, text, x]) :=
    coherent_of_list (by simp [call, index, sum, text, x, Expr.parts, Receiver.parts,
      Expr.isAbsent]) (by decide)
  have hshare : call.Coherent := hnodes.coherent List.mem_cons_self
  obtain ⟨_, _, hdiagnostics, hnodup, _⟩ := shared_nodes_reported_once env henv call hwell hshare
  refine ⟨?_, hnodup, by decide, hdiagnostics.symm.trans (by decide)⟩
  simp [call, index, sum, text, x, Expr.visits_eq, Expr.parts, Receiver.parts, Expr.isAbsent]

end Decaf
