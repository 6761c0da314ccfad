import Decaf.Proofs.Typing.Fairness
import Decaf.Proofs.Typing.Sharing

namespace Decaf

/-!
# One mistake, one complaint

An expression that is known to be wrong has the error type.  Every rule is fair, so a node is wrong
because an operand is, with nothing more to be said about it, or because of a mistake of its own,
which is complained about.  Then every wrong node leads down to one where the mistake was made.

* `Checker.SentinelLaw` — the law for one node of an expression that has been typed.
* `Checker.RuledAt` — the rule of a node has spoken, and `Checker.sentinelLaw_of_ruledAt`, that the
  law holds there.
* `Checker.exists_root_cause` — where the law holds, operands lead from a wrong node to the mistake.
* `error_types_have_causes` — the law for all nodes, and for each wrong one a node where the mistake
  was made.
-/

/-! ### The law -/

namespace Checker

variable {env : Env} {c : Checker}

/-- A node is known to be wrong. -/
def IsWrong (c : Checker) (e : Expr) : Prop :=
  c.known? e = some (some .error)

/-- The complaints of a node itself: those of its rule, given the types that its parts are known to
    have. -/
def own (env : Env) (c : Checker) (e : Expr) : List Finding :=
  (env.rule e (e.parts.filterMap c.known?)).findings

/-- **The law of the error type**, for one node. -/
structure SentinelLaw (env : Env) (c : Checker) (n : Expr) : Prop where
  /-- A wrong operand makes the node wrong, without another word. -/
  silent : n.isElement = false → (∃ o ∈ n.operands, c.IsWrong o) → c.IsWrong n ∧ c.own env n = []
  /-- A wrong base makes an element wrong, and only its subscript may be complained about. -/
  element : n.isElement = true → (∃ o ∈ n.operands, c.IsWrong o) →
    c.IsWrong n ∧ ∀ f ∈ c.own env n, ∃ t, f.complaint = .badSubscript t
  /-- A subscript, a size or an argument that is wrong already is never complained about. -/
  fitted : ∀ f ∈ c.own env n, ∀ i, f.complaint.misfit? = some i →
    ∃ s, n.fitted[i]? = some s ∧ ¬ c.IsWrong s
  /-- A node that is wrong on its own account has something to say. -/
  cause : c.IsWrong n → (∀ o ∈ n.operands, ¬ c.IsWrong o) → c.own env n ≠ []
  /-- A node that is not wrong has nothing to say but what leaves it its type. -/
  bears : ¬ c.IsWrong n → ∀ f ∈ c.own env n, n.bears f.complaint

/-- The parts of a node have the types `ops` and `fits`, and the node has the type that its rule
    makes of them. -/
structure RuledAt (env : Env) (c : Checker) (n : Expr) (ops fits : List Ty) : Prop where
  operands : n.operands.map c.known? = ops.map (some ∘ some)
  fitted : n.fitted.map c.known? = fits.map (some ∘ some)
  type : ∃ t, c.known? n = some (some t) ∧
    (env.rule n ((ops ++ fits).map some)).result = .ok (some t)

/-- Nodes with types are wrong if the error type is among them. -/
theorem exists_isWrong_iff {es : List Expr} {ts : List Ty}
    (h : es.map c.known? = ts.map (some ∘ some)) : (∃ o ∈ es, c.IsWrong o) ↔ .error ∈ ts := by
  have hmap : some (some Ty.error) ∈ es.map c.known? ↔
      some (some Ty.error) ∈ ts.map (some ∘ some) := by rw [h]
  simpa [IsWrong] using hmap

namespace RuledAt

variable {n : Expr} {ops fits : List Ty}

theorem length_ops (h : c.RuledAt env n ops fits) : ops.length = n.operands.length := by
  simpa using (congrArg List.length h.operands).symm

theorem length_fits (h : c.RuledAt env n ops fits) : fits.length = n.fitted.length := by
  simpa using (congrArg List.length h.fitted).symm

/-- What the node has to say is what its rule says of the types of its parts. -/
theorem own_eq (h : c.RuledAt env n ops fits) :
    c.own env n = (env.rule n ((ops ++ fits).map some)).findings := by
  have hparts : n.parts.map c.known? = (ops ++ fits).map (some ∘ some) := by
    rw [Expr.parts_eq, List.map_append, List.map_append, h.operands, h.fitted]
  have htypes : n.parts.filterMap c.known? = (ops ++ fits).map some :=
    calc n.parts.filterMap c.known?
      _ = (n.parts.map c.known?).filterMap id := by rw [List.filterMap_map, Function.id_comp]
      _ = ((ops ++ fits).map (some ∘ some)).filterMap id := by rw [hparts]
      _ = (ops ++ fits).map some := by simp [List.filterMap_map, Function.comp_def]
  rw [own, htypes]

/-- The node is wrong exactly if its rule says so. -/
theorem isWrong_iff (h : c.RuledAt env n ops fits) :
    c.IsWrong n ↔ (env.rule n ((ops ++ fits).map some)).result = .ok (some .error) := by
  obtain ⟨t, ht, hrule⟩ := h.type
  rw [IsWrong, ht, hrule]
  simp

/-- A part that has to fit, with its type. -/
theorem exists_fitted (h : c.RuledAt env n ops fits) {i : Nat} {t : Ty} (ht : fits[i]? = some t) :
    ∃ s, n.fitted[i]? = some s ∧ c.known? s = some (some t) := by
  have hget : (n.fitted.map c.known?)[i]? = some (some (some t)) := by
    rw [h.fitted, List.getElem?_map, ht]
    rfl
  rw [List.getElem?_map] at hget
  exact Option.map_eq_some_iff.1 hget

/-- What leaves a node its type is not about a part that is wrong. -/
theorem not_isWrong_of_remark (h : c.RuledAt env n ops fits) {d : Complaint}
    (hd : n.Remark fits d) {i : Nat} (hi : d.misfit? = some i) :
    ∃ s, n.fitted[i]? = some s ∧ ¬ c.IsWrong s := by
  obtain ⟨t, ht, hne⟩ := hd.2 i hi
  obtain ⟨s, hs, hknown⟩ := h.exists_fitted ht
  refine ⟨s, hs, fun hwrong => hne ?_⟩
  rw [IsWrong, hknown] at hwrong
  simpa using hwrong

end RuledAt

/-- **The law for one node.** It holds where the rule of an intact node has spoken, if the types of
    the operands do not mention the error type without being it. -/
theorem sentinelLaw_of_ruledAt (henv : env.Clean) {n : Expr} (hn : n.Intact) {ops fits : List Ty}
    (h : c.RuledAt env n ops fits) (hsound : ∀ t ∈ ops, t ≠ .error → t.mentionsError = false) :
    c.SentinelLaw env n := by
  -- what the rule has said in each of the two cases, in terms of what is known
  have hwrong : (∃ o ∈ n.operands, c.IsWrong o) → c.IsWrong n ∧
      ∀ f ∈ c.own env n, n.isElement ∧ n.Remark fits f.complaint := by
    intro ho
    rw [h.isWrong_iff, h.own_eq]
    exact Env.rule_of_wrong hn h.length_ops h.length_fits ((exists_isWrong_iff h.operands).1 ho)
  have hfair : (∀ o ∈ n.operands, ¬ c.IsWrong o) →
      (env.rule n ((ops ++ fits).map some)).Fair (n.Remark fits) := by
    intro ho
    refine Env.rule_fair henv hn h.length_ops h.length_fits fun t ht => hsound t ht ?_
    rintro rfl
    obtain ⟨o, hmem, hwrong⟩ := (exists_isWrong_iff h.operands).2 ht
    exact ho o hmem hwrong
  -- in both, what is said about a part that has to fit is a remark
  have hremark : ∀ f ∈ c.own env n,
      n.Remark fits f.complaint ∨ c.IsWrong n ∧ f.complaint.misfit? = none := by
    intro f hf
    by_cases ho : ∃ o ∈ n.operands, c.IsWrong o
    · exact .inl ((hwrong ho).2 f hf).2
    · push Not at ho
      rw [h.own_eq] at hf
      rw [h.isWrong_iff]
      exact (hfair ho).remarks f hf
  refine ⟨fun helem ho => ⟨(hwrong ho).1, ?_⟩, fun helem ho => ⟨(hwrong ho).1, fun f hf => ?_⟩,
    fun f hf i hi => ?_, fun hn ho => ?_, fun hn f hf => ?_⟩
  · refine List.eq_nil_iff_forall_not_mem.2 fun f hf => ?_
    rw [((hwrong ho).2 f hf).1] at helem
    cases helem
  · obtain ⟨hbears, _⟩ := ((hwrong ho).2 f hf).2
    cases n with
    | index =>
      cases hcomplaint : f.complaint with
      | badSubscript t => exact ⟨t, rfl⟩
      | _ =>
        rw [hcomplaint] at hbears
        cases hbears
    | _ => cases helem
  · rcases hremark f hf with hremark | ⟨_, hnone⟩
    · exact h.not_isWrong_of_remark hremark hi
    · rw [hnone] at hi
      cases hi
  · rw [h.own_eq]
    exact (hfair ho).cause (h.isWrong_iff.1 hn)
  · rcases hremark f hf with hremark | ⟨hwrong, _⟩
    · exact hremark.1
    · exact absurd hwrong hn

/-- Where the rule of an intact node has spoken, its type does not mention the error type without
    being it, if that holds of its operands. -/
theorem mentionsError_of_ruledAt (henv : env.Clean) {n : Expr} (hn : n.Intact) {ops fits : List Ty}
    (h : c.RuledAt env n ops fits)
    (hsound : ∀ t ∈ ops, t ≠ .error → t.mentionsError = false) {t : Ty}
    (ht : c.known? n = some (some t)) (hne : t ≠ .error) : t.mentionsError = false := by
  obtain ⟨u, hu, hrule⟩ := h.type
  obtain rfl : u = t := by simpa [hu] using ht
  -- an operand that is wrong makes the whole wrong; without one the rule is fair
  by_cases hwrong : .error ∈ ops
  · have herror : (env.rule n ((ops ++ fits).map some)).result = .ok (some .error) :=
      (Env.rule_of_wrong hn h.length_ops h.length_fits hwrong).1
    rw [hrule] at herror
    exact absurd (by simpa using herror) hne
  · have hops : ∀ v ∈ ops, v.mentionsError = false :=
      fun v hv => hsound v hv fun heq => hwrong (heq ▸ hv)
    obtain ⟨v, hv, hclean⟩ := (Env.rule_fair henv hn h.length_ops h.length_fits hops).type
    rw [hrule] at hv
    obtain rfl : u = v := by simpa using hv
    exact hclean hne

/-- **The law for all nodes.** It holds at every node of a well-formed expression if the rules of
    all of them have spoken. -/
theorem sentinelLaw_of_wellFormed (henv : env.Clean) {e : Expr} (he : e.WellFormed)
    (hruled : ∀ s : Expr, s.Within e → ∃ ops fits, c.RuledAt env s ops fits) :
    c.SentinelLaw env e ∧
      ∀ t, c.known? e = some (some t) → t ≠ .error → t.mentionsError = false := by
  -- the law of a node needs sound types of its operands only, which is what is carried up the tree
  induction e using Expr.induction_parts with
  | h e ih =>
    obtain ⟨hintact, hparts⟩ := Expr.wellFormed_iff.1 he
    obtain ⟨ops, fits, hrule⟩ := hruled e .self
    have hsound : ∀ t ∈ ops, t ≠ .error → t.mentionsError = false := by
      intro t ht hne
      have hmem : some (some t) ∈ e.operands.map c.known? := by
        rw [hrule.operands]
        exact List.mem_map_of_mem (f := some ∘ some) ht
      obtain ⟨o, ho, hknown⟩ := List.mem_map.1 hmem
      have hpart : o ∈ e.parts := Expr.mem_parts_of_mem_operands ho
      exact (ih o hpart (hparts o hpart) fun s hs => hruled s (.part hpart hs)).2 t hknown hne
    exact ⟨sentinelLaw_of_ruledAt henv hintact hrule hsound,
      fun t ht hne => mentionsError_of_ruledAt henv hintact hrule hsound ht hne⟩

/-- **Root causes.** From every wrong node, wrong operands lead to a node that is wrong on its own
    account. -/
theorem exists_root_cause {e : Expr} (hlaw : ∀ s : Expr, s.Within e → c.SentinelLaw env s)
    (hwrong : c.IsWrong e) :
    ∃ r : Expr, Relation.ReflTransGen (fun n o => o ∈ n.operands ∧ c.IsWrong o) e r ∧ c.IsWrong r ∧
      c.own env r ≠ [] := by
  induction e using Expr.induction_parts with
  | h e ih =>
    by_cases ho : ∃ o ∈ e.operands, c.IsWrong o
    · obtain ⟨o, hmem, howrong⟩ := ho
      have hpart : o ∈ e.parts := Expr.mem_parts_of_mem_operands hmem
      obtain ⟨r, hpath, hr⟩ := ih o hpart (fun s hs => hlaw s (.part hpart hs)) howrong
      exact ⟨r, .head ⟨hmem, howrong⟩ hpath, hr⟩
    · push Not at ho
      exact ⟨e, .refl, hwrong, (hlaw e .self).cause hwrong ho⟩

/-- After a first run on a well-formed expression the rules of all its nodes have spoken. -/
theorem ruledAt_check_fresh (henv : env.Complete) {e : Expr} (hwell : e.WellFormed)
    (hshare : e.Coherent) {s : Expr} (hs : s.Within e) :
    ∃ ops fits, (({} : Checker).check env e).2.RuledAt env s ops fits ∧
      env.verdict s = env.rule s ((ops ++ fits).map some) := by
  obtain ⟨t, ht⟩ := Env.exists_verdict_of_wellFormed henv hwell
  have htypes : ∀ r : Expr, r.Within e → ∃ u, (env.verdict r).result = .ok (some u) := fun r hr =>
    Env.exists_verdict_of_wellFormed henv (hwell.of_within hr)
  have hknown : ∀ r : Expr, r.Within e →
      (({} : Checker).check env e).2.known? r = (env.verdict r).result.toOption := by
    intro r hr
    obtain ⟨u, hu⟩ := htypes r hr
    rw [known?_check_fresh hshare ht hr hu, hu]
    rfl
  obtain ⟨u, hu⟩ := htypes s hs
  obtain ⟨hflaw, _⟩ := Env.verdict_ok hu
  obtain ⟨us, hus⟩ :
      ∃ us : List Ty, Verdict.collect (s.parts.map env.verdict) = .ok (us.map some) := by
    refine Verdict.exists_collect_eq_ok fun v hv => ?_
    obtain ⟨r, hr, rfl⟩ := List.mem_map.1 hv
    exact htypes r (.of_mem_parts hr hs)
  have hrule : env.verdict s = env.rule s (us.map some) := Env.verdict_eq_rule hflaw hus
  have hparts : s.parts.map (({} : Checker).check env e).2.known? = us.map (some ∘ some) :=
    calc s.parts.map (({} : Checker).check env e).2.known?
      _ = s.parts.map (fun r => (env.verdict r).result.toOption) :=
        List.map_congr_left fun r hr => hknown r (.of_mem_parts hr hs)
      _ = ((s.parts.map env.verdict).map (·.result)).map Except.toOption := by
        rw [List.map_map, List.map_map]
        rfl
      _ = us.map (some ∘ some) := by
        rw [Verdict.collect_eq_ok_iff.1 hus, List.map_map, List.map_map]
        rfl
  -- the types of the operands come first among those of the parts
  rw [Expr.parts_eq, List.map_append] at hparts
  obtain ⟨ops, fits, rfl, hops, hfits⟩ := List.append_eq_map_iff.1 hparts
  refine ⟨ops, fits, ⟨hops.symm, hfits.symm, u, ?_, ?_⟩, hrule⟩
  · rw [hknown s hs, hu]
    rfl
  · rw [← hrule, hu]

end Checker

/-- **Every error type has a cause, and nothing cascades.** Where all declarations have types in
    which the error type does not occur, let a checker that has seen nothing type a well-formed
    expression.  What it complains about is what the nodes have to say themselves.  Every node gets
    a type, and the law of the error type holds at it: an operand that is wrong makes it wrong,
    without another word; parts that only have to fit are not complained about if they are wrong; a
    node that is wrong on its own account has something to say; and one that is not wrong has
    nothing to say but what leaves it its type.  So from every wrong node, wrong operands lead to a
    complaint. -/
theorem error_types_have_causes (env : Env) (henv : env.Clean) (e : Expr) (hwell : e.WellFormed)
    (hshare : e.Coherent) :
    let c := (({} : Checker).check env e).2
    c.findings = (firstVisits e.visits).flatMap (c.own env) ∧
      ∀ n : Expr, n.Within e →
        (∃ t, c.known? n = some (some t)) ∧ c.SentinelLaw env n ∧
          (c.IsWrong n → ∃ r : Expr,
            Relation.ReflTransGen (fun n o => o ∈ n.operands ∧ c.IsWrong o) n r ∧ c.IsWrong r ∧
            c.own env r ≠ []) := by
  intro c
  have hcomplete : env.Complete := henv.mono fun t ht => ht.ne_none
  -- every node was ruled on once, with the types of its parts
  have hruled : ∀ s : Expr, s.Within e → ∃ ops fits, c.RuledAt env s ops fits := fun s hs => by
    obtain ⟨ops, fits, hrule, _⟩ := Checker.ruledAt_check_fresh hcomplete hwell hshare hs
    exact ⟨ops, fits, hrule⟩
  have hlaw : ∀ s : Expr, s.Within e → c.SentinelLaw env s := fun s hs =>
    (Checker.sentinelLaw_of_wellFormed henv (hwell.of_within hs) fun r hr =>
      hruled r (hr.trans hs)).1
  refine ⟨?_, fun n hn => ⟨?_, hlaw n hn, ?_⟩⟩
  · -- what was found at the first visits is what the rules found there
    obtain ⟨t, ht⟩ := Env.exists_verdict_of_wellFormed hcomplete hwell
    rw [Checker.findings_check_fresh hshare ht]
    refine List.flatMap_congr fun s hs => ?_
    have hwithin : s.Within e := Expr.mem_visits_iff.1 (mem_of_mem_firstVisits hs)
    obtain ⟨ops, fits, hrule, hverdict⟩ :=
      Checker.ruledAt_check_fresh hcomplete hwell hshare hwithin
    rw [hrule.own_eq, hverdict]
  · obtain ⟨ops, fits, hrule⟩ := hruled n hn
    obtain ⟨t, ht, _⟩ := hrule.type
    exact ⟨t, ht⟩
  · exact Checker.exists_root_cause fun s hs => hlaw s (hs.trans hn)

/-- An element of a sum with an undeclared variable, with a truth value for its subscript.  The sum
    is wrong without a word, and so is the element, which still complains about the subscript; the
    cause is the variable. -/
theorem error_of_variable_reaches_element :
    let x : Expr := .member 0 .unqualified (some ⟨"x", ⟨"x", .start⟩⟩)
    let one : Expr := .leaf 1 ⟨"1", .start⟩ .int
    let plus : Token := { kind := .mark .plus, literal := "+", pos := .start }
    let sum : Expr := .compound 2 .arithmetic (some plus) x one
    let yes : Expr := .leaf 3 ⟨"true", .start⟩ .bool
    let element : Expr := .index 4 ⟨"[", .start⟩ sum yes
    let env : Env := { program := .empty }
    let c := (({} : Checker).check env element).2
    (c.IsWrong sum ∧ c.own env sum = []) ∧ c.IsWrong element ∧
      c.own env element = [⟨.start, .badSubscript .bool⟩] ∧
      (firstVisits element.visits).flatMap (c.own env) =
        [⟨.start, .undeclaredVariable "x"⟩, ⟨.start, .badSubscript .bool⟩] ∧
      ∃ r : Expr,
        Relation.ReflTransGen (fun n o => o ∈ n.operands ∧ c.IsWrong o) element r ∧ c.IsWrong r ∧
        c.own env r ≠ [] := by
  intro x one plus sum yes element env c
  have henv : env.Clean := by
    constructor <;> simp [env, Program.empty, Dict.values, Dict.empty]
  have hwell : element.WellFormed := .index (.arithmetic (by decide) .bareName .leaf) .leaf
  have hnodes : Coherent (· ∈ [element, sum, yes, x, one]) :=
    coherent_of_list (by simp [element, sum, yes, x, one, Expr.parts, Receiver.parts,
      Expr.isAbsent]) (by decide)
  have hshare : element.Coherent := hnodes.coherent List.mem_cons_self
  obtain ⟨hfindings, hlaw⟩ := error_types_have_causes env henv element hwell hshare
  have hx : c.IsWrong x := by
    show c.known? x = some (some .error)
    decide
  have hsum : sum.Within element := .part (by simp [element, Expr.parts]) .self
  have hoperand : ∃ o ∈ sum.operands, c.IsWrong o :=
    ⟨x, by simp [sum, x, Expr.operands, Expr.isAbsent], hx⟩
  have hwrong := (hlaw sum hsum).2.1.silent rfl hoperand
  have helement :=
    (hlaw element .self).2.1.element rfl ⟨sum, by simp [element, Expr.operands], hwrong.1⟩
  refine ⟨hwrong, helement.1, by decide, hfindings.symm.trans (by decide), ?_⟩
  exact (hlaw element .self).2.2 helement.1

end Decaf
