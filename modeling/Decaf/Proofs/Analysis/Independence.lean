import Decaf.Analysis
import Decaf.Proofs.Program.Declarations
import Decaf.Proofs.Typing.Failures
import Decaf.Proofs.Typing.Frame

namespace Decaf

/-!
# Bodies are analysed independently

One checker types all bodies, and the errors of a body are cut out of what the checker has found by
then.  Still a body that has no node in common with the others adds the errors, and gets the types,
that it has when it is analysed alone.  So the order of the bodies is of no consequence, except that
the analysis ends at a body that fails.

* `Body.Owns`, `Body.Apart` — the nodes of a body, and bodies without a common node.
* `Body.alone` — a body analysed by itself, by an analyzer that has seen nothing.
* `Analyzer.analyzeBody_eq_alone` — a body whose nodes are new is analysed as it is alone.
* `Analyzer.analyzeBodies_apart` — so are bodies one after the other, and `Analyzer.analyze_perm`,
  in any order.
* `bodies_independent` — all of it.
-/

/-! ### The nodes of a body -/

namespace Body

variable {b b' : Body}

/-- The node stands in the body, at any depth. -/
def Has (b : Body) (s : Expr) : Prop :=
  ∃ e ∈ b.exprs, s.Within e

/-- The number is that of a node of the body. -/
def Owns (b : Body) (id : NodeId) : Prop :=
  ∃ s, b.Has s ∧ s.id? = some id

/-- The bodies have no node in common. -/
def Apart (b b' : Body) : Prop :=
  ∀ id, b.Owns id → ¬ b'.Owns id

theorem Apart.symm (h : b.Apart b') : b'.Apart b :=
  fun id hid' hid => h id hid hid'

/-- The body analysed by itself. -/
def alone (p : Program) (b : Body) : Except AnalysisFailure Unit × Analyzer :=
  ({} : Analyzer).analyze p [b]

/-- What the expressions of the body are typed against. -/
def env (p : Program) (b : Body) : Env :=
  { program := p, context := b.context.1 }

end Body

/-- Of the complaints, those behind the earlier ones are the new ones. -/
theorem Checker.drop_diagnostics {c c' : Checker} {events : List Event}
    (h : c'.log = c.log ++ events) :
    c'.diagnostics.drop c.findings.length =
      (events.filterMap Event.finding?).map Finding.diagnostic := by
  have hfindings : c'.findings = c.findings ++ events.filterMap Event.finding? := by
    rw [findings, h, List.filterMap_append, findings]
  rw [diagnostics, hfindings, ← List.map_drop, List.drop_left]

namespace Analyzer

variable {p : Program} {a a' : Analyzer} {b : Body} {bs bs' : List Body}

/-! ### One body -/

/-- Two analyses, from `a` to `x` and from `a'` to `y`, have the same result and add the same
    errors, and afterwards the same is known about the nodes in `S`.  About other nodes nothing is
    learned. -/
structure Alike (S : NodeId → Prop) (a a' : Analyzer)
    (x y : Except AnalysisFailure Unit × Analyzer) : Prop where
  result : x.1 = y.1
  errors : ∃ new, x.2.errors = a.errors ++ new ∧ y.2.errors = a'.errors ++ new
  same : x.2.checker.SameOn S y.2.checker
  outside : ∀ id, ¬ S id → x.2.checker.typeOf? id = a.checker.typeOf? id

/-- What the analysis of a body does, if its class is declared. -/
theorem analyzeBody_eq (p : Program) (a : Analyzer) (b : Body) (hclass : ¬ b.isOrphan p) :
    a.analyzeBody p b =
      let c := (a.note (.analyzing b.qualifiedName)).checker
      match (checkExprs (b.env p) b.exprs).run c with
      | (.error failure, c') => (.error ⟨b.qualifiedName, failure⟩, ⟨c', a.errors ++ b.context.2⟩)
      | (.ok _, c') =>
        (.ok (), ⟨c', a.errors ++ b.context.2 ++
          (c'.diagnostics.drop c.findings.length).map .diagnostic⟩) := by
  rcases hrun : (checkExprs (b.env p) b.exprs).run
    (a.note (.analyzing b.qualifiedName)).checker with ⟨r, c'⟩
  have hall : (a.note (.analyzing b.qualifiedName)).checker.checkAll
      { program := p, context := b.context.1 } b.exprs = (r, c') := hrun
  simp only [analyzeBody, hclass, Bool.false_eq_true, if_false, add, hall, hrun]
  cases r <;> rfl

/-- **Frame.** Where the same is known about the nodes of a body, its analysis does the same. -/
theorem alike_analyzeBody (p : Program) (b : Body) (h : a.checker.SameOn b.Owns a'.checker) :
    Alike b.Owns a a' (a.analyzeBody p b) (a'.analyzeBody p b) := by
  by_cases horphan : b.isOrphan p
  · simp only [analyzeBody, horphan, if_true]
    exact ⟨rfl, ⟨_, rfl, rfl⟩, h, fun _ _ => rfl⟩
  · have hlocal : Local b.Owns (checkExprs (b.env p) b.exprs) :=
      local_checkExprs _ fun e he s hs id hid => ⟨s, ⟨e, he, hs⟩, hid⟩
    -- the note that the body is analysed changes nothing in what is known
    have hruns :=
      hlocal (a.note (.analyzing b.qualifiedName)).checker
        (a'.note (.analyzing b.qualifiedName)).checker h
    rw [analyzeBody_eq p a b horphan, analyzeBody_eq p a' b horphan]
    dsimp only
    rcases hc : (checkExprs (b.env p) b.exprs).run
      (a.note (.analyzing b.qualifiedName)).checker with ⟨r, c⟩
    rcases hd : (checkExprs (b.env p) b.exprs).run
      (a'.note (.analyzing b.qualifiedName)).checker with ⟨r', d⟩
    rw [hc, hd] at hruns
    obtain rfl : r = r' := hruns.result
    obtain ⟨events, hlogc, hlogd⟩ := hruns.log
    cases r with
    | error failure => exact ⟨rfl, ⟨b.context.2, rfl, rfl⟩, hruns.same, hruns.outside⟩
    | ok types =>
      dsimp only at hlogc hlogd ⊢
      rw [Checker.drop_diagnostics hlogc, Checker.drop_diagnostics hlogd, List.append_assoc,
        List.append_assoc]
      exact ⟨rfl, ⟨_, rfl, rfl⟩, hruns.same, hruns.outside⟩

theorem analyzeBodies_singleton (p : Program) (a : Analyzer) (b : Body) :
    a.analyzeBodies p [b] = a.analyzeBody p b := by
  rw [analyzeBodies]
  rcases a.analyzeBody p b with ⟨_ | _, _⟩ <;> rfl

/-- Where the hierarchy is valid, a body that is alone is analysed at once. -/
theorem alone_eq (hvalid : p.hierarchyErrors = []) (b : Body) :
    b.alone p = (({} : Analyzer).note .validating).analyzeBody p b := by
  rw [Body.alone, analyze, hvalid]
  exact analyzeBodies_singleton p _ b

/-- **Step.** A body whose nodes are new has the result, the errors and the types that it has
    alone. -/
theorem analyzeBody_eq_alone (hvalid : p.hierarchyErrors = [])
    (hnew : ∀ id, b.Owns id → a.checker.typeOf? id = none) :
    (a.analyzeBody p b).1 = (b.alone p).1 ∧
      (a.analyzeBody p b).2.errors = a.errors ++ (b.alone p).2.errors ∧
      (a.analyzeBody p b).2.checker.SameOn b.Owns (b.alone p).2.checker ∧
      ∀ id, ¬ b.Owns id → (a.analyzeBody p b).2.checker.typeOf? id = a.checker.typeOf? id := by
  -- an analyzer that has seen nothing knows as little about the nodes, and has no errors of its own
  have hfresh : a.checker.SameOn b.Owns (({} : Analyzer).note .validating).checker := hnew
  have halike := alike_analyzeBody p b hfresh
  rw [← alone_eq hvalid] at halike
  obtain ⟨new, herrors, halone⟩ := halike.errors
  have hempty : (b.alone p).2.errors = new := halone
  exact ⟨halike.result, by rw [herrors, hempty], halike.same, halike.outside⟩

/-! ### Several bodies -/

/-- Nothing is known about the nodes of the bodies. -/
def Unseen (a : Analyzer) (bs : List Body) : Prop :=
  ∀ b ∈ bs, ∀ id, b.Owns id → a.checker.typeOf? id = none

theorem unseen_start (bs : List Body) : (({} : Analyzer).note .validating).Unseen bs :=
  fun _ _ _ _ => rfl

/-- The nodes of other bodies are as new after the analysis of a body as before. -/
theorem Unseen.tail {a₁ : Analyzer} (hnew : a.Unseen (b :: bs)) (hapart : ∀ b' ∈ bs, b.Apart b')
    (houtside : ∀ id, ¬ b.Owns id → a₁.checker.typeOf? id = a.checker.typeOf? id) :
    a₁.Unseen bs := by
  intro b' hb' id hid
  rw [houtside id fun hown => hapart b' hb' id hown hid]
  exact hnew b' (List.mem_cons_of_mem b hb') id hid

theorem analyzeBodies_cons_ok {a₁ : Analyzer} (h : a.analyzeBody p b = (.ok (), a₁)) :
    a.analyzeBodies p (b :: bs) = a₁.analyzeBodies p bs := by
  rw [analyzeBodies, h]

theorem analyzeBodies_cons_error {a₁ : Analyzer} {f : AnalysisFailure}
    (h : a.analyzeBody p b = (.error f, a₁)) : a.analyzeBodies p (b :: bs) = (.error f, a₁) := by
  rw [analyzeBodies, h]

theorem analyzeBodies_append_ok {a₁ : Analyzer} (h : a.analyzeBodies p bs = (.ok (), a₁)) :
    a.analyzeBodies p (bs ++ bs') = a₁.analyzeBodies p bs' := by
  induction bs generalizing a with
  | nil =>
    cases h
    rfl
  | cons b bs ih =>
    rcases hb : a.analyzeBody p b with ⟨f | _, a₂⟩
    · rw [analyzeBodies_cons_error hb] at h
      cases h
    · rw [analyzeBodies_cons_ok hb] at h
      rw [List.cons_append, analyzeBodies_cons_ok hb, ih h]

/-- **Run.** Bodies without common nodes, which are all new, have the results, the errors and the
    types that they have alone, one after the other. -/
theorem analyzeBodies_apart (hvalid : p.hierarchyErrors = []) (hapart : bs.Pairwise Body.Apart)
    (hok : ∀ b ∈ bs, (b.alone p).1 = .ok ()) (hnew : a.Unseen bs) :
    ∃ a₁, a.analyzeBodies p bs = (.ok (), a₁) ∧
      a₁.errors = a.errors ++ bs.flatMap (·.alone p |>.2.errors) ∧
      (∀ b ∈ bs, a₁.checker.SameOn b.Owns (b.alone p).2.checker) ∧
      ∀ id, (∀ b ∈ bs, ¬ b.Owns id) → a₁.checker.typeOf? id = a.checker.typeOf? id := by
  induction bs generalizing a with
  | nil => exact ⟨a, rfl, by simp, by simp, fun _ _ => rfl⟩
  | cons b bs ih =>
    obtain ⟨hfirst, hrest⟩ := List.pairwise_cons.1 hapart
    obtain ⟨hres, herrors, hsame, houtside⟩ :=
      analyzeBody_eq_alone hvalid (hnew b List.mem_cons_self)
    rw [hok b List.mem_cons_self] at hres
    rcases hb : a.analyzeBody p b with ⟨r, a₂⟩
    rw [hb] at hres herrors hsame houtside
    obtain rfl : r = .ok () := hres
    obtain ⟨a₁, hrun, herrors₁, hsame₁, houtside₁⟩ :=
      ih hrest (fun b' hb' => hok b' (List.mem_cons_of_mem b hb')) (hnew.tail hfirst houtside)
    refine ⟨a₁, by rw [analyzeBodies_cons_ok hb, hrun], ?_, fun b' hb' => ?_, fun id hid => ?_⟩
    · rw [herrors₁, herrors, List.flatMap_cons, List.append_assoc]
    · rcases List.mem_cons.1 hb' with rfl | hb'
      · -- what is known about the nodes of the first body is not touched any more
        intro id hown
        rw [houtside₁ id fun b'' hb'' => hfirst b'' hb'' id hown]
        exact hsame id hown
      · exact hsame₁ b' hb'
    · rw [houtside₁ id fun b' hb' => hid b' (List.mem_cons_of_mem b hb'),
        houtside id (hid b List.mem_cons_self)]

/-- Where a body has its turn after bodies that did not fail, its nodes are new. -/
theorem exists_before (hvalid : p.hierarchyErrors = [])
    (hapart : (bs ++ b :: bs').Pairwise Body.Apart) (hok : ∀ b' ∈ bs, (b'.alone p).1 = .ok ()) :
    ∃ a₁, (({} : Analyzer).note .validating).analyzeBodies p bs = (.ok (), a₁) ∧
      ∀ id, b.Owns id → a₁.checker.typeOf? id = none := by
  obtain ⟨hbefore, _, hcross⟩ := List.pairwise_append.1 hapart
  obtain ⟨a₁, hrun, _, _, houtside⟩ :=
    analyzeBodies_apart (a := ({} : Analyzer).note .validating) hvalid hbefore hok (unseen_start bs)
  refine ⟨a₁, hrun, fun id hown => ?_⟩
  exact houtside id fun b' hb' hown' => hcross b' hb' b List.mem_cons_self id hown' hown

/-- The same for a whole analysis.  Afterwards nothing is known about nodes that belong to no
    body. -/
theorem analyze_apart (hvalid : p.hierarchyErrors = []) (hapart : bs.Pairwise Body.Apart)
    (hok : ∀ b ∈ bs, (b.alone p).1 = .ok ()) :
    (({} : Analyzer).analyze p bs).1 = .ok () ∧
      (({} : Analyzer).analyze p bs).2.errors =
        (sortByRank (Body.rank p) bs).flatMap (·.alone p |>.2.errors) ∧
      (∀ b ∈ bs, (({} : Analyzer).analyze p bs).2.checker.SameOn b.Owns (b.alone p).2.checker) ∧
      ∀ id, (∀ b ∈ bs, ¬ b.Owns id) →
        (({} : Analyzer).analyze p bs).2.checker.typeOf? id = none := by
  -- the bodies are taken in another order, which neither separates nor joins them
  have hsorted : (sortByRank (Body.rank p) bs).Perm bs := sortByRank_perm _ bs
  obtain ⟨a₁, hrun, herrors, hsame, houtside⟩ :=
    analyzeBodies_apart (a := ({} : Analyzer).note .validating) hvalid
      (hsorted.symm.pairwise hapart Body.Apart.symm) (fun b hb => hok b (hsorted.mem_iff.1 hb))
      (unseen_start _)
  rw [analyze, hvalid]
  dsimp only
  rw [hrun]
  refine ⟨rfl, herrors, fun b hb => hsame b (hsorted.mem_iff.2 hb), fun id hid => ?_⟩
  exact houtside id fun b hb => hid b (hsorted.mem_iff.1 hb)

/-- **Order.** Another order gives the same errors, perhaps in another order, and the same types. -/
theorem analyze_perm (hvalid : p.hierarchyErrors = []) (hapart : bs.Pairwise Body.Apart)
    (hok : ∀ b ∈ bs, (b.alone p).1 = .ok ()) (hperm : bs'.Perm bs) :
    (({} : Analyzer).analyze p bs').1 = .ok () ∧
      (({} : Analyzer).analyze p bs').2.errors.Perm (({} : Analyzer).analyze p bs).2.errors ∧
      ∀ id, (({} : Analyzer).analyze p bs').2.checker.typeOf? id =
        (({} : Analyzer).analyze p bs).2.checker.typeOf? id := by
  obtain ⟨_, herrors, hsame, houtside⟩ := analyze_apart hvalid hapart hok
  obtain ⟨hres', herrors', hsame', houtside'⟩ :=
    analyze_apart hvalid (hperm.symm.pairwise hapart Body.Apart.symm)
      fun b hb => hok b (hperm.mem_iff.1 hb)
  refine ⟨hres', ?_, fun id => ?_⟩
  · rw [herrors, herrors']
    exact (((sortByRank_perm _ bs').trans hperm).trans (sortByRank_perm _ bs).symm).flatMap_right _
  · -- a node belongs to a body, and gets what that body alone gives it, or to none
    by_cases hid : ∃ b ∈ bs, b.Owns id
    · obtain ⟨b, hb, hown⟩ := hid
      rw [hsame b hb id hown, hsame' b (hperm.mem_iff.2 hb) id hown]
    · have hnone : ∀ b ∈ bs, ¬ b.Owns id := fun b hb hown => hid ⟨b, hb, hown⟩
      rw [houtside id hnone, houtside' id fun b hb => hnone b (hperm.mem_iff.1 hb)]

/-! ### Bodies that fail -/

/-- A well-formed body does not fail, if everything that it may refer to has a type. -/
theorem alone_eq_ok (hvalid : p.hierarchyErrors = []) (hshare : Coherent b.Has)
    (htypes : (b.env p).Complete) (hwell : ∀ e ∈ b.exprs, e.WellFormed) :
    (b.alone p).1 = .ok () := by
  rw [alone_eq hvalid]
  by_cases horphan : b.isOrphan p
  · simp only [analyzeBody, horphan, if_true]
  · have hhas : ∀ e ∈ b.exprs, b.Has e := fun e he => ⟨e, he, .self⟩
    rw [analyzeBody_eq p _ b horphan]
    dsimp only
    split
    · rename_i failure c hrun
      -- a checker that only has notes on record knows as little as one that has seen nothing
      have hsound :
          ((({} : Analyzer).note .validating).note (.analyzing b.qualifiedName)).checker.Sound
            b.Has :=
        Checker.sound_empty
      obtain ⟨⟨e, he, hbad⟩, _⟩ := Checker.malformed_of_run_checkExprs hshare htypes hhas
        (fun e he => Checker.failsAsMalformed hshare htypes e (hhas e he)) hsound
          (congrArg Prod.fst hrun)
      exact absurd (hwell e he) hbad
    · rfl

/-- Bodies that are analysed one after the other without a failure do not fail alone. -/
theorem alone_ok_of_analyzeBodies_ok (hvalid : p.hierarchyErrors = [])
    (hapart : bs.Pairwise Body.Apart) (hnew : a.Unseen bs) (h : (a.analyzeBodies p bs).1 = .ok ()) :
    ∀ b ∈ bs, (b.alone p).1 = .ok () := by
  induction bs generalizing a with
  | nil => simp
  | cons b bs ih =>
    obtain ⟨hfirst, hrest⟩ := List.pairwise_cons.1 hapart
    obtain ⟨hres, _, _, houtside⟩ := analyzeBody_eq_alone hvalid (hnew b List.mem_cons_self)
    -- a body that fails would have ended the whole analysis
    rcases hb : a.analyzeBody p b with ⟨f | _, a₁⟩
    · rw [analyzeBodies_cons_error hb] at h
      cases h
    · rw [hb] at hres houtside
      rw [analyzeBodies_cons_ok hb] at h
      intro b' hb'
      rcases List.mem_cons.1 hb' with rfl | hb'
      · exact hres.symm
      · exact ih hrest (hnew.tail hfirst houtside) h b' hb'

/-- **Failures.** An analysis fails exactly if one of the bodies fails alone. -/
theorem analyze_eq_ok_iff (hvalid : p.hierarchyErrors = []) (hapart : bs.Pairwise Body.Apart) :
    (({} : Analyzer).analyze p bs).1 = .ok () ↔ ∀ b ∈ bs, (b.alone p).1 = .ok () := by
  constructor
  · intro h b hb
    have hsorted : (sortByRank (Body.rank p) bs).Perm bs := sortByRank_perm _ bs
    rw [analyze, hvalid] at h
    exact alone_ok_of_analyzeBodies_ok hvalid (hsorted.symm.pairwise hapart Body.Apart.symm)
      (unseen_start _) h b (hsorted.mem_iff.2 hb)
  · intro hok
    exact (analyze_apart hvalid hapart hok).1

end Analyzer

/-- What is known about the nodes of a body, node by node. -/
theorem Checker.SameOn.known?_eq {b : Body} {c d : Checker} (h : c.SameOn b.Owns d) {s : Expr}
    (hs : b.Has s) : c.known? s = d.known? s := by
  cases hid : s.id? with
  | none => rw [known?, known?, hid, Option.bind_none, Option.bind_none]
  | some id => rw [Checker.known?_eq hid, Checker.known?_eq hid, h id ⟨s, hs, hid⟩]

/-- **Bodies are analysed independently.** Take a program with a valid hierarchy, and bodies that
    are well-formed and have no nodes in common.

    Consider a body in its turn, after others that did not fail.  It has the result that it has
    alone, adds the errors that it has alone, and its nodes get the types that they get alone; if it
    fails, the analysis ends there.  The analysis fails only if a body fails alone, and no body does
    if its nodes are told apart by their numbers and what it may refer to has a type.  If it does
    not fail, the errors are those of the single bodies in the order of their turns, and all nodes
    have the types that they have where their body is alone.  Any other order of the bodies then
    gives the same error texts, perhaps in another order, and the same types. -/
theorem bodies_independent (p : Program) (hvalid : p.hierarchyErrors = []) (bodies : List Body)
    (hwell : ∀ b ∈ bodies, ∀ e ∈ b.exprs, e.WellFormed) (hapart : bodies.Pairwise Body.Apart) :
    let start := ({} : Analyzer)
    (∀ pre b post, sortByRank (Body.rank p) bodies = pre ++ b :: post →
        (∀ b' ∈ pre, (b'.alone p).1 = .ok ()) →
        let before := ((start.note .validating).analyzeBodies p pre).2
        let after := before.analyzeBody p b
        after.1 = (b.alone p).1 ∧ after.2.errors = before.errors ++ (b.alone p).2.errors ∧
          (∀ s, b.Has s → after.2.checker.known? s = (b.alone p).2.checker.known? s) ∧
          ((b.alone p).1 ≠ .ok () → start.analyze p bodies = after)) ∧
      ((start.analyze p bodies).1 = .ok () ↔ ∀ b ∈ bodies, (b.alone p).1 = .ok ()) ∧
      (∀ b ∈ bodies, Coherent b.Has → (b.env p).Complete → (b.alone p).1 = .ok ()) ∧
      ((start.analyze p bodies).1 = .ok () →
        (start.analyze p bodies).2.errors =
          (sortByRank (Body.rank p) bodies).flatMap (·.alone p |>.2.errors) ∧
          (∀ b ∈ bodies, ∀ s, b.Has s →
            (start.analyze p bodies).2.checker.known? s = (b.alone p).2.checker.known? s) ∧
          ∀ others : List Body, others.Perm bodies →
            (start.analyze p others).1 = .ok () ∧
              ((start.analyze p others).2.errors.map AnalysisError.message).Perm
                ((start.analyze p bodies).2.errors.map AnalysisError.message) ∧
              ∀ id, (start.analyze p others).2.checker.typeOf? id =
                (start.analyze p bodies).2.checker.typeOf? id) := by
  intro start
  have hiff := Analyzer.analyze_eq_ok_iff hvalid hapart
  refine ⟨fun pre b post hsplit hpre => ?_, hiff, fun b hb hshare htypes => ?_, fun hrun => ?_⟩
  · intro before after
    have hturns : (pre ++ b :: post).Pairwise Body.Apart :=
      hsplit ▸ (sortByRank_perm _ bodies).symm.pairwise hapart Body.Apart.symm
    obtain ⟨a₁, hbefore, hnew⟩ := Analyzer.exists_before hvalid hturns hpre
    have ha₁ : before = a₁ := congrArg Prod.snd hbefore
    obtain ⟨hres, herrors, hsame, _⟩ :=
      Analyzer.analyzeBody_eq_alone (a := before) hvalid (ha₁ ▸ hnew)
    refine ⟨hres, herrors, fun s hs => hsame.known?_eq hs, fun hfails => ?_⟩
    rw [Analyzer.analyze, hvalid]
    dsimp only
    rw [hsplit, Analyzer.analyzeBodies_append_ok hbefore, ← ha₁]
    -- the bodies after one that fails are not looked at
    rcases hafter : after with ⟨f | _, a₂⟩
    · exact Analyzer.analyzeBodies_cons_error hafter
    · exact absurd (hres.symm.trans (congrArg Prod.fst hafter)) hfails
  · exact Analyzer.alone_eq_ok hvalid hshare htypes (hwell b hb)
  · have hok := hiff.1 hrun
    obtain ⟨_, herrors, hsame, _⟩ := Analyzer.analyze_apart hvalid hapart hok
    refine ⟨herrors, fun b hb s hs => (hsame b hb).known?_eq hs, fun others hperm => ?_⟩
    obtain ⟨hres, hmessages, htypes⟩ := Analyzer.analyze_perm hvalid hapart hok hperm
    exact ⟨hres, hmessages.map _, htypes⟩

/-- A method, with a parameter that is declared twice, adds a number that it inherits to that
    parameter.  A function, which is listed after the method and has its turn before it, uses a
    variable of the same name that is not declared there.  In either order there are the three
    errors that the bodies have alone. -/
theorem method_and_function_independent :
    let p :=
      Program.ofDecls [.class_ "B" (some "A") [], .class_ "A" none [], .field "A" "x" (some .int)]
    let plus : Token := { kind := .mark .plus, literal := "+", pos := .start }
    let x : Expr := .member 0 .unqualified (some ⟨"x", ⟨"x", .start⟩⟩)
    let y : Expr := .member 1 .unqualified (some ⟨"y", ⟨"y", .start⟩⟩)
    let sum : Expr := .compound 2 .arithmetic (some plus) x y
    let other : Expr := .member 3 .unqualified (some ⟨"x", ⟨"x", .start⟩⟩)
    let method : Body := ⟨some "B", "m", [⟨"y", some .bool⟩, ⟨"y", some .int⟩], [], [sum]⟩
    let main : Body := ⟨none, "main", [], [], [other]⟩
    let start := ({} : Analyzer)
    (start.analyze p [method, main]).2.errors =
      (main.alone p).2.errors ++ (method.alone p).2.errors ∧
      (method.alone p).2.errors.length = 2 ∧
      (start.analyze p [method, main]).2.checker.known? x = some (some .int) ∧
      ((start.analyze p [main, method]).2.errors.map AnalysisError.message).Perm
        ((start.analyze p [method, main]).2.errors.map AnalysisError.message) := by
  intro p plus x y sum other method main start
  have hnodes : Coherent (· ∈ [sum, x, y]) :=
    coherent_of_list (by simp [sum, x, y, Expr.parts, Receiver.parts, Expr.isAbsent]) (by decide)
  have hothers : Coherent (· ∈ [other]) :=
    coherent_of_list (by simp [other, Expr.parts, Receiver.parts]) (by decide)
  have hapart : method.Apart main := by
    rintro id ⟨s, ⟨e, he, hs⟩, hid⟩ ⟨s', ⟨e', he', hs'⟩, hid'⟩
    obtain rfl : e = sum := by simpa [method] using he
    obtain rfl : e' = other := by simpa [main] using he'
    have hmem := hnodes.of_within List.mem_cons_self hs
    obtain rfl : s' = other := by simpa using hothers.of_within List.mem_cons_self hs'
    cases hid'
    rcases (by simpa using hmem : s = sum ∨ s = x ∨ s = y) with rfl | rfl | rfl <;>
      simp [sum, x, y, Expr.id?] at hid
  have hwell : ∀ b ∈ [method, main], ∀ e ∈ b.exprs, e.WellFormed := by
    have hsum : sum.WellFormed := .arithmetic (by decide) .bareName .bareName
    have hother : other.WellFormed := .bareName
    simp [method, main, hsum, hother]
  have hrun : (start.analyze p [method, main]).1 = .ok () := by decide +kernel
  have hturns : sortByRank (Body.rank p) [method, main] = [main, method] := by
    have hrank : ¬ method.rank p ≤ main.rank p := by decide +kernel
    simp [sortByRank, insertByRank, hrank]
  obtain ⟨_, _, _, hall⟩ :=
    bodies_independent p (by decide +kernel) [method, main] hwell (by simp [hapart])
  obtain ⟨herrors, hknown, hperm⟩ := hall hrun
  rw [hturns] at herrors
  refine ⟨by simpa using herrors, by decide +kernel, ?_, (hperm [main, method] (.swap _ _ _)).2.1⟩
  have hx : method.Has x := ⟨sum, List.mem_cons_self, .part (List.mem_cons_self (l := [y])) .self⟩
  exact (hknown method List.mem_cons_self x hx).trans (by decide +kernel)

end Decaf
