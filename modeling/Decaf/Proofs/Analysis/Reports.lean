import Decaf.Proofs.Analysis.Independence
import Decaf.Proofs.Program.Validity

namespace Decaf

/-!
# What an analysis reports

An analyzer is asked to analyse bodies again and again, and its errors pile up.  What a call adds to
them is said here: the errors of the hierarchy, or else those of the bodies, by the depth of their
classes.  The diagnostics among the errors are those of the checker, each of them once.

* `StableOrder` — elements by ascending key, those of one key in the order that they had, and
  `Body.stableOrder_sortByRank_iff`, that bodies are put in the only such order by depth.
* `Body.Below` — methods are below functions, and below the methods of the classes above their own.
* `declareAll_conflicts` — the conflicts among variables are about those with the name of an earlier
  one.
* `Analyzer.Handled`, `Analyzer.Handling` — what a body, and what bodies one after the other, add to
  the errors.
* `Analyzer.Call` — what a call adds, and `Analyzer.call_of_analyze`, that calls that go through do.
* `Analyzer.Accounted` — the diagnostics among the errors are those of the checker.
* `reported_once_in_order` — all of it, for any number of calls.
* `bodies_above_each_other` — classes that are linked in a circle are analysed though each is above
  the other.
-/

/-! ### Orders that keep the order -/

/-- The elements of `xs` by ascending key; those of one key are in the order in which `xs` has
    them. -/
structure StableOrder {α : Type} (key : α → Int) (xs ys : List α) : Prop where
  perm : ys.Perm xs
  ascending : ys.Pairwise (key · ≤ key ·)
  stable : ∀ k, ys.filter (key · = k) = xs.filter (key · = k)

section Order

variable {α : Type} {key : α → Int} {xs ys zs : List α}

/-- The first of an ascending list has no greater key than an element of a list with the same
    elements of each key. -/
theorem key_le_of_filter_eq {y z : α} (hys : (y :: ys).Pairwise (key · ≤ key ·))
    (hsame : ∀ k, (y :: ys).filter (key · = k) = (z :: zs).filter (key · = k)) : key y ≤ key z := by
  have hz : z ∈ (z :: zs).filter (key · = key z) := by simp
  rw [← hsame, List.mem_filter] at hz
  rcases List.mem_cons.1 hz.1 with rfl | hz
  · exact Int.le_refl _
  · exact (List.pairwise_cons.1 hys).1 z hz

/-- Ascending lists are the same if they have the same elements of each key in the same order. -/
theorem eq_of_filter_eq (hys : ys.Pairwise (key · ≤ key ·)) (hzs : zs.Pairwise (key · ≤ key ·))
    (hsame : ∀ k, ys.filter (key · = k) = zs.filter (key · = k)) : ys = zs := by
  induction ys generalizing zs with
  | nil =>
    cases zs with
    | nil => rfl
    | cons z zs => simpa using hsame (key z)
  | cons y ys ih =>
    cases zs with
    | nil => simpa using hsame (key y)
    | cons z zs =>
      have hkey : key y = key z :=
        Int.le_antisymm (key_le_of_filter_eq hys hsame)
          (key_le_of_filter_eq hzs fun k => (hsame k).symm)
      -- both are the first with the least key
      obtain rfl : y = z := by
        have hfirst := hsame (key z)
        simp only [List.filter_cons, hkey, decide_true, if_true] at hfirst
        exact (List.cons.inj hfirst).1
      refine congrArg (y :: ·)
        (ih (List.pairwise_cons.1 hys).2 (List.pairwise_cons.1 hzs).2 fun k => ?_)
      have hrest := hsame k
      rw [List.filter_cons, List.filter_cons] at hrest
      split at hrest
      · exact (List.cons.inj hrest).2
      · exact hrest

end Order

namespace Body

variable {p : Program} {a b : Body}

/-- Functions come before all depths, and methods have the depth of their class. -/
def depth (p : Program) (b : Body) : Int :=
  match b.cls with
  | none => -1
  | some cls => (p.hierarchy.ancestors cls).length

theorem depth_eq (p : Program) (b : Body) : b.depth p = b.rank p - 1 := by
  unfold depth rank
  cases b.cls with
  | none => rfl
  | some cls =>
    dsimp only [Hierarchy.depth]
    omega

/-- **Order.** Ordering bodies by rank puts them in the only order by depth that keeps the order of
    the bodies. -/
theorem stableOrder_sortByRank_iff (p : Program) (bodies order : List Body) :
    StableOrder (Body.depth p) bodies order ↔ order = sortByRank (Body.rank p) bodies := by
  have hsort : StableOrder (Body.depth p) bodies (sortByRank (Body.rank p) bodies) := by
    refine ⟨sortByRank_perm _ _, (pairwise_sortByRank _ _).imp fun hle => ?_, fun k => ?_⟩
    · rw [depth_eq, depth_eq]
      omega
    · by_cases hk : k < -1
      · -- there are no bodies of such a depth
        have hnone : ∀ b : Body, ¬ b.depth p = k := by
          intro b
          rw [depth_eq]
          omega
        simp [hnone]
      · have hrank : (fun b : Body => decide (b.depth p = k)) =
            fun b => decide (b.rank p = (k + 1).toNat) := by
          funext b
          rw [depth_eq, decide_eq_decide]
          omega
        rw [hrank, filter_sortByRank]
  constructor
  · intro h
    exact eq_of_filter_eq h.ascending hsort.ascending fun k =>
      (h.stable k).trans (hsort.stable k).symm
  · rintro rfl
    exact hsort

/-- The body `b` is that of a method, and `a` is a function, or a method of a class above that of
    `b`. -/
def Below (p : Program) (b a : Body) : Prop :=
  b.cls.any fun cls => a.cls.all fun above => above ∈ p.hierarchy.ancestors cls

instance : Decidable (b.Below p a) :=
  inferInstanceAs (Decidable (_ = true))

theorem below_iff :
    b.Below p a ↔ ∃ cls, b.cls = some cls ∧
      ∀ above, a.cls = some above → above ∈ p.hierarchy.ancestors cls := by
  simp [Below, Option.any_eq_true, Option.all_eq_true]

/-- A body has a greater depth than one that it is below, unless that is below it as well. -/
theorem Below.depth_lt (h : b.Below p a) (hback : ¬ a.Below p b) : a.depth p < b.depth p := by
  obtain ⟨cls, hcls, habove⟩ := below_iff.1 h
  rw [depth, depth, hcls]
  cases ha : a.cls with
  | none =>
    dsimp only
    omega
  | some above =>
    have hnot : cls ∉ p.hierarchy.ancestors above :=
      fun hmem => hback (by simp [Below, ha, hcls, hmem])
    exact Int.ofNat_lt.2 (Hierarchy.depth_lt_of_mem_ancestors (habove above ha) hnot)

/-- Where the hierarchy is valid, no two bodies are below each other. -/
theorem Below.asymm (hp : p.Valid) (h : b.Below p a) : ¬ a.Below p b := by
  obtain ⟨cls, hcls, habove⟩ := below_iff.1 h
  intro hback
  obtain ⟨above, ha, hbelow⟩ := below_iff.1 hback
  exact hp.not_mem_ancestors_of_mem (habove above ha) (hbelow cls hcls)

/-- In an order by depth, a body comes before one that it is below only if that is below it as
    well. -/
theorem below_of_stableOrder {bodies order : List Body}
    (h : StableOrder (Body.depth p) bodies order) :
    order.Pairwise fun first later => first.Below p later → later.Below p first := by
  refine h.ascending.imp fun hle hbelow => ?_
  by_contra hback
  have hlt := hbelow.depth_lt hback
  omega

end Body

/-! ### Conflicts -/

/-- The variables with the name of an earlier one. -/
def repeated (vs : List Param) : List Param :=
  (vs.zipIdx.filter fun (v, i) => (vs.take i).any (·.name = v.name)).map Prod.fst

/-- The conflicts among variables that a body declares. -/
def Body.conflicts (b : Body) (vs : List Param) : List AnalysisError :=
  (repeated vs).map fun v => .conflict b.qualifiedName (.nameTaken v.name)

/-- **Step.** A variable conflicts if its name is bound already, and in either case its name is
    bound afterwards. -/
theorem declareAll_cons (body : String) (scope : Scope) (v : Param) (vs : List Param) :
    ∃ scope' : Scope, (∀ n, (scope'.get? n).isSome ↔ n = v.name ∨ (scope.get? n).isSome) ∧
      (declareAll body scope (v :: vs)).2 =
        (if (scope.get? v.name).isSome then [.conflict body (.nameTaken v.name)] else []) ++
          (declareAll body scope' vs).2 := by
  have hcontains : scope.symbols.contains v.name = (scope.get? v.name).isSome := rfl
  rw [declareAll, Scope.declare, hcontains]
  by_cases htaken : (scope.get? v.name).isSome
  · refine ⟨scope, fun n => ⟨.inr, ?_⟩, by simp only [htaken, if_true]; rfl⟩
    rintro (rfl | hn)
    · exact htaken
    · exact hn
  · refine ⟨_, fun n => ?_, by simp only [htaken]; rfl⟩
    rw [Scope.get?, Dict.get?_insert, Scope.get?]
    by_cases hn : n = v.name <;> simp [hn]

/-- Where a scope binds the names of some variables, those that are declared next conflict with them
    and with each other. -/
theorem declareAll_conflicts_append (body : String) {scope : Scope} {earlier : List Param}
    (vs : List Param) (hscope : ∀ n, (scope.get? n).isSome ↔ ∃ v ∈ earlier, v.name = n) :
    (declareAll body scope vs).2 =
      ((vs.zipIdx earlier.length).filter fun (v, i) =>
        ((earlier ++ vs).take i).any (·.name = v.name)).map
        fun (v, _) => .conflict body (.nameTaken v.name) := by
  induction vs generalizing scope earlier with
  | nil => rfl
  | cons v vs ih =>
    obtain ⟨scope', hnames, herrors⟩ := declareAll_cons body scope v vs
    have hscope' : ∀ n, (scope'.get? n).isSome ↔ ∃ w ∈ earlier ++ [v], w.name = n := by
      intro n
      rw [hnames, hscope]
      simp only [List.mem_append, List.mem_singleton, or_and_right, exists_or, exists_eq_left]
      rw [or_comm, eq_comm]
    have hrest := ih hscope'
    rw [List.length_append, List.length_singleton, List.append_assoc,
      List.singleton_append] at hrest
    -- the variables before this one are those whose names the scope binds
    have hbound : ((earlier ++ v :: vs).take earlier.length).any (·.name = v.name) =
        (scope.get? v.name).isSome := by
      rw [List.take_left, Bool.eq_iff_iff, hscope]
      simp
    rw [herrors, hrest, List.zipIdx_cons, List.filter_cons]
    simp only [hbound]
    split <;> rfl

/-- **Conflicts.** The variables of a body that conflict are those with the name of an earlier
    one. -/
theorem declareAll_conflicts (b : Body) (kind : SymbolKind) (vs : List Param) :
    (declareAll b.qualifiedName { kind := kind } vs).2 = b.conflicts vs := by
  have hnone : ∀ n, (({ kind := kind } : Scope).get? n).isSome ↔
      ∃ v ∈ ([] : List Param), v.name = n := by
    intro n
    simp [Scope.get?, Dict.get?_empty]
  rw [declareAll_conflicts_append b.qualifiedName vs hnone, Body.conflicts, repeated, List.map_map]
  rfl

theorem Body.conflicts_context (b : Body) :
    b.context.2 = b.conflicts b.formals ++ b.conflicts b.locals := by
  rw [← declareAll_conflicts b .parameter, ← declareAll_conflicts b .local_]
  rfl

/-! ### What a body adds -/

/-- The diagnostic that an error passes on. -/
def AnalysisError.diagnostic? : AnalysisError → Option Diagnostic
  | diagnostic d => some d
  | _ => none

namespace Analyzer

variable {p : Program} {a a' : Analyzer} {b : Body} {bs bodies : List Body}

/-- A note that is no complaint leaves the diagnostics as they are. -/
theorem diagnostics_note {e : Event} (he : e.finding? = none) (a : Analyzer) :
    (a.note e).checker.diagnostics = a.checker.diagnostics := by
  simp [note, Checker.record, Checker.diagnostics, Checker.findings, he]

/-- What the analysis of a body that goes through adds to the errors, and to what the checker
    knows. -/
inductive Handled (p : Program) (b : Body) (a a' : Analyzer) : Prop
  /-- The class of the method is not declared. -/
  | orphan {cls : String} (hcls : b.cls = some cls) (hnone : p.class? cls = none)
      (herrors : a'.errors = a.errors ++ [.orphan b.name cls])
      (htypes : a'.checker.types = a.checker.types)
      (hdiagnostics : a'.checker.diagnostics = a.checker.diagnostics)
  /-- The expressions are typed, and the checker has `new` complaints about them. -/
  | typed {types : List (Option Ty)} {new : List Diagnostic}
      (hclass : ∀ cls, b.cls = some cls → p.class? cls ≠ none)
      (hrun : (a.note (.analyzing b.qualifiedName)).checker.checkAll
        (b.env p) b.exprs = (.ok types, a'.checker))
      (hdiagnostics : a'.checker.diagnostics = a.checker.diagnostics ++ new)
      (herrors : a'.errors = a.errors ++
        (b.conflicts b.formals ++ b.conflicts b.locals ++ new.map AnalysisError.diagnostic))

/-- What bodies add one after the other. -/
inductive Handling (p : Program) : List Body → Analyzer → Analyzer → Prop
  | done {a : Analyzer} : Handling p [] a a
  | next {b : Body} {bs : List Body} {a a₁ a' : Analyzer} (first : Handled p b a a₁)
      (rest : Handling p bs a₁ a') : Handling p (b :: bs) a a'

/-- A body is an orphan if its class is not declared. -/
theorem isOrphan_iff : b.isOrphan p ↔ ∃ cls, b.cls = some cls ∧ p.class? cls = none := by
  rw [Body.isOrphan, Option.any_eq_true]
  refine exists_congr fun cls => and_congr_right fun _ => ?_
  rw [Bool.not_eq_true', Dict.contains_eq_false_iff]
  rfl

/-- **Step.** What the analysis of a body does. -/
theorem handled_of_analyzeBody (h : a.analyzeBody p b = (.ok (), a')) : Handled p b a a' := by
  by_cases horphan : b.isOrphan p
  · obtain ⟨cls, hcls, hnone⟩ := isOrphan_iff.1 horphan
    simp only [analyzeBody, horphan, if_true, hcls, Option.getD_some, Prod.mk.injEq, true_and] at h
    subst h
    exact .orphan hcls hnone rfl rfl (diagnostics_note rfl a)
  · have hclass : ∀ cls, b.cls = some cls → p.class? cls ≠ none :=
      fun cls hcls hnone => horphan (isOrphan_iff.2 ⟨cls, hcls, hnone⟩)
    rw [analyzeBody_eq p a b horphan] at h
    dsimp only at h
    have hprefix :=
      findings_isPrefix_run_checkExprs (b.env p) b.exprs
        (a.note (.analyzing b.qualifiedName)).checker
    rcases hrun : (checkExprs (b.env p) b.exprs).run
      (a.note (.analyzing b.qualifiedName)).checker with ⟨_ | types, c'⟩
    · rw [hrun] at h
      cases h
    · rw [hrun] at h hprefix
      cases h
      -- the complaints that are new are those behind the ones that were known
      have hnew : c'.diagnostics = a.checker.diagnostics ++
          c'.diagnostics.drop (a.note (.analyzing b.qualifiedName)).checker.findings.length := by
        obtain ⟨new, hfindings⟩ := hprefix
        rw [← diagnostics_note (e := .analyzing b.qualifiedName) rfl a, Checker.diagnostics,
          Checker.diagnostics, ← hfindings, ← List.map_drop, List.drop_left, List.map_append]
      refine .typed hclass hrun hnew ?_
      rw [Body.conflicts_context, List.append_assoc]

/-- **Run.** What the analysis of bodies one after the other does. -/
theorem handling_of_analyzeBodies (h : a.analyzeBodies p bs = (.ok (), a')) :
    Handling p bs a a' := by
  induction bs generalizing a with
  | nil =>
    cases h
    exact .done
  | cons b bs ih =>
    rcases hb : a.analyzeBody p b with ⟨f | _, a₁⟩
    · rw [analyzeBodies_cons_error hb] at h
      cases h
    · rw [analyzeBodies_cons_ok hb] at h
      exact .next (handled_of_analyzeBody hb) (ih h)

/-! ### What calls add -/

/-- The analyzer after calls, if they all go through.  Each is about a program, which may be another
    one every time. -/
def afterCalls? : Analyzer → List (Program × List Body) → Option Analyzer
  | a, [] => some a
  | a, (p, bodies) :: calls =>
    match a.analyze p bodies with
    | (.ok _, a) => a.afterCalls? calls
    | (.error _, _) => none

theorem afterCalls?_append (a : Analyzer) (calls calls' : List (Program × List Body)) :
    a.afterCalls? (calls ++ calls') = (a.afterCalls? calls).bind (·.afterCalls? calls') := by
  induction calls generalizing a with
  | nil => rfl
  | cons call calls ih =>
    obtain ⟨p, bodies⟩ := call
    rw [List.cons_append, afterCalls?, afterCalls?]
    rcases a.analyze p bodies with ⟨_ | _, a₁⟩
    · rfl
    · exact ih a₁

/-- What a call that goes through does.

    If the hierarchy is wrong, that is all that is reported, and the checker is not asked.  Else the
    bodies are handled in the one order by depth that keeps their order within each depth.  There a
    body comes before one that it is below only if that is below it in turn, and in a program that
    is built by declarations it never does. -/
structure Call (p : Program) (bodies : List Body) (a a' : Analyzer) : Prop where
  invalid : p.hierarchyErrors ≠ [] → a'.errors = a.errors ++ p.hierarchyErrors.map .hierarchy ∧
    a'.checker.types = a.checker.types ∧ a'.checker.diagnostics = a.checker.diagnostics
  valid : p.hierarchyErrors = [] → ∃ order, (∀ l, StableOrder (Body.depth p) bodies l ↔ l = order) ∧
    Handling p order (a.note .validating) a' ∧
    (order.Pairwise fun first second => first.Below p second → second.Below p first) ∧
    ((∃ ds, p = .ofDecls ds) → order.Pairwise fun first second => ¬ first.Below p second)

theorem call_of_analyze (h : a.analyze p bodies = (.ok (), a')) : Call p bodies a a' where
  invalid hwrong := by
    unfold analyze at h
    cases herrors : p.hierarchyErrors with
    | nil => exact absurd herrors hwrong
    | cons e es =>
      simp only [herrors, Prod.mk.injEq, true_and] at h
      subst h
      exact ⟨rfl, rfl, diagnostics_note rfl a⟩
  valid hvalid := by
    simp only [analyze, hvalid] at h
    have hsole := Body.stableOrder_sortByRank_iff p bodies
    have hbelow := Body.below_of_stableOrder ((hsole _).2 rfl)
    refine ⟨_, hsole, handling_of_analyzeBodies h, hbelow, ?_⟩
    rintro ⟨ds, rfl⟩
    have hp : (Program.ofDecls ds).Valid := ⟨Program.lawful_ofDecls ds, hvalid⟩
    exact hbelow.imp fun hback hfirst => hfirst.asymm hp (hback hfirst)

/-- Each of the calls is one that goes through, from what the earlier ones left to what the later
    ones start with. -/
theorem call_of_afterCalls? {earlier later : List (Program × List Body)}
    (h : a.afterCalls? (earlier ++ (p, bodies) :: later) = some a') :
    ∃ before after, a.afterCalls? earlier = some before ∧
      before.analyze p bodies = (.ok (), after) ∧ after.afterCalls? later = some a' := by
  rw [afterCalls?_append] at h
  obtain ⟨before, hbefore, hlater⟩ := Option.bind_eq_some_iff.1 h
  rw [afterCalls?] at hlater
  rcases hcall : before.analyze p bodies with ⟨_ | _, after⟩
  · rw [hcall] at hlater
    cases hlater
  · rw [hcall] at hlater
    exact ⟨before, after, hbefore, hcall, hlater⟩

/-! ### Accounts -/

/-- The diagnostics among the errors are those of the checker, in the same order. -/
def Accounted (a : Analyzer) : Prop :=
  a.errors.filterMap AnalysisError.diagnostic? = a.checker.diagnostics

theorem accounted_start : ({} : Analyzer).Accounted := rfl

theorem Accounted.note (h : a.Accounted) {e : Event} (he : e.finding? = none) :
    (a.note e).Accounted :=
  Eq.trans h (diagnostics_note he a).symm

/-- Conflicts are no diagnostics. -/
theorem filterMap_conflicts (b : Body) (vs : List Param) :
    (b.conflicts vs).filterMap AnalysisError.diagnostic? = [] := by
  simp [Body.conflicts, List.filterMap_map, Function.comp_def, AnalysisError.diagnostic?]

theorem filterMap_diagnostics (ds : List Diagnostic) :
    (ds.map AnalysisError.diagnostic).filterMap AnalysisError.diagnostic? = ds := by
  simp [List.filterMap_map, Function.comp_def, AnalysisError.diagnostic?]

/-- **Step.** A body passes on all that the checker says about it. -/
theorem Handled.accounted (h : Handled p b a a') (ha : a.Accounted) : a'.Accounted := by
  unfold Accounted at *
  cases h with
  | orphan _ _ herrors _ hdiagnostics =>
    rw [herrors, List.filterMap_append, ha, hdiagnostics]
    exact List.append_nil _
  | typed _ _ hdiagnostics herrors =>
    rw [herrors, hdiagnostics, List.filterMap_append, List.filterMap_append, List.filterMap_append,
      filterMap_conflicts, filterMap_conflicts, filterMap_diagnostics, ha]
    rfl

/-- **Run.** So do bodies one after the other. -/
theorem Handling.accounted (h : Handling p bs a a') (ha : a.Accounted) : a'.Accounted := by
  induction h with
  | done => exact ha
  | next first _ ih => exact ih (first.accounted ha)

/-- Errors of the hierarchy are not the checker's. -/
theorem Call.accounted (h : Call p bodies a a') (ha : a.Accounted) : a'.Accounted := by
  by_cases hvalid : p.hierarchyErrors = []
  · obtain ⟨order, _, hhandling, _⟩ := h.valid hvalid
    exact hhandling.accounted (ha.note rfl)
  · obtain ⟨herrors, _, hdiagnostics⟩ := h.invalid hvalid
    unfold Accounted at *
    rw [herrors, hdiagnostics, List.filterMap_append, ha, List.filterMap_map]
    simp [Function.comp_def, AnalysisError.diagnostic?]

/-- **Calls.** After any number of calls nothing that the checker says is lost or repeated. -/
theorem accounted_of_afterCalls? {calls : List (Program × List Body)} (ha : a.Accounted)
    (h : a.afterCalls? calls = some a') : a'.Accounted := by
  induction calls generalizing a with
  | nil =>
    cases h
    exact ha
  | cons call calls ih =>
    obtain ⟨p, bodies⟩ := call
    rw [afterCalls?] at h
    rcases hcall : a.analyze p bodies with ⟨_ | _, a₁⟩
    · rw [hcall] at h
      cases h
    · rw [hcall] at h
      exact ih ((call_of_analyze hcall).accounted ha) h

end Analyzer

/-- **Everything is reported once, and in order.** Take a new analyzer after any number of calls
    that go through, each about a program of its own.

    The diagnostics among its errors are, line by line, those of its checker.  To what the earlier
    calls left, each call has added what is wrong with the hierarchy, if anything is.  Else the
    bodies, by depth, have each added that the class is not declared, or the conflicts among the
    parameters, then those among the locals, then the new complaints of the checker. -/
theorem reported_once_in_order (calls : List (Program × List Body)) (a : Analyzer)
    (h : ({} : Analyzer).afterCalls? calls = some a) :
    (a.errors.filterMap AnalysisError.diagnostic?).map Diagnostic.text =
      a.checker.diagnostics.messages ∧
      ∀ earlier p bodies later, calls = earlier ++ (p, bodies) :: later →
        ∃ before after, ({} : Analyzer).afterCalls? earlier = some before ∧
          before.analyze p bodies = (.ok (), after) ∧ after.afterCalls? later = some a ∧
          Analyzer.Call p bodies before after := by
  have haccounted : a.Accounted := Analyzer.accounted_of_afterCalls? Analyzer.accounted_start h
  refine ⟨congrArg (List.map Diagnostic.text) haccounted, ?_⟩
  rintro earlier p bodies later rfl
  obtain ⟨before, after, hbefore, hcall, hlater⟩ := Analyzer.call_of_afterCalls? h
  exact ⟨before, after, hbefore, hcall, hlater, Analyzer.call_of_analyze hcall⟩

/-- A call about a class with a parent that is not declared, and then two about a program with that
    parent.  The bodies are a method of the lower class, one of the upper class whose parameters
    conflict, a method without a class and a function.  The lower method uses a variable that is not
    declared.  The function uses the same node, and it has its turn first: so the complaint is
    reported for the function, and neither for the method nor in the last call. -/
theorem shared_node_reported_for_function :
    let p := Program.ofDecls [.class_ "B" (some "A") []]
    let q := Program.ofDecls [.class_ "B" (some "A") [], .class_ "A" none []]
    let y : Expr := .member 0 .unqualified (some ⟨"y", ⟨"y", .start⟩⟩)
    let lower : Body := ⟨some "B", "m", [], [], [y]⟩
    let upper : Body := ⟨some "A", "m", [⟨"x", some .int⟩, ⟨"x", some .bool⟩], [], []⟩
    let stray : Body := ⟨some "C", "m", [], [], []⟩
    let main : Body := ⟨none, "main", [], [], [y]⟩
    let calls := [(p, [lower]), (q, [lower, upper, stray, main]), (q, [lower, main])]
    let a := (({} : Analyzer).afterCalls? calls).getD {}
    ({} : Analyzer).afterCalls? calls = some a ∧
      a.errors.map AnalysisError.message = ["class B extends undefined class A",
        "line 1:1: No declaration found for variable 'y'",
        "In A.m: declaration of 'x' here conflicts with an earlier declaration",
        "Method m belongs to undefined class C"] ∧
      (a.errors.filterMap AnalysisError.diagnostic?).map Diagnostic.text =
        a.checker.diagnostics.messages ∧
      ∃ order, StableOrder (Body.depth q) [lower, upper, stray, main] order ∧
        order.Pairwise fun first second => ¬ first.Below q second := by
  intro p q y lower upper stray main calls a
  have hcalls : ({} : Analyzer).afterCalls? calls = some a := by decide +kernel
  obtain ⟨hmessages, hcall⟩ := reported_once_in_order calls a hcalls
  obtain ⟨_, _, _, _, _, hreport⟩ :=
    hcall [(p, [lower])] q [lower, upper, stray, main] [(q, [lower, main])] rfl
  obtain ⟨order, hsole, _, _, hbelow⟩ := hreport.valid (by decide +kernel)
  exact ⟨hcalls, by decide +kernel, hmessages, order, (hsole order).2 rfl, hbelow ⟨_, rfl⟩⟩

/-- **Linked in a circle.** The classes `A` and `B` are declared without parents, and then each is
    linked to the other.  The hierarchy is valid, since the links are not what the classes were
    declared with.  Each class is above the other, so in no order do the methods of both come after
    what is above them; they are analysed in the order in which they are given. -/
theorem bodies_above_each_other :
    let old := Program.ofDecls [.class_ "A" none [], .class_ "B" none []]
    let p : Program := { old with hierarchy := ⟨(Dict.empty.insert "A" "B").insert "B" "A"⟩ }
    let twice : List Param := [⟨"x", some .int⟩, ⟨"x", some .int⟩]
    let first : Body := ⟨some "A", "m", twice, [], []⟩
    let second : Body := ⟨some "B", "m", twice, [], []⟩
    (old.link "A" "B").bind (·.link "B" "A") = .ok p ∧ p.hierarchyErrors = [] ∧
      p.hierarchy.ancestors "A" = ["B"] ∧ first.Below p second ∧ second.Below p first ∧
      (({} : Analyzer).analyze p [first, second]).1 = .ok () ∧
      (({} : Analyzer).analyze p [first, second]).2.errors.map AnalysisError.message =
        ["In A.m: declaration of 'x' here conflicts with an earlier declaration",
          "In B.m: declaration of 'x' here conflicts with an earlier declaration"] := by
  decide +kernel

end Decaf
