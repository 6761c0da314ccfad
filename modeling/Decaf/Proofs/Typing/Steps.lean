import Decaf.Proofs.Typing.Memory
import Mathlib.Data.List.Pairwise
import Mathlib.Logic.Relation

namespace Decaf

/-!
# What a checker does, step by step

A run of the checker may end anywhere: at a part that is missing, at an operator that does not
belong, at a declaration without a type.  What it has learned by then stays, and later runs build on
it, perhaps in other surroundings.  All runs have in common what a single step does: the rule of a
node speaks, once, after the parts of the node are known.  What holds of a checker over its whole
life follows from that.

* `Checker.known?` — what a checker knows about a node.
* `Checker.Step` — the rule of a node speaks, and `Checker.Steps`, step after step.
* `Checker.steps_checkExpr` — every run is a sequence of steps, whether it gives a type or fails.
* `Request`, `Checker.ofRequests` — a checker that is asked again and again.
* `annotations_grow` — it forgets nothing, changes nothing, and knows the parts of what it knows.
-/

namespace Checker

variable {E : Env → Prop} {U W : Expr → Prop} {c c' : Checker} {id : NodeId}

/-! ### Single steps -/

/-- What is known about the node of an expression. -/
def known? (c : Checker) (e : Expr) : Option (Option Ty) :=
  e.id?.bind c.typeOf?

theorem known?_eq {e : Expr} (hid : e.id? = some id) : c.known? e = c.typeOf? id := by
  rw [known?, hid, Option.bind_some]

/-- What is known about a node is kept under its number. -/
theorem exists_id_of_known? {e : Expr} {t : Option Ty} (h : c.known? e = some t) :
    ∃ id, e.id? = some id ∧ c.typeOf? id = some t :=
  Option.bind_eq_some_iff.1 h

/-- The checker after the rule of the node `id` has spoken.  A rule that fails is on record all the
    same. -/
def settle (c : Checker) (id : NodeId) (v : Verdict) : Checker :=
  match v.result with
  | .error _ => c.record v.events
  | .ok t => (c.record v.events).annotate id t

theorem log_settle (c : Checker) (id : NodeId) (v : Verdict) :
    (c.settle id v).log = c.log ++ v.events := by
  unfold settle
  split <;> rfl

theorem findings_settle (c : Checker) (id : NodeId) (v : Verdict) :
    (c.settle id v).findings = c.findings ++ v.findings := by
  rw [findings, log_settle, List.filterMap_append]
  rfl

/-- A node gets the type that its rule gives. -/
theorem typeOf?_settle_self {v : Verdict} {t : Option Ty} (ht : v.result = .ok t) :
    (c.settle id v).typeOf? id = some t := by
  simp [settle, ht, typeOf?, annotate]

/-- The other nodes stay as they are. -/
theorem typeOf?_settle_of_ne {v : Verdict} {other : NodeId} (hne : other ≠ id) :
    (c.settle id v).typeOf? other = c.typeOf? other := by
  have hbeq : (other == id) = false := by simpa using hne
  unfold settle
  split
  · rfl
  · simp [typeOf?, annotate, record, List.lookup_cons, hbeq]

/-- What is known after a rule has spoken was known before, or is what the rule gave to its node. -/
theorem known?_settle (hU : Coherent U) {e e' : Expr} (he : U e) (he' : U e')
    (hid : e.id? = some id) (hnew : c.typeOf? id = none) {v : Verdict} {t : Option Ty}
    (h : (c.settle id v).known? e' = some t) :
    c.known? e' = some t ∨ e' = e ∧ v.result = .ok t := by
  obtain ⟨i, hi, ht⟩ := exists_id_of_known? h
  by_cases hsame : i = id
  · -- a number belongs to one node, so this is the node whose rule has spoken
    subst hsame
    obtain rfl := hU.unique he' he hi hid
    cases hres : v.result with
    | error failure =>
      simp only [settle, hres] at ht
      exact absurd (hnew.symm.trans ht) (by simp)
    | ok u =>
      rw [typeOf?_settle_self hres] at ht
      exact .inr ⟨rfl, by rw [Option.some.inj ht]⟩
  · rw [typeOf?_settle_of_ne hsame] at ht
    exact .inl (by rw [known?_eq hi, ht])

/-- **A step.** The rule of a node in `W` speaks, in surroundings in `E`.  Nothing is known about
    the node, it has no flaw, and `types` are the types that its parts are known to have. -/
inductive Step (E : Env → Prop) (W : Expr → Prop) (c : Checker) : Checker → Prop
  | rule {env : Env} {e : Expr} {id : NodeId} {types : List (Option Ty)} (henv : E env) (he : W e)
      (hid : e.id? = some id) (hnew : c.typeOf? id = none) (hflaw : e.flaw? = none)
      (hparts : e.parts.map c.known? = types.map some) : Step E W c (c.settle id (env.rule e types))

/-- Steps one after the other. -/
abbrev Steps (E : Env → Prop) (W : Expr → Prop) : Checker → Checker → Prop :=
  Relation.ReflTransGen (Step E W)

/-- Steps among some nodes, in some surroundings, are steps among more. -/
theorem Steps.mono {E' : Env → Prop} {W' : Expr → Prop} (hE : ∀ env, E env → E' env)
    (hW : ∀ e, W e → W' e) (h : Steps E W c c') : Steps E' W' c c' := by
  induction h with
  | refl => exact .refl
  | tail _ hstep ih =>
    obtain ⟨henv, he, hid, hnew, hflaw, hparts⟩ := hstep
    exact ih.tail (.rule (hE _ henv) (hW _ he) hid hnew hflaw hparts)

/-! ### What steps keep -/

/-- A step does not touch what is known. -/
theorem Step.typeOf?_eq_some (h : Step E W c c') {t : Option Ty} (ht : c.typeOf? id = some t) :
    c'.typeOf? id = some t := by
  obtain ⟨_, _, _, hnew, _, _⟩ := h
  rw [typeOf?_settle_of_ne, ht]
  rintro rfl
  rw [ht] at hnew
  cases hnew

/-- **Nothing is forgotten.** Steps do not touch what is known. -/
theorem Steps.typeOf?_eq_some (h : Steps E W c c') {t : Option Ty} (ht : c.typeOf? id = some t) :
    c'.typeOf? id = some t := by
  induction h with
  | refl => exact ht
  | tail _ hstep ih => exact hstep.typeOf?_eq_some ih

theorem Steps.known?_eq_some (h : Steps E W c c') {e : Expr} {t : Option Ty}
    (ht : c.known? e = some t) : c'.known? e = some t := by
  obtain ⟨id, hid, ht⟩ := exists_id_of_known? ht
  rw [known?_eq hid]
  exact h.typeOf?_eq_some ht

/-- Steps teach nothing about nodes that they are not about. -/
theorem Steps.typeOf?_eq_none (h : Steps E W c c') (hW : ∀ e, W e → e.id? ≠ some id)
    (hnone : c.typeOf? id = none) : c'.typeOf? id = none := by
  induction h with
  | refl => exact hnone
  | tail _ hstep ih =>
    obtain ⟨_, he, hid, _, _, _⟩ := hstep
    rw [typeOf?_settle_of_ne, ih]
    rintro rfl
    exact hW _ he hid

/-- What is on record stays there, and what is new comes after it. -/
theorem Steps.log_prefix (h : Steps E W c c') : c.log <+: c'.log := by
  induction h with
  | refl => exact List.prefix_refl _
  | tail _ hstep ih =>
    obtain ⟨⟩ := hstep
    rw [log_settle]
    exact ih.trans (List.prefix_append _ _)

/-- The parts of a node that is known are known. -/
def Closed (U : Expr → Prop) (c : Checker) : Prop :=
  ∀ e, U e → c.known? e ≠ none → ∀ s ∈ e.parts, c.known? s ≠ none

/-- **Step.** A rule speaks once the parts of its node are known, so parts are known before what
    they belong to. -/
theorem Closed.step (hU : Coherent U) (hc : c.Closed U) (h : Step E U c c') : c'.Closed U := by
  have hkeep : ∀ s : Expr, c.known? s ≠ none → c'.known? s ≠ none := by
    intro s hs
    obtain ⟨t, ht⟩ := Option.ne_none_iff_exists'.1 hs
    rw [Steps.known?_eq_some (.single h) ht]
    exact Option.some_ne_none t
  intro e' he' hknown s hs
  apply hkeep
  cases h with | @rule env e id types henv he hid hnew hflaw hparts
  obtain ⟨t, ht⟩ := Option.ne_none_iff_exists'.1 hknown
  rcases known?_settle hU he he' hid hnew ht with hold | ⟨rfl, _⟩
  · have hbefore : c.known? e' ≠ none := by
      rw [hold]
      exact Option.some_ne_none t
    exact hc e' he' hbefore s hs
  · -- the node itself: its rule was given the types of its parts
    have hmem : c.known? s ∈ types.map some := hparts ▸ List.mem_map_of_mem hs
    obtain ⟨u, _, hu⟩ := List.mem_map.1 hmem
    rw [← hu]
    exact Option.some_ne_none u

/-- **Run.** Parts are known before what they belong to, after any number of steps. -/
theorem Closed.steps (hU : Coherent U) (hc : c.Closed U) (h : Steps E U c c') : c'.Closed U := by
  induction h with
  | refl => exact hc
  | tail _ hstep ih => exact ih.step hU hstep

/-- Whatever lies within a node that is known is known. -/
theorem Closed.known_of_within (hU : Coherent U) (hc : c.Closed U) {s e : Expr} (hs : s.Within e)
    (he : U e) (hknown : c.known? e ≠ none) : c.known? s ≠ none := by
  induction hs with
  | self => exact hknown
  | part hpart _ ih => exact ih (hU.part he hpart) (hc _ he hknown _ hpart)

/-! ### Runs are steps -/

/-- A run on `e` is a sequence of steps through the nodes of `e`; if it gives a type, that is what
    is known about `e` afterwards. -/
def RunsInSteps (env : Env) (e : Expr) : Prop :=
  ∀ c : Checker, Steps (· = env) (·.Within e) c ((checkExpr env e).run c).2 ∧
    ∀ t, ((checkExpr env e).run c).1 = .ok t → ((checkExpr env e).run c).2.known? e = some t

/-- Runs on several expressions, one after the other, are sequences of steps if single ones are. -/
theorem steps_checkExprs_of_runsInSteps {env : Env} {es : List Expr}
    (hes : ∀ e ∈ es, RunsInSteps env e) (c : Checker) :
    Steps (· = env) (fun s => ∃ e ∈ es, s.Within e) c ((checkExprs env es).run c).2 ∧
      ∀ ts, ((checkExprs env es).run c).1 = .ok ts →
        es.map ((checkExprs env es).run c).2.known? = ts.map some := by
  induction es generalizing c with
  | nil =>
    refine ⟨.refl, fun ts hts => ?_⟩
    cases hts
    rfl
  | cons e es ih =>
    obtain ⟨hfirst, hknown⟩ := hes e List.mem_cons_self c
    have hfirst' : Steps (· = env) (fun s => ∃ e' ∈ e :: es, s.Within e') c
        ((checkExpr env e).run c).2 :=
      hfirst.mono (fun _ h => h) fun s hs => ⟨e, List.mem_cons_self, hs⟩
    rw [checkExprs, run_bind]
    rcases hrun : (checkExpr env e).run c with ⟨failure | t, c₁⟩
    · rw [hrun] at hfirst'
      exact ⟨hfirst', fun ts hts => by cases hts⟩
    · rw [hrun] at hfirst' hknown
      obtain ⟨hrest, hknowns⟩ := ih (fun e' he' => hes e' (List.mem_cons_of_mem e he')) c₁
      have hrest' : Steps (· = env) (fun s => ∃ e' ∈ e :: es, s.Within e') c₁
          ((checkExprs env es).run c₁).2 := by
        refine hrest.mono (fun _ h => h) ?_
        rintro s ⟨e', he', hs⟩
        exact ⟨e', List.mem_cons_of_mem e he', hs⟩
      dsimp only
      rw [run_bind]
      rcases hruns : (checkExprs env es).run c₁ with ⟨failure | ts, c₂⟩
      · rw [hruns] at hrest'
        exact ⟨hfirst'.trans hrest', fun ts hts => by cases hts⟩
      · rw [hruns] at hrest hrest' hknowns
        refine ⟨hfirst'.trans hrest', fun us hus => ?_⟩
        cases hus
        -- the steps for the other expressions do not touch what is known about the first
        have hhead : c₂.known? e = some t := hrest.known?_eq_some (hknown t rfl)
        show c₂.known? e :: es.map c₂.known? = some t :: ts.map some
        rw [hhead, hknowns ts rfl]

end Checker

/-- Nodes that are listed with their parts, each number once, share nothing but themselves. -/
theorem coherent_of_list {nodes : List Expr} (hparts : ∀ e ∈ nodes, ∀ p ∈ e.parts, p ∈ nodes)
    (hids : (nodes.filterMap Expr.id?).Nodup) : Coherent (· ∈ nodes) where
  part he hp := hparts _ he _ hp
  unique {a b id} ha hb hida hidb := by
    by_contra hne
    have hsymm : Std.Symm fun a b : Expr => ∀ i, a.id? = some i → ∀ j, b.id? = some j → i ≠ j :=
      ⟨fun _ _ h i hi j hj heq => h j hj i hi heq.symm⟩
    exact (List.pairwise_filterMap.1 hids).forall ha hb hne id hida id hidb rfl

/-- What lies within an expression is not larger than it. -/
theorem Expr.Within.sizeOf_le {s e : Expr} (h : s.Within e) : sizeOf s ≤ sizeOf e := by
  induction h with
  | self => exact Nat.le_refl _
  | part hc _ ih =>
    have hlt := Expr.sizeOf_lt_of_mem_parts hc
    omega

/-- What lies within a part of a node has another number than the node. -/
theorem Coherent.id?_ne_of_within_part {U : Expr → Prop} (hU : Coherent U) {e c s : Expr} (he : U e)
    (hc : c ∈ e.parts) (hs : s.Within c) {id : NodeId} (hid : e.id? = some id) :
    s.id? ≠ some id := by
  intro hsame
  have hUs : U s := hU.of_within he (.part hc hs)
  obtain rfl := hU.unique hUs he hsame hid
  have hle := hs.sizeOf_le
  have hlt := Expr.sizeOf_lt_of_mem_parts hc
  omega

namespace Checker

variable {E : Env → Prop} {U : Expr → Prop} {c : Checker}

/-- **Runs are steps.** Every run is a sequence of steps through the nodes of the expression,
    wherever it ends. -/
theorem steps_checkExpr (hU : Coherent U) (env : Env) (e : Expr) : U e → RunsInSteps env e := by
  induction e using Expr.induction_parts with
  | h e ih =>
    intro he c
    cases hid : e.id? with
    | none =>
      -- nothing is there, and nothing is learned
      cases e with
      | absent => exact ⟨.refl, fun t ht => by cases ht⟩
      | hollow => exact ⟨.refl, fun t ht => by cases ht⟩
      | _ => cases hid
    | some id =>
      rw [checkExpr_eq_visit env hid, run_visit]
      cases hnew : c.typeOf? id with
      | some t =>
        refine ⟨.refl, fun u hu => ?_⟩
        cases hu
        rw [known?_eq hid, hnew]
      | none =>
        cases hflaw : e.flaw? with
        | some flaw => exact ⟨.refl, fun t ht => by cases ht⟩
        | none =>
          obtain ⟨hparts, hknown⟩ := steps_checkExprs_of_runsInSteps
            (fun s hs => ih s hs (hU.part he hs)) c
          rcases hrun : (checkExprs env e.parts).run c with ⟨failure | types, c₁⟩
          · rw [hrun] at hparts
            refine ⟨hparts.mono (fun _ h => h) fun s ⟨p, hp, hs⟩ => .part hp hs, fun t ht => ?_⟩
            cases ht
          · rw [hrun] at hparts hknown
            -- the steps through the parts are about other nodes, so nothing is known about this one
            -- yet
            have hnew' : c₁.typeOf? id = none :=
              hparts.typeOf?_eq_none
                (fun s ⟨p, hp, hs⟩ => hU.id?_ne_of_within_part he hp hs hid) hnew
            have hstep : Step (· = env) (·.Within e) c₁ (c₁.settle id (env.rule e types)) :=
              .rule rfl .self hid hnew' hflaw (hknown types rfl)
            have hsteps : Steps (· = env) (·.Within e) c (c₁.settle id (env.rule e types)) :=
              .tail (hparts.mono (fun _ h => h) fun s ⟨p, hp, hs⟩ => .part hp hs) hstep
            dsimp only
            cases hres : (env.rule e types).result with
            | error failure =>
              simp only [settle, hres] at hsteps
              exact ⟨hsteps, fun t ht => by cases ht⟩
            | ok t =>
              have hself : (c₁.settle id (env.rule e types)).typeOf? id = some t :=
                typeOf?_settle_self hres
              simp only [settle, hres] at hsteps hself
              refine ⟨hsteps, fun u hu => ?_⟩
              cases hu
              rw [known?_eq hid, hself]

/-- A run on an expression in `U` is a sequence of steps through `U`. -/
theorem steps_check (hU : Coherent U) {env : Env} (henv : E env) {e : Expr} (he : U e)
    (c : Checker) : Steps E U c (c.check env e).2 :=
  (steps_checkExpr hU env e he c).1.mono (by rintro _ rfl; exact henv) fun _ hs =>
    hU.of_within he hs

/-- What is known already is answered from memory, in whatever surroundings. -/
theorem check_of_known? {e : Expr} {t : Option Ty} (h : c.known? e = some t) (env : Env) :
    c.check env e = (.ok t, c) := by
  obtain ⟨id, hid, ht⟩ := exists_id_of_known? h
  rw [check, checkExpr_eq_visit env hid, run_visit, ht]

end Checker

/-! ### A checker that is asked again and again -/

/-- What a checker is asked: to type an expression, or several. -/
inductive Request where
  | check (env : Env) (e : Expr)
  | checkAll (env : Env) (es : List Expr)

namespace Request

/-- The surroundings that the request is about. -/
def env : Request → Env
  | check env _ | checkAll env _ => env

/-- The expressions that are to be typed. -/
def exprs : Request → List Expr
  | check _ e => [e]
  | checkAll _ es => es

end Request

namespace Checker

variable {E : Env → Prop} {U : Expr → Prop}

/-- The checker after a request, whether it was answered or failed. -/
def serve (c : Checker) : Request → Checker
  | .check env e => (c.check env e).2
  | .checkAll env es => (c.checkAll env es).2

/-- The checker after several requests. -/
def serveAll (c : Checker) (rs : List Request) : Checker :=
  rs.foldl serve c

/-- A checker that has seen nothing, after several requests. -/
def ofRequests (rs : List Request) : Checker :=
  ({} : Checker).serveAll rs

/-- A request takes a checker through steps. -/
theorem steps_serve (hU : Coherent U) {r : Request} (henv : E r.env) (hr : ∀ e ∈ r.exprs, U e)
    (c : Checker) : Steps E U c (c.serve r) := by
  cases r with
  | check env e => exact steps_check hU henv (hr e (List.mem_singleton_self e)) c
  | checkAll env es =>
    have hruns :=
      (steps_checkExprs_of_runsInSteps (fun e he => steps_checkExpr hU env e (hr e he)) c).1
    exact hruns.mono (by rintro _ rfl; exact henv) fun _ ⟨e, he, hs⟩ => hU.of_within (hr e he) hs

/-- **Requests are steps.** So are several, one after the other. -/
theorem steps_serveAll (hU : Coherent U) {rs : List Request}
    (hrs : ∀ r ∈ rs, E r.env ∧ ∀ e ∈ r.exprs, U e) (c : Checker) : Steps E U c (c.serveAll rs) := by
  induction rs generalizing c with
  | nil => exact .refl
  | cons r rs ih =>
    obtain ⟨henv, hr⟩ := hrs r List.mem_cons_self
    have hrest := ih (fun r' hr' => hrs r' (List.mem_cons_of_mem r hr')) (c.serve r)
    exact (steps_serve hU henv hr c).trans hrest

/-- A checker that has seen nothing knows the parts of what it knows. -/
theorem closed_empty : ({} : Checker).Closed U := by
  intro e _ hknown
  refine absurd ?_ hknown
  rw [known?]
  cases e.id? <;> rfl

end Checker

/-- **A checker only ever learns.** Let `U` be the nodes there are: a number belongs to one of them,
    and they come with their parts.  Take a checker that was asked to type some of them, one after
    the other and in any surroundings, and that may have failed on the way; then ask it for more.
    What it knows about a node stays as it is, and what it has complained about and recorded stays
    in front.  It knows the parts of the nodes that it knows.  Asked about a node that it knows, it
    gives the type from memory and changes in nothing, whatever the surroundings are.  If it gives
    an expression a type, it knows all of its nodes afterwards. -/
theorem annotations_grow (U : Expr → Prop) (hU : Coherent U) (rs more : List Request)
    (hrs : ∀ r ∈ rs ++ more, ∀ e ∈ r.exprs, U e) :
    let c := Checker.ofRequests rs
    let c' := Checker.ofRequests (rs ++ more)
    (∀ e t, c.known? e = some t → c'.known? e = some t) ∧
      c.diagnostics <+: c'.diagnostics ∧ c.log <+: c'.log ∧
      (∀ e, U e → c.known? e ≠ none → ∀ s ∈ e.parts, c.known? s ≠ none) ∧
      (∀ env e t, c.known? e = some t → c.check env e = (.ok t, c)) ∧
      ∀ env e t, U e → (c.check env e).1 = .ok t →
        (c.check env e).2.known? e = some t ∧
          ∀ s : Expr, s.Within e → (c.check env e).2.known? s ≠ none := by
  intro c c'
  have hsteps : Checker.Steps (fun _ => True) U {} c :=
    Checker.steps_serveAll hU (fun r hr => ⟨trivial, hrs r (List.mem_append_left _ hr)⟩) {}
  -- the later requests start where the earlier ones ended
  have hmore : Checker.Steps (fun _ => True) U c c' := by
    have hsplit : c' = c.serveAll more := List.foldl_append
    rw [hsplit]
    exact Checker.steps_serveAll hU (fun r hr => ⟨trivial, hrs r (List.mem_append_right _ hr)⟩) c
  have hclosed : c.Closed U := Checker.closed_empty.steps hU hsteps
  refine ⟨fun e t => hmore.known?_eq_some, ?_, hmore.log_prefix, hclosed, fun env e t h => ?_, ?_⟩
  · exact (hmore.log_prefix.filterMap _).map _
  · exact Checker.check_of_known? h env
  · intro env e t he ht
    have hknown : (c.check env e).2.known? e = some t :=
      (Checker.steps_checkExpr hU env e he c).2 t ht
    -- a node with a type has parts with types, and this goes down to every node below
    have hclosed' : (c.check env e).2.Closed U :=
      hclosed.steps hU (Checker.steps_check (E := fun _ => True) hU trivial he c)
    refine ⟨hknown, fun s hs => hclosed'.known_of_within hU hs he ?_⟩
    rw [hknown]
    exact Option.some_ne_none t

/-- A call that fails at its second argument, which is missing, after its first argument was typed:
    the sum of an undeclared variable with itself.  What was learned about the sum stays, also where
    the variable is declared. -/
theorem annotations_outlive_failure :
    let x : Expr := .member 0 .unqualified (some ⟨"x", ⟨"x", .start⟩⟩)
    let sum : Expr :=
      .compound 1 .arithmetic (some { kind := .mark .plus, literal := "+", pos := .start }) x x
    let call : Expr := .call 2 .unqualified (some ⟨"f", ⟨"f", .start⟩⟩) [sum, .absent]
    let outside : Env := { program := .empty }
    let scope : Scope :=
      { kind := .local_, symbols := Dict.empty.insert "x" ⟨"x", .local_, some .int, none⟩ }
    let inside : Env := { program := .empty, context := { scopes := [scope] } }
    let c := Checker.ofRequests [.check outside call]
    let c' := Checker.ofRequests [.check outside call, .checkAll inside [x, sum]]
    (c.check outside call).1 = .error (.malformed .missingExpression) ∧ c.known? call = none ∧
      c.known? sum = some (some .error) ∧ c.known? x ≠ none ∧ c'.known? sum = some (some .error) ∧
      c.check inside sum = (.ok (some .error), c) := by
  intro x sum call outside scope inside c c'
  have hshare : Coherent (· ∈ [call, sum, x, .absent]) :=
    coherent_of_list (by simp [call, sum, x, Expr.parts, Receiver.parts, Expr.isAbsent]) (by decide)
  have hsum : c.known? sum = some (some .error) := by decide
  obtain ⟨hkeeps, _, _, hclosed, hmemory, _⟩ :=
    annotations_grow _ hshare [.check outside call] [.checkAll inside [x, sum]]
      (by simp [Request.exprs])
  have hknown : c.known? sum ≠ none := by
    rw [hsum]
    exact Option.some_ne_none _
  have hx : c.known? x ≠ none := hclosed sum (by simp) hknown x List.mem_cons_self
  exact ⟨rfl, by decide, hsum, hx, hkeeps sum _ hsum, hmemory inside sum _ hsum⟩

end Decaf
