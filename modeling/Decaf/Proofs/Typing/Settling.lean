import Decaf.Proofs.Typing.WellFormed

namespace Decaf

/-!
# Rules that give a type

Where every declaration has a type, a rule that is given the types of all parts gives a type too:
what is wrong becomes a complaint, and the complaint is about a place that is there.  There is one
exception.  The written type of the elements of a new array is looked at by the rule of the node,
and if it is malformed the rule fails.

* `Verdict.Settles` — a verdict that gives a type, and `Verdict.Breaks` — a verdict that fails for a
  flaw of the tree.
* `exists_resolve_eq_ok_iff` — a written type can be resolved exactly if it is well-formed.
* `Env.rule_settles`, `Env.rule_breaks` — what the rule of a node without a flaw says.
-/

/-! ### Verdicts -/

/-- A verdict gives a type, and its complaints are about places with the property `P`. -/
structure Verdict.Settles (P : Position → Prop) (v : Verdict) : Prop where
  type : ∃ t, v.result = .ok (some t)
  places : ∀ f ∈ v.findings, P f.pos

/-- A verdict fails for a flaw of the tree, and its complaints are about places with the property
    `P`. -/
structure Verdict.Breaks (P : Position → Prop) (v : Verdict) : Prop where
  flaw : ∃ flaw, v.result = .error (.malformed flaw)
  places : ∀ f ∈ v.findings, P f.pos

section Rules

variable {P : Position → Prop} {p : Program} {pos : Position}

namespace Verdict

theorem settles_ok {t : Ty} : (ok t).Settles P :=
  ⟨⟨t, rfl⟩, by simp [ok, findings]⟩

theorem settles_silent : silent.Settles P :=
  settles_ok

theorem settles_blame (hpos : P pos) {c : Complaint} : (blame pos c).Settles P :=
  ⟨⟨.error, rfl⟩, by simpa [blame, findings, Event.finding?] using hpos⟩

/-- A verdict with something to say first settles a node if what is said first is about such
    places. -/
theorem Settles.after {v : Verdict} (hv : v.Settles P) {events : List Event}
    (hevents : ∀ f ∈ events.filterMap Event.finding?, P f.pos) : (v.after events).Settles P := by
  refine ⟨hv.type, fun f hf => ?_⟩
  rw [findings, Verdict.after, List.filterMap_append] at hf
  rcases List.mem_append.1 hf with hf | hf
  · exact hevents f hf
  · exact hv.places f hf

theorem settles_ite {v w : Verdict} {c : Prop} [Decidable c] (hv : v.Settles P) (hw : w.Settles P) :
    (if c then v else w).Settles P := by
  split
  · exact hv
  · exact hw

/-- A declared type that is there settles a node. -/
theorem settles_declared {events : List Event} {t : Option Ty} (ht : t ≠ none)
    (hevents : events.filterMap Event.finding? = []) : Settles P { events, result := .ok t } := by
  obtain ⟨u, rfl⟩ := Option.ne_none_iff_exists'.1 ht
  exact ⟨⟨u, rfl⟩, by simp [findings, hevents]⟩

end Verdict

open Verdict

theorem mismatch_settles (hpos : P pos) {op : String} {left : Option Ty} {right : Ty} :
    (mismatch pos op left right).Settles P :=
  settles_blame hpos

/-- An operator gives a type if a left operand is there wherever its form needs one. -/
theorem operatorRule_settles (hpos : P pos) {form : Form} {op : String} {left : Option Ty}
    {right : Ty} (hleft : left = none → form.mayBeUnary) :
    (operatorRule p pos form op left right).Settles P := by
  cases left with
  | none =>
    cases form with
    | arithmetic => exact settles_ite settles_ok (mismatch_settles hpos)
    | logical => exact settles_ite settles_ok (mismatch_settles hpos)
    | _ => cases hleft rfl
  | some l => cases form <;> exact settles_ite settles_ok (mismatch_settles hpos)

theorem compoundRule_settles (hpos : P pos) {form : Form} {op : String} {target : Bool}
    {left : Option Ty} {right : Ty} (hleft : left = none → form.mayBeUnary) :
    (compoundRule p pos form op target left (some right)).Settles P := by
  refine settles_ite settles_silent ?_
  split
  · exact settles_blame hpos
  · rename_i heq
    cases heq
    exact operatorRule_settles hpos hleft
  · rename_i heq
    cases heq

theorem stepRule_settles (hpos : P pos) {op : String} {target : Bool} {t : Ty} :
    (stepRule pos op target (some t)).Settles P := by
  cases t with
  | error => exact settles_silent
  | _ => exact settles_ite (settles_blame hpos) (settles_ite settles_ok (settles_blame hpos))

theorem indexRule_settles (hpos : P pos) {subscriptPos : Position} (hsub : P subscriptPos)
    {base subscript : Ty} :
    (indexRule pos subscriptPos (some base) (some subscript)).Settles P := by
  refine Settles.after ?_ ?_
  · cases base with
    | error => exact settles_silent
    | array elem => exact settles_ok
    | _ => exact settles_blame hpos
  · split
    · simp
    · simpa [Event.finding?] using hsub

/-- A member of a class gives a type if looking it up does. -/
theorem inClassOf_settles (hpos : P pos) {member : String} {base : Ty} {look : String → Verdict}
    (hlook : ∀ cls, (look cls).Settles P) :
    (inClassOf p pos member (some base) look).Settles P := by
  cases base with
  | error => exact settles_silent
  | named cls => exact settles_ite (hlook cls) (settles_blame hpos)
  | _ => exact settles_blame hpos

/-- A call gives a type if its parameters and its result have one. -/
theorem argumentsRule_settles {ret : Option Ty} (hret : ret ≠ none) {index : Nat}
    {argPos : List Position} (hargPos : ∀ q ∈ argPos, P q) {args : List Ty} {params : List Param}
    (hparams : ∀ q ∈ params, q.type ≠ none) :
    (argumentsRule p ret index argPos (args.map some) params).Settles P := by
  induction args generalizing index argPos params with
  | nil =>
    rw [List.map_nil, argumentsRule]
    · exact settles_declared hret rfl
    · simp
  | cons arg args ih =>
    cases argPos with
    | nil => exact settles_declared hret rfl
    | cons q argPos =>
      cases params with
      | nil => exact settles_declared hret rfl
      | cons param params =>
        have hrest : (argumentsRule p ret (index + 1) argPos (args.map some) params).Settles P :=
          ih (fun q hq => hargPos q (List.mem_cons_of_mem _ hq)) fun q hq =>
            hparams q (List.mem_cons_of_mem _ hq)
        -- an argument that is wrong already is passed over
        by_cases harg : arg = .error
        · subst harg
          exact hrest
        · obtain ⟨t, ht⟩ := Option.ne_none_iff_exists'.1 (hparams param List.mem_cons_self)
          rw [List.map_cons, argumentsRule_cons harg ht]
          refine hrest.after ?_
          split
          · simp
          · simpa [Event.finding?] using hargPos q List.mem_cons_self

theorem signatureRule_settles (hpos : P pos) {m : Method} (hm : m.Declares (· ≠ none))
    {argPos : List Position} (hargPos : ∀ q ∈ argPos, P q) {args : List Ty} :
    (signatureRule p pos m argPos (args.map some)).Settles P :=
  settles_ite (settles_blame hpos) (argumentsRule_settles hm.ret hargPos hm.params)

theorem newRule_settles {ref : ClassRef} (hpos : P ref.src.pos) {name : String} :
    (newRule p ref name).Settles P := by
  unfold newRule
  split
  · exact settles_ite (settles_blame hpos) settles_ok
  · exact settles_blame hpos

/-! ### Written types -/

/-- A written type can be resolved exactly if it is well-formed. -/
theorem exists_resolve_eq_ok_iff {r : TypeRef} : (∃ t, (resolve p r).2 = .ok t) ↔ r.WellFormed := by
  induction r with
  | missing => exact ⟨fun ⟨_, h⟩ => (by cases h), fun h => (by cases h)⟩
  | primitive src =>
    have hkey : (∃ t, Ty.ofKeyword? src.literal = some t) ↔
        src.literal ∈ ["int", "double", "bool", "string", "void"] := by
      unfold Ty.ofKeyword?
      split <;> simp_all
    cases hword : Ty.ofKeyword? src.literal with
    | none =>
      refine ⟨fun ⟨_, h⟩ => by simp [resolve, hword] at h, fun h => ?_⟩
      cases h with
      | primitive h =>
        obtain ⟨t, ht⟩ := hkey.2 h
        simp [hword] at ht
    | some t =>
      exact ⟨fun _ => .primitive (hkey.1 ⟨t, hword⟩), fun _ => ⟨t, by simp [resolve, hword]⟩⟩
  | named ref =>
    cases hname : ref.name with
    | none =>
      refine ⟨fun ⟨_, h⟩ => by simp [resolve, hname] at h, fun h => ?_⟩
      cases h with
      | named h => simp [hname] at h
    | some name => exact ⟨fun _ => .named hname, fun _ => ⟨.named name, by simp [resolve, hname]⟩⟩
  -- an element that does not resolve hands its flaw on
  | array src elem ih =>
    rcases helem : resolve p elem with ⟨events, flaw | t⟩
    · refine ⟨fun ⟨_, h⟩ => by simp [resolve, helem] at h, fun h => ?_⟩
      cases h with
      | array h => simp [helem] at ih; exact absurd h ih
    · have hwell : elem.WellFormed := ih.1 ⟨t, by rw [helem]⟩
      exact ⟨fun _ => .array hwell, fun _ => ⟨.array t, by simp [resolve, helem]⟩⟩

/-- A written type that is there stands where it is. -/
theorem TypeRef.shows_pos {r : TypeRef} (h : r ≠ .missing) : r.Shows r.pos := by
  cases r with
  | missing => exact absurd rfl h
  | primitive src => rfl
  | named ref => rfl
  | array src elem => exact .inl rfl

/-- Complaints about the type of an array are complaints about the type of its elements. -/
theorem resolve_array_places {src : Origin} {elem : TypeRef}
    (h : ∀ f ∈ (resolve p elem).1.filterMap Event.finding?, elem.Shows f.pos) :
    ∀ f ∈ (resolve p (.array src elem)).1.filterMap Event.finding?, elem.Shows f.pos := by
  intro f hf
  rcases helem : resolve p elem with ⟨events, flaw | t⟩
  · rw [helem] at h
    simp only [resolve, helem] at hf
    exact h f hf
  · rw [helem] at h
    simp only [resolve, helem, List.filterMap_append, List.mem_append] at hf
    rcases hf with hf | hf
    · exact h f hf
    · -- what is wrong with the elements is reported where their type stands, and it stands there:
      -- it was resolved
      have hthere : elem ≠ .missing := by
        rintro rfl
        cases helem
      split at hf
      · simp only [Event.finding?, List.filterMap_cons, List.filterMap_nil,
          List.mem_singleton] at hf
        subst hf
        exact TypeRef.shows_pos hthere
      · cases hf

/-- Complaints about a written type are about places in it. -/
theorem resolve_places {r : TypeRef} :
    ∀ f ∈ (resolve p r).1.filterMap Event.finding?, r.Shows f.pos := by
  induction r with
  | missing => simp [resolve]
  | primitive src =>
    unfold resolve
    split <;> simp
  | named ref =>
    cases hname : ref.name with
    | none => simp [resolve, hname]
    | some name =>
      simp only [resolve, hname]
      split
      · simp
      · simp [Event.finding?, TypeRef.Shows]
  | array src elem ih => exact fun f hf => .inr (resolve_array_places ih f hf)

/-- Complaints about a new array are about its size and about the written type of its elements. -/
theorem newArrayRule_places {src : Origin} {sizePos : Position} (hsize : P sizePos) {elem : TypeRef}
    (helem : ∀ q, elem.Shows q → P q) {size : Ty} :
    ∀ f ∈ (newArrayRule p src sizePos elem (some size)).findings, P f.pos := by
  intro f hf
  simp only [newArrayRule, findings, Verdict.after, List.filterMap_append, List.mem_append] at hf
  rcases hf with hf | hf
  · split at hf
    · cases hf
    · simp only [Event.finding?, List.filterMap_cons, List.filterMap_nil, List.mem_singleton] at hf
      subst hf
      exact hsize
  · have hresolve : f ∈ (resolve p (.array src elem)).1.filterMap Event.finding? := by
      split at hf <;> simp_all
    exact helem _ (resolve_array_places resolve_places f hresolve)

/-- A new array has a type if the written type of its elements is well-formed. -/
theorem newArrayRule_settles {src : Origin} {sizePos : Position} (hsize : P sizePos)
    {elem : TypeRef} (helem : ∀ q, elem.Shows q → P q) (hwell : elem.WellFormed) {size : Ty} :
    (newArrayRule p src sizePos elem (some size)).Settles P := by
  have harray : (TypeRef.array src elem).WellFormed := .array hwell
  obtain ⟨t, ht⟩ := (exists_resolve_eq_ok_iff (p := p)).2 harray
  refine ⟨⟨t, ?_⟩, newArrayRule_places hsize helem⟩
  rcases hres : resolve p (.array src elem) with ⟨events, result⟩
  rw [hres] at ht
  cases ht
  simp [newArrayRule, Verdict.after, hres]

/-- A new array breaks the tree if the written type of its elements is malformed. -/
theorem newArrayRule_breaks {src : Origin} {sizePos : Position} (hsize : P sizePos) {elem : TypeRef}
    (helem : ∀ q, elem.Shows q → P q) (hbad : ¬ elem.WellFormed) {size : Ty} :
    (newArrayRule p src sizePos elem (some size)).Breaks P := by
  refine ⟨?_, newArrayRule_places hsize helem⟩
  rcases hres : resolve p (.array src elem) with ⟨events, flaw | t⟩
  · exact ⟨flaw, by simp [newArrayRule, Verdict.after, hres]⟩
  · have hwell : (TypeRef.array src elem).WellFormed := exists_resolve_eq_ok_iff.1 ⟨t, by rw [hres]⟩
    cases hwell with
    | array h => exact absurd h hbad

end Rules

/-! ### The rule of a node -/

/-- Every declaration has a type. -/
abbrev Env.Complete (env : Env) : Prop :=
  env.Declares (· ≠ none)

section Nodes

variable {env : Env} {P : Position → Prop} {pos : Position} {name : String}

theorem fieldRule_settles (henv : env.Complete) (hpos : P pos) {base : Ty} :
    (fieldRule env.program pos name (some base)).Settles P := by
  refine inClassOf_settles hpos fun cls => ?_
  cases hfield : env.program.field? cls name with
  | some t => exact Verdict.settles_declared (henv.of_field hfield) rfl
  | none => exact Verdict.settles_blame hpos

theorem variableRule_settles (henv : env.Complete) (hpos : P pos) :
    (variableRule env pos name).Settles P := by
  unfold variableRule
  split
  · rename_i hlocal
    exact Verdict.settles_declared (henv.of_local hlocal) rfl
  · split
    · rename_i hfield
      obtain ⟨cls, _, hfield⟩ := Option.bind_eq_some_iff.1 hfield
      exact Verdict.settles_declared (henv.of_field hfield) rfl
    · split
      · rename_i hglobal
        exact Verdict.settles_declared (henv.of_global hglobal) rfl
      · exact Verdict.settles_blame hpos

theorem methodRule_settles (henv : env.Complete) (hpos : P pos) {argPos : List Position}
    (hargPos : ∀ q ∈ argPos, P q) {base : Ty} {args : List Ty} :
    (methodRule env.program pos name argPos (some base) (args.map some)).Settles P := by
  cases base with
  | array elem =>
    exact Verdict.settles_ite (Verdict.settles_blame hpos)
      (Verdict.settles_ite (Verdict.settles_blame hpos) Verdict.settles_ok)
  | _ =>
    simp only [methodRule]
    refine inClassOf_settles hpos fun cls => ?_
    cases hmethod : env.program.method? cls name with
    | some m =>
      exact (signatureRule_settles hpos (henv.of_method hmethod) hargPos).after
        (by simp [Event.finding?])
    | none => exact Verdict.settles_blame hpos

theorem functionRule_settles (henv : env.Complete) (hpos : P pos) {argPos : List Position}
    (hargPos : ∀ q ∈ argPos, P q) {args : List Ty} :
    (functionRule env pos name argPos (args.map some)).Settles P := by
  unfold functionRule
  split
  · rename_i hmethod
    obtain ⟨cls, _, hmethod⟩ := Option.bind_eq_some_iff.1 hmethod
    exact (signatureRule_settles hpos (henv.of_method hmethod) hargPos).after
      (by simp [Event.finding?])
  · split
    · rename_i hfunction
      exact signatureRule_settles hpos (henv.of_function hfunction) hargPos
    · exact Verdict.settles_blame hpos

theorem leafRule_settles {ctx : Context} (hpos : P pos) {kind : Leaf} :
    (leafRule ctx pos kind).Settles P := by
  cases kind with
  | this_ =>
    cases hcls : ctx.cls with
    | some cls => simpa only [leafRule, hcls] using Verdict.settles_ok
    | none => simpa only [leafRule, hcls] using Verdict.settles_blame hpos
  | _ => exact Verdict.settles_ok

/-- **An intact node gets a type.** Where every declaration has a type, the rule of an intact node
    whose parts have types gives it one, and complains only about places that it or its parts
    show. -/
theorem Env.rule_settles (henv : env.Complete) {e : Expr} (he : e.Intact)
    (hparts : ∀ s ∈ e.parts, s.pos? ≠ none) {types : List Ty}
    (hlen : types.length = e.parts.length) : (env.rule e (types.map some)).Settles e.Near := by
  obtain ⟨hflaw, hwritten⟩ := he
  -- a rule reports at its own place, at that of a part or inside a type that is written down
  have hself : e.Near e.pos := Expr.near_self (Expr.pos?_ne_none hflaw hparts)
  have hpart : ∀ s ∈ e.parts, e.Near s.pos := fun s hs => Expr.near_part hs (hparts s hs)
  -- a node with a hole in it has a flaw, so in those cases there is nothing to show; in the others
  -- the number of types says which the rule is given
  cases e with
  | absent => cases hflaw
  | hollow => cases hflaw
  | leaf => exact leafRule_settles hself
  | compound id form op left right =>
    obtain ⟨hunary, ⟨token, rfl, _⟩, _⟩ := flaw?_compound_eq_none_iff.1 hflaw
    -- without a left operand there is one type only, and the form must be one that allows it
    cases hleft : left.isAbsent with
    | true =>
      obtain rfl : left = .absent := by cases left <;> first | rfl | cases hleft
      obtain ⟨r, rfl⟩ := List.length_eq_one_iff.1 hlen
      exact compoundRule_settles hself fun _ => hunary rfl
    | false =>
      simp only [Expr.parts, hleft] at hlen
      obtain ⟨l, r, rfl⟩ := List.length_eq_two.1 hlen
      exact compoundRule_settles hself fun h => by cases h
  | index id src base subscript =>
    obtain ⟨b, s, rfl⟩ := List.length_eq_two.1 hlen
    exact indexRule_settles hself (hpart subscript (by simp [Expr.parts]))
  | member id recv name =>
    cases name with
    | none => cases hflaw
    | some name =>
      cases recv with
      | qualified base =>
        obtain ⟨b, rfl⟩ := List.length_eq_one_iff.1 hlen
        exact fieldRule_settles henv hself
      | unqualified => exact variableRule_settles henv hself
      | hollow => cases hflaw
      | absent => cases hflaw
  | call id recv name args =>
    -- the receiver comes first among the parts, and the arguments after it
    have hargPos : ∀ q ∈ args.map Expr.pos, (Expr.call id recv name args).Near q := by
      intro q hq
      obtain ⟨a, ha, rfl⟩ := List.mem_map.1 hq
      exact hpart a (List.mem_append_right _ ha)
    cases name with
    | none => cases hflaw
    | some name =>
      cases recv with
      | qualified base =>
        obtain ⟨b, args, rfl⟩ := List.exists_cons_of_length_eq_add_one hlen
        exact methodRule_settles henv hself hargPos
      | unqualified => exact functionRule_settles henv hself hargPos
      | hollow => cases hflaw
      | absent => cases hflaw
  | new id src cls =>
    cases cls with
    | none => cases hflaw
    | some ref =>
      have href : (TypeRef.named ref).Shows ref.src.pos := rfl
      exact newRule_settles (Expr.near_written (List.mem_singleton_self _) href)
  | newArray id src size elem =>
    obtain ⟨s, rfl⟩ := List.length_eq_one_iff.1 hlen
    have helem : elem ∈ (Expr.newArray id src size elem).written := List.mem_singleton_self elem
    exact newArrayRule_settles (hpart size (List.mem_singleton_self size))
      (fun _ => Expr.near_written helem) (hwritten elem helem)
  | step id op operand =>
    cases op with
    | none => cases hflaw
    | some op =>
      obtain ⟨t, rfl⟩ := List.length_eq_one_iff.1 hlen
      exact stepRule_settles hself

/-- A node without a flaw that is not intact is a new array, and its rule breaks the tree. -/
theorem Env.rule_breaks {e : Expr} (hflaw : e.flaw? = none) (he : ¬ e.Intact)
    (hparts : ∀ s ∈ e.parts, s.pos? ≠ none) {types : List Ty}
    (hlen : types.length = e.parts.length) : (env.rule e (types.map some)).Breaks e.Near := by
  have hbad : ∃ r ∈ e.written, ¬ r.WellFormed := by
    by_contra hall
    push Not at hall
    exact he ⟨hflaw, hall⟩
  obtain ⟨r, hr, hbad⟩ := hbad
  cases e with
  | new id src cls =>
    cases cls with
    | none => cases hflaw
    | some ref =>
      -- the name of the class was looked at with the node itself
      obtain rfl := List.mem_singleton.1 hr
      cases hname : ref.name with
      | none => simp [Expr.flaw?, hname] at hflaw
      | some name => exact absurd (.named hname) hbad
  | newArray id src size elem =>
    obtain rfl := List.mem_singleton.1 hr
    obtain ⟨s, rfl⟩ := List.length_eq_one_iff.1 hlen
    have hsize : size ∈ (Expr.newArray id src size r).parts := List.mem_singleton_self size
    exact newArrayRule_breaks (Expr.near_part hsize (hparts size hsize))
      (fun _ => Expr.near_written hr) hbad
  | _ => cases hr

end Nodes

end Decaf
