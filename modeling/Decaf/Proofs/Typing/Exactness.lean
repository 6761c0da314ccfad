import Decaf.Proofs.Program.Lookup
import Decaf.Proofs.Typing.Acceptance
import Decaf.Proofs.Typing.Memory

namespace Decaf

/-!
# The checker decides the type system

Where all declarations can be relied on, the checker gives an expression a type without a complaint
exactly if the type system does.

* `Env.Declares.of_field`, … — what is looked up has the property that all declarations have.
* `Typed.allows`, `Env.Allows.typed` — the rule of a node and the rules of inference ask for the
  same.
* `Env.Clean.passes_iff_typed` — an expression passes exactly if it has a type.
* `check_eq_ok_iff_typed` — the checker and the type system agree on every expression.
-/

variable {env : Env}

/-! ### Looking up what is declared -/

/-- A property of the types in a signature may be weakened. -/
theorem Method.Declares.mono {P Q : Option Ty → Prop} {m : Method} (h : m.Declares P)
    (hPQ : ∀ t, P t → Q t) :
    m.Declares Q where
  params q hq := hPQ _ (h.params q hq)
  ret := hPQ _ h.ret

namespace Env.Declares

variable {P : Option Ty → Prop}

/-- A property of the types of all declarations may be weakened. -/
theorem mono {Q : Option Ty → Prop} (h : env.Declares P) (hPQ : ∀ t, P t → Q t) :
    env.Declares Q where
  locals s hs v hv := hPQ _ (h.locals s hs v hv)
  globals v hv := hPQ _ (h.globals v hv)
  fields c hc f hf := hPQ _ (h.fields c hc f hf)
  methods c hc m hm := (h.methods c hc m hm).mono hPQ
  functions f hf := (h.functions f hf).mono hPQ

/-- Variables of the scopes around an expression have the property. -/
theorem of_local (h : env.Declares P) {name : String} {t : Option Ty}
    (ht : env.context.typeOf? name = some t) : P t := by
  obtain ⟨v, hv, rfl⟩ := Option.map_eq_some_iff.1 ht
  obtain ⟨s, hs, hget⟩ := List.exists_of_findSome?_eq_some hv
  exact h.locals s hs v (Dict.mem_values_of_get? hget)

/-- Global variables have the property. -/
theorem of_global (h : env.Declares P) {name : String} {t : Option Ty}
    (ht : env.program.global? name = some t) : P t := by
  obtain ⟨v, hv, rfl⟩ := Option.map_eq_some_iff.1 ht
  exact h.globals v (Dict.mem_values_of_get? hv)

/-- Fields have the property, inherited ones too. -/
theorem of_field (h : env.Declares P) {cls name : String} {t : Option Ty}
    (ht : env.program.field? cls name = some t) : P t := by
  obtain ⟨_, _, c, f, hc, hfield, rfl⟩ := Program.exists_class_of_field? ht
  exact h.fields c (Dict.mem_values_of_get? hc) f (List.mem_of_find?_eq_some hfield)

/-- Methods have it in their signatures, inherited and promised ones too. -/
theorem of_method (h : env.Declares P) {cls name : String} {m : Method}
    (hm : env.program.method? cls name = some m) : m.Declares P := by
  obtain ⟨_, c, hc, hmethod⟩ := Program.exists_class_of_method? hm
  exact h.methods c (Dict.mem_values_of_get? hc) m (Dict.mem_values_of_get? hmethod)

/-- Functions have it in their signatures. -/
theorem of_function (h : env.Declares P) {name : String} {f : Method}
    (hf : env.program.function? name = some f) : f.Declares P :=
  h.functions f (Dict.mem_values_of_get? hf)

end Env.Declares

/-! ### Types without the error type -/

/-- A type in which the error type does not occur is not the error type. -/
theorem Ty.ne_error_of_mentionsError {t : Ty} (h : t.mentionsError = false) : t ≠ .error := by
  rintro rfl
  cases h

theorem Ty.mentionsError_of_isNumeric {t : Ty} (h : t.isNumeric) : t.mentionsError = false := by
  cases t <;> first | rfl | cases h

/-- A declared type that is there is not the error type. -/
theorem SoundType.mentionsError {t : Ty} (h : SoundType (some t)) : t.mentionsError = false := by
  obtain ⟨u, hu, herr⟩ := h
  cases hu
  exact herr

theorem SoundType.ne_none {t : Option Ty} (h : SoundType t) : t ≠ none := by
  obtain ⟨u, rfl, _⟩ := h
  exact Option.some_ne_none u

/-- Written types do not mention the error type: it has no keyword. -/
theorem TypeRef.Denotes.mentionsError {p : Program} {r : TypeRef} {t : Ty} (h : r.Denotes p t) :
    t.mentionsError = false := by
  induction h with
  | @primitive src t hkey =>
    unfold Ty.ofKeyword? at hkey
    split at hkey <;> cases hkey <;> rfl
  | named => rfl
  | array _ _ ih => exact ih

/-- The error type does not occur in the type of an expression. -/
theorem Typed.mentionsError (hclean : env.Clean) {e : Expr} {t : Ty} (h : Typed env e t) :
    t.mentionsError = false := by
  -- a type comes from a numeric operand, a declaration, a written type or the parts
  induction h with
  | @fixed _ _ kind t h => cases kind <;> cases h <;> rfl
  | minus _ hnum => exact Ty.mentionsError_of_isNumeric hnum
  | arithmetic _ hnum => exact Ty.mentionsError_of_isNumeric hnum
  | assignment _ _ _ _ _ ihl => exact ihl
  | index _ _ ihbase => exact ihbase
  | field _ _ hfield => exact (hclean.of_field hfield).mentionsError
  | localVariable hvar => exact (hclean.of_local hvar).mentionsError
  | ownField _ _ hfield => exact (hclean.of_field hfield).mentionsError
  | globalVariable _ _ hglobal => exact (hclean.of_global hglobal).mentionsError
  | method _ _ hmethod _ _ _ hret => exact (hret ▸ (hclean.of_method hmethod).ret).mentionsError
  | ownMethod _ hmethod _ _ _ hret => exact (hret ▸ (hclean.of_method hmethod).ret).mentionsError
  | function _ hfun _ _ _ hret => exact (hret ▸ (hclean.of_function hfun).ret).mentionsError
  | newArray _ helem => exact helem.mentionsError
  | step _ _ hnum => exact Ty.mentionsError_of_isNumeric hnum
  | _ => rfl

/-! ### The rule of a node and the rules of inference -/

/-- The rule of a node accepts the type `t`, its parts having the types that the type system gives
    them. -/
def Env.Allows (env : Env) (e : Expr) (t : Option Ty) : Prop :=
  e.flaw? = none ∧ ∃ types : List Ty,
    List.Forall₂ (Typed env) e.parts types ∧ (env.rule e (types.map some)).Accepts t

/-- What has a type is there. -/
theorem Typed.isMissing {e : Expr} {t : Ty} (h : Typed env e t) : e.isMissing = false := by
  cases h <;> rfl

/-- What has a type is not left out. -/
theorem Typed.isAbsent {e : Expr} {t : Ty} (h : Typed env e t) : e.isAbsent = false := by
  cases h <;> rfl

/-- What has a type is not the error type. -/
theorem Typed.ne_error (hclean : env.Clean) {e : Expr} {t : Ty} (h : Typed env e t) : t ≠ .error :=
  Ty.ne_error_of_mentionsError (h.mentionsError hclean)

/-- Arguments that have types do not have the error type. -/
theorem Typed.forall_ne_error (hclean : env.Clean) {es : List Expr} {types : List Ty}
    (h : List.Forall₂ (Typed env) es types) : ∀ t ∈ types, t ≠ .error := by
  intro t ht
  obtain ⟨i, hi, rfl⟩ := List.getElem_of_mem ht
  exact (h.get (h.length_eq ▸ hi) hi).ne_error hclean

/-- A binary operator of the form is accepted if the form's rule accepts its operands. -/
theorem Env.allows_binary {id : NodeId} {form : Form} {op : Token} {left right : Expr} {l r : Ty}
    {t : Option Ty} (hop : op.kind ∈ (form.operators false).map .mark) (hl : Typed env left l)
    (hr : Typed env right r)
    (hrule : ∀ pos, (compoundRule env.program pos form op.literal left.isLValue (some l)
      (some r)).Accepts t) :
    env.Allows (.compound id form (some op) left right) t := by
  refine ⟨?_, [l, r], ?_, ?_⟩
  · simp [Expr.flaw?, operatorFlaw?, hl.isMissing, hl.isAbsent, hr.isMissing, hop]
  · simp [Expr.parts, hl.isAbsent, hl, hr]
  · exact hrule _

/-- A unary operator of the form is accepted if the form's rule accepts its operand. -/
theorem Env.allows_unary {id : NodeId} {form : Form} {op : Token} {right : Expr} {r : Ty}
    {t : Option Ty} (hform : form.mayBeUnary) (hop : op.kind ∈ (form.operators true).map .mark)
    (hr : Typed env right r)
    (hrule : ∀ pos, (compoundRule env.program pos form op.literal false none (some r)).Accepts t) :
    env.Allows (.compound id form (some op) .absent right) t := by
  refine ⟨?_, [r], ?_, ?_⟩
  · simp [Expr.flaw?, operatorFlaw?, hform, Expr.isAbsent, hr.isMissing, hop]
  · simp [Expr.parts, Expr.isAbsent, hr]
  · exact hrule _

/-- **Completeness of the rules.** The rule of a node accepts the type that the type system gives
    it. -/
theorem Typed.allows (hclean : env.Clean) {e : Expr} {t : Ty} (h : Typed env e t) :
    env.Allows e (some t) := by
  cases h with
  | @fixed id src kind _ h =>
    -- each case names the types of the parts and leaves the rule to accept them
    refine ⟨rfl, [], .nil, ?_⟩
    cases kind <;> cases h <;> simp [Env.rule, leafRule]
  | this_ h => exact ⟨rfl, [], .nil, by simp [Env.rule, leafRule, h]⟩
  | minus hop hnum hr =>
    exact Env.allows_unary rfl (by simp [Form.operators, hop]) hr fun _ =>
      (compoundRule_accepts_iff_of_unary (hr.ne_error hclean) rfl).2 ⟨hnum, rfl⟩
  | arithmetic hop hnum hl hr =>
    exact Env.allows_binary hop hl hr fun _ =>
      (compoundRule_accepts_iff (hl.ne_error hclean) (hr.ne_error hclean)).2 ⟨hnum, rfl, rfl⟩
  | relational hop hnum hl hr =>
    exact Env.allows_binary hop hl hr fun _ =>
      (compoundRule_accepts_iff (hl.ne_error hclean) (hr.ne_error hclean)).2 ⟨hnum, rfl, rfl⟩
  | equality hop hl hr hlv hrv hfit =>
    exact Env.allows_binary hop hl hr fun _ =>
      (compoundRule_accepts_iff (hl.ne_error hclean) (hr.ne_error hclean)).2 ⟨hlv, hrv, hfit, rfl⟩
  | not hop hr =>
    exact Env.allows_unary rfl (by simp [Form.operators, hop]) hr fun _ =>
      (compoundRule_accepts_iff_of_unary (hr.ne_error hclean) rfl).2 ⟨rfl, rfl⟩
  | logical hop hl hr =>
    exact Env.allows_binary hop hl hr fun _ =>
      (compoundRule_accepts_iff (hl.ne_error hclean) (hr.ne_error hclean)).2 ⟨rfl, rfl, rfl⟩
  | assignment hop htarget hl hr hfit =>
    exact Env.allows_binary (by simp [Form.operators, hop]) hl hr fun _ =>
      (compoundRule_accepts_iff (hl.ne_error hclean) (hr.ne_error hclean)).2 ⟨htarget, hfit, rfl⟩
  | @index _ src _ subscript _ hbase hsub =>
    refine ⟨by simp [Expr.flaw?, hbase.isMissing, hsub.isMissing], [_, _],
      .cons hbase (.cons hsub .nil), ?_⟩
    show (indexRule src.pos subscript.pos (some (.array t)) (some .int)).Accepts (some t)
    rw [indexRule_accepts_iff (hbase.ne_error hclean) (hsub.ne_error hclean)]
    exact ⟨rfl, t, rfl, rfl⟩
  | field hbase hdecl hfield =>
    refine ⟨by simp [Expr.flaw?, receiverFlaw?, hbase.isMissing], [_], .cons hbase .nil, ?_⟩
    exact (fieldRule_accepts_iff (hbase.ne_error hclean)).2 ⟨_, rfl, hdecl, hfield⟩
  | localVariable hvar => exact ⟨rfl, [], .nil, variableRule_accepts_iff.2 (.inl hvar)⟩
  | ownField hvar hcls hfield =>
    exact ⟨rfl, [], .nil, variableRule_accepts_iff.2 (.inr ⟨hvar, .inl (by simp [hcls, hfield])⟩)⟩
  | globalVariable hvar hfield hglobal =>
    -- variables are sought inside out: scopes, fields, global variables
    have hnone := Option.bind_eq_none_iff.2 hfield
    exact ⟨rfl, [], .nil, variableRule_accepts_iff.2 (.inr ⟨hvar, .inr ⟨hnone, hglobal⟩⟩)⟩
  | length hname hbase =>
    refine ⟨by simp [Expr.flaw?, receiverFlaw?, hbase.isMissing], [_], .cons hbase .nil, ?_⟩
    have hnone : ([] : List Position).length = ([] : List Ty).length := rfl
    exact (methodRule_accepts_iff (hbase.ne_error hclean) (fun _ _ => hclean.of_method)
      (Typed.forall_ne_error hclean .nil) hnone).2 (.inl ⟨_, rfl, hname, rfl, rfl⟩)
  | @method _ _ _ args types _ m _ hbase hdecl hmethod hlen hargs htakes hret =>
    have htypes : List.Forall₂ (Typed env) args types :=
      List.forall₂_iff_zip.2 ⟨hlen, fun h => hargs _ h⟩
    refine ⟨by simp [Expr.flaw?, receiverFlaw?, hbase.isMissing], _ :: types,
      .cons hbase htypes, ?_⟩
    exact (methodRule_accepts_iff (hbase.ne_error hclean) (fun _ _ => hclean.of_method)
      (Typed.forall_ne_error hclean htypes) (by simpa using hlen)).2
      (.inr ⟨_, m, rfl, hdecl, hmethod, hret.symm, htakes⟩)
  | @ownMethod _ _ args types _ m _ hcls hmethod hlen hargs htakes hret =>
    have htypes : List.Forall₂ (Typed env) args types :=
      List.forall₂_iff_zip.2 ⟨hlen, fun h => hargs _ h⟩
    refine ⟨rfl, types, htypes, ?_⟩
    exact (functionRule_accepts_iff (fun _ _ => hclean.of_method) (fun _ => hclean.of_function)
      (Typed.forall_ne_error hclean htypes) (by simpa using hlen)).2
      ⟨m, .inl (by simp [hcls, hmethod]), hret.symm, htakes⟩
  | @function _ _ args types f _ hmethod hfun hlen hargs htakes hret =>
    have htypes : List.Forall₂ (Typed env) args types :=
      List.forall₂_iff_zip.2 ⟨hlen, fun h => hargs _ h⟩
    refine ⟨rfl, types, htypes, ?_⟩
    exact (functionRule_accepts_iff (fun _ _ => hclean.of_method) (fun _ => hclean.of_function)
      (Typed.forall_ne_error hclean htypes) (by simpa using hlen)).2
      ⟨f, .inr ⟨Option.bind_eq_none_iff.2 hmethod, hfun⟩, hret.symm, htakes⟩
  | new hname hcls hobjects =>
    refine ⟨by simp [Expr.flaw?, hname], [], .nil, ?_⟩
    simp only [Env.rule, hname, Option.getD_some]
    exact newRule_accepts_iff.2 ⟨_, hcls, hobjects, rfl⟩
  | newArray hsize helem hvoid =>
    refine ⟨by simp [Expr.flaw?, hsize.isMissing], [_], .cons hsize .nil, ?_⟩
    exact (newArrayRule_accepts_iff (hsize.ne_error hclean)).2 ⟨rfl, _, helem, hvoid, rfl⟩
  | step hop htarget hnum h =>
    refine ⟨by simp [Expr.flaw?, operatorFlaw?, hop, h.isMissing] at hop ⊢, [_], .cons h .nil, ?_⟩
    exact (stepRule_accepts_iff (h.ne_error hclean)).2 ⟨htarget, hnum, rfl⟩

/-- Nothing is wrong with an operator that is there and is one of those allowed. -/
theorem operatorFlaw?_eq_none_iff {op : Option Token} {node : String} {allowed : List Mark} :
    operatorFlaw? op node allowed = none ↔
      ∃ token, op = some token ∧ token.kind ∈ allowed.map .mark := by
  unfold operatorFlaw?
  cases op with
  | none => simp
  | some token =>
    simp only [ite_eq_left_iff, reduceCtorEq, imp_false, not_not, Option.some.injEq,
      exists_eq_left']

/-- A compound has no flaw if its form allows for a missing left operand where one is missing, its
    operator belongs to the form, and its right operand is there. -/
theorem flaw?_compound_eq_none_iff {id : NodeId} {form : Form} {op : Option Token}
    {left right : Expr} :
    (Expr.compound id form op left right).flaw? = none ↔
      (left.isMissing → form.mayBeUnary) ∧
        (∃ token, op = some token ∧ token.kind ∈ (form.operators left.isAbsent).map .mark) ∧
        right.isMissing = false := by
  rw [← @operatorFlaw?_eq_none_iff op (form.nameOf left.isAbsent), Expr.flaw?]
  cases form.mayBeUnary <;> cases left.isMissing <;>
    cases operatorFlaw? op (form.nameOf left.isAbsent) (form.operators left.isAbsent) <;> simp

/-- What the type system says about an operator whose rule accepts its operands. -/
theorem Env.Allows.typed_compound (hclean : env.Clean) {id : NodeId} {form : Form}
    {op : Option Token} {left right : Expr} {t : Option Ty}
    (h : env.Allows (.compound id form op left right) t) :
    ∃ u, t = some u ∧ Typed env (.compound id form op left right) u := by
  obtain ⟨hflaw, types, htypes, hrule⟩ := h
  obtain ⟨hunary, ⟨token, rfl, hop⟩, _⟩ := flaw?_compound_eq_none_iff.1 hflaw
  cases hleft : left.isAbsent with
  | true =>
    -- without a left operand the operator is a unary one
    obtain rfl : left = .absent := by cases left <;> first | rfl | cases hleft
    rw [hleft] at hop
    simp only [Expr.parts, Expr.isAbsent, if_true, List.forall₂_cons_left_iff,
      List.forall₂_nil_left_iff] at htypes
    obtain ⟨r, _, hr, rfl, rfl⟩ := htypes
    have haccepts := (compoundRule_accepts_iff_of_unary (hr.ne_error hclean) (hunary rfl)).1 hrule
    cases form with
    | arithmetic =>
      exact ⟨r, haccepts.2, .minus (by simpa [Form.operators] using hop) haccepts.1 hr⟩
    | logical =>
      obtain ⟨rfl, ht⟩ := haccepts
      exact ⟨.bool, ht, .not (by simpa [Form.operators] using hop) hr⟩
    | _ => exact haccepts.elim
  | false =>
    rw [hleft] at hop
    simp only [Expr.parts, hleft, Bool.false_eq_true, if_false, List.forall₂_cons_left_iff,
      List.forall₂_nil_left_iff] at htypes
    obtain ⟨l, _, hl, ⟨r, _, hr, rfl, rfl⟩, rfl⟩ := htypes
    -- no operand has the error type, so the rule says all there is to say
    have haccepts := (compoundRule_accepts_iff (hl.ne_error hclean) (hr.ne_error hclean)).1 hrule
    cases form with
    | arithmetic =>
      obtain ⟨hnum, rfl, ht⟩ := haccepts
      exact ⟨l, ht, .arithmetic hop hnum hl hr⟩
    | relational =>
      obtain ⟨hnum, rfl, ht⟩ := haccepts
      exact ⟨.bool, ht, .relational hop hnum hl hr⟩
    | equality =>
      obtain ⟨hlv, hrv, hfit, ht⟩ := haccepts
      exact ⟨.bool, ht, .equality hop hl hr hlv hrv hfit⟩
    | logical =>
      obtain ⟨rfl, rfl, ht⟩ := haccepts
      exact ⟨.bool, ht, .logical hop hl hr⟩
    | assignment =>
      obtain ⟨htarget, hfit, ht⟩ := haccepts
      exact ⟨l, ht, .assignment (by simpa [Form.operators] using hop) htarget hl hr hfit⟩

/-- What the type system says about a call whose rule accepts its arguments. -/
theorem Env.Allows.typed_call (hclean : env.Clean) {id : NodeId} {recv : Receiver Expr}
    {name : Option Ident} {args : List Expr} {t : Option Ty}
    (h : env.Allows (.call id recv name args) t) :
    ∃ u, t = some u ∧ Typed env (.call id recv name args) u := by
  obtain ⟨hflaw, types, htypes, hrule⟩ := h
  cases name with
  | none => simp [Expr.flaw?] at hflaw
  | some name =>
    cases recv with
    | qualified base =>
      obtain ⟨b, rest, hbase, hargs, rfl⟩ := List.forall₂_cons_left_iff.1 htypes
      have hlen : args.length = rest.length := hargs.length_eq
      have haccepts := (methodRule_accepts_iff (hbase.ne_error hclean) (fun _ _ => hclean.of_method)
        (Typed.forall_ne_error hclean hargs) (by simpa using hlen)).1 hrule
      -- the length of an array, or a method of a class
      rcases haccepts with ⟨u, rfl, hname, rfl, rfl⟩ | ⟨cls, m, rfl, hdecl, hmethod, rfl, htakes⟩
      · obtain rfl : args = [] := List.forall₂_nil_right_iff.1 hargs
        exact ⟨.int, rfl, .length hname hbase⟩
      · obtain ⟨u, hret, _⟩ := (hclean.of_method hmethod).ret
        exact ⟨u, hret, .method hbase hdecl hmethod hlen (fun _ hx =>
          (List.forall₂_iff_zip.1 hargs).2 hx) htakes hret⟩
    | unqualified =>
      have hlen : args.length = types.length := htypes.length_eq
      have hzip : ∀ x ∈ args.zip types, Typed env x.1 x.2 :=
        fun _ hx => (List.forall₂_iff_zip.1 htypes).2 hx
      have haccepts :=
        (functionRule_accepts_iff (fun _ _ => hclean.of_method) (fun _ => hclean.of_function)
          (Typed.forall_ne_error hclean htypes) (by simpa using hlen)).1 hrule
      -- a method of the class around, or else a function
      obtain ⟨m, hfound | ⟨hnone, hfun⟩, rfl, htakes⟩ := haccepts
      · obtain ⟨cls, hcls, hmethod⟩ := Option.bind_eq_some_iff.1 hfound
        obtain ⟨u, hret, _⟩ := (hclean.of_method hmethod).ret
        exact ⟨u, hret, .ownMethod hcls hmethod hlen hzip htakes hret⟩
      · obtain ⟨u, hret, _⟩ := (hclean.of_function hfun).ret
        exact ⟨u, hret, .function (Option.bind_eq_none_iff.1 hnone) hfun hlen hzip htakes hret⟩
    | _ => simp [Expr.flaw?, receiverFlaw?] at hflaw

/-- What the type system says about a field or a variable whose rule accepts it. -/
theorem Env.Allows.typed_member (hclean : env.Clean) {id : NodeId} {recv : Receiver Expr}
    {name : Option Ident} {t : Option Ty} (h : env.Allows (.member id recv name) t) :
    ∃ u, t = some u ∧ Typed env (.member id recv name) u := by
  obtain ⟨hflaw, types, htypes, hrule⟩ := h
  cases name with
  | none => simp [Expr.flaw?] at hflaw
  | some name =>
    cases recv with
    | qualified base =>
      obtain ⟨b, rest, hbase, hnil, rfl⟩ := List.forall₂_cons_left_iff.1 htypes
      obtain ⟨cls, rfl, hdecl, hfield⟩ := (fieldRule_accepts_iff (hbase.ne_error hclean)).1 hrule
      obtain ⟨u, rfl, _⟩ := hclean.of_field hfield
      exact ⟨u, rfl, .field hbase hdecl hfield⟩
    | unqualified =>
      -- a local variable, then a field of the class around, then a global variable
      rcases variableRule_accepts_iff.1 hrule with hvar | ⟨hvar, hfield | ⟨hfield, hglobal⟩⟩
      · obtain ⟨u, rfl, _⟩ := hclean.of_local hvar
        exact ⟨u, rfl, .localVariable hvar⟩
      · obtain ⟨cls, hcls, hfound⟩ := Option.bind_eq_some_iff.1 hfield
        obtain ⟨u, rfl, _⟩ := hclean.of_field hfound
        exact ⟨u, rfl, .ownField hvar hcls hfound⟩
      · obtain ⟨u, rfl, _⟩ := hclean.of_global hglobal
        exact ⟨u, rfl, .globalVariable hvar (Option.bind_eq_none_iff.1 hfield) hglobal⟩
    | _ => simp [Expr.flaw?, receiverFlaw?] at hflaw

/-- **Soundness of the rules.** The type that the rule of a node accepts is one that the type system
    gives it. -/
theorem Env.Allows.typed (hclean : env.Clean) {e : Expr} {t : Option Ty} (h : env.Allows e t) :
    ∃ u, t = some u ∧ Typed env e u := by
  cases e with
  | absent => cases h.1
  | hollow => cases h.1
  | leaf id src kind =>
    obtain ⟨_, types, _, hrule⟩ := h
    cases kind with
    | this_ =>
      cases hcls : env.context.cls with
      | none => simp [Env.rule, leafRule, hcls] at hrule
      | some cls => exact ⟨.named cls, by simpa [Env.rule, leafRule, hcls] using hrule, .this_ hcls⟩
    | _ => exact ⟨_, by simpa [Env.rule, leafRule] using hrule, .fixed rfl⟩
  | compound id form op left right => exact h.typed_compound hclean
  | index id src base subscript =>
    obtain ⟨_, types, htypes, hrule⟩ := h
    obtain ⟨b, _, hbase, hrest, rfl⟩ := List.forall₂_cons_left_iff.1 htypes
    obtain ⟨s, _, hsub, hnil, rfl⟩ := List.forall₂_cons_left_iff.1 hrest
    obtain rfl := List.forall₂_nil_left_iff.1 hnil
    -- the rule of the node, with the types of the two parts put in
    replace hrule : (indexRule src.pos subscript.pos (some b) (some s)).Accepts t := hrule
    rw [indexRule_accepts_iff (hbase.ne_error hclean) (hsub.ne_error hclean)] at hrule
    obtain ⟨rfl, u, rfl, rfl⟩ := hrule
    exact ⟨u, rfl, .index hbase hsub⟩
  | member id recv name => exact h.typed_member hclean
  | call id recv name args => exact h.typed_call hclean
  | new id src ref =>
    obtain ⟨hflaw, _, _, hrule⟩ := h
    cases ref with
    | none => simp [Expr.flaw?] at hflaw
    | some ref =>
      cases hname : ref.name with
      | none => simp [Expr.flaw?, hname] at hflaw
      | some name =>
        simp only [Env.rule, hname, Option.getD_some] at hrule
        obtain ⟨c, hcls, hobjects, rfl⟩ := newRule_accepts_iff.1 hrule
        exact ⟨.named name, rfl, .new hname hcls hobjects⟩
  | newArray id src size elem =>
    obtain ⟨_, types, htypes, hrule⟩ := h
    obtain ⟨s, _, hsize, _, rfl⟩ := List.forall₂_cons_left_iff.1 htypes
    obtain ⟨rfl, u, helem, hvoid, rfl⟩ := (newArrayRule_accepts_iff (hsize.ne_error hclean)).1 hrule
    exact ⟨.array u, rfl, .newArray hsize helem hvoid⟩
  | step id op operand =>
    obtain ⟨hflaw, types, htypes, hrule⟩ := h
    obtain ⟨u, _, hu, _, rfl⟩ := List.forall₂_cons_left_iff.1 htypes
    cases op with
    | none => simp [Expr.flaw?, operatorFlaw?] at hflaw
    | some op =>
      obtain ⟨htarget, hnum, rfl⟩ := (stepRule_accepts_iff (hu.ne_error hclean)).1 hrule
      -- any other operator would be a flaw
      have hop : op.kind ∈ [Mark.inc, Mark.dec].map .mark := by
        by_cases hop : op.kind ∈ [Mark.inc, Mark.dec].map .mark
        · exact hop
        · simp only [Expr.flaw?, operatorFlaw?, hop, if_false] at hflaw
          cases hflaw
      exact ⟨u, rfl, .step hop htarget hnum hu⟩

/-! ### Whole expressions -/

/-- The rules give the expression the type `t` and complain about no part of it. -/
def Env.Passes (env : Env) (e : Expr) (t : Option Ty) : Prop :=
  (env.verdict e).result = .ok t ∧ env.Quiet e

/-- An expression passes if its parts do and its rule accepts their types. -/
theorem Env.passes_iff {e : Expr} {t : Option Ty} :
    env.Passes e t ↔
      e.flaw? = none ∧ ∃ types, List.Forall₂ env.Passes e.parts types ∧
        (env.rule e types).Accepts t := by
  constructor
  · rintro ⟨hresult, hquiet⟩
    obtain ⟨hflaw, types, htypes, hverdict⟩ := Env.verdict_ok hresult
    obtain ⟨hnone, hparts⟩ := Env.quiet_iff.1 hquiet
    rw [hverdict] at hresult hnone
    refine ⟨hflaw, types, List.forall₂_iff_get.2 ⟨?_, fun i hi hi' => ⟨?_, ?_⟩⟩, hnone, hresult⟩
    · simpa using congrArg List.length (Verdict.collect_eq_ok_iff.1 htypes)
    · have hget := congrArg (·[i]?) (Verdict.collect_eq_ok_iff.1 htypes)
      simpa [hi, hi'] using hget
    · exact hparts _ (List.get_mem e.parts ⟨i, hi⟩)
  · rintro ⟨hflaw, types, hparts, hnone, hresult⟩
    -- the verdicts of the parts give the types, one by one
    have htypes : Verdict.collect (e.parts.map env.verdict) = .ok types := by
      rw [Verdict.collect_eq_ok_iff, List.map_map]
      refine List.ext_getElem (by simpa using hparts.length_eq) fun i hi hi' => ?_
      simp only [List.length_map] at hi hi'
      simpa using (hparts.get hi hi').1
    have hverdict := env.verdict_eq_rule hflaw htypes
    refine ⟨hverdict ▸ hresult, Env.quiet_iff.2 ⟨hverdict ▸ hnone, fun c hc => ?_⟩⟩
    obtain ⟨i, hi, rfl⟩ := List.getElem_of_mem hc
    exact (hparts.get hi (hparts.length_eq ▸ hi)).2

/-- Several expressions pass exactly if they have types, provided that this is so for each of
    them. -/
theorem forall₂_passes_iff {es : List Expr}
    (h : ∀ e ∈ es, ∀ t, env.Passes e t ↔ ∃ u, t = some u ∧ Typed env e u)
    (types : List (Option Ty)) :
    List.Forall₂ env.Passes es types ↔
      ∃ us : List Ty, types = us.map some ∧ List.Forall₂ (Typed env) es us := by
  induction es generalizing types with
  | nil =>
    constructor
    · intro hnil
      cases hnil
      exact ⟨[], rfl, .nil⟩
    · rintro ⟨us, rfl, hnil⟩
      cases hnil
      exact .nil
  | cons e es ih =>
    -- a list passes when its first expression and the rest pass, and so for the types
    have hes := ih fun c hc => h c (List.mem_cons_of_mem e hc)
    have he := h e List.mem_cons_self
    constructor
    · intro hall
      obtain ⟨t, ts, hfirst, hrest, rfl⟩ := List.forall₂_cons_left_iff.1 hall
      obtain ⟨u, rfl, hu⟩ := (he t).1 hfirst
      obtain ⟨us, rfl, hus⟩ := (hes ts).1 hrest
      exact ⟨u :: us, rfl, .cons hu hus⟩
    · rintro ⟨_, rfl, hall⟩
      obtain ⟨u, us, hu, hus, rfl⟩ := List.forall₂_cons_left_iff.1 hall
      exact .cons ((he _).2 ⟨u, rfl, hu⟩) ((hes _).2 ⟨us, rfl, hus⟩)

/-- **Whole expressions.** An expression passes exactly if it has a type. -/
theorem Env.Clean.passes_iff_typed (hclean : env.Clean) (e : Expr) (t : Option Ty) :
    env.Passes e t ↔ ∃ u, t = some u ∧ Typed env e u := by
  induction e using Expr.induction_parts generalizing t with
  | h e ih =>
    -- both sides are about the parts and the rule; the parts pass by induction
    rw [Env.passes_iff]
    constructor
    · rintro ⟨hflaw, types, htypes, hrule⟩
      obtain ⟨us, rfl, hus⟩ := (forall₂_passes_iff ih types).1 htypes
      exact Env.Allows.typed hclean ⟨hflaw, us, hus, hrule⟩
    · rintro ⟨u, rfl, hu⟩
      obtain ⟨hflaw, us, hus, hrule⟩ := hu.allows hclean
      exact ⟨hflaw, us.map some, (forall₂_passes_iff ih _).2 ⟨us, rfl, hus⟩, hrule⟩

/-- **The checker decides the type system.** Let no declaration lack a type or mention the error
    type.  A checker that has seen nothing gives an expression a type without a complaint exactly if
    it has that type in the type system.  Nodes may be shared: a number only has to belong to one
    node.  Malformed expressions fail and have no type. -/
theorem check_eq_ok_iff_typed (env : Env) (hclean : env.Clean) (e : Expr) (hshare : e.Coherent)
    (t : Ty) :
    ((({} : Checker).check env e).1 = .ok (some t) ∧
        (({} : Checker).check env e).2.diagnostics = []) ↔
      Typed env e t := by
  have hpasses : env.Passes e (some t) ↔ Typed env e t := by
    rw [hclean.passes_iff_typed]
    simp
  rw [← hpasses, (Checker.check_fresh env hshare).1, Env.Passes]
  exact and_congr_right fun hresult => Checker.diagnostics_check_fresh_eq_nil_iff hshare hresult

/-- A call whose argument is made from one node twice: inside a class that declares a number `x` and
    a method that takes a number, the type of `m(x + x)` is that of the method's result, and nothing
    is complained about. -/
theorem check_shared_argument :
    let field : Symbol := { name := "x", kind := .field, type := some .int, owner := some "A" }
    let method : Method :=
      { name := "m", params := [⟨"n", some .int⟩], ret := some (.named "A"), owner := some "A" }
    let cls : ClassDecl :=
      { name := "A", fields := [field], methods := Dict.empty.insert "m" method }
    let env : Env :=
      { program := { classes := Dict.empty.insert "A" cls }, context := { cls := some "A" } }
    let x : Expr := .member 0 .unqualified (some ⟨"x", ⟨"x", .start⟩⟩)
    let sum : Expr :=
      .compound 1 .arithmetic (some { kind := .mark .plus, literal := "+", pos := .start }) x x
    let call : Expr := .call 2 .unqualified (some ⟨"m", ⟨"m", .start⟩⟩) [sum]
    (({} : Checker).check env call).1 = .ok (some (.named "A")) ∧
      (({} : Checker).check env call).2.diagnostics = [] := by
  intro field method cls env x sum call
  have hclean : env.Clean := by
    constructor
    · exact fun _ h => nomatch h
    · exact fun _ h => nomatch h
    · intro c hc f hf
      obtain rfl : c = cls := List.mem_singleton.1 hc
      obtain rfl : f = field := List.mem_singleton.1 hf
      exact ⟨.int, rfl, rfl⟩
    · intro c hc m hm
      obtain rfl : c = cls := List.mem_singleton.1 hc
      obtain rfl : m = method := List.mem_singleton.1 hm
      refine ⟨fun q hq => ?_, .named "A", rfl, rfl⟩
      obtain rfl : q = ⟨"n", some .int⟩ := List.mem_singleton.1 hq
      exact ⟨.int, rfl, rfl⟩
    · exact fun _ h => nomatch h
  have hshare : call.Coherent := by
    have hnodes : ∀ s : Expr, s.Within call → s = call ∨ s = sum ∨ s = x := by
      intro s hs
      rcases Expr.within_iff.1 hs with rfl | ⟨c, hc, hs⟩
      · exact .inl rfl
      · obtain rfl : c = sum := List.mem_singleton.1 hc
        rcases Expr.within_iff.1 hs with rfl | ⟨c, hc, hs⟩
        · exact .inr (.inl rfl)
        · obtain rfl : c = x := or_self_iff.1 (List.mem_pair.1 hc)
          rcases Expr.within_iff.1 hs with rfl | ⟨c, hc, _⟩
          · exact .inr (.inr rfl)
          · cases hc
    intro a b ha hb id hida hidb
    rcases hnodes a ha with rfl | rfl | rfl <;> rcases hnodes b hb with rfl | rfl | rfl <;>
      first | rfl | (cases hida; cases hidb)
  have hx : Typed env x .int := .ownField rfl rfl rfl
  have hsum : Typed env sum .int := .arithmetic (by decide) rfl hx hx
  have htakes : method.Takes env.program [.int] := .cons ⟨.int, rfl, .refl⟩ .nil
  have hcall : Typed env call (.named "A") := by
    refine .ownMethod rfl rfl rfl (fun y hy => ?_) htakes rfl
    obtain rfl := List.mem_singleton.1 hy
    exact hsum
  exact (check_eq_ok_iff_typed env hclean call hshare _).2 hcall

end Decaf
