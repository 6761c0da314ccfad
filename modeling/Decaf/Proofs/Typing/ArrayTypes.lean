import Decaf.Proofs.Typing.Frame
import Decaf.Proofs.Typing.WellFormed

namespace Decaf

/-!
# The types of new arrays

A new array is written with the type of its elements, which may be an array type itself, to any
depth.  What there can be wrong with it lies at the bottom: `void` has no arrays, and a class may
not be declared.  Every pair of brackets is looked at on its own, and still there is one complaint,
about the bottom, and the type is that which is written.

* `TypeRef.base`, `TypeRef.depth` — the bottom of a written type, and how far down it is.
* `TypeRef.ArrayFault` — what is wrong with arrays of a bottom.
* `resolve_of_wellFormed` — a written type resolves to the type that it writes.
* `resolve_array_events` — what is said about an array type is what is wrong with its bottom.
* `Checker.check_newArray` — a new array is looked at after its size.
* `array_types_resolve` — written array types resolve to themselves, with one complaint at most.
-/

/-! ### The bottom of a type -/

namespace TypeRef

/-- The type at the bottom of a written type, without any brackets. -/
def base : TypeRef → TypeRef
  | array _ elem => elem.base
  | r => r

/-- How many pairs of brackets there are in a written type. -/
def depth : TypeRef → Nat
  | array _ elem => elem.depth + 1
  | _ => 0

/-- What is wrong with arrays of a written type that is none itself. -/
inductive ArrayFault (p : Program) : TypeRef → Diagnostic → Prop
  | void {src : Origin} (h : src.literal = "void") :
      ArrayFault p (.primitive src) ⟨.typeMismatch, src.pos,
        "Array elements cannot have type void", ["void"]⟩
  | undeclared {ref : ClassRef} {name : String} (hname : ref.name = some name)
      (hcls : p.class? name = none) :
      ArrayFault p (.named ref) ⟨.undeclaredClass, ref.src.pos,
        s!"No declaration found for class '{name}'", []⟩

/-- The complaint about arrays of a written type that is none itself. -/
def fault? (p : Program) : TypeRef → Option Finding
  | primitive src => if src.literal = "void" then some ⟨src.pos, .badElement .void⟩ else none
  | named ref =>
    match ref.name with
    | some name =>
      if p.classes.contains name then none else some ⟨ref.src.pos, .undeclaredClass name⟩
    | none => none
  | _ => none

/-- The complaint is made exactly if something is wrong, and it says what. -/
theorem fault?_eq_some_iff {p : Program} {r : TypeRef} {d : Diagnostic} :
    (r.fault? p).map Finding.diagnostic = some d ↔ r.ArrayFault p d := by
  cases r with
  -- the innermost element is never an array, and a missing one is not a fault of an array
  | missing => exact ⟨fun h => (by cases h), fun h => (by cases h)⟩
  | array src elem => exact ⟨fun h => (by cases h), fun h => (by cases h)⟩
  | primitive src =>
    constructor
    · intro h
      by_cases hvoid : src.literal = "void"
      · rw [fault?, if_pos hvoid] at h
        cases h
        exact .void hvoid
      · rw [fault?, if_neg hvoid] at h
        cases h
    · rintro ⟨hvoid⟩
      rw [fault?, if_pos hvoid]
      rfl
  | named ref =>
    constructor
    · intro h
      cases hname : ref.name with
      | none => simp [fault?, hname] at h
      | some name =>
        cases hcls : p.classes.contains name with
        | true => simp [fault?, hname, hcls] at h
        | false =>
          simp only [fault?, hname, hcls, Bool.false_eq_true, if_false, Option.map_some,
            Option.some.injEq] at h
          subst h
          exact .undeclared hname (Dict.contains_eq_false_iff.1 hcls)
    · intro h
      cases h with
      | undeclared hname hcls =>
        simp only [fault?, hname, Dict.contains_eq_false_iff.2 hcls, Bool.false_eq_true, if_false]
        rfl

end TypeRef

/-- How many pairs of brackets there are in a type. -/
def Ty.depth : Ty → Nat
  | array elem => elem.depth + 1
  | _ => 0

/-- A keyword is the name of its type, which is no array, and `void` only if it is that word. -/
theorem Ty.of_ofKeyword? {word : String} {t : Ty} (h : Ty.ofKeyword? word = some t) :
    t.name = word ∧ t.depth = 0 ∧ (t = .void ↔ word = "void") := by
  unfold Ty.ofKeyword? at h
  split at h <;> cases h <;> exact ⟨rfl, rfl, by decide⟩

variable {p : Program} {r elem : TypeRef}

/-! ### Resolving -/

/-- One pair of brackets: what is said about the elements comes first, and then that there are no
    arrays of `void`. -/
theorem resolve_array {t : Ty} (h : (resolve p elem).2 = .ok t) (src : Origin) :
    resolve p (.array src elem) =
      ((resolve p elem).1 ++
        if t = .void then [.found ⟨elem.pos, .badElement t⟩] else [], .ok (.array t)) := by
  rcases hres : resolve p elem with ⟨events, result⟩
  obtain rfl : result = .ok t := by rwa [hres] at h
  rw [resolve, hres]

/-- **Faithful.** A well-formed written type resolves to a type with that name, and with as many
    brackets. -/
theorem resolve_of_wellFormed (h : r.WellFormed) :
    ∃ t, (resolve p r).2 = .ok t ∧ r.text? = some t.name ∧ t.depth = r.depth := by
  induction h with
  | @primitive src hword =>
    -- a well-formed primitive type is one of five words
    obtain ⟨t, ht⟩ : ∃ t, Ty.ofKeyword? src.literal = some t := by
      simp only [List.mem_cons, List.not_mem_nil, or_false] at hword
      rcases hword with hword | hword | hword | hword | hword <;> exact ⟨_, by rw [hword]; rfl⟩
    obtain ⟨hname, hdepth, _⟩ := Ty.of_ofKeyword? ht
    refine ⟨t, by simp [resolve, ht], ?_, hdepth⟩
    show some src.literal = _
    rw [hname]
  | @named ref name hname =>
    refine ⟨.named name, by simp [resolve, hname], ?_, rfl⟩
    show ref.name = _
    rw [hname]
    rfl
  | @array src elem _ ih =>
    obtain ⟨t, ht, htext, hdepth⟩ := ih
    refine ⟨.array t, by rw [resolve_array ht], ?_, ?_⟩
    · show elem.text?.map (· ++ "[]") = _
      rw [htext]
      rfl
    · show t.depth + 1 = elem.depth + 1
      rw [hdepth]

/-- **One complaint.** About a written array type nothing is said but what is wrong with its bottom:
    outer brackets do not repeat it, and inner ones do not hide it. -/
theorem resolve_array_events (h : elem.WellFormed) (src : Origin) :
    (resolve p (.array src elem)).1 = (elem.base.fault? p).toList.map .found := by
  -- each pair of brackets looks whether `void` is right below it, which only the innermost one can
  -- find
  induction h generalizing src with
  | @primitive inner hword =>
    obtain ⟨t, ht, _⟩ := resolve_of_wellFormed (p := p) (.primitive hword)
    rw [resolve_array ht]
    cases hkey : Ty.ofKeyword? inner.literal with
    | none => simp [resolve, hkey] at ht
    | some u =>
      obtain rfl : u = t := by simpa [resolve, hkey] using ht
      obtain ⟨_, _, hvoid⟩ := Ty.of_ofKeyword? hkey
      have hquiet : (resolve p (.primitive inner)).1 = [] := by simp [resolve, hkey]
      show (resolve p (.primitive inner)).1 ++ _ =
        ((TypeRef.primitive inner).fault? p).toList.map .found
      rw [hquiet, List.nil_append, TypeRef.fault?]
      by_cases hu : u = .void
      · rw [if_pos hu, if_pos (hvoid.1 hu), hu]
        rfl
      · rw [if_neg hu, if_neg fun hliteral => hu (hvoid.2 hliteral)]
        rfl
  | @named ref name hname =>
    have ht : (resolve p (.named ref)).2 = .ok (.named name) := by simp [resolve, hname]
    rw [resolve_array ht]
    show (resolve p (.named ref)).1 ++ _ = ((TypeRef.named ref).fault? p).toList.map .found
    cases hcls : p.classes.contains name <;> simp [resolve, hname, hcls, TypeRef.fault?]
  | @array inner elem hwell ih =>
    obtain ⟨t, ht, _⟩ := resolve_of_wellFormed (p := p) hwell
    have harray : (resolve p (.array inner elem)).2 = .ok (.array t) := by rw [resolve_array ht]
    -- what is right below is an array, and not `void`
    have hne : Ty.array t ≠ .void := by simp
    rw [resolve_array harray, if_neg hne, List.append_nil]
    exact ih inner

/-! ### In an expression -/

/-- The complaint about a size that is no integer. -/
def sizeFaults (pos : Position) (s : Ty) : List Finding :=
  if s = .error ∨ s = .int then [] else [⟨pos, .badSize s⟩]

/-- What the rule of a new array says, where the written type resolves. -/
theorem newArrayRule_of_resolve {src : Origin} {events : List Event} {t : Ty}
    (h : resolve p (.array src elem) = (events, .ok t)) (pos : Position) (s : Ty) :
    newArrayRule p src pos elem (some s) =
      { events := (sizeFaults pos s).map .found ++ events, result := .ok (some t) } := by
  rw [newArrayRule, h, sizeFaults]
  split <;> rfl

/-- **New arrays.** Where the size of a new array has a type, whichever it is, the new array has the
    type that is written, and what is said about that type comes after what is said about the
    size. -/
theorem Checker.check_newArray {c c' : Checker} {env : Env} {id : NodeId} {src : Origin}
    {size : Expr} {s t : Ty} {events : List Event} (hnew : c.typeOf? id = none)
    (hsize : c.check env size = (.ok (some s), c'))
    (hres : resolve env.program (.array src elem) = (events, .ok t)) :
    ∃ c'', c.check env (.newArray id src size elem) = (.ok (some t), c'') ∧
      c''.findings = c'.findings ++ sizeFaults size.pos s ++ events.filterMap Event.finding? := by
  -- a size with a type is there
  have hthere : size.isMissing = false := by
    cases size with
    | absent => cases hsize
    | hollow => cases hsize
    | _ => rfl
  have hflaw : (Expr.newArray id src size elem).flaw? = none := by simp [Expr.flaw?, hthere]
  have hparts : (checkExprs env (Expr.newArray id src size elem).parts).run c =
      (.ok [some s], c') := by
    have hrun : (checkExpr env size).run c = (.ok (some s), c') := hsize
    show (checkExprs env [size]).run c = _
    simp only [checkExprs]
    rw [run_bind, hrun]
    rfl
  have hrule : env.rule (.newArray id src size elem) [some s] =
      { events := (sizeFaults size.pos s).map .found ++ events, result := .ok (some t) } :=
    newArrayRule_of_resolve hres size.pos s
  have hcheck : c.check env (.newArray id src size elem) =
      (.ok (some t), c'.settle id (env.rule (.newArray id src size elem) [some s])) := by
    rw [Checker.check, checkExpr_eq_visit env rfl, run_visit_eq_settle, hnew, hflaw, hparts]
    simp only [hrule]
  refine ⟨_, hcheck, ?_⟩
  have hfound : ((sizeFaults size.pos s).map Event.found).filterMap Event.finding? =
      sizeFaults size.pos s := by
    rw [List.filterMap_map]
    exact List.filterMap_some
  rw [findings_settle, hrule, Verdict.findings, List.filterMap_append, hfound, List.append_assoc]

/-- **Array types resolve to themselves.** Take any program and any written type in which nothing is
    missing, to any depth of arrays, as the type of the elements of a new array.  The array type has
    the written name with one more pair of brackets, and it is one deeper.  There is one complaint
    if `void` stands at the bottom or a class that is not declared, made where the bottom stands,
    and there is none otherwise.  In an expression, this comes after what is said about the size. -/
theorem array_types_resolve (p : Program) (src : Origin) (elem : TypeRef)
    (hwell : elem.WellFormed) :
    ∃ t text, ∃ fault : Option Diagnostic,
      (resolve p (.array src elem)).2 = .ok t ∧ t.isArray = true ∧
      elem.text? = some text ∧ t.name = text ++ "[]" ∧ t.depth = elem.depth + 1 ∧
      (∀ d, fault = some d ↔ elem.base.ArrayFault p d) ∧
      ((resolve p (.array src elem)).1.filterMap Event.finding?).map Finding.diagnostic =
        fault.toList ∧
      ∀ (c c' : Checker) (context : Context) (id : NodeId) (size : Expr) (s : Ty),
        c.typeOf? id = none → c.check ⟨p, context⟩ size = (.ok (some s), c') →
          ∃ c'', c.check ⟨p, context⟩ (.newArray id src size elem) = (.ok (some t), c'') ∧
            c''.diagnostics = c'.diagnostics ++ (sizeFaults size.pos s).map Finding.diagnostic ++
              fault.toList := by
  obtain ⟨u, hu, htext, hdepth⟩ := resolve_of_wellFormed (p := p) hwell
  -- all that is said comes from the bottom of the brackets
  have hevents : (resolve p (.array src elem)).1 = (elem.base.fault? p).toList.map .found :=
    resolve_array_events hwell src
  have hresult : (resolve p (.array src elem)).2 = .ok (.array u) := by rw [resolve_array hu]
  have hfound : ((resolve p (.array src elem)).1.filterMap Event.finding?).map Finding.diagnostic =
      ((elem.base.fault? p).map Finding.diagnostic).toList := by
    rw [hevents]
    cases elem.base.fault? p <;> rfl
  refine ⟨.array u, u.name, (elem.base.fault? p).map Finding.diagnostic, hresult, rfl,
    htext, rfl, ?_, fun d => TypeRef.fault?_eq_some_iff, hfound, ?_⟩
  · show u.depth + 1 = elem.depth + 1
    rw [hdepth]
  · intro c c' context id size s hnew hsize
    obtain ⟨c'', hcheck, hfindings⟩ := Checker.check_newArray hnew hsize (Prod.ext rfl hresult)
    refine ⟨c'', hcheck, ?_⟩
    rw [Checker.diagnostics, hfindings, List.map_append, List.map_append, hfound]
    rfl

/-- There are no arrays of arrays of `void`, which is said once, where `void` stands, and after what
    is wrong with the size. -/
theorem array_of_void_arrays_reported_once :
    let elem : TypeRef :=
      .array ⟨"[]", ⟨1, 23⟩⟩ (.array ⟨"[]", ⟨1, 21⟩⟩ (.primitive ⟨"void", ⟨1, 17⟩⟩))
    let size : Expr := .leaf 0 ⟨"true", ⟨1, 10⟩⟩ .bool
    ∃ c : Checker, elem.WellFormed ∧
      ({} : Checker).check ⟨.empty, {}⟩ (.newArray 1 ⟨"NewArray", ⟨1, 1⟩⟩ size elem) =
        (.ok (some (.array (.array (.array .void)))), c) ∧
      c.diagnostics =
        [⟨.typeMismatch, ⟨1, 10⟩, "Size for NewArray must be an integer, not bool", ["bool"]⟩,
        ⟨.typeMismatch, ⟨1, 17⟩, "Array elements cannot have type void", ["void"]⟩] := by
  intro elem size
  have hwell : elem.WellFormed := .array (.array (.primitive (by simp)))
  obtain ⟨t, text, fault, hresult, _, _, _, _, hfault, _, hcheck⟩ :=
    array_types_resolve .empty ⟨"NewArray", ⟨1, 1⟩⟩ elem hwell
  obtain rfl : .array (.array (.array .void)) = t := Except.ok.inj hresult
  obtain rfl : fault = some _ := (hfault _).2 (.void rfl)
  obtain ⟨c, hc, hdiagnostics⟩ :=
    hcheck {} (Checker.check {} ⟨.empty, {}⟩ size).2 {} 1 size .bool rfl rfl
  exact ⟨c, hwell, hc, hdiagnostics⟩

end Decaf
