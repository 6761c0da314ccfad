import Decaf.Proofs.Program.Overriding

namespace Decaf

/-!
# The order of declarations

Declarations can be made in many orders, and whether one is accepted depends on those before it.
Where all of them are accepted, the order leaves no trace but one: the fields of a class stand in
the order in which they were declared.  Apart from that a program has just what is declared.

* `Program.bareClass?_declare`, `Program.methodOf?_declare`, `Program.fieldsOf_declare`,
  `Program.function?_declare`, `Program.global?_declare` — what an accepted declaration adds.
* `Program.found_declareAll`, `Program.fieldsOf_declareAll` — what is there after many.
* `Program.eq_of_perm` — the same declarations in another order build the same program.
-/

/-! ### What a declaration adds -/

namespace Decl

/-- The function that is declared. -/
def function? : Decl → Option Method
  | function f => some f
  | _ => none

/-- The global variable that is declared. -/
def global? : Decl → Option Symbol
  | global name type => some { name, kind := .global, type }
  | _ => none

end Decl

namespace Program

variable {p q : Program} {cls name : String} {d : Decl}

/-! ### What an accepted declaration does -/

/-- The class without its members. -/
def bareClass? (p : Program) (cls : String) : Option ClassDecl :=
  (p.class? cls).map ClassDecl.bare

/-- The fields of a class, in their order. -/
def fieldsOf (p : Program) (cls : String) : List Symbol :=
  ((p.class? cls).map ClassDecl.fields).getD []

/-- The method of a class. -/
def methodOf? (p : Program) (cls name : String) : Option Method :=
  (p.class? cls).bind (·.method? name)

theorem bareClass?_declare (hd : p.declare d = .ok q) (b : ClassDecl) :
    q.bareClass? cls = some b ↔ p.bareClass? cls = some b ∨ (d.bare? = some b ∧ b.name = cls) := by
  unfold bareClass?
  rcases class?_declare_exact hd cls with ⟨hsame, hother, _⟩ | ⟨b', hb', hname, _, _, hp, hq⟩ |
    ⟨f, c, _, hnone, _, hp, hq⟩ | ⟨m, c, _, hnone, _, hp, _, hq⟩
  · rw [hsame]
    exact ⟨.inl, fun h => h.resolve_right fun hb => hother b hb.1 hb.2⟩
  · rw [hp, hq, hb', Option.map_some, Decl.bare_of_bare? hb']
    constructor
    · intro hb
      cases hb
      exact .inr ⟨rfl, hname⟩
    · rintro (hb | ⟨hb, _⟩)
      · cases hb
      · exact hb
  · rw [hp, hq, hnone]
    simp [ClassDecl.bare]
  · rw [hp, hq, hnone]
    simp [ClassDecl.bare]

theorem methodOf?_declare (hd : p.declare d = .ok q) (m : Method) :
    q.methodOf? cls name = some m ↔
      p.methodOf? cls name = some m ∨ (d.methodOf? cls = some m ∧ m.name = name) := by
  unfold methodOf?
  rcases class?_declare_exact hd cls with ⟨hsame, _, _, hother⟩ | ⟨b, hb, _, _, hother, hp, hq⟩ |
    ⟨f, c, _, _, hother, hp, hq⟩ | ⟨m', c, hm', _, _, hp, hnew, hq⟩
  · rw [hsame, hother]
    simp
  · have hempty : b.methods = .empty := congrArg ClassDecl.methods (Decl.bare_of_bare? hb).symm
    rw [hp, hq, hother]
    simp [ClassDecl.method?, hempty]
  · rw [hp, hq, hother]
    simp [ClassDecl.method?]
  · rw [hp, hq, hm']
    simp only [Option.bind_some, ClassDecl.method?, Dict.get?_insert_eq_some_iff hnew,
      Option.some.injEq]
    refine or_congr_right (and_congr_right ?_)
    rintro rfl
    rfl

theorem fieldsOf_declare (hd : p.declare d = .ok q) (cls : String) :
    q.fieldsOf cls = p.fieldsOf cls ++ (d.fieldOf? cls).toList := by
  unfold fieldsOf
  rcases class?_declare_exact hd cls with ⟨hsame, _, hother, _⟩ | ⟨b, hb, _, hother, _, hp, hq⟩ |
    ⟨f, c, hf, _, _, hp, hq⟩ | ⟨m, c, _, _, hother, hp, _, hq⟩
  · simp [hsame, hother]
  · have hempty : b.fields = [] := congrArg ClassDecl.fields (Decl.bare_of_bare? hb).symm
    simp [hp, hq, hother, hempty]
  · simp [hp, hq, hf]
  · simp [hp, hq, hother]

theorem function?_declare (hd : p.declare d = .ok q) (f : Method) :
    q.functions.get? name = some f ↔
      p.functions.get? name = some f ∨ (d.function? = some f ∧ f.name = name) := by
  cases d with
  | function g =>
    obtain ⟨hnew, _, rfl⟩ := addFunction_ok hd
    simp only [Dict.get?_insert_eq_some_iff hnew, Decl.function?, Option.some.injEq]
    refine or_congr_right (and_congr_right ?_)
    rintro rfl
    rfl
  | class_ | interface | field | method | global =>
    have hsame : q.functions = p.functions := by simpa using (outside_declare hd).1
    simp [hsame, Decl.function?]

theorem global?_declare (hkind : p.globals.kind = .global) (hd : p.declare d = .ok q) (v : Symbol) :
    q.globals.get? name = some v ↔
      p.globals.get? name = some v ∨ (d.global? = some v ∧ v.name = name) := by
  cases d with
  | global n type =>
    obtain ⟨_, hnew, rfl⟩ := addGlobal_ok hd
    rw [hkind, Scope.get?, Dict.get?_insert_eq_some_iff hnew, Decl.global?, Option.some.injEq]
    refine or_congr_right (and_congr_right ?_)
    rintro rfl
    rfl
  | class_ | interface | field | method | function =>
    have hsame : q.globals = p.globals := by simpa using (outside_declare hd).2
    simp [hsame, Decl.global?]

/-! ### Whole runs -/

/-- The scope of the global variables is of one sort. -/
theorem Built.kind_globals (hp : p.Built) : p.globals.kind = .global := by
  induction hp with
  | empty => rfl
  | @declare p q d _ hd ih =>
    cases d with
    | global name type =>
      obtain ⟨_, _, rfl⟩ := addGlobal_ok hd
      exact ih
    | class_ | interface | field | method | function =>
      have hsame : q.globals = p.globals := by simpa using (outside_declare hd).2
      rw [hsame, ih]
  | @link p q child parent _ hlink ih =>
    unfold Program.link at hlink
    split at hlink
    · cases hlink
    · cases hlink
      exact ih

variable {ds es : List Decl}

theorem built_declareAll (h : empty.declareAll ds = .ok p) : p.Built :=
  declareAll_induction h .empty fun _ _ _ _ hp hd => hp.declare hd

/-- **Run.** Where each declaration adds what it shows and nothing is lost, there is in the end what
    was there at first and what the declarations show. -/
theorem found_declareAll {α : Type} {F : Program → Option α} {shown : Decl → Option α}
    {P : α → Prop} (hstep : ∀ {p q : Program} {d : Decl}, p.Built → p.declare d = .ok q →
      ∀ a, F q = some a ↔ F p = some a ∨ (shown d = some a ∧ P a))
    (hp : p.Built) (h : p.declareAll ds = .ok q) (a : α) :
    F q = some a ↔ F p = some a ∨ ∃ d ∈ ds, shown d = some a ∧ P a := by
  induction ds generalizing p with
  | nil =>
    cases h
    simp
  | cons d ds ih =>
    obtain ⟨p₁, hd, hds⟩ := declareAll_cons_ok h
    rw [ih (hp.declare hd) hds, hstep hp hd a, or_assoc, List.exists_mem_cons_iff]

/-- What is found does not depend on the order of the declarations. -/
theorem found_eq_of_perm {α : Type} {F : Program → Option α} {shown : Decl → Option α}
    {P : α → Prop} (hstep : ∀ {p q : Program} {d : Decl}, p.Built → p.declare d = .ok q →
      ∀ a, F q = some a ↔ F p = some a ∨ (shown d = some a ∧ P a))
    (hp : empty.declareAll ds = .ok p) (hq : empty.declareAll es = .ok q) (hperm : ds.Perm es) :
    F p = F q := by
  apply Option.ext
  intro a
  rw [found_declareAll hstep .empty hp, found_declareAll hstep .empty hq]
  simp only [hperm.mem_iff]

/-- The fields that are declared follow those that were there, in their order. -/
theorem fieldsOf_declareAll (h : p.declareAll ds = .ok q) (cls : String) :
    q.fieldsOf cls = p.fieldsOf cls ++ ds.filterMap (Decl.fieldOf? cls) := by
  induction ds generalizing p with
  | nil =>
    cases h
    simp
  | cons d ds ih =>
    obtain ⟨p₁, hd, hds⟩ := declareAll_cons_ok h
    rw [ih hds, fieldsOf_declare hd, List.append_assoc, List.filterMap_cons]
    cases d.fieldOf? cls <;> rfl

/-- A class is its bare part, its fields and its methods. -/
theorem class?_eq (hbare : p.bareClass? cls = q.bareClass? cls)
    (hfields : p.fieldsOf cls = q.fieldsOf cls)
    (hmethods : ∀ name, p.methodOf? cls name = q.methodOf? cls name) :
    p.class? cls = q.class? cls := by
  unfold bareClass? at hbare
  unfold fieldsOf at hfields
  unfold methodOf? at hmethods
  cases hp : p.class? cls with
  | none =>
    rw [hp, Option.map_none] at hbare
    exact (Option.map_eq_none_iff.1 hbare.symm).symm
  | some c =>
    cases hq : q.class? cls with
    | none => simp [hp, hq] at hbare
    | some e =>
      simp only [hp, hq, Option.map_some, Option.getD_some, Option.bind_some,
        Option.some.injEq] at hbare hfields hmethods
      have hdict : c.methods = e.methods := Dict.ext_get? hmethods
      -- a class is its header with the fields and the methods put back
      have hc : c = { c.bare with fields := c.fields, methods := c.methods } := rfl
      rw [hc, hbare, hfields, hdict]
      rfl

/-- **Order.** Declarations that are all accepted build the same program in every order in which
    they are all accepted, provided that the fields of each class stay in their order. -/
theorem eq_of_perm (hp : empty.declareAll ds = .ok p) (hq : empty.declareAll es = .ok q)
    (hperm : ds.Perm es)
    (hfields : ∀ cls, ds.filterMap (Decl.fieldOf? cls) = es.filterMap (Decl.fieldOf? cls)) :
    p = q := by
  have hclass : ∀ cls, p.class? cls = q.class? cls := by
    intro cls
    refine class?_eq ?_ ?_ fun name => ?_
    · exact found_eq_of_perm (F := (·.bareClass? cls))
        (fun _ hd => bareClass?_declare hd) hp hq hperm
    · rw [fieldsOf_declareAll hp, fieldsOf_declareAll hq, hfields]
    · exact found_eq_of_perm (F := (·.methodOf? cls name))
        (fun _ hd => methodOf?_declare hd) hp hq hperm
  have hclasses : p.classes = q.classes := Dict.ext_get? hclass
  have hfunctions : p.functions = q.functions := Dict.ext_get? fun name =>
    found_eq_of_perm (F := (·.functions.get? name)) (fun _ hd => function?_declare hd) hp hq hperm
  have hsymbols : p.globals.symbols = q.globals.symbols := Dict.ext_get? fun name =>
    found_eq_of_perm (F := (·.globals.get? name))
      (fun hbuilt hd => global?_declare hbuilt.kind_globals hd) hp hq hperm
  have hkind : p.globals.kind = q.globals.kind :=
    (built_declareAll hp).kind_globals.trans (built_declareAll hq).kind_globals.symm
  -- the links of the hierarchy are those that the classes are declared with
  have hparents : p.hierarchy.parents = q.hierarchy.parents := Dict.ext_get? fun name => by
    have hedge := (lawful_declareAll hp).edges name
    rw [hclass, ← (lawful_declareAll hq).edges name] at hedge
    exact hedge
  calc
    p = ⟨p.classes, ⟨p.hierarchy.parents⟩, p.functions, ⟨p.globals.kind, p.globals.symbols⟩⟩ := rfl
    _ = q := by rw [hclasses, hparents, hfunctions, hkind, hsymbols]

end Program

end Decaf
