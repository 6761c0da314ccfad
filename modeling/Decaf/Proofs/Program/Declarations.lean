import Decaf.Program.Basic
import Decaf.Proofs.Dict
import Mathlib.Data.List.Nodup

namespace Decaf

/-!
# Programs that declarations build

A program is built by declarations alone: whatever is declared, in whatever order, and whether a
declaration is accepted or refused, the parts of the program fit together.

* `Decl` — a declaration, and `Program.ofDecls`, the program that declarations build.
* `Program.ofDecls_induction` — what every accepted declaration keeps holds of every program built.
* `ClassDecl.Lawful`, `Program.Lawful` — the parts of a class, and of a program, fit together.
* `Program.lawful_ofDecls` — the parts of every program built fit together.
* `Program.class?_declare_exact`, `Program.class?_declare`, `Program.outside_declare` — what an
  accepted declaration changes.
* `Program.exists_decl_of_class?`, … — what is found was declared.
* `Program.Built` — a program that declarations and links between classes build, in any order.
-/

/-! ### Declarations one after the other -/

/-- A declaration. -/
inductive Decl where
  | class_ (name : String) (parent : Option String) (interfaces : List String)
  | interface (name : String)
  | field (cls name : String) (type : Option Ty)
  | method (cls : String) (m : Method)
  | function (f : Method)
  | global (name : String) (type : Option Ty)
deriving DecidableEq

/-- The name that is declared. -/
def Decl.name : Decl → String
  | class_ name _ _ | interface name | field _ name _ | global name _ => name
  | method _ m => m.name
  | function f => f.name

/-- The name of the class or interface that is declared. -/
def Decl.class? : Decl → Option String
  | class_ name _ _ | interface name => some name
  | _ => none

/-- The name of a class that is declared is the name that is declared. -/
theorem Decl.name_of_class? {d : Decl} {name : String} (h : d.class? = some name) :
    d.name = name := by
  cases d with
  | class_ | interface => exact Option.some.inj h
  | field | method | function | global => cases h

namespace Decl

/-- The class or interface that is declared, which has no members yet. -/
def bare? : Decl → Option ClassDecl
  | class_ name parent interfaces => some { name, parent := parent.filter (· ≠ ""), interfaces }
  | interface name => some { name, isInterface := true }
  | _ => none

/-- The field of the class `cls` that is declared. -/
def fieldOf? (cls : String) : Decl → Option Symbol
  | field c name type =>
    if c = cls then some { name, kind := .field, type, owner := some cls } else none
  | _ => none

/-- The method of the class `cls` that is declared. -/
def methodOf? (cls : String) : Decl → Option Method
  | method c m => if c = cls then some { m with owner := some cls } else none
  | _ => none

end Decl

/-- The class without its members. -/
def ClassDecl.bare (c : ClassDecl) : ClassDecl :=
  { c with fields := [], methods := .empty }

/-- A class that has just been declared has no members. -/
theorem Decl.bare_of_bare? {d : Decl} {b : ClassDecl} (h : d.bare? = some b) : b.bare = b := by
  cases d with
  | class_ | interface =>
    cases h
    rfl
  | field | method | function | global => cases h

theorem Decl.class?_of_bare? {d : Decl} {b : ClassDecl} (h : d.bare? = some b) :
    d.class? = some b.name := by
  cases d with
  | class_ | interface =>
    cases h
    rfl
  | field | method | function | global => cases h

theorem Decl.eq_field_of_fieldOf? {d : Decl} {cls : String} {f : Symbol}
    (h : d.fieldOf? cls = some f) :
    ∃ name type, d = .field cls name type ∧
      f = { name, kind := .field, type, owner := some cls } := by
  cases d with
  | field c name type =>
    obtain ⟨rfl, hf⟩ := Option.ite_none_right_eq_some.1 h
    exact ⟨name, type, rfl, (Option.some.inj hf).symm⟩
  | class_ | interface | method | function | global => cases h

theorem Decl.eq_method_of_methodOf? {d : Decl} {cls : String} {m : Method}
    (h : d.methodOf? cls = some m) :
    ∃ m' : Method, d = .method cls m' ∧ m = { m' with owner := some cls } := by
  cases d with
  | method c m' =>
    obtain ⟨rfl, hm⟩ := Option.ite_none_right_eq_some.1 h
    exact ⟨m', rfl, (Option.some.inj hm).symm⟩
  | class_ | interface | field | function | global => cases h

namespace Program

/-- The program with one more declaration, or why the declaration is refused. -/
def declare (p : Program) : Decl → Except DeclError Program
  | .class_ name parent interfaces => p.addClass name parent interfaces
  | .interface name => p.addInterface name
  | .field cls name type => p.addField cls name type
  | .method cls m => p.addMethod cls m
  | .function f => p.addFunction f
  | .global name type => p.addGlobal name type

/-- The program after a declaration.  One that is refused changes nothing. -/
def after (p : Program) (d : Decl) : Program :=
  match p.declare d with
  | .ok q => q
  | .error _ => p

/-- The program that declarations build. -/
def ofDecls (ds : List Decl) : Program :=
  ds.foldl after .empty

/-- **Induction over declarations.** What holds of the program without declarations, and is kept by
    each of the declarations where it is accepted, holds of the program that they build. -/
theorem ofDecls_induction {P : Program → Prop} (hempty : P .empty) {ds : List Decl}
    (hstep : ∀ p q, ∀ d ∈ ds, P p → p.declare d = .ok q → P q) : P (ofDecls ds) := by
  have hrun : ∀ p, P p → P (ds.foldl after p) := by
    intro p hp
    induction ds generalizing p with
    | nil => exact hp
    | cons d ds ih =>
      refine ih (fun p q e he => hstep p q e (List.mem_cons_of_mem d he)) _ ?_
      unfold after
      cases hd : p.declare d with
      | error e => exact hp
      | ok q => exact hstep p q d List.mem_cons_self hp hd
  exact hrun .empty hempty

end Program

/-! ### Accepted declarations -/

namespace Program

variable {p q : Program}

/-- What an accepted class changes. -/
theorem addClass_ok {name : String} {parent : Option String} {interfaces : List String}
    (h : p.addClass name parent interfaces = .ok q) :
    p.class? name = none ∧ parent.filter (· ≠ "") ≠ some name ∧
      q.classes = p.classes.insert name { name, parent := parent.filter (· ≠ ""), interfaces } ∧
      (∀ c, q.hierarchy.parent? c =
        if c = name then (parent.filter (· ≠ "")).or (p.hierarchy.parent? c)
        else p.hierarchy.parent? c) ∧
      q.functions = p.functions ∧ q.globals = p.globals := by
  unfold addClass at h
  -- an empty name stands for no parent, and from here on only the rest matters
  generalize parent.filter (· ≠ "") = parent at h ⊢
  dsimp only at h
  split at h
  · cases h
  · rename_i hfree
    have hnone : p.class? name = none := Dict.contains_eq_false_iff.1 (by simpa using hfree)
    cases parent with
    | none =>
      cases h
      exact ⟨hnone, by simp, rfl, by simp, rfl, rfl⟩
    | some a =>
      simp only [link, Hierarchy.link] at h
      by_cases hself : name = a
      · simp [hself] at h
      · -- a link that is there already would refuse the class
        by_cases hkey : p.hierarchy.parents.contains name
        · simp [hself, hkey] at h
        · simp only [hself, hkey, if_false, Bool.false_eq_true, Except.ok.injEq] at h
          subst h
          refine ⟨hnone, fun heq => hself (Option.some.inj heq).symm, rfl, fun c => ?_, rfl, rfl⟩
          by_cases hc : c = name
          · simp [Hierarchy.parent?, hc]
          · simp [Hierarchy.parent?, Dict.get?_insert, hc]

/-- What an accepted interface changes. -/
theorem addInterface_ok {name : String} (h : p.addInterface name = .ok q) :
    p.class? name = none ∧
      q = { p with classes := p.classes.insert name { name, isInterface := true } } := by
  unfold addInterface at h
  split at h
  · cases h
  · rename_i hfree
    cases h
    exact ⟨Dict.contains_eq_false_iff.1 (by simpa using hfree), rfl⟩

/-- What an accepted field changes. -/
theorem addField_ok {cls name : String} {type : Option Ty} (h : p.addField cls name type = .ok q) :
    ∃ c, p.class? cls = some c ∧ c.isInterface = false ∧ c.field? name = none ∧
      c.method? name = none ∧ p.inheritedField? cls name = none ∧
      q = { p with
        classes := p.classes.insert cls { c with
          fields := c.fields ++ [{ name, kind := .field, type, owner := some cls }] } } := by
  unfold addField at h
  cases hc : p.class? cls with
  | none => simp [hc] at h
  | some c =>
    simp only [hc] at h
    refine ⟨c, rfl, ?_⟩
    by_cases hinterface : c.isInterface
    · simp [hinterface] at h
    · by_cases hfield : (c.field? name).isSome
      · simp [hinterface, hfield] at h
      · by_cases hmethod : (c.method? name).isSome
        · simp [hinterface, hfield, hmethod] at h
        · by_cases hinherited : (p.inheritedField? cls name).isSome
          · simp [hinterface, hfield, hmethod, hinherited] at h
          · simp only [hinterface, hfield, hmethod, hinherited, if_false, Bool.false_eq_true,
              Except.ok.injEq] at h
            simp_all

/-- What an accepted method changes. -/
theorem addMethod_ok {cls : String} {m : Method} (h : p.addMethod cls m = .ok q) :
    ∃ c, p.class? cls = some c ∧ c.method? m.name = none ∧ c.field? m.name = none ∧
      (p.inheritedMethod? cls m.name).bind (·.mismatch? m) = none ∧
      q = { p with
        classes := p.classes.insert cls
          { c with methods := c.methods.insert m.name { m with owner := some cls } } } := by
  unfold addMethod at h
  cases hc : p.class? cls with
  | none => simp [hc] at h
  | some c =>
    simp only [hc] at h
    refine ⟨c, rfl, ?_⟩
    by_cases hmethod : (c.method? m.name).isSome
    · simp [hmethod] at h
    · by_cases hfield : (c.field? m.name).isSome
      · simp [hmethod, hfield] at h
      · cases hmismatch : (p.inheritedMethod? cls m.name).bind (·.mismatch? m) with
        | some reason => simp [hmethod, hfield, hmismatch] at h
        | none => simp_all

/-- What an accepted function changes. -/
theorem addFunction_ok {f : Method} (h : p.addFunction f = .ok q) :
    p.functions.get? f.name = none ∧ p.globals.get? f.name = none ∧
      q = { p with functions := p.functions.insert f.name f } := by
  unfold addFunction at h
  by_cases hfun : p.functions.contains f.name
  · simp [hfun] at h
  · by_cases hglobal : p.globals.symbols.contains f.name
    · simp [hfun, hglobal] at h
    · simp only [hfun, hglobal, if_false, Bool.false_eq_true, Except.ok.injEq] at h
      exact ⟨Dict.contains_eq_false_iff.1 (by simpa using hfun),
        Dict.contains_eq_false_iff.1 (by simpa using hglobal), h.symm⟩

/-- What an accepted global variable changes. -/
theorem addGlobal_ok {name : String} {type : Option Ty} (h : p.addGlobal name type = .ok q) :
    p.functions.get? name = none ∧ p.globals.get? name = none ∧
      q = { p with
        globals := { p.globals with
          symbols := p.globals.symbols.insert name { name, kind := p.globals.kind, type } } } := by
  unfold addGlobal Scope.declare at h
  by_cases hfun : p.functions.contains name
  · simp [hfun] at h
  · by_cases hglobal : p.globals.symbols.contains name
    · simp [hfun, hglobal] at h
    · simp only [hfun, hglobal, if_false, Bool.false_eq_true, Except.ok.injEq] at h
      exact ⟨Dict.contains_eq_false_iff.1 (by simpa using hfun),
        Dict.contains_eq_false_iff.1 (by simpa using hglobal), h.symm⟩

end Program

/-! ### Parts that fit together -/

/-- The parts of the class that is stored under `name` fit together. -/
structure ClassDecl.Lawful (name : String) (c : ClassDecl) : Prop where
  named : c.name = name
  parent_ne_empty : c.parent ≠ some ""
  parent_ne_self : c.parent ≠ some name
  /-- Interfaces only have methods. -/
  bare : c.isInterface → c.parent = none ∧ c.interfaces = [] ∧ c.fields = []
  nodup_fields : (c.fields.map (·.name)).Nodup
  field_owner : ∀ f ∈ c.fields, f.owner = some name
  method_name : ∀ {m : String} {d : Method}, c.method? m = some d → d.name = m
  method_owner : ∀ {m : String} {d : Method}, c.method? m = some d → d.owner = some name
  disjoint : ∀ m : String, c.field? m = none ∨ c.method? m = none

namespace ClassDecl.Lawful

variable {name : String} {c : ClassDecl}

/-- A class without members. -/
theorem ofClass {parent : Option String} {interfaces : List String} (hempty : parent ≠ some "")
    (hself : parent ≠ some name) : ClassDecl.Lawful name { name, parent, interfaces } where
  named := rfl
  parent_ne_empty := hempty
  parent_ne_self := hself
  bare h := by cases h
  nodup_fields := List.nodup_nil
  field_owner f hf := by cases hf
  method_name h := by cases h
  method_owner h := by cases h
  disjoint _ := .inl rfl

/-- An interface without members. -/
theorem ofInterface : ClassDecl.Lawful name { name, isInterface := true } where
  named := rfl
  parent_ne_empty h := by cases h
  parent_ne_self h := by cases h
  bare _ := ⟨rfl, rfl, rfl⟩
  nodup_fields := List.nodup_nil
  field_owner f hf := by cases hf
  method_name h := by cases h
  method_owner h := by cases h
  disjoint _ := .inl rfl

/-- One more field, of a name that no member has. -/
theorem addField (hc : c.Lawful name) (hclass : c.isInterface = false) {f : Symbol}
    (hfield : c.field? f.name = none) (hmethod : c.method? f.name = none)
    (howner : f.owner = some name) :
    ClassDecl.Lawful name { c with fields := c.fields ++ [f] } where
  named := hc.named
  parent_ne_empty := hc.parent_ne_empty
  parent_ne_self := hc.parent_ne_self
  bare h := by simp [hclass] at h
  nodup_fields := by
    -- no field has the name, or it would have been found
    have hnew : ∀ g ∈ c.fields, g.name ≠ f.name := by simpa [ClassDecl.field?] using hfield
    rw [List.map_append, List.nodup_append]
    refine ⟨hc.nodup_fields, List.nodup_singleton _, ?_⟩
    intro a ha b hb
    obtain ⟨g, hg, rfl⟩ := List.mem_map.1 ha
    obtain rfl := List.mem_singleton.1 hb
    exact hnew g hg
  field_owner g hg := by
    rcases List.mem_append.1 hg with hg | hg
    · exact hc.field_owner g hg
    · obtain rfl := List.mem_singleton.1 hg
      exact howner
  method_name := hc.method_name
  method_owner := hc.method_owner
  disjoint m := by
    by_cases hm : m = f.name
    · exact .inr (hm ▸ hmethod)
    · refine (hc.disjoint m).imp_left fun hnone => ?_
      simp only [ClassDecl.field?] at hnone
      simp [ClassDecl.field?, hnone, Ne.symm hm]

/-- One more method, of a name that no member has. -/
theorem addMethod (hc : c.Lawful name) {m : Method} (hfield : c.field? m.name = none)
    (howner : m.owner = some name) :
    ClassDecl.Lawful name { c with methods := c.methods.insert m.name m } where
  named := hc.named
  parent_ne_empty := hc.parent_ne_empty
  parent_ne_self := hc.parent_ne_self
  bare := hc.bare
  nodup_fields := hc.nodup_fields
  field_owner := hc.field_owner
  method_name {n d} h := by
    rcases Dict.eq_or_get?_of_get?_insert h with ⟨hn, rfl⟩ | ⟨_, h⟩
    · exact hn.symm
    · exact hc.method_name h
  method_owner {n d} h := by
    rcases Dict.eq_or_get?_of_get?_insert h with ⟨_, rfl⟩ | ⟨_, h⟩
    · exact howner
    · exact hc.method_owner h
  disjoint n := by
    by_cases hn : n = m.name
    · exact .inl (hn ▸ hfield)
    · refine (hc.disjoint n).imp_right fun hnone => ?_
      rw [ClassDecl.method?, Dict.get?_insert, if_neg hn]
      exact hnone

end ClassDecl.Lawful

/-- The parts of a program fit together. -/
structure Program.Lawful (p : Program) : Prop where
  classes : ∀ {name : String} {c : ClassDecl}, p.class? name = some c → c.Lawful name
  /-- The hierarchy links a class to the parent that it is declared with, and nothing else. -/
  edges : ∀ name, p.hierarchy.parent? name = (p.class? name).bind (·.parent)
  functions : ∀ {name : String} {f : Method}, p.functions.get? name = some f → f.name = name
  globals : ∀ {name : String} {v : Symbol}, p.globals.get? name = some v → v.name = name
  separate : ∀ name, p.functions.get? name = none ∨ p.globals.get? name = none

namespace Program

variable {p q : Program}

/-- The parts stay together when a class is stored and the hierarchy links it to its parent. -/
theorem Lawful.storeClass (hp : p.Lawful) {name : String} {d : ClassDecl} (hd : d.Lawful name)
    (hclasses : q.classes = p.classes.insert name d)
    (hedges : ∀ n, q.hierarchy.parent? n = if n = name then d.parent else p.hierarchy.parent? n)
    (hfunctions : q.functions = p.functions) (hglobals : q.globals = p.globals) : q.Lawful where
  classes {n e} he := by
    rw [class?, hclasses] at he
    rcases Dict.eq_or_get?_of_get?_insert he with ⟨rfl, rfl⟩ | ⟨_, he⟩
    · exact hd
    · exact hp.classes he
  edges n := by
    rw [hedges, class?, hclasses, Dict.get?_insert]
    split
    · rfl
    · exact hp.edges n
  functions := by
    rw [hfunctions]
    exact hp.functions
  globals := by
    rw [hglobals]
    exact hp.globals
  separate := by
    rw [hfunctions, hglobals]
    exact hp.separate

/-- A class that is stored anew, with the parent that it had, keeps the parts together. -/
theorem Lawful.updateClass (hp : p.Lawful) {name : String} {c d : ClassDecl}
    (hc : p.class? name = some c) (hparent : d.parent = c.parent) (hd : d.Lawful name) :
    Lawful { p with classes := p.classes.insert name d } := by
  refine hp.storeClass hd rfl (fun n => ?_) rfl rfl
  split
  · rename_i hn
    show p.hierarchy.parent? n = d.parent
    rw [hn, hp.edges, hc, hparent, Option.bind_some]
  · rfl

/-- One more function, of a name that no variable has. -/
theorem Lawful.addFunction (hp : p.Lawful) {f : Method} (hglobal : p.globals.get? f.name = none) :
    Lawful { p with functions := p.functions.insert f.name f } where
  classes := hp.classes
  edges := hp.edges
  functions {n g} hg := by
    rcases Dict.eq_or_get?_of_get?_insert hg with ⟨hn, rfl⟩ | ⟨_, hg⟩
    · exact hn.symm
    · exact hp.functions hg
  globals := hp.globals
  separate n := by
    by_cases hn : n = f.name
    · exact .inr (hn ▸ hglobal)
    · rw [Dict.get?_insert, if_neg hn]
      exact hp.separate n

/-- **Step.** An accepted declaration keeps the parts of a program together. -/
theorem Lawful.declare (hp : p.Lawful) {d : Decl} (hd : p.declare d = .ok q) : q.Lawful := by
  cases d with
  | class_ name parent interfaces =>
    obtain ⟨hnone, hself, hclasses, hedges, hfunctions, hglobals⟩ := addClass_ok hd
    have hempty : parent.filter (· ≠ "") ≠ some "" := by simp [Option.filter_eq_some_iff]
    refine hp.storeClass (.ofClass hempty hself) hclasses (fun n => ?_) hfunctions hglobals
    rw [hedges]
    split
    · -- nothing that is not declared has a parent
      rename_i hn
      rw [hp.edges, hn, hnone, Option.bind_none, Option.or_none]
    · rfl
  | interface name =>
    obtain ⟨hnone, rfl⟩ := addInterface_ok hd
    refine hp.storeClass .ofInterface rfl (fun n => ?_) rfl rfl
    split
    · rename_i hn
      show p.hierarchy.parent? n = none
      rw [hp.edges, hn, hnone, Option.bind_none]
    · rfl
  | field cls name type =>
    obtain ⟨c, hc, hclass, hfield, hmethod, _, rfl⟩ := addField_ok hd
    exact hp.updateClass hc rfl ((hp.classes hc).addField hclass hfield hmethod rfl)
  | method cls m =>
    obtain ⟨c, hc, _, hfield, _, rfl⟩ := addMethod_ok hd
    exact hp.updateClass hc rfl
      ((hp.classes hc).addMethod (m := { m with owner := some cls }) hfield rfl)
  | function f =>
    obtain ⟨_, hglobal, rfl⟩ := addFunction_ok hd
    exact hp.addFunction hglobal
  | global name type =>
    obtain ⟨hfun, _, rfl⟩ := addGlobal_ok hd
    refine ⟨hp.classes, hp.edges, hp.functions, fun {n v} hv => ?_, fun n => ?_⟩
    · rcases Dict.eq_or_get?_of_get?_insert hv with ⟨hn, rfl⟩ | ⟨_, hv⟩
      · exact hn.symm
      · exact hp.globals hv
    · by_cases hn : n = name
      · exact .inl (hn ▸ hfun)
      · rw [Scope.get?, Dict.get?_insert, if_neg hn]
        exact hp.separate n

/-- **Run.** The parts of a program that declarations build fit together. -/
theorem lawful_ofDecls (ds : List Decl) : (ofDecls ds).Lawful := by
  refine ofDecls_induction (P := Lawful) ?_ fun p q d _ hp hd => hp.declare hd
  constructor
  · intro name c hc
    cases hc
  · exact fun _ => rfl
  · intro name f hf
    cases hf
  · intro name v hv
    cases hv
  · exact fun _ => .inl rfl

/-- **What a declaration does to a class.** It declares the class, which was not there before, or it
    adds a field, or a method that was not there before, or it leaves the class alone; and it does
    no two of these. -/
theorem class?_declare_exact {d : Decl} (hd : p.declare d = .ok q) (cls : String) :
    (q.class? cls = p.class? cls ∧ (∀ b, d.bare? = some b → b.name ≠ cls) ∧ d.fieldOf? cls = none ∧
        d.methodOf? cls = none) ∨
      (∃ b, d.bare? = some b ∧ b.name = cls ∧ d.fieldOf? cls = none ∧ d.methodOf? cls = none ∧
        p.class? cls = none ∧ q.class? cls = some b) ∨
      (∃ f c, d.fieldOf? cls = some f ∧ d.bare? = none ∧ d.methodOf? cls = none ∧
        p.class? cls = some c ∧ q.class? cls = some { c with fields := c.fields ++ [f] }) ∨
      ∃ m c, d.methodOf? cls = some m ∧ d.bare? = none ∧ d.fieldOf? cls = none ∧
        p.class? cls = some c ∧ c.method? m.name = none ∧
        q.class? cls = some { c with methods := c.methods.insert m.name m } := by
  cases d with
  | class_ name parent interfaces =>
    obtain ⟨hnone, _, hclasses, _⟩ := addClass_ok hd
    rw [class?, hclasses]
    by_cases hname : cls = name
    · subst hname
      exact .inr (.inl ⟨_, rfl, rfl, rfl, rfl, hnone, Dict.get?_insert_self _ _ _⟩)
    · refine .inl ⟨Dict.get?_insert_of_ne _ _ hname, ?_, rfl, rfl⟩
      intro b hb
      cases hb
      exact Ne.symm hname
  | interface name =>
    obtain ⟨hnone, rfl⟩ := addInterface_ok hd
    by_cases hname : cls = name
    · subst hname
      exact .inr (.inl ⟨_, rfl, rfl, rfl, rfl, hnone, Dict.get?_insert_self _ _ _⟩)
    · refine .inl ⟨Dict.get?_insert_of_ne _ _ hname, ?_, rfl, rfl⟩
      intro b hb
      cases hb
      exact Ne.symm hname
  | field other name type =>
    obtain ⟨c, hc, _, _, _, _, rfl⟩ := addField_ok hd
    by_cases hname : cls = other
    · subst hname
      exact .inr (.inr (.inl ⟨_, c, if_pos rfl, rfl, rfl, hc, Dict.get?_insert_self _ _ _⟩))
    · -- members of other classes do not touch this one
      exact .inl ⟨Dict.get?_insert_of_ne _ _ hname, nofun, if_neg (Ne.symm hname), rfl⟩
  | method other m =>
    obtain ⟨c, hc, hnew, _, _, rfl⟩ := addMethod_ok hd
    by_cases hname : cls = other
    · subst hname
      exact .inr (.inr (.inr ⟨_, c, if_pos rfl, rfl, rfl, hc, hnew, Dict.get?_insert_self _ _ _⟩))
    · exact .inl ⟨Dict.get?_insert_of_ne _ _ hname, nofun, rfl, if_neg (Ne.symm hname)⟩
  | function f =>
    obtain ⟨_, _, rfl⟩ := addFunction_ok hd
    exact .inl ⟨rfl, nofun, rfl, rfl⟩
  | global name type =>
    obtain ⟨_, _, rfl⟩ := addGlobal_ok hd
    exact .inl ⟨rfl, nofun, rfl, rfl⟩

/-- **What a declaration makes of a class.** It leaves the class alone, or it is the declaration of
    the class, which was not there before and has no members yet, or it adds a field, or a
    method. -/
theorem class?_declare {d : Decl} (hd : p.declare d = .ok q) (cls : String) :
    q.class? cls = p.class? cls ∨
      (d.class? = some cls ∧ p.class? cls = none ∧
        ∃ c, q.class? cls = some c ∧ c.fields = [] ∧ c.methods = .empty) ∨
      (∃ name type c, d = .field cls name type ∧ p.class? cls = some c ∧
        q.class? cls = some { c with
          fields := c.fields ++ [{ name, kind := .field, type, owner := some cls }] }) ∨
      ∃ m c, d = .method cls m ∧ p.class? cls = some c ∧
        q.class? cls =
          some { c with methods := c.methods.insert m.name { m with owner := some cls } } := by
  rcases class?_declare_exact hd cls with ⟨hsame, _⟩ | ⟨b, hb, hname, _, _, hp, hq⟩ |
    ⟨f, c, hf, _, _, hp, hq⟩ | ⟨m, c, hm, _, _, hp, _, hq⟩
  · exact .inl hsame
  · have hbare := Decl.bare_of_bare? hb
    refine .inr (.inl ⟨hname ▸ Decl.class?_of_bare? hb, hp, b, hq, ?_, ?_⟩)
    · exact congrArg ClassDecl.fields hbare.symm
    · exact congrArg ClassDecl.methods hbare.symm
  · obtain ⟨name, type, rfl, rfl⟩ := Decl.eq_field_of_fieldOf? hf
    exact .inr (.inr (.inl ⟨name, type, c, rfl, hp, hq⟩))
  · obtain ⟨m', rfl, rfl⟩ := Decl.eq_method_of_methodOf? hm
    exact .inr (.inr (.inr ⟨m', c, rfl, hp, hq⟩))

/-- Only the declaration of a class makes a name that of a class. -/
theorem class?_eq_none_of_declare {d : Decl} (hd : p.declare d = .ok q) {name : String}
    (hname : d.class? ≠ some name) (hnone : p.class? name = none) : q.class? name = none := by
  rcases class?_declare hd name with hsame | ⟨hclass, _⟩ | ⟨_, _, c, _, hc, _⟩ | ⟨_, c, _, hc, _⟩
  · rw [hsame, hnone]
  · exact absurd hclass hname
  · exact absurd (hnone.symm.trans hc) (by simp)
  · exact absurd (hnone.symm.trans hc) (by simp)

/-- What is declared stays declared. -/
theorem contains_declare {d : Decl} (hd : p.declare d = .ok q) {cls : String}
    (hcls : p.classes.contains cls) : q.classes.contains cls := by
  obtain ⟨c, hc⟩ : ∃ c, p.class? cls = some c := Option.isSome_iff_exists.1 hcls
  refine Option.isSome_iff_exists.2 ?_
  show ∃ c, q.class? cls = some c
  rcases class?_declare hd cls with hsame | ⟨_, _, c', hq, _⟩ | ⟨_, _, _, _, _, hq⟩ |
    ⟨_, _, _, _, hq⟩
  · exact ⟨c, hsame.trans hc⟩
  · exact ⟨c', hq⟩
  · exact ⟨_, hq⟩
  · exact ⟨_, hq⟩

/-- What is found in a program that declarations build, and is found only after certain
    declarations, was declared by one of these. -/
theorem exists_decl_of_ofDecls {α : Type} {F : Program → Option α} {made : Decl → Prop}
    (hempty : F .empty = none)
    (hstep : ∀ {p q : Program} {d : Decl}, p.declare d = .ok q → ¬ made d → F p = none → F q = none)
    {ds : List Decl} {a : α} (h : F (ofDecls ds) = some a) : ∃ d ∈ ds, made d := by
  by_contra hdecl
  have hnone : F (ofDecls ds) = none := by
    refine ofDecls_induction (P := (F · = none)) hempty fun p q d hmem hp hd => ?_
    exact hstep hd (fun hmade => hdecl ⟨d, hmem, hmade⟩) hp
  simp [hnone] at h

/-- A class of a program that declarations build is declared by one of them. -/
theorem exists_decl_of_class? {ds : List Decl} {name : String} {c : ClassDecl}
    (h : (ofDecls ds).class? name = some c) : ∃ d ∈ ds, d.class? = some name :=
  exists_decl_of_ofDecls (F := (·.class? name)) rfl
    (fun hd hname hnone => class?_eq_none_of_declare hd hname hnone) h

/-- **What a declaration makes of functions and global variables.** It leaves them alone, or it adds
    one. -/
theorem outside_declare {d : Decl} (hd : p.declare d = .ok q) :
    (q.functions = p.functions ∨ ∃ f, d = .function f ∧ q.functions = p.functions.insert f.name f) ∧
      (q.globals = p.globals ∨ ∃ name type v, d = .global name type ∧
        q.globals.symbols = p.globals.symbols.insert name v) := by
  -- classes and their members leave functions and variables alone
  cases d with
  | class_ name parent interfaces =>
    obtain ⟨_, _, _, _, hfunctions, hglobals⟩ := addClass_ok hd
    exact ⟨.inl hfunctions, .inl hglobals⟩
  | interface name =>
    obtain ⟨_, rfl⟩ := addInterface_ok hd
    exact ⟨.inl rfl, .inl rfl⟩
  | field cls name type =>
    obtain ⟨c, _, _, _, _, _, rfl⟩ := addField_ok hd
    exact ⟨.inl rfl, .inl rfl⟩
  | method cls m =>
    obtain ⟨c, _, _, _, _, rfl⟩ := addMethod_ok hd
    exact ⟨.inl rfl, .inl rfl⟩
  | function f =>
    obtain ⟨_, _, rfl⟩ := addFunction_ok hd
    exact ⟨.inr ⟨f, rfl, rfl⟩, .inl rfl⟩
  | global name type =>
    obtain ⟨_, _, rfl⟩ := addGlobal_ok hd
    exact ⟨.inl rfl, .inr ⟨name, type, _, rfl, rfl⟩⟩

/-- A function of a program that declarations build is declared by one of them. -/
theorem exists_decl_of_function? {ds : List Decl} {name : String} {f : Method}
    (h : (ofDecls ds).functions.get? name = some f) : ∃ d ∈ ds, d.name = name := by
  refine exists_decl_of_ofDecls (F := (·.functions.get? name)) rfl
    (fun {p q d} hd hother hnone => ?_) h
  rcases (outside_declare hd).1 with hsame | ⟨f, rfl, hinsert⟩
  · rw [hsame, hnone]
  · have hne : name ≠ f.name := fun heq => hother heq.symm
    rw [hinsert, Dict.get?_insert_of_ne _ _ hne, hnone]

/-- A global variable of a program that declarations build is declared by one of them. -/
theorem exists_decl_of_global? {ds : List Decl} {name : String} {v : Symbol}
    (h : (ofDecls ds).globals.get? name = some v) : ∃ type, Decl.global name type ∈ ds := by
  have hmade : ∃ d ∈ ds, ∃ type, d = Decl.global name type := by
    refine exists_decl_of_ofDecls (F := (·.globals.get? name)) rfl
      (fun {p q d} hd hother hnone => ?_) h
    rcases (outside_declare hd).2 with hsame | ⟨n, type, v, rfl, hinsert⟩
    · rw [hsame, hnone]
    · have hne : name ≠ n := fun heq => hother ⟨type, by rw [heq]⟩
      rw [Scope.get?, hinsert, Dict.get?_insert_of_ne _ _ hne]
      exact hnone
  obtain ⟨d, hd, type, rfl⟩ := hmade
  exact ⟨type, hd⟩

/-- A program that is built by declarations, and by links between classes that need not be
    declared. -/
inductive Built : Program → Prop
  | empty : Built .empty
  | declare {p q : Program} {d : Decl} (hp : Built p) (h : p.declare d = .ok q) : Built q
  | link {p q : Program} {child parent : String} (hp : Built p) (h : p.link child parent = .ok q) :
      Built q

/-- Links do not touch classes. -/
theorem classes_link {p q : Program} {child parent : String} (h : p.link child parent = .ok q) :
    q.classes = p.classes := by
  unfold link at h
  split at h
  · cases h
  · cases h
    rfl

/-- Interfaces have no fields. -/
theorem Built.fields_of_isInterface {p : Program} (hp : p.Built) {cls : String} {c : ClassDecl}
    (hc : p.class? cls = some c) (hinterface : c.isInterface) : c.fields = [] := by
  induction hp generalizing c with
  | empty => cases hc
  | @declare p q d _ hd ih =>
    rcases class?_declare hd cls with hsame | ⟨_, _, c', hc', hfields, _⟩ |
      ⟨name, type, c', rfl, hc', hq⟩ | ⟨m, c', rfl, hc', hq⟩
    · exact ih (hsame ▸ hc) hinterface
    · obtain rfl : c' = c := Option.some.inj (hc'.symm.trans hc)
      exact hfields
    · -- a field of an interface is refused
      obtain ⟨c'', hc'', hclass, _⟩ := addField_ok hd
      obtain rfl : c' = c'' := Option.some.inj (hc'.symm.trans hc'')
      obtain rfl := Option.some.inj (hq.symm.trans hc)
      rw [hclass] at hinterface
      cases hinterface
    · obtain rfl := Option.some.inj (hq.symm.trans hc)
      have hfields : c'.fields = [] := ih hc' hinterface
      exact hfields
  | @link p q child parent _ hlink ih =>
    rw [class?, classes_link hlink] at hc
    exact ih hc hinterface

end Program

end Decaf
