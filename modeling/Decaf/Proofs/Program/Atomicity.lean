import Decaf.Proofs.Program.Declarations
import Decaf.Proofs.Run

namespace Decaf

/-!
# Declarations in place

A declaration may be carried out in place: it looks something up, refuses, writes one table, writes
the next.  If it refuses after it has written, a part of it stays behind.  In place, moreover, the
fields of a class are kept twice: each under its name, and all of their names in a list that tells
the order.  These are written one after the other, and nothing but the declarations themselves sees
to it that they agree.

* `ClassRecord`, `Tables` — a class, and a program, as they are stored.
* `Change` — a change of tables in place; what is written before a refusal stays.
* `Decl.perform` — a declaration, one look-up, refusal and write after the other.
* `Tables.program` — the program that tables stand for: the fields are read along the list.
* `Tables.Ordered` — the list of a class names the fields that are stored.
* `Change.Does`, `Decl.does_perform` — in place a declaration does what it does at once, and nothing
  if it is refused.
* `Tables.performAll_spec` — so do declarations one after the other.
* `tables_fit_together` — what holds of all tables that declarations make, refused ones included.
-/

/-! ### Tables -/

/-- A class or an interface as it is stored. -/
structure ClassRecord where
  name : String
  parent : Option String := none
  interfaces : List String := []
  isInterface : Bool := false
  /-- The fields, each under its name. -/
  fields : Dict Symbol := .empty
  /-- The names of the fields, in the order of declaration. -/
  fieldOrder : List String := []
  methods : Dict Method := .empty
deriving DecidableEq

/-- A program as it is stored. -/
structure Tables where
  classes : Dict ClassRecord := .empty
  hierarchy : Hierarchy := .empty
  functions : Dict Method := .empty
  globals : Scope := { kind := .global }
deriving DecidableEq

namespace Tables

/-- The class or interface that is stored under the given name. -/
def class? (t : Tables) (name : String) : Option ClassRecord :=
  t.classes.get? name

/-- The field of the given name that is stored in an ancestor of `cls`. -/
def inheritedField? (t : Tables) (cls name : String) : Option Symbol :=
  (t.hierarchy.ancestors cls).findSome? fun a => (t.class? a).bind (·.fields.get? name)

/-- The method of the given name in the first of the named classes that has one.  A class that is
    not declared ends the search. -/
def firstMethod? (t : Tables) (name : String) : List String → Option Method
  | [] => none
  | a :: rest =>
    match t.class? a with
    | none => none
    | some c => (c.methods.get? name).or (t.firstMethod? name rest)

/-- The method of the given name that the nearest ancestor of `cls` has. -/
def inheritedMethod? (t : Tables) (cls name : String) : Option Method :=
  t.firstMethod? name (t.hierarchy.ancestors cls)

end Tables

/-! ### Changes -/

/-- A change of tables in place.  What is written before a refusal stays. -/
abbrev Change := ExceptT DeclError (StateM Tables)

namespace Change

/-- Refuses to go on. -/
def refuseIf (bad : Bool) (e : DeclError) : Change Unit :=
  if bad then throw e else pure ()

/-- Looks a class up that has to be declared. -/
def classOf (cls : String) : Change ClassRecord := do
  match (← get).class? cls with
  | some c => return c
  | none => throw (.unknownClass cls)

/-- Stores a class. -/
def storeClass (name : String) (c : ClassRecord) : Change Unit :=
  modify fun t => { t with classes := t.classes.insert name c }

/-- Changes a part of a class where it is stored. -/
def updateClass (name : String) (f : ClassRecord → ClassRecord) : Change Unit :=
  modify fun t =>
    match t.class? name with
    | some c => { t with classes := t.classes.insert name (f c) }
    | none => t

/-- Stores the link from a class to its parent. -/
def storeLink (child parent : String) : Change Unit :=
  modify fun t => { t with hierarchy := ⟨t.hierarchy.parents.insert child parent⟩ }

/-- Links a class to its parent. -/
def link (child parent : String) : Change Unit := do
  refuseIf (child = parent) (.extendsItself child)
  refuseIf ((← get).hierarchy.parents.contains child) (.classRedefined child)
  storeLink child parent

/-- Declares a class: its link is stored first, and then the class itself. -/
def addClass (name : String) (parent : Option String) (interfaces : List String) :
    Change Unit := do
  refuseIf ((← get).classes.contains name) (.classRedefined name)
  let parent := parent.filter (· ≠ "")
  parent.forM (link name)
  storeClass name { name, parent, interfaces }

/-- Declares an interface. -/
def addInterface (name : String) : Change Unit := do
  refuseIf ((← get).classes.contains name) (.interfaceRedefined name)
  storeClass name { name, isInterface := true }

/-- Declares a field: it is stored under its name first, and then the name is put into the list. -/
def addField (cls name : String) (type : Option Ty) : Change Unit := do
  let c ← classOf cls
  refuseIf c.isInterface (.fieldInInterface cls name)
  refuseIf (c.fields.contains name) (.fieldRedefined cls name)
  refuseIf (c.methods.contains name) (.fieldIsMethod cls name)
  refuseIf ((← get).inheritedField? cls name).isSome (.fieldRedefined cls name)
  let field : Symbol := { name, kind := .field, type, owner := some cls }
  updateClass cls fun c => { c with fields := c.fields.insert name field }
  updateClass cls fun c => { c with fieldOrder := c.fieldOrder ++ [name] }

/-- Declares a method. -/
def addMethod (cls : String) (m : Method) : Change Unit := do
  let c ← classOf cls
  refuseIf (c.methods.contains m.name) (.methodRedefined cls m.name)
  refuseIf (c.fields.contains m.name) (.methodIsField cls m.name)
  if let some reason := ((← get).inheritedMethod? cls m.name).bind (·.mismatch? m) then
    throw (.invalidOverride cls m.name reason)
  updateClass cls fun c =>
    { c with methods := c.methods.insert m.name { m with owner := some cls } }

/-- Declares a function. -/
def addFunction (f : Method) : Change Unit := do
  refuseIf ((← get).functions.contains f.name) (.functionRedefined f.name)
  refuseIf ((← get).globals.symbols.contains f.name) (.functionIsGlobal f.name)
  modify fun t => { t with functions := t.functions.insert f.name f }

/-- Declares a global variable. -/
def addGlobal (name : String) (type : Option Ty) : Change Unit := do
  refuseIf ((← get).functions.contains name) (.globalIsFunction name)
  refuseIf ((← get).globals.symbols.contains name) (.nameTaken name)
  modify fun t =>
    let symbols := t.globals.symbols.insert name { name, kind := t.globals.kind, type }
    { t with globals := { t.globals with symbols } }

end Change

/-- The declaration in place. -/
def Decl.perform : Decl → Change Unit
  | class_ name parent interfaces => .addClass name parent interfaces
  | interface name => .addInterface name
  | field cls name type => .addField cls name type
  | method cls m => .addMethod cls m
  | function f => .addFunction f
  | global name type => .addGlobal name type

/-- The tables after declarations in place, each answered in its turn, whether it is refused or
    not. -/
def Tables.performAll (ds : List Decl) : Tables :=
  ds.foldl (fun t d => (d.perform.run t).2) {}

/-! ### The program that tables stand for -/

/-- The class that a record stands for.  Its fields are read along the list of their names. -/
def ClassRecord.decl (c : ClassRecord) : ClassDecl where
  name := c.name
  parent := c.parent
  interfaces := c.interfaces
  isInterface := c.isInterface
  fields := c.fieldOrder.filterMap c.fields.get?
  methods := c.methods

/-- The program that tables stand for. -/
def Tables.program (t : Tables) : Program where
  classes := t.classes.map fun _ c => c.decl
  hierarchy := t.hierarchy
  functions := t.functions
  globals := t.globals

/-- The list of a class names the fields that are stored, and each is stored under its own name. -/
structure ClassRecord.Ordered (c : ClassRecord) : Prop where
  mem_iff : ∀ x, x ∈ c.fieldOrder ↔ x ∈ c.fields.keys
  named : ∀ {x : String} {f : Symbol}, c.fields.get? x = some f → f.name = x

/-- The lists of all classes name the fields that are stored. -/
def Tables.Ordered (t : Tables) : Prop :=
  ∀ name c, t.class? name = some c → c.Ordered

namespace ClassRecord

variable {c : ClassRecord} {x : String} {f : Symbol}

/-- What the list names is stored. -/
theorem Ordered.exists_field (h : c.Ordered) (hx : x ∈ c.fieldOrder) :
    ∃ f, c.fields.get? x = some f :=
  Dict.mem_keys_iff.1 ((h.mem_iff x).1 hx)

/-- A class that is read along its list has the fields that are stored. -/
theorem Ordered.mem_fields_iff (h : c.Ordered) :
    f ∈ c.decl.fields ↔ c.fields.get? f.name = some f := by
  constructor
  · intro hf
    obtain ⟨y, _, hy⟩ := List.mem_filterMap.1 hf
    rwa [h.named hy]
  · intro hf
    have hlisted : f.name ∈ c.fieldOrder := (h.mem_iff _).2 (Dict.mem_keys_iff.2 ⟨f, hf⟩)
    exact List.mem_filterMap.2 ⟨f.name, hlisted, hf⟩

/-- Looking a field up in the class is looking it up by its name. -/
theorem Ordered.field?_decl (h : c.Ordered) (x : String) : c.decl.field? x = c.fields.get? x := by
  have hfound : ∀ {f}, c.decl.field? x = some f → c.fields.get? x = some f := by
    intro f hf
    have hname : f.name = x := by simpa using List.find?_some hf
    rw [← hname]
    exact h.mem_fields_iff.1 (List.mem_of_find?_eq_some hf)
  cases hf : c.decl.field? x with
  | some f => rw [hfound hf]
  | none =>
    -- a field that is stored is listed, so the search would have come to it
    cases hg : c.fields.get? x with
    | none => rfl
    | some g =>
      have hname : g.name = x := h.named hg
      have hmem : g ∈ c.decl.fields := h.mem_fields_iff.2 (hname ▸ hg)
      have hnone := List.find?_eq_none.1 hf g hmem
      simp [hname] at hnone

/-- The names of the fields of the class are those of the list. -/
theorem Ordered.map_name_fields (h : c.Ordered) : c.decl.fields.map (·.name) = c.fieldOrder := by
  have hall : ∀ x ∈ c.fieldOrder, (c.fields.get? x).map (·.name) = some x := by
    intro x hx
    obtain ⟨f, hf⟩ := h.exists_field hx
    rw [hf, Option.map_some, h.named hf]
  rw [decl, List.map_filterMap, List.filterMap_congr hall, List.filterMap_some]

/-- Where nothing is listed, nothing is stored. -/
theorem Ordered.fields_eq_empty (h : c.Ordered) (horder : c.fieldOrder = []) :
    c.fields = .empty := by
  refine Dict.ext_get? fun x => ?_
  cases hx : c.fields.get? x with
  | none => rfl
  | some f =>
    have hlisted : x ∈ c.fieldOrder := (h.mem_iff x).2 (Dict.mem_keys_iff.2 ⟨f, hx⟩)
    rw [horder] at hlisted
    cases hlisted

/-- An interface has no parent, no interfaces and no fields, neither stored nor listed. -/
theorem Ordered.bare (h : c.Ordered) {name : String} (hlaw : c.decl.Lawful name)
    (hinterface : c.isInterface) :
    c.parent = none ∧ c.interfaces = [] ∧ c.fields = .empty ∧ c.fieldOrder = [] := by
  obtain ⟨hparent, hinterfaces, hfields⟩ := hlaw.bare hinterface
  have horder : c.fieldOrder = [] := by rw [← h.map_name_fields, hfields, List.map_nil]
  exact ⟨hparent, hinterfaces, h.fields_eq_empty horder, horder⟩

/-- No name is that of a field and of a method. -/
theorem Ordered.disjoint (h : c.Ordered) {name : String} (hlaw : c.decl.Lawful name) (x : String) :
    ¬ (x ∈ c.fields.keys ∧ x ∈ c.methods.keys) := by
  intro hx
  obtain ⟨⟨f, hf⟩, m, hm⟩ := hx.imp Dict.mem_keys_iff.1 Dict.mem_keys_iff.1
  rcases hlaw.disjoint x with hnone | hnone
  · rw [h.field?_decl, hf] at hnone
    cases hnone
  · rw [show c.decl.method? x = some m from hm] at hnone
    cases hnone

/-- A class without fields. -/
theorem ordered_of_empty (hfields : c.fields = .empty) (horder : c.fieldOrder = []) :
    c.Ordered where
  mem_iff x := by simp [hfields, horder, Dict.mem_keys_iff]
  named h := by simp [hfields] at h

/-- One more field, both stored and listed. -/
theorem Ordered.addField (h : c.Ordered) (f : Symbol) (hnew : c.fields.get? f.name = none) :
    let c' := { c with fields := c.fields.insert f.name f, fieldOrder := c.fieldOrder ++ [f.name] }
    c'.Ordered ∧ c'.decl = { c.decl with fields := c.decl.fields ++ [f] } := by
  intro c'
  refine ⟨⟨fun x => ?_, fun {x g} hg => ?_⟩, ?_⟩
  · rw [List.mem_append, List.mem_singleton, h.mem_iff, Dict.mem_keys_iff, Dict.mem_keys_iff,
      Dict.get?_insert]
    by_cases hx : x = f.name <;> simp [hx]
  · rcases Dict.eq_or_get?_of_get?_insert hg with ⟨hx, rfl⟩ | ⟨_, hg⟩
    · exact hx.symm
    · exact h.named hg
  · -- the fields before it are not touched, since its name is new
    have hsame : ∀ x ∈ c.fieldOrder, (c.fields.insert f.name f).get? x = c.fields.get? x := by
      intro x hx
      obtain ⟨g, hg⟩ := h.exists_field hx
      refine Dict.get?_insert_of_ne _ f ?_
      rintro rfl
      rw [hnew] at hg
      cases hg
    have hfields : c'.decl.fields = c.decl.fields ++ [f] := by
      show (c.fieldOrder ++ [f.name]).filterMap (c.fields.insert f.name f).get? = _
      rw [List.filterMap_append, List.filterMap_congr hsame]
      simp [decl]
    rw [← hfields]
    rfl

end ClassRecord

namespace Tables

variable {t : Tables} {name : String} {c : ClassRecord}

theorem class?_program (t : Tables) (name : String) :
    t.program.class? name = (t.class? name).map (·.decl) :=
  Dict.get?_map _

theorem contains_program (t : Tables) (name : String) :
    t.program.classes.contains name = t.classes.contains name := by
  show (t.program.class? name).isSome = (t.class? name).isSome
  rw [class?_program, Option.isSome_map]

/-- The hierarchy leads to the parents that the records name. -/
theorem parent?_eq (hp : t.program.Lawful) (name : String) :
    t.hierarchy.parent? name = (t.class? name).bind (·.parent) := by
  rw [show t.hierarchy = t.program.hierarchy from rfl, hp.edges, class?_program]
  cases t.class? name <;> rfl

/-- Storing a class stores the class that it stands for. -/
theorem program_insert (t : Tables) (name : String) (c : ClassRecord) :
    program { t with classes := t.classes.insert name c } =
      { t.program with classes := t.program.classes.insert name c.decl } := by
  have hclasses : (t.classes.insert name c).map (fun _ c => c.decl) =
      (t.classes.map fun _ c => c.decl).insert name c.decl := by
    refine Dict.ext_get? fun x => ?_
    rw [Dict.get?_map, Dict.get?_insert, Dict.get?_insert, Dict.get?_map]
    split <;> rfl
  rw [program, hclasses]
  rfl

theorem Ordered.insert (ht : t.Ordered) (name : String) (hc : c.Ordered) :
    Ordered { t with classes := t.classes.insert name c } := by
  intro other d hd
  rcases Dict.eq_or_get?_of_get?_insert hd with ⟨_, rfl⟩ | ⟨_, hd⟩
  · exact hc
  · exact ht other d hd

/-- The field of an ancestor is found by its name. -/
theorem Ordered.inheritedField?_program (ht : t.Ordered) (cls name : String) :
    t.program.inheritedField? cls name = t.inheritedField? cls name := by
  have hsame : (fun a => (t.program.class? a).bind (·.field? name)) =
      fun a => (t.class? a).bind (·.fields.get? name) := by
    funext a
    rw [class?_program]
    cases hc : t.class? a with
    | none => rfl
    | some c => exact (ht a c hc).field?_decl name
  rw [Program.inheritedField?, hsame]
  rfl

theorem inheritedMethod?_program (t : Tables) (cls name : String) :
    t.program.inheritedMethod? cls name = t.inheritedMethod? cls name := by
  have hline : ∀ names, (t.program.declared names).findSome? (·.method? name) =
      t.firstMethod? name names := by
    intro names
    induction names with
    | nil => rfl
    | cons a rest ih =>
      rw [Program.declared, class?_program, firstMethod?]
      -- both searches end at a name that is not declared
      cases t.class? a with
      | none => rfl
      | some c =>
        have hmethod : c.decl.method? name = c.methods.get? name := rfl
        rw [Option.map_some, List.findSome?_cons, ih, hmethod]
        dsimp only
        cases c.methods.get? name <;> rfl
  exact hline _

end Tables

/-! ### All or nothing -/

namespace Change

variable {t : Tables} {α : Type}

/-- A change of tables answers as `r` does, which changes the program that they stand for at once:
    either nothing is changed, or the tables stand for the new program. -/
def Does (x : Change Unit) (t : Tables) (r : Except DeclError Program) : Prop :=
  match r with
  | .error e => x.run t = (.error e, t)
  | .ok q => ∃ t', x.run t = (.ok (), t') ∧ t'.program = q ∧ t'.Ordered

theorem Does.of_run_eq {x y : Change Unit} {r : Except DeclError Program} (h : y.Does t r)
    (hrun : x.run t = y.run t) : x.Does t r := by
  unfold Does
  rwa [hrun]

/-- A change that is accepted is one that the program accepts. -/
theorem Does.of_ok {x : Change Unit} {r : Except DeclError Program} (h : x.Does t r) {t' : Tables}
    (hrun : x.run t = (.ok (), t')) : r = .ok t'.program := by
  cases r with
  | error e =>
    rw [show x.run t = (.error e, t) from h] at hrun
    cases hrun
  | ok q =>
    obtain ⟨t₁, hrun₁, rfl, _⟩ := h
    rw [hrun₁] at hrun
    cases hrun
    rfl

/-- A change that is refused is one that the program refuses, and leaves the tables as they are. -/
theorem Does.of_error {x : Change Unit} {r : Except DeclError Program} (h : x.Does t r)
    {e : DeclError} {t' : Tables} (hrun : x.run t = (.error e, t')) : r = .error e ∧ t' = t := by
  cases r with
  | error e' =>
    rw [show x.run t = (.error e', t) from h] at hrun
    cases hrun
    exact ⟨rfl, rfl⟩
  | ok q =>
    obtain ⟨t₁, hrun₁, _⟩ := h
    rw [hrun₁] at hrun
    cases hrun

theorem does_get {next : Tables → Change Unit} {r : Except DeclError Program}
    (h : (next t).Does t r) : (get >>= next).Does t r :=
  h.of_run_eq (by rw [run_bind, run_get])

/-- A refusal at this point leaves the tables as they are. -/
theorem does_refuseIf {bad : Bool} {e : DeclError} {next : Unit → Change Unit}
    {r : Except DeclError Program} (h : bad = false → (next ()).Does t r) :
    (refuseIf bad e >>= next).Does t (if bad then .error e else r) := by
  cases bad with
  | true => exact rfl
  | false => exact h rfl

theorem does_classOf {cls : String} {next : ClassRecord → Change Unit}
    {r : Except DeclError Program} (hnone : t.class? cls = none → r = .error (.unknownClass cls))
    (hsome : ∀ c, t.class? cls = some c → (next c).Does t r) :
    (classOf cls >>= next).Does t r := by
  cases hc : t.class? cls with
  | none =>
    rw [hnone hc]
    show (classOf cls >>= next).run t = _
    rw [run_bind, classOf, run_bind, run_get]
    simp only [hc]
    rfl
  | some c =>
    refine (hsome c hc).of_run_eq ?_
    rw [run_bind, classOf, run_bind, run_get]
    simp only [hc]
    rfl

/-- What is never refused may follow a change. -/
theorem Does.bind {x : Change Unit} {next : Unit → Change Unit} {r : Except DeclError Program}
    {f : Program → Program} (hx : x.Does t r)
    (hnext : ∀ t' : Tables, t'.Ordered → (next ()).Does t' (.ok (f t'.program))) :
    (x >>= next).Does t (r.map f) := by
  cases r with
  | error e =>
    have hrun : x.run t = (.error e, t) := hx
    show (x >>= next).run t = _
    rw [run_bind, hrun]
  | ok q =>
    obtain ⟨t₁, hrun, rfl, ht₁⟩ := hx
    obtain ⟨t₂, hrun₂, hprogram, ht₂⟩ := hnext t₁ ht₁
    refine ⟨t₂, ?_, hprogram, ht₂⟩
    rw [run_bind, hrun]
    exact hrun₂

/-- A class is stored. -/
theorem does_storeClass (ht : t.Ordered) (name : String) {c : ClassRecord} (hc : c.Ordered) :
    (storeClass name c).Does t
      (.ok { t.program with classes := t.program.classes.insert name c.decl }) :=
  ⟨_, rfl, t.program_insert name c, ht.insert name hc⟩

theorem run_updateClass {name : String} {c : ClassRecord} (hc : t.class? name = some c)
    (f : ClassRecord → ClassRecord) :
    (updateClass name f).run t = (.ok (), { t with classes := t.classes.insert name (f c) }) := by
  rw [updateClass, run_modify, hc]

/-- A link refuses before it is stored. -/
theorem does_link (ht : t.Ordered) (child parent : String) :
    (link child parent).Does t (t.program.link child parent) := by
  have hlink : t.program.link child parent =
      if decide (child = parent) then .error (.extendsItself child)
      else if t.hierarchy.parents.contains child then .error (.classRedefined child)
      else .ok { t.program with hierarchy := ⟨t.hierarchy.parents.insert child parent⟩ } := by
    rw [Program.link, Hierarchy.link]
    by_cases hself : child = parent
    · simp [hself]
    · by_cases hkey : t.hierarchy.parents.contains child <;>
        simp [hself, hkey, Tables.program]
  rw [hlink]
  refine does_refuseIf fun _ => does_get (does_refuseIf fun _ => ?_)
  exact ⟨_, rfl, rfl, ht⟩

/-- The link and the class are both stored, or neither. -/
theorem does_addClass (ht : t.Ordered) (name : String) (parent : Option String)
    (interfaces : List String) :
    (addClass name parent interfaces).Does t (t.program.addClass name parent interfaces) := by
  have hbare : ∀ parent, ClassRecord.Ordered { name, parent, interfaces } :=
    fun _ => ClassRecord.ordered_of_empty rfl rfl
  rw [Program.addClass, Tables.contains_program]
  refine does_get (does_refuseIf fun _ => ?_)
  cases parent.filter (· ≠ "") with
  | none => exact does_storeClass ht name (hbare none)
  | some a =>
    -- nothing is refused once the link is stored
    let store (p : Program) : Program :=
      { p with classes := p.classes.insert name { name, parent := some a, interfaces } }
    have hsteps : ((some a).forM (link name) >>= fun _ =>
        storeClass name { name, parent := some a, interfaces }).Does t
        ((t.program.link name a).map store) :=
      (does_link ht name a).bind fun _ ht' => does_storeClass ht' name (hbare (some a))
    dsimp only
    cases hr : t.program.link name a with
    | error e =>
      rw [hr] at hsteps
      exact hsteps
    | ok q =>
      rw [hr] at hsteps
      exact hsteps

theorem does_addInterface (ht : t.Ordered) (name : String) :
    (addInterface name).Does t (t.program.addInterface name) := by
  rw [Program.addInterface, Tables.contains_program]
  refine does_get (does_refuseIf fun _ => ?_)
  exact does_storeClass ht name (ClassRecord.ordered_of_empty rfl rfl)

/-- The field is both stored and listed, or neither. -/
theorem does_addField (ht : t.Ordered) (cls name : String) (type : Option Ty) :
    (addField cls name type).Does t (t.program.addField cls name type) := by
  refine does_classOf (fun hc => ?_) fun c hc => ?_
  · rw [Program.addField, Tables.class?_program, hc]
    rfl
  · have hord := ht cls c hc
    rw [Program.addField, Tables.class?_program, hc, Option.map_some]
    dsimp only
    rw [hord.field?_decl, ht.inheritedField?_program]
    refine does_refuseIf fun _ => does_refuseIf fun hfield => does_refuseIf fun _ => ?_
    refine does_get (does_refuseIf fun _ => ?_)
    -- here the two writes begin, and the second one completes the first
    obtain ⟨hordered, hdecl⟩ := hord.addField { name, kind := .field, type, owner := some cls }
      (Dict.contains_eq_false_iff.1 hfield)
    refine ⟨_, ?_, ?_, ht.insert cls hordered⟩
    · have hstored : ∀ c', Tables.class? { t with classes := t.classes.insert cls c' } cls =
          some c' :=
        fun c' => Dict.get?_insert_self ..
      rw [run_bind, run_updateClass hc]
      dsimp only
      rw [run_updateClass (hstored _), Dict.insert_insert]
    · rw [Tables.program_insert, hdecl]

theorem does_addMethod (ht : t.Ordered) (cls : String) (m : Method) :
    (addMethod cls m).Does t (t.program.addMethod cls m) := by
  refine does_classOf (fun hc => ?_) fun c hc => ?_
  · rw [Program.addMethod, Tables.class?_program, hc]
    rfl
  · have hord := ht cls c hc
    rw [Program.addMethod, Tables.class?_program, hc, Option.map_some]
    dsimp only
    rw [hord.field?_decl, t.inheritedMethod?_program]
    refine does_refuseIf fun _ => does_refuseIf fun _ => does_get ?_
    cases (t.inheritedMethod? cls m.name).bind (·.mismatch? m) with
    | some reason => exact rfl
    | none =>
      -- the list of field names is not touched, so the record stays in order
      refine ⟨_, run_updateClass hc _, ?_, ht.insert cls ⟨hord.mem_iff, hord.named⟩⟩
      rw [Tables.program_insert]
      rfl

theorem does_addFunction (ht : t.Ordered) (f : Method) :
    (addFunction f).Does t (t.program.addFunction f) := by
  refine does_get (does_refuseIf fun _ => does_get (does_refuseIf fun _ => ?_))
  exact ⟨_, rfl, rfl, ht⟩

theorem does_addGlobal (ht : t.Ordered) (name : String) (type : Option Ty) :
    (addGlobal name type).Does t (t.program.addGlobal name type) := by
  have hdeclare : t.program.addGlobal name type =
      if t.functions.contains name then .error (.globalIsFunction name)
      else if t.globals.symbols.contains name then .error (.nameTaken name)
      else .ok { t.program with
        globals := { t.globals with
          symbols := t.globals.symbols.insert name { name, kind := t.globals.kind, type } } } := by
    rw [Program.addGlobal, Scope.declare]
    by_cases hname : t.globals.symbols.contains name <;> simp [Tables.program, hname]
  rw [hdeclare]
  refine does_get (does_refuseIf fun _ => does_get (does_refuseIf fun _ => ?_))
  exact ⟨_, rfl, rfl, ht⟩

end Change

/-- **All or nothing.** In place a declaration does what it does at once, and nothing if it is
    refused. -/
theorem Decl.does_perform (d : Decl) {t : Tables} (ht : t.Ordered) :
    d.perform.Does t (t.program.declare d) := by
  cases d with
  | class_ name parent interfaces => exact Change.does_addClass ht name parent interfaces
  | interface name => exact Change.does_addInterface ht name
  | field cls name type => exact Change.does_addField ht cls name type
  | method cls m => exact Change.does_addMethod ht cls m
  | function f => exact Change.does_addFunction ht f
  | global name type => exact Change.does_addGlobal ht name type

/-- **Run.** After any declarations the lists of all classes name the fields that are stored, and
    the tables stand for the program that the declarations build. -/
theorem Tables.performAll_spec (ds : List Decl) :
    (performAll ds).Ordered ∧ (performAll ds).program = Program.ofDecls ds := by
  -- stated for any tables in order, so that the induction can go on from what a step leaves
  have hrun : ∀ t : Tables, t.Ordered →
      (ds.foldl (fun t d => (d.perform.run t).2) t).Ordered ∧
        (ds.foldl (fun t d => (d.perform.run t).2) t).program =
          ds.foldl Program.after t.program := by
    induction ds with
    | nil => exact fun t ht => ⟨ht, rfl⟩
    | cons d ds ih =>
      intro t ht
      have hd := d.does_perform ht
      rw [List.foldl_cons, List.foldl_cons, Program.after]
      cases hr : t.program.declare d with
      | error e =>
        rw [hr] at hd
        rw [show d.perform.run t = (.error e, t) from hd]
        exact ih t ht
      | ok q =>
        rw [hr] at hd
        obtain ⟨t', hrun, rfl, ht'⟩ := hd
        rw [hrun]
        exact ih t' ht'
  exact hrun {} fun name c hc => by cases hc

/-- **Tables fit together, whatever is refused.** Let declarations of any names be carried out in
    place, one after the other, each of them accepted or refused.  In the tables that are there in
    the end, a class stands under its own name.  The hierarchy leads from a name to another exactly
    if that is the parent that a class of the name is declared with, and from no name to itself.
    Interfaces have no parent, no interfaces and no fields.  The list of the fields of a class names
    each of them once, and it names just those that are stored.  Fields and methods stand under
    their own names and belong to their class, and no name is that of a field and of a method, nor
    that of a function and of a variable.

    The tables stand for the program that the declarations build.  One more declaration that is
    accepted does in place what it does to the program at once, and one that is refused leaves all
    of the tables as they are. -/
theorem tables_fit_together (ds : List Decl) :
    let t := Tables.performAll ds
    (∀ name c, t.class? name = some c → c.name = name ∧
        (c.isInterface → c.parent = none ∧ c.interfaces = [] ∧ c.fields = .empty ∧
          c.fieldOrder = []) ∧
        c.fieldOrder.Nodup ∧ (∀ x, x ∈ c.fieldOrder ↔ x ∈ c.fields.keys) ∧
        (∀ x f, c.fields.get? x = some f → f.name = x ∧ f.owner = some name) ∧
        (∀ x m, c.methods.get? x = some m → m.name = x ∧ m.owner = some name) ∧
        ∀ x, ¬ (x ∈ c.fields.keys ∧ x ∈ c.methods.keys)) ∧
      (∀ name a, t.hierarchy.parent? name = some a ↔
        a ≠ "" ∧ ∃ c, t.class? name = some c ∧ c.parent = some a) ∧
      (∀ name, t.hierarchy.parent? name ≠ some name) ∧
      (∀ x, ¬ (x ∈ t.functions.keys ∧ x ∈ t.globals.symbols.keys)) ∧
      t.program = Program.ofDecls ds ∧
      ∀ d : Decl, (∀ t', d.perform.run t = (.ok (), t') → t.program.declare d = .ok t'.program) ∧
        ∀ e t', d.perform.run t = (.error e, t') → t.program.declare d = .error e ∧ t' = t := by
  intro t
  obtain ⟨ht, hprogram⟩ : t.Ordered ∧ t.program = Program.ofDecls ds := Tables.performAll_spec ds
  have hp : t.program.Lawful := hprogram ▸ Program.lawful_ofDecls ds
  -- what holds of the program is read back from the records that stand for its classes
  have hlawful : ∀ {name c}, t.class? name = some c → c.decl.Lawful name := by
    intro name c hc
    exact hp.classes (by rw [Tables.class?_program, hc, Option.map_some])
  refine ⟨fun name c hc => ?_, fun name a => ?_, fun name hself => ?_, fun x hx => ?_, hprogram,
    fun d => ?_⟩
  · -- the list of names is the order of the fields of the class that the record stands for
    have hord : c.Ordered := ht name c hc
    have hlaw : c.decl.Lawful name := hlawful hc
    refine ⟨hlaw.named, fun hinterface => ?_, ?_, hord.mem_iff, fun x f hf => ?_, fun x m hm => ?_,
      hord.disjoint hlaw⟩
    · exact hord.bare hlaw hinterface
    · rw [← hord.map_name_fields]
      exact hlaw.nodup_fields
    · have hname : f.name = x := hord.named hf
      exact ⟨hname, hlaw.field_owner f (hord.mem_fields_iff.2 (hname ▸ hf))⟩
    · exact ⟨hlaw.method_name hm, hlaw.method_owner hm⟩
  · rw [Tables.parent?_eq hp, Option.bind_eq_some_iff]
    constructor
    · rintro ⟨c, hc, hparent⟩
      refine ⟨?_, c, hc, hparent⟩
      rintro rfl
      exact (hlawful hc).parent_ne_empty hparent
    · rintro ⟨_, hc⟩
      exact hc
  · rw [Tables.parent?_eq hp, Option.bind_eq_some_iff] at hself
    obtain ⟨c, hc, hparent⟩ := hself
    exact (hlawful hc).parent_ne_self hparent
  · obtain ⟨⟨f, hf⟩, v, hv⟩ := hx.imp Dict.mem_keys_iff.1 Dict.mem_keys_iff.1
    rcases hp.separate x with hnone | hnone
    · rw [show t.program.functions.get? x = some f from hf] at hnone
      cases hnone
    · rw [show t.program.globals.get? x = some v from hv] at hnone
      cases hnone
  · -- one more declaration starts from tables that are in order again
    have hd := d.does_perform ht
    exact ⟨fun t' hrun => hd.of_ok hrun, fun e t' hrun => hd.of_error hrun⟩

end Decaf
