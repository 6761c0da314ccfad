import Decaf.Proofs.Program.Lookup
import Decaf.Proofs.Program.Order

namespace Decaf.Program

/-!
# Programs that grow

More declarations may follow: new classes and interfaces with their members, functions and global
variables.  What was declared stays as it was.  A name that is found in a declared class is then
found as before, with the same meaning, and a type that fits another still does, provided that what
the program mentions is declared: a class that is added later could otherwise take a place above an
old one.

* `Extends` — what one program declares, the other declares in the same way.
* `Extends.declare`, `extends_declareAll` — declarations that leave the old classes alone extend a
  program.
* `Closed` — the classes above a class, and the interfaces that it lists, are declared.
* `Extends.field?_eq`, `Extends.method?_eq` — what is found in a class stays the same.
* `Extends.isAssignable` — what fits still fits.
-/

variable {p q r : Program} {cls name : String}

/-! ### Extensions -/

/-- What `p` declares, `q` declares in the same way.  Only names that `p` does not declare have got
    parents. -/
structure Extends (p q : Program) : Prop where
  classes : ∀ {name : String} {c : ClassDecl}, p.class? name = some c → q.class? name = some c
  edges : ∀ name, q.hierarchy.parent? name = p.hierarchy.parent? name ∨
    p.hierarchy.parent? name = none ∧ p.class? name = none
  functions : ∀ {name : String} {f : Method}, p.function? name = some f → q.function? name = some f
  globals : ∀ {name : String} {t : Option Ty}, p.global? name = some t → q.global? name = some t

theorem Extends.refl (p : Program) : p.Extends p where
  classes h := h
  edges _ := .inl rfl
  functions h := h
  globals h := h

/-- A class that is accepted with a parent had none before. -/
theorem parent?_eq_none_of_addClass {parent : Option String} {interfaces : List String} {a : String}
    (h : p.addClass name parent interfaces = .ok q) (hparent : parent.filter (· ≠ "") = some a) :
    p.hierarchy.parent? name = none := by
  by_contra hlinked
  have hkey : p.hierarchy.parents.contains name := by
    rwa [Dict.contains, Option.isSome_iff_ne_none]
  unfold addClass at h
  simp only [hparent, link, Hierarchy.link, hkey, if_true] at h
  -- whether the name is taken or the class would extend itself, it is refused
  split at h
  · cases h
  · by_cases hself : name = a <;> simp [hself] at h

/-- **What a declaration makes of the hierarchy.** Only a class that it declares can get a
    parent. -/
theorem parent?_declare {d : Decl} (hd : p.declare d = .ok q) (name : String) :
    q.hierarchy.parent? name = p.hierarchy.parent? name ∨
      p.hierarchy.parent? name = none ∧ p.class? name = none := by
  cases d with
  | class_ new parent interfaces =>
    obtain ⟨hnone, _, _, hedges, _⟩ := addClass_ok hd
    rw [hedges]
    by_cases hname : name = new
    · subst hname
      cases hparent : parent.filter (· ≠ "") with
      | none => simp
      | some a => exact .inr ⟨parent?_eq_none_of_addClass hd hparent, hnone⟩
    · simp [hname]
  | interface new =>
    obtain ⟨_, rfl⟩ := addInterface_ok hd
    -- no other declaration links classes
    exact .inl rfl
  | field c x type =>
    obtain ⟨_, _, _, _, _, _, rfl⟩ := addField_ok hd
    exact .inl rfl
  | method c m =>
    obtain ⟨_, _, _, _, _, rfl⟩ := addMethod_ok hd
    exact .inl rfl
  | function f =>
    obtain ⟨_, _, rfl⟩ := addFunction_ok hd
    exact .inl rfl
  | global x type =>
    obtain ⟨_, _, rfl⟩ := addGlobal_ok hd
    exact .inl rfl

/-- Global variables stay. -/
theorem global?_of_declare {d : Decl} (hd : p.declare d = .ok q) {t : Option Ty}
    (ht : p.global? name = some t) : q.global? name = some t := by
  rcases (outside_declare hd).2 with hsame | ⟨x, type, v, rfl, hinsert⟩
  · rwa [global?, hsame]
  · have hne : name ≠ x := by
      rintro rfl
      rw [global?, (addGlobal_ok hd).2.1] at ht
      cases ht
    rwa [global?, Scope.get?, hinsert, Dict.get?_insert_of_ne _ _ hne]

/-- **Step.** A declaration extends a program further, unless it adds a member to one of its
    classes. -/
theorem Extends.declare (h : p.Extends q) {d : Decl} (hd : q.declare d = .ok r)
    (hmember : ∀ cls x, d.member? = some (cls, x) → p.class? cls = none) : p.Extends r where
  classes {n c} hc := by
    rcases class?_declare hd n with hsame | ⟨_, hnone, _⟩ | ⟨x, _, _, rfl, _⟩ | ⟨m, _, rfl, _⟩
    · rw [hsame, h.classes hc]
    · exact absurd (hnone.symm.trans (h.classes hc)) (by simp)
    · exact absurd ((hmember n x rfl).symm.trans hc) (by simp)
    · exact absurd ((hmember n m.name rfl).symm.trans hc) (by simp)
  edges n := by
    rcases h.edges n with hsame | hfree
    · rcases parent?_declare hd n with hsame' | ⟨hparent, hclass⟩
      · exact .inl (hsame'.trans hsame)
      · -- what is not declared in the larger program is not declared in the smaller one
        refine .inr ⟨hsame ▸ hparent, Option.eq_none_iff_forall_ne_some.2 fun c hc => ?_⟩
        exact absurd (hclass.symm.trans (h.classes hc)) (by simp)
    · exact .inr hfree
  functions {n f} hf := (function?_declare hd f).2 (.inl (h.functions hf))
  globals ht := global?_of_declare hd (h.globals ht)

/-- **Run.** Declarations extend a program if they add no members to its classes. -/
theorem extends_declareAll {ds : List Decl} (h : p.declareAll ds = .ok q)
    (hmember : ∀ d ∈ ds, ∀ cls x, d.member? = some (cls, x) → p.class? cls = none) : p.Extends q :=
  declareAll_induction (P := p.Extends) h (.refl p) fun _ _ d hmem hext hd =>
    hext.declare hd (hmember d hmem)

/-! ### Programs in which everything is declared -/

/-- The classes above a declared class are declared, and so are the interfaces that it lists. -/
structure Closed (p : Program) : Prop where
  ancestors : ∀ {cls : String} {c : ClassDecl}, p.class? cls = some c →
    ∀ a ∈ p.hierarchy.ancestors cls, ∃ d, p.class? a = some d
  interfaces : ∀ {cls : String} {c : ClassDecl}, p.class? cls = some c →
    ∀ i ∈ c.interfaces, ∃ d, p.class? i = some d

/-- Interfaces that a class lists are declared where nothing is wrong with the hierarchy. -/
theorem class_of_mem_interfaces (hvalid : p.hierarchyErrors = []) {c : ClassDecl}
    (hc : p.class? cls = some c) {i : String} (hi : i ∈ c.interfaces) :
    ∃ d, p.class? i = some d := by
  have hnil : p.errorsOf c = [] := List.flatMap_eq_nil_iff.1 hvalid c (Dict.mem_values_of_get? hc)
  have hlisted := (List.append_eq_nil_iff.1 hnil).2
  rw [List.map_eq_nil_iff, List.filter_eq_nil_iff] at hlisted
  have hinterface : p.isInterface i := by simpa using hlisted i hi
  obtain ⟨d, hd, _⟩ := (Option.any_eq_true _ _).1 hinterface
  exact ⟨d, hd⟩

/-- What a program mentions is declared, if declarations build it and its hierarchy is valid. -/
theorem Valid.closed (hp : p.Valid) : p.Closed where
  ancestors hc a ha := by
    obtain ⟨d, hd, _⟩ := hp.class_of_mem_ancestors hc ha
    exact ⟨d, hd⟩
  interfaces hc _ hi := class_of_mem_interfaces hp.errors hc hi

/-- The classes of the chain of a declared class are declared. -/
theorem Closed.chain (hp : p.Closed) {c : ClassDecl} (hc : p.class? cls = some c) :
    ∀ a ∈ p.chain cls, ∃ d, p.class? a = some d := by
  intro a ha
  rcases List.mem_cons.1 ha with rfl | ha
  · exact ⟨c, hc⟩
  · exact hp.ancestors hc a ha

/-! ### What is found in an extension -/

/-- A search finds the same where the same is found at each place. -/
theorem findSome?_congr {α β : Type} {f g : α → Option β} {l : List α} (h : ∀ a ∈ l, f a = g a) :
    l.findSome? f = l.findSome? g := by
  induction l with
  | nil => rfl
  | cons a l ih =>
    rw [List.findSome?_cons, List.findSome?_cons, h a List.mem_cons_self,
      ih fun b hb => h b (List.mem_cons_of_mem a hb)]

namespace Extends

variable {c : ClassDecl}

/-- No class of a chain is lost. -/
theorem chain_isPrefix (h : p.Extends q) (cls : String) : p.chain cls <+: q.chain cls := by
  refine List.cons_prefix_cons.2 ⟨rfl, Hierarchy.ancestors_isPrefix (fun n => ?_) cls⟩
  rcases h.edges n with hsame | ⟨hnone, _⟩
  · exact .inl hsame
  · exact .inr hnone

/-- **Nothing comes above a declared class.** -/
theorem chain_eq (h : p.Extends q) (hp : p.Closed) (hc : p.class? cls = some c) :
    q.chain cls = p.chain cls := by
  have hparents : ∀ a ∈ p.chain cls, q.hierarchy.parent? a = p.hierarchy.parent? a := by
    intro a ha
    obtain ⟨d, hd⟩ := hp.chain hc a ha
    rcases h.edges a with hsame | ⟨_, hnone⟩
    · exact hsame
    · rw [hd] at hnone
      cases hnone
  rw [Program.chain, Hierarchy.ancestors_congr hparents, Program.chain]

/-- Classes that are declared are the same. -/
theorem class?_eq (h : p.Extends q) {names : List String}
    (hnames : ∀ a ∈ names, ∃ d, p.class? a = some d) {a : String} (ha : a ∈ names) :
    q.class? a = p.class? a := by
  obtain ⟨d, hd⟩ := hnames a ha
  rw [hd, h.classes hd]

/-- What is looked for in classes that are declared is found as before. -/
theorem findSome?_eq {α : Type} (h : p.Extends q) {names : List String}
    (hnames : ∀ a ∈ names, ∃ d, p.class? a = some d) (look : ClassDecl → Option α) :
    names.findSome? (fun a => (q.class? a).bind look) =
      names.findSome? fun a => (p.class? a).bind look :=
  findSome?_congr fun a ha => by rw [h.class?_eq hnames ha]

/-- The declarations of classes that are declared are the same. -/
theorem declared_eq (h : p.Extends q) {names : List String}
    (hnames : ∀ a ∈ names, ∃ d, p.class? a = some d) : q.declared names = p.declared names := by
  induction names with
  | nil => rfl
  | cons a names ih =>
    rw [declared, declared, h.class?_eq hnames List.mem_cons_self,
      ih fun b hb => hnames b (List.mem_cons_of_mem a hb)]

/-- **Fields.** A name is that of the same field, or still of none. -/
theorem field?_eq (h : p.Extends q) (hp : p.Closed) (hc : p.class? cls = some c) (name : String) :
    q.field? cls name = p.field? cls name := by
  rw [field?, field?, h.chain_eq hp hc, h.findSome?_eq (hp.chain hc)]

/-- **Methods.** A name is that of the same method, or still of none. -/
theorem method?_eq (h : p.Extends q) (hp : p.Closed) (hc : p.class? cls = some c) (name : String) :
    q.method? cls name = p.method? cls name := by
  have hpromised : ∀ d ∈ p.declared (p.chain cls), q.promised? d name = p.promised? d name := by
    intro d hd
    obtain ⟨a, _, ha⟩ := exists_name_of_mem_declared hd
    exact h.findSome?_eq (hp.interfaces ha) (·.method? name)
  simp only [method?, h.chain_eq hp hc, h.declared_eq (hp.chain hc), findSome?_congr hpromised]

/-- A subtype still is one. -/
theorem isSubtype (h : p.Extends q) {sub super : String} (hsub : p.isSubtype sub super) :
    q.isSubtype sub super := by
  simp only [Program.isSubtype, List.any_eq_true] at hsub ⊢
  obtain ⟨a, ha, habove⟩ := hsub
  refine ⟨a, (h.chain_isPrefix sub).subset ha, ?_⟩
  cases hc : p.class? a with
  | none =>
    -- a class that is not declared lists no interfaces, so it is the class itself
    have hself : a = super := by simpa [hc] using habove
    simp [hself]
  | some c => simpa [hc, h.classes hc] using habove

/-- **Types.** What fits still fits. -/
theorem isAssignable (h : p.Extends q) {src dst : Ty} (hfit : p.isAssignable src dst) :
    q.isAssignable src dst := by
  simp only [Program.isAssignable, Bool.or_eq_true] at hfit ⊢
  refine hfit.imp_right fun hfit => ?_
  split at hfit
  · exact hfit
  · exact h.isSubtype hfit
  · cases hfit

end Extends

end Decaf.Program
