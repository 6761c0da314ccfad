import Decaf.Proofs.Program.Lookup
import Decaf.Proofs.Program.Validity

namespace Decaf

/-!
# Hiding and overriding

A field is not to hide one of an ancestor, and a method that overrides another is to repeat its
signature.  A member is judged only once, when it is declared, and only against what is above its
class at that time.  Members that come in from above later are not compared with those below, and
neither does a look at the finished hierarchy compare them.  So the two rules hold where members are
declared from the top down, and fail otherwise.

* `ClassDecl.Agrees` — two classes, one above the other, do not clash in a name.
* `Program.view` — what the declarations below see of a class in a name.
* `Program.TopDown` — the members of a name along a chain are declared from the top down.
* `agrees_of_topDown` — where members are declared from the top down, classes agree with those above
  them.
* `late_members_clash` — where they are not, a program without an error in its hierarchy may hide
  and mistype members.
-/

/-! ### Signatures -/

/-- The types of the parameters and of the result are the same. -/
def Method.SameSignature (m n : Method) : Prop :=
  m.params.map (·.type) = n.params.map (·.type) ∧ m.ret = n.ret

theorem Method.SameSignature.symm {m n : Method} (h : m.SameSignature n) : n.SameSignature m :=
  ⟨h.1.symm, h.2.symm⟩

theorem Method.SameSignature.trans {m n o : Method} (hmn : m.SameSignature n)
    (hno : n.SameSignature o) : m.SameSignature o :=
  ⟨hmn.1.trans hno.1, hmn.2.trans hno.2⟩

/-- No two parameters differ in type exactly if the types are the same, where there are as many of
    them. -/
theorem paramMismatch?_eq_none_iff {index : Nat} {ps qs : List Param}
    (hlen : ps.length = qs.length) :
    paramMismatch? index ps qs = none ↔ ps.map (·.type) = qs.map (·.type) := by
  induction ps generalizing index qs with
  | nil =>
    obtain rfl := List.length_eq_zero_iff.1 hlen.symm
    simp [paramMismatch?]
  | cons p ps ih =>
    cases qs with
    | nil => simp at hlen
    | cons q qs =>
      rw [paramMismatch?, List.map_cons, List.map_cons, List.cons.injEq]
      by_cases htype : p.type = q.type
      · rw [if_pos htype, ih (by simpa using hlen)]
        simp [htype]
      · simp [htype]

/-- A method may override another exactly if it repeats its signature. -/
theorem Method.mismatch?_eq_none_iff {m n : Method} : m.mismatch? n = none ↔ m.SameSignature n := by
  unfold mismatch? SameSignature
  by_cases hlen : m.params.length = n.params.length
  · rw [← @paramMismatch?_eq_none_iff 1 _ _ hlen]
    cases paramMismatch? 1 m.params n.params <;> simp [hlen]
  · have hne : m.params.map (·.type) ≠ n.params.map (·.type) := by
      intro heq
      exact hlen (by simpa using congrArg List.length heq)
    simp [hlen, hne]

/-- Two classes, the second above the first, do not clash in a name: not both have a field of that
    name, and methods of that name have the same signature. -/
structure ClassDecl.Agrees (c d : ClassDecl) (name : String) : Prop where
  fields : c.field? name = none ∨ d.field? name = none
  methods : ∀ m n, c.method? name = some m → d.method? name = some n → m.SameSignature n

/-! ### What is seen of a class -/

namespace Decl

/-- The class and the name of the member that is declared. -/
def member? : Decl → Option (String × String)
  | field cls name _ => some (cls, name)
  | method cls m => some (cls, m.name)
  | _ => none

/-- The declaration is that of the class `cls`, or of its member `name`. -/
def Touches (d : Decl) (cls name : String) : Prop :=
  d.class? = some cls ∨ d.member? = some (cls, name)

instance (d : Decl) (cls name : String) : Decidable (d.Touches cls name) :=
  inferInstanceAs (Decidable (_ ∨ _))

end Decl

namespace Program

variable {p q : Program} {cls name : String}

/-- What the declarations below see of a class when they look for a name: its parent, and its
    members of that name. -/
def view (p : Program) (cls name : String) :
    Option (Option String × Option Symbol × Option Method) :=
  (p.class? cls).map fun c => (c.parent, c.field? name, c.method? name)

theorem view_of_class? {c : ClassDecl} (hc : p.class? cls = some c) :
    p.view cls name = some (c.parent, c.field? name, c.method? name) := by
  rw [view, hc, Option.map_some]

/-- **Step.** A declaration changes nothing in what is seen of a class if it does not touch it. -/
theorem view_declare {d : Decl} (hd : p.declare d = .ok q) (htouch : ¬ d.Touches cls name) :
    q.view cls name = p.view cls name := by
  rcases class?_declare hd cls with hsame | ⟨hclass, _⟩ | ⟨x, type, c, rfl, hc, hq⟩ |
    ⟨m, c, rfl, hc, hq⟩
  · rw [view, hsame, view]
  · exact absurd (.inl hclass) htouch
  · -- another field of the class
    have hx : x ≠ name := fun h => htouch (.inr (by rw [Decl.member?, h]))
    rw [view_of_class? hc, view_of_class? hq]
    simp [ClassDecl.field?, ClassDecl.method?, hx]
  · -- another method of the class
    have hm : name ≠ m.name := fun h => htouch (.inr (by rw [Decl.member?, h]))
    rw [view_of_class? hc, view_of_class? hq]
    simp [ClassDecl.field?, ClassDecl.method?, Dict.get?_insert_of_ne _ _ hm]

/-- A class that is declared keeps its parent. -/
theorem parent_declare {d : Decl} (hd : p.declare d = .ok q) {c : ClassDecl}
    (hc : p.class? cls = some c) : ∃ c', q.class? cls = some c' ∧ c'.parent = c.parent := by
  rcases class?_declare hd cls with hsame | ⟨_, hnone, _⟩ | ⟨_, _, c', _, hc', hq⟩ |
    ⟨_, c', _, hc', hq⟩
  · exact ⟨c, hsame.trans hc, rfl⟩
  · exact absurd (hnone.symm.trans hc) (by simp)
  · obtain rfl := Option.some.inj (hc.symm.trans hc')
    exact ⟨_, hq, rfl⟩
  · obtain rfl := Option.some.inj (hc.symm.trans hc')
    exact ⟨_, hq, rfl⟩

/-! ### Declarations that are all accepted -/

/-- The program with more declarations, unless one of them is refused. -/
def declareAll (p : Program) (ds : List Decl) : Except DeclError Program :=
  ds.foldlM declare p

theorem declareAll_cons_ok {d : Decl} {ds : List Decl} (h : p.declareAll (d :: ds) = .ok q) :
    ∃ p₁, p.declare d = .ok p₁ ∧ p₁.declareAll ds = .ok q := by
  rw [declareAll, List.foldlM_cons] at h
  cases hd : p.declare d with
  | error e => simp [hd, bind, Except.bind] at h
  | ok p₁ => exact ⟨p₁, rfl, by simpa [declareAll, hd, bind, Except.bind] using h⟩

/-- **Induction over accepted declarations.** -/
theorem declareAll_induction {P : Program → Prop} {ds : List Decl} (h : p.declareAll ds = .ok q)
    (hp : P p) (hstep : ∀ p₁ p₂, ∀ d ∈ ds, P p₁ → p₁.declare d = .ok p₂ → P p₂) : P q := by
  induction ds generalizing p with
  | nil =>
    cases h
    exact hp
  | cons d ds ih =>
    obtain ⟨p₁, hd, hds⟩ := declareAll_cons_ok h
    exact ih hds (hstep p p₁ d List.mem_cons_self hp hd) fun p₁ p₂ e he =>
      hstep p₁ p₂ e (List.mem_cons_of_mem d he)

/-- The parts of a program fit together if all declarations that build it are accepted. -/
theorem lawful_declareAll {ds : List Decl} (h : empty.declareAll ds = .ok p) : p.Lawful :=
  declareAll_induction h (lawful_ofDecls []) fun _ _ _ _ hp hd => hp.declare hd

/-- **Run.** Declarations that do not touch a class change nothing in what is seen of it. -/
theorem view_declareAll {ds : List Decl} (h : p.declareAll ds = .ok q)
    (htouch : ∀ d ∈ ds, ¬ d.Touches cls name) : q.view cls name = p.view cls name :=
  declareAll_induction (P := fun p' => p'.view cls name = p.view cls name) h rfl
    fun _ _ d hmem hview hd => (view_declare hd (htouch d hmem)).trans hview

/-- What does not hold at first and holds in the end was made to hold by one of the declarations. -/
theorem exists_declaration {P : Program → Prop} {ds : List Decl} (h : p.declareAll ds = .ok q)
    (hp : ¬ P p) (hq : P q) :
    ∃ pre d post p₁ p₂, ds = pre ++ d :: post ∧ p.declareAll pre = .ok p₁ ∧ p₁.declare d = .ok p₂ ∧
      p₂.declareAll post = .ok q ∧ ¬ P p₁ ∧ P p₂ := by
  induction ds generalizing p with
  | nil =>
    cases h
    exact absurd hq hp
  | cons d ds ih =>
    obtain ⟨p₁, hd, hds⟩ := declareAll_cons_ok h
    -- the first declaration after which it holds
    by_cases hP : P p₁
    · exact ⟨[], d, ds, p, p₁, rfl, rfl, hd, hds, hp, hP⟩
    · obtain ⟨pre, e, post, p₂, p₃, rfl, hpre, he, hpost, hnot, hthen⟩ := ih hds hP
      refine ⟨d :: pre, e, post, p₂, p₃, rfl, ?_, he, hpost, hnot, hthen⟩
      rw [declareAll, List.foldlM_cons, hd]
      exact hpre

/-- A field that is new was declared by just that. -/
theorem eq_field_of_declare {d : Decl} (hd : p.declare d = .ok q) {c : ClassDecl} {f : Symbol}
    (hc : q.class? cls = some c) (hf : c.field? name = some f)
    (hnew : ∀ e, p.class? cls = some e → e.field? name ≠ some f) :
    ∃ type, d = .field cls name type := by
  rcases class?_declare hd cls with hsame | ⟨_, _, e, he, hnone, _⟩ | ⟨x, type, e, rfl, he, hq⟩ |
    ⟨m, e, rfl, he, hq⟩
  · exact absurd hf (hnew c (hsame.symm.trans hc))
  · obtain rfl := Option.some.inj (hc.symm.trans he)
    simp [ClassDecl.field?, hnone] at hf
  · -- the last of the fields is the one that is new
    obtain rfl := Option.some.inj (hc.symm.trans hq)
    have hx : x = name := by
      by_contra hne
      refine hnew e he ?_
      simpa [ClassDecl.field?, hne] using hf
    exact ⟨type, by rw [hx]⟩
  · -- a method leaves the fields as they are
    obtain rfl := Option.some.inj (hc.symm.trans hq)
    exact absurd hf (hnew e he)

/-- A method that is new was declared by just that. -/
theorem eq_method_of_declare {d : Decl} (hd : p.declare d = .ok q) {c : ClassDecl} {m : Method}
    (hc : q.class? cls = some c) (hm : c.method? name = some m)
    (hnew : ∀ e, p.class? cls = some e → e.method? name ≠ some m) :
    ∃ m₀ : Method, d = .method cls m₀ ∧ m₀.name = name ∧ m = { m₀ with owner := some cls } := by
  rcases class?_declare hd cls with hsame | ⟨_, _, e, he, _, hnone⟩ | ⟨x, type, e, rfl, he, hq⟩ |
    ⟨m₀, e, rfl, he, hq⟩
  · exact absurd hm (hnew c (hsame.symm.trans hc))
  · obtain rfl := Option.some.inj (hc.symm.trans he)
    rw [ClassDecl.method?, hnone] at hm
    cases hm
  · -- a field leaves the methods as they are
    obtain rfl := Option.some.inj (hc.symm.trans hq)
    exact absurd hm (hnew e he)
  · obtain rfl := Option.some.inj (hc.symm.trans hq)
    rcases Dict.eq_or_get?_of_get?_insert hm with ⟨hname, rfl⟩ | ⟨_, hold⟩
    · exact ⟨m₀, rfl, hname.symm, rfl⟩
    · exact absurd hold (hnew e he)

/-! ### What is above a class when its members are declared -/

/-- The parent of a class is part of what is seen of it. -/
theorem Lawful.parent?_eq_view (hp : p.Lawful) :
    p.hierarchy.parent? cls = (p.view cls name).bind (·.1) := by
  rw [hp.edges, view, Option.bind_map]
  rfl

/-- A class whose parent is the same in another program, with the classes above it seen the same,
    has the same classes above it. -/
theorem Valid.ancestors_eq (hp : p.Valid) (hq : q.Lawful) {c d : ClassDecl}
    (hc : p.class? cls = some c) (hd : q.class? cls = some d) (hparent : d.parent = c.parent)
    (hview : ∀ a ∈ p.hierarchy.ancestors cls, q.view a name = p.view a name) :
    q.hierarchy.ancestors cls = p.hierarchy.ancestors cls := by
  have hedges : ∀ a ∈ p.chain cls, q.hierarchy.parent? a = p.hierarchy.parent? a := by
    intro a ha
    rcases List.mem_cons.1 ha with rfl | ha
    · rw [hq.parent?_eq hd, hp.lawful.parent?_eq hc, hparent]
    · rw [@Lawful.parent?_eq_view _ _ name hq, @Lawful.parent?_eq_view _ _ name hp.lawful,
        hview a ha]
  obtain ⟨line, hl⟩ := hp.exists_line hc
  have hchain : p.chain cls = line := hp.lawful.chain_eq_of_line hl
  rw [hchain] at hedges
  -- a line is determined by the links along it, and those are the same
  have hline : q.hierarchy.Line cls line := hl.congr hedges
  have heq : q.chain cls = p.chain cls := by rw [hchain, hq.chain_eq_of_line hline]
  exact (List.cons.inj heq).2

/-- The methods that are found along a list of classes only depend on what is seen of these. -/
theorem findSome?_declared_congr {names : List String}
    (hview : ∀ a ∈ names, q.view a name = p.view a name) :
    (q.declared names).findSome? (·.method? name) =
      (p.declared names).findSome? (·.method? name) := by
  induction names with
  | nil => rfl
  | cons a names ih =>
    have hrest := ih fun b hb => hview b (List.mem_cons_of_mem a hb)
    have ha : q.view a name = p.view a name := hview a List.mem_cons_self
    unfold view at ha
    rw [declared, declared]
    cases hq : q.class? a with
    | none =>
      have hp : p.class? a = none := by simpa [hq] using ha.symm
      simp [hp]
    | some d =>
      rw [hq, eq_comm, Option.map_some, Option.map_eq_some_iff] at ha
      obtain ⟨c, hp, heq⟩ := ha
      have hmethod : c.method? name = d.method? name := congrArg (·.2.2) heq
      simp only [hp, List.findSome?_cons, hmethod, hrest]

/-- What a declaration was checked against when it was made is still there in the end: the class of
    the member has the classes above it that it had, and the same is seen of them, if what comes
    later does not touch them. -/
theorem Valid.seen_at_end (hp : p.Valid) {q₀ : Program} (hq : q₀.Lawful) {d : Decl}
    {post : List Decl} (hmember : d.member? = some (cls, name)) (hd : q₀.declare d = .ok q)
    (hpost : q.declareAll post = .ok p)
    (htouch : ∀ e ∈ post, ∀ a ∈ p.hierarchy.ancestors cls, ¬ e.Touches a name) {c₀ : ClassDecl}
    (hc₀ : q₀.class? cls = some c₀) :
    q₀.hierarchy.ancestors cls = p.hierarchy.ancestors cls ∧
      ∀ a ∈ p.hierarchy.ancestors cls, q₀.view a name = p.view a name := by
  -- the class has its parent from the beginning
  obtain ⟨c, hc, hparent⟩ : ∃ c, p.class? cls = some c ∧ c.parent = c₀.parent := by
    refine declareAll_induction
      (P := fun p' => ∃ c, p'.class? cls = some c ∧ c.parent = c₀.parent) hpost
      (parent_declare hd hc₀) ?_
    rintro p₁ p₂ e _ ⟨c₁, hc₁, hparent₁⟩ he
    obtain ⟨c₂, hc₂, hparent₂⟩ := parent_declare he hc₁
    exact ⟨c₂, hc₂, hparent₂.trans hparent₁⟩
  have hview : ∀ a ∈ p.hierarchy.ancestors cls, q₀.view a name = p.view a name := by
    intro a ha
    have hself : ¬ d.Touches a name := by
      rintro (hclass | hother)
      · cases d with
        | field | method => cases hclass
        | class_ | interface | function | global => cases hmember
      · -- a member of the class itself, which is not above itself
        obtain rfl : cls = a := by simpa using hmember.symm.trans hother
        exact hp.not_mem_ancestors hc ha
    rw [view_declareAll hpost fun e he => htouch e he a ha, view_declare hd hself]
  exact ⟨hp.ancestors_eq hq hc hc₀ hparent.symm hview, hview⟩

/-! ### Declarations from the top down -/

/-- The members `name` of the chain of `cls` are declared from the top down: once a class of the
    chain has declared one, no class above it is declared any more, or declares one. -/
def TopDown (p : Program) (ds : List Decl) (cls name : String) : Prop :=
  ds.Pairwise fun d e => ∀ b ∈ p.chain cls, d.member? = some (b, name) →
    ∀ a ∈ p.hierarchy.ancestors b, ¬ e.Touches a name

instance (p : Program) (ds : List Decl) (cls name : String) : Decidable (p.TopDown ds cls name) :=
  inferInstanceAs (Decidable (List.Pairwise _ _))

/-- The member `name` of a class would still be accepted, as far as the classes above it are
    concerned. -/
structure StillAccepted (p : Program) (cls name : String) : Prop where
  field : ∀ c f, p.class? cls = some c → c.field? name = some f → p.inheritedField? cls name = none
  method : ∀ c m, p.class? cls = some c → c.method? name = some m →
    ∀ n, p.inheritedMethod? cls name = some n → n.SameSignature m

/-- **What was checked stays so.** Where members are declared from the top down, the program in the
    end accepts what was accepted on the way. -/
theorem Valid.stillAccepted (hp : p.Valid) {ds : List Decl} (hall : empty.declareAll ds = .ok p)
    (horder : p.TopDown ds cls name) {b : String} (hb : b ∈ p.chain cls) :
    p.StillAccepted b name := by
  -- the declarations after that of a member do not touch what is above it
  have hlater : ∀ {pre : List Decl} {d : Decl} {post : List Decl}, ds = pre ++ d :: post →
      d.member? = some (b, name) → ∀ e ∈ post, ∀ a ∈ p.hierarchy.ancestors b,
      ¬ e.Touches a name := by
    intro pre d post hds hmember e he
    rw [TopDown, hds] at horder
    have hpair := List.rel_of_pairwise_cons (List.pairwise_append.1 horder).2.1 he
    exact hpair b hb hmember
  constructor
  · intro c f hc hf
    obtain ⟨pre, d, post, q, q', hds, hpre, hd, hpost, hnot, e', he', hf'⟩ := exists_declaration
      (P := fun p => ∃ c, p.class? b = some c ∧ c.field? name = some f) hall
        (by simp [class?, empty]) ⟨c, hc, hf⟩
    obtain ⟨type, rfl⟩ := eq_field_of_declare hd he' hf' fun e he hfield => hnot ⟨e, he, hfield⟩
    obtain ⟨c₀, hc₀, _, _, _, hinherited, _⟩ := addField_ok hd
    obtain ⟨hancestors, hview⟩ :=
      hp.seen_at_end (lawful_declareAll hpre) rfl hd hpost (hlater hds rfl) hc₀
    rw [inheritedField?, hancestors, List.findSome?_eq_none_iff] at hinherited
    rw [inheritedField?, List.findSome?_eq_none_iff]
    intro a ha
    have hfield : ∀ p : Program, (p.class? a).bind (·.field? name) =
        (p.view a name).bind (·.2.1) := by
      intro p
      rw [view, Option.bind_map]
      rfl
    rw [hfield, ← hview a ha, ← hfield]
    exact hinherited a ha
  · intro c m hc hm n hn
    obtain ⟨pre, d, post, q, q', hds, hpre, hd, hpost, hnot, e', he', hm'⟩ := exists_declaration
      (P := fun p => ∃ c, p.class? b = some c ∧ c.method? name = some m) hall
        (by simp [class?, empty]) ⟨c, hc, hm⟩
    obtain ⟨m₀, rfl, rfl, rfl⟩ :=
      eq_method_of_declare hd he' hm' fun e he hmethod => hnot ⟨e, he, hmethod⟩
    obtain ⟨c₀, hc₀, _, _, hinherited, _⟩ := addMethod_ok hd
    obtain ⟨hancestors, hview⟩ :=
      hp.seen_at_end (lawful_declareAll hpre) rfl hd hpost (hlater hds rfl) hc₀
    have hsame : q.inheritedMethod? b m₀.name = p.inheritedMethod? b m₀.name := by
      rw [inheritedMethod?, hancestors, findSome?_declared_congr hview, inheritedMethod?]
    rw [hsame, hn, Option.bind_some, Method.mismatch?_eq_none_iff] at hinherited
    exact hinherited

/-- Where all members are still accepted, the methods of a name along a chain have the same
    signature. -/
theorem Valid.sameSignature_of_stillAccepted (hp : p.Valid) {c : ClassDecl}
    (hc : p.class? cls = some c) (haccepted : ∀ b ∈ p.chain cls, p.StillAccepted b name) :
    ∀ a ∈ p.chain cls, ∀ b ∈ p.chain cls, ∀ d e m n, p.class? a = some d → p.class? b = some e →
      d.method? name = some m → e.method? name = some n → m.SameSignature n := by
  revert haccepted
  refine hp.induction (P := fun cls => (∀ b ∈ p.chain cls, p.StillAccepted b name) →
    ∀ a ∈ p.chain cls, ∀ b ∈ p.chain cls, ∀ d e m n, p.class? a = some d → p.class? b = some e →
      d.method? name = some m → e.method? name = some n → m.SameSignature n) ?_ ?_ hc
  · intro x c hc hparent _ a ha b hb d e m n hd he hm hn
    rw [hp.lawful.chain_of_parent_eq_none hc hparent, List.mem_singleton] at ha hb
    subst ha hb
    cases hd.symm.trans he
    cases hm.symm.trans hn
    exact ⟨rfl, rfl⟩
  · intro x c up u hc hparent hup _ ih haccepted
    have hchain : p.chain x = x :: p.chain up := hp.chain_of_parent hc hparent
    rw [hchain] at haccepted ⊢
    have habove := ih fun b hb => haccepted b (List.mem_cons_of_mem x hb)
    -- a method of the class itself has the signature of the nearest one above, and so of all of
    -- them
    have hself : ∀ b ∈ p.chain up, ∀ e m n, c.method? name = some m → p.class? b = some e →
        e.method? name = some n → m.SameSignature n := by
      intro b hb e m n hm he hn
      have hdeclared : ∀ a ∈ p.chain up, ∃ d, p.class? a = some d :=
        fun a ha => hp.class_of_mem_chain hup ha
      cases hnearest : p.inheritedMethod? x name with
      | none =>
        rw [inheritedMethod?, hp.ancestors_of_parent hc hparent,
          List.findSome?_eq_none_iff] at hnearest
        simp [hnearest e (mem_declared hdeclared hb he)] at hn
      | some o =>
        have hfirst : o.SameSignature m :=
          (haccepted x List.mem_cons_self).method c m hc hm o hnearest
        rw [inheritedMethod?, hp.ancestors_of_parent hc hparent] at hnearest
        obtain ⟨d, hd, ho⟩ := List.exists_of_findSome?_eq_some hnearest
        obtain ⟨a, ha, hclass⟩ := exists_name_of_mem_declared hd
        exact hfirst.symm.trans (habove a ha b hb d e o n hclass he ho hn)
    intro a ha b hb d e m n hd he hm hn
    rcases List.mem_cons.1 ha with rfl | ha' <;> rcases List.mem_cons.1 hb with rfl | hb'
    · cases hd.symm.trans he
      cases hm.symm.trans hn
      exact ⟨rfl, rfl⟩
    · cases hc.symm.trans hd
      exact hself b hb' e m n hm he hn
    · cases hc.symm.trans he
      exact (hself a ha' d n m hn hd hm).symm
    · exact habove a ha' b hb' d e m n hd he hm hn

end Program

/-- **Members from the top down.** Let all of the declarations be accepted, and let there be no
    error in the hierarchy in the end.  Take a class, and a name whose members along the chain of
    the class are declared from the top down.  Then the class agrees with each class above it: it
    hides none of its fields, and its method repeats the signature. -/
theorem agrees_of_topDown (ds : List Decl) (p : Program)
    (hall : Program.empty.declareAll ds = .ok p) (hvalid : p.hierarchyErrors = [])
    (cls name : String) (horder : p.TopDown ds cls name) (c : ClassDecl)
    (hc : p.class? cls = some c) (a : String) (ha : a ∈ p.hierarchy.ancestors cls) (d : ClassDecl)
    (hd : p.class? a = some d) : c.Agrees d name := by
  have hp : p.Valid := ⟨Program.lawful_declareAll hall, hvalid⟩
  -- what was checked at each declaration still holds of the whole program
  have haccepted : ∀ b ∈ p.chain cls, p.StillAccepted b name :=
    fun b hb => hp.stillAccepted hall horder hb
  constructor
  · cases hf : c.field? name with
    | none => exact .inl rfl
    | some f =>
      have hnone := (haccepted cls List.mem_cons_self).field c f hc hf
      rw [Program.inheritedField?, List.findSome?_eq_none_iff] at hnone
      have hfield := hnone a ha
      rw [hd, Option.bind_some] at hfield
      exact .inr hfield
  · intro m n hm hn
    exact hp.sameSignature_of_stillAccepted hc haccepted cls List.mem_cons_self a
      (List.mem_cons_of_mem cls ha) c d m n hc hd hm hn

/-- The parent may be declared after its child, as long as the members come from the top down. -/
theorem agrees_below_later_parent :
    let m : Method := { name := "m", params := [⟨"a", some .int⟩], ret := some .bool }
    let ds : List Decl :=
      [.class_ "B" (some "A") [], .field "B" "x" (some .int), .class_ "A" none [], .method "A" m,
        .method "B" { m with params := [⟨"b", some .int⟩] }]
    let p := Program.ofDecls ds
    (p.class? "B").bind (·.method? "m") ≠ none ∧ (p.class? "A").bind (·.method? "m") ≠ none ∧
      ∀ c d, p.class? "B" = some c → p.class? "A" = some d → c.Agrees d "m" := by
  intro m ds p
  have hall : Program.empty.declareAll ds = .ok p := by decide +kernel
  refine ⟨by decide +kernel, by decide +kernel, fun c d hc hd => ?_⟩
  exact agrees_of_topDown ds p hall (by decide +kernel) "B" "m" (by decide +kernel) c hc "A"
    (by decide +kernel) d hd

/-- Members that a parent gets after its child has some of the same names.  All declarations are
    accepted, and there is no error in the hierarchy; but the child hides a field of the parent, and
    its method has another result. -/
theorem late_members_clash :
    let ds : List Decl :=
      [.class_ "A" none [], .class_ "B" (some "A") [], .field "B" "x" (some .int),
        .method "B" { name := "m", params := [], ret := some .int }, .field "A" "x" (some .int),
        .method "A" { name := "m", params := [], ret := some .bool }]
    let p := Program.ofDecls ds
    Program.empty.declareAll ds = .ok p ∧ p.hierarchyErrors = [] ∧ "A" ∈ p.hierarchy.ancestors "B" ∧
      ∃ c d, p.class? "B" = some c ∧ p.class? "A" = some d ∧ ¬ c.Agrees d "x" ∧
        ¬ c.Agrees d "m" := by
  intro ds p
  refine ⟨by decide +kernel, by decide +kernel, by decide +kernel, _, _, rfl, rfl, ?_, ?_⟩
  · rintro ⟨hfields, _⟩
    revert hfields
    decide +kernel
  · rintro ⟨_, hmethods⟩
    have hret := (hmethods _ _ rfl rfl).2
    cases hret

end Decaf
