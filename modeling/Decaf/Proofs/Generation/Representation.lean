import Decaf.Proofs.Generation.Dispatch
import Decaf.Proofs.Scopes
import Decaf.Proofs.Typing.Sharing

namespace Decaf

/-!
# What is accepted can be represented

The checker knows nothing of representations, and the generator nothing of the rules of typing.
What joins them is that every type in a program that has been generated has a representation, and
that the types of expressions are put together from these in ways that keep one: elements of arrays,
results of methods, arrays of written types.

* `Generator.Lowers` — a type has a representation.
* `Generator.lowered_of_run_generate` — what is declared has a representation once the program is
  generated.
* `Typed.lowers` — so has the type of every expression that has a type.
* `accepted_expressions_lower` — what the checker has found for an expression that it accepts, and
  for all its parts.
-/

/-- The signatures that are declared in a module, by the names that they have there: those of the
    methods of classes, and those of functions.  Methods of interfaces are declared nowhere. -/
inductive Program.HasSignature (p : Program) : String → Method → Prop
  | method {cls : String} {c : ClassDecl} {m : Method} :
      p.class? cls = some c → c.isInterface = false → m ∈ c.methods.values →
      HasSignature p (methodSymbol cls m.name) m
  | function {name : String} {m : Method} : p.functions.get? name = some m → HasSignature p name m

/-! ### Types with a representation -/

namespace Generator

variable {p : Program} {g g' : Generator}

/-- A type has a representation. -/
def Lowers (g : Generator) (p : Program) (t : Option Ty) : Prop :=
  ∃ u, g.lower p t = .ok u

instance (g : Generator) (p : Program) (t : Option Ty) : Decidable (g.Lowers p t) :=
  match h : g.lower p t with
  | .ok u => .isTrue ⟨u, h⟩
  | .error e => .isFalse fun ⟨u, hu⟩ => by simp [h] at hu

/-- Representations depend on which structs are known, and on nothing else that has been made. -/
theorem Lowers.of_structs_eq {t : Option Ty} (h : g.Lowers p t)
    (hstructs : g'.structs = g.structs) : g'.Lowers p t := by
  rwa [Lowers, lower, hstructs]

/-- Only `void` is represented by nothing. -/
theorem eq_void_of_lowerType {structs : Dict Nat} {t : Ty} (h : lowerType p structs t = .ok .void) :
    t = .void := by
  cases t with
  | void => rfl
  | named name =>
    rw [lowerType] at h
    split at h
    · cases h
    · split at h <;> cases h
  | array elem =>
    rw [lowerType] at h
    split at h
    · cases h
    · split at h <;> cases h
  | _ => cases h

/-- The type of a declaration is represented by nothing exactly if it is `void`. -/
theorem lowerDeclared_eq_void_iff {structs : Dict Nat} {type : Option Ty} :
    lowerDeclared p structs type = .ok .void ↔ type = some .void := by
  constructor
  · intro h
    cases type with
    | none => cases h
    | some t => rw [eq_void_of_lowerType h]
  · rintro rfl
    rfl

/-- An array has a representation if its elements have one and are there at all. -/
theorem lowers_array_iff {t : Ty} :
    g.Lowers p (some (.array t)) ↔ g.Lowers p (some t) ∧ t ≠ .void := by
  have harray : g.lower p (some (.array t)) = lowerType p g.structs (.array t) := rfl
  constructor
  · rintro ⟨u, hu⟩
    rw [harray, lowerType] at hu
    cases ht : lowerType p g.structs t with
    | error e => simp [ht] at hu
    | ok v =>
      refine ⟨⟨v, ht⟩, ?_⟩
      rintro rfl
      cases ht
      simp [lowerType] at hu
  · rintro ⟨⟨v, hv⟩, hvoid⟩
    have hv' : lowerType p g.structs t = .ok v := hv
    -- nothing but `void` is represented as `void`
    have hne : v ≠ .void := by
      rintro rfl
      exact hvoid (eq_void_of_lowerType hv')
    exact ⟨.pointer (.arrayRecord v), by simp [harray, lowerType, hv', hne]⟩

/-- The error type has no representation, and occurs in no type that has one. -/
theorem Lowers.mentionsError {t : Ty} (h : g.Lowers p (some t)) : t.mentionsError = false := by
  induction t with
  | error =>
    obtain ⟨u, hu⟩ := h
    cases hu
  | array elem ih => exact ih (lowers_array_iff.1 h).1
  | _ => rfl

/-- A declaration whose type has a representation can be relied on. -/
theorem Lowers.soundType {t : Option Ty} (h : g.Lowers p t) : SoundType t := by
  cases t with
  | none =>
    obtain ⟨u, hu⟩ := h
    cases hu
  | some t => exact ⟨t, rfl, h.mentionsError⟩

/-- Parameters with representations have types with representations. -/
theorem lowers_of_lowerParams {name : String} {qs : List Param} {params : List Llvm.Param}
    (h : lowerParams p g.structs name qs = .ok params) {q : Param} (hq : q ∈ qs) :
    g.Lowers p q.type ∧ q.type ≠ some .void := by
  obtain ⟨r, _, hr, hvoid⟩ := exists_of_forall₂ (forall₂_of_lowerParams h) hq
  refine ⟨⟨r.type, hr⟩, fun heq => hvoid ?_⟩
  exact Except.ok.inj (hr.symm.trans (lowerDeclared_eq_void_iff.2 heq))

/-- A signature with a representation has types with representations. -/
theorem declares_of_lowerSignature {name : String} {m : Method} {leading : List Llvm.Param}
    {f : Llvm.Func} (h : lowerSignature p g.structs name m leading = .ok f) :
    m.Declares (g.Lowers p) := by
  obtain ⟨ret, params, hret, hparams, _⟩ := lowerSignature_ok h
  exact ⟨fun q hq => (lowers_of_lowerParams hparams hq).1, ret, hret⟩

/-! ### What generation has represented -/

/-- The fields of a class whose struct is defined have representations. -/
theorem lowers_of_isStructOf {l : Layout} {d : Llvm.TypeDef} (h : IsStructOf p g.structs l d)
    {a : Attribute} (ha : a ∈ l.attributes) : g.Lowers p a.type := by
  obtain ⟨types, htypes, _⟩ := h
  have hmem : lowerDeclared p g.structs a.type ∈ types.map Except.ok := by
    rw [← fieldTypes_eq_ok_iff.1 htypes]
    exact List.mem_map_of_mem (f := fun a : Attribute => lowerDeclared p g.structs a.type) ha
  obtain ⟨t, _, ht⟩ := List.mem_map.1 hmem
  exact ⟨t, ht.symm⟩

/-- What is declared in a program has a representation, interfaces apart. -/
structure Lowered (p : Program) (g : Generator) : Prop where
  struct : ∀ {cls : String} {c : ClassDecl}, p.class? cls = some c → c.isInterface = false →
    g.structs.get? cls ≠ none
  fields : ∀ {cls : String} {c : ClassDecl}, p.class? cls = some c → c.isInterface = false →
    ∀ f ∈ c.fields, g.Lowers p f.type
  methods : ∀ {cls : String} {c : ClassDecl}, p.class? cls = some c → c.isInterface = false →
    ∀ m ∈ c.methods.values, m.Declares (g.Lowers p)
  functions : ∀ f ∈ p.functions.values, f.Declares (g.Lowers p)
  globals : ∀ v ∈ p.globals.symbols.values, g.Lowers p v.type

/-- **Structs.** The structs that are known in the end are those that the second stage has made
    known. -/
theorem structs_of_run_generate (h : (generate p).run g = (.ok (), g')) :
    g'.structs = numberStructs g.structs g.module.typeDefs.length (layoutOrder p.layouts.1) := by
  obtain ⟨_, g₁, g₂, g₃, g₄, h₁, h₂, h₃, h₄, h₅⟩ := run_generate_ok h
  obtain ⟨_, rfl⟩ := run_buildLayouts_iff.1 h₁
  obtain ⟨defs, log, hg₂, _⟩ := run_declareClasses_ok h₂
  rw [(run_declareGlobals_ok h₅).1.structs_eq, (addsGlobals_of_run_constructVTables h₄).structs_eq,
    (run_declareMethods_ok h₃).1.structs_eq, hg₂]

/-- **Signatures.** Once a program is generated, by whatever generator, all its signatures have
    representations. -/
theorem exists_lowerSignature_of_run_generate (h : (generate p).run g = (.ok (), g'))
    {name : String} {m : Method} (hm : p.HasSignature name m) :
    ∃ leading f, lowerSignature p g'.structs name m leading = .ok f := by
  obtain ⟨_, g₁, g₂, g₃, g₄, h₁, h₂, h₃, h₄, h₅⟩ := run_generate_ok h
  obtain ⟨hlayouts, rfl⟩ := run_buildLayouts_iff.1 h₁
  obtain ⟨defs, log, hg₂, _⟩ := run_declareClasses_ok h₂
  obtain ⟨_, hmethods⟩ := run_declareMethods_ok h₃
  obtain ⟨hgrows, _, _, hfunctions, _⟩ := run_declareGlobals_ok h₅
  -- the structs are numbered before the first signature and stay as they are
  have h₄₃ : g₄.structs = g₃.structs := (addsGlobals_of_run_constructVTables h₄).structs_eq
  have horder : layoutOrder g₂.layouts = layoutOrder p.layouts.1 := by rw [hg₂]
  cases hm with
  | method hc hclass hm =>
    obtain ⟨l, hl, rfl, _⟩ := Program.exists_layout hlayouts hc hclass
    obtain ⟨f, hf, _⟩ := hmethods l (horder ▸ hl) _ hc m hm
    rw [hgrows.structs_eq, h₄₃]
    exact ⟨_, f, hf⟩
  | function hm =>
    obtain ⟨f, hf⟩ := hfunctions (name, m) (Dict.get?_eq_some_iff.1 hm)
    rw [hgrows.structs_eq]
    exact ⟨[], f, hf⟩

/-- **All stages.** Once a program is generated, by whatever generator, what is declared in it has a
    representation.  Every stage uses the structs that the second one has made known. -/
theorem lowered_of_run_generate (h : (generate p).run g = (.ok (), g')) : Lowered p g' := by
  obtain ⟨_, g₁, g₂, g₃, g₄, h₁, h₂, h₃, h₄, h₅⟩ := run_generate_ok h
  obtain ⟨hlayouts, rfl⟩ := run_buildLayouts_iff.1 h₁
  obtain ⟨defs, log, hg₂, hdefs⟩ := run_declareClasses_ok h₂
  obtain ⟨hgrows, _, _, _, hglobals⟩ := run_declareGlobals_ok h₅
  -- nothing makes structs known after the second stage
  have hlast : g'.structs = g₂.structs := by rw [structs_of_run_generate h, hg₂]
  have hsignatures : ∀ {name m}, p.HasSignature name m → m.Declares (g'.Lowers p) := by
    intro name m hm
    obtain ⟨_, f, hf⟩ := exists_lowerSignature_of_run_generate h hm
    exact declares_of_lowerSignature hf
  constructor
  · intro cls c hc hclass
    obtain ⟨l, hl, rfl, _⟩ := Program.exists_layout hlayouts hc hclass
    rw [hlast, hg₂]
    exact get?_numberStructs_of_mem hl _ _
  · intro cls c hc hclass f hf
    obtain ⟨l, hl, _, hfields⟩ := Program.exists_layout hlayouts hc hclass
    obtain ⟨a, ha, htype⟩ := hfields f hf
    -- the field is an attribute of the layout, and the struct of the layout was defined
    obtain ⟨d, _, hstruct⟩ := exists_of_forall₂ hdefs hl
    rw [← htype]
    exact (lowers_of_isStructOf hstruct ha).of_structs_eq hlast
  · intro cls c hc hclass m hm
    exact hsignatures (.method hc hclass hm)
  · intro f hf
    obtain ⟨name, hname⟩ := Dict.mem_values_iff.1 hf
    exact hsignatures (.function hname)
  · intro v hv
    obtain ⟨x, hx, rfl⟩ := List.mem_map.1 hv
    have hlower : g₄.Lowers p x.2.type := hglobals x hx
    exact hlower.of_structs_eq hgrows.structs_eq

/-- A class or interface that is declared has a representation. -/
theorem Lowered.named (hg : Lowered p g) {cls : String} (hcls : p.classes.contains cls) :
    g.Lowers p (some (.named cls)) := by
  obtain ⟨c, hc⟩ : ∃ c, p.class? cls = some c := Option.isSome_iff_exists.1 hcls
  have hnamed : g.lower p (some (.named cls)) = lowerType p g.structs (.named cls) := rfl
  rw [Lowers, hnamed, lowerType]
  cases hget : g.structs.get? cls with
  | some number => exact ⟨_, rfl⟩
  | none =>
    -- only interfaces have no struct
    cases hinterface : c.isInterface with
    | true => exact ⟨.anyPointer, by simp [hc, hinterface]⟩
    | false => exact absurd hget (hg.struct hc hinterface)

/-- Where the signatures of interfaces and the variables around an expression have representations
    too, everything that is declared has one. -/
theorem Lowered.declares (env : Env) (hg : Lowered env.program g) (hbuilt : env.program.Built)
    (hinterfaces : ∀ c ∈ env.program.classes.values, c.isInterface → ∀ m ∈ c.methods.values,
      m.Declares (g.Lowers env.program))
    (hlocals : ∀ s ∈ env.context.scopes, ∀ v ∈ s.symbols.values, g.Lowers env.program v.type) :
    env.Declares (g.Lowers env.program) where
  locals := hlocals
  globals := hg.globals
  fields c hc f hf := by
    obtain ⟨cls, hget⟩ := Dict.mem_values_iff.1 hc
    -- an interface has no fields
    cases hinterface : c.isInterface with
    | true =>
      rw [hbuilt.fields_of_isInterface hget hinterface] at hf
      cases hf
    | false => exact hg.fields hget hinterface f hf
  methods c hc m hm := by
    obtain ⟨cls, hget⟩ := Dict.mem_values_iff.1 hc
    cases hinterface : c.isInterface with
    | true => exact hinterfaces c hc hinterface m hm
    | false => exact hg.methods hget hinterface m hm
  functions := hg.functions

end Generator

/-! ### Expressions -/

section Expressions

variable {env : Env} {g : Generator}

/-- A written type has a representation. -/
theorem TypeRef.Denotes.lowers {p : Program} (hg : Generator.Lowered p g) {r : TypeRef} {t : Ty}
    (h : r.Denotes p t) : g.Lowers p (some t) := by
  induction h with
  | @primitive src t hkey =>
    unfold Ty.ofKeyword? at hkey
    split at hkey <;> cases hkey <;> exact ⟨_, rfl⟩
  | named _ hdecl => exact hg.named hdecl
  | array _ hvoid ih => exact Generator.lowers_array_iff.2 ⟨ih, hvoid⟩

/-- **The rules keep representations.** Where everything that is declared has a representation, so
    has the type of every expression that has a type. -/
theorem Typed.lowers (hg : Generator.Lowered env.program g)
    (henv : env.Declares (g.Lowers env.program))
    (hcls : ∀ cls, env.context.cls = some cls → env.program.classes.contains cls)
    {e : Expr} {t : Ty} (h : Typed env e t) : g.Lowers env.program (some t) := by
  induction h with
  | @fixed _ _ kind t h => cases kind <;> cases h <;> exact ⟨_, rfl⟩
  | this_ h => exact hg.named (hcls _ h)
  | minus _ _ _ ih => exact ih
  | arithmetic _ _ _ _ ihl => exact ihl
  | relational => exact ⟨_, rfl⟩
  | equality => exact ⟨_, rfl⟩
  | not => exact ⟨_, rfl⟩
  | logical => exact ⟨_, rfl⟩
  | assignment _ _ _ _ _ ihl => exact ihl
  | index _ _ ihbase =>
    -- an array has a representation by that of its elements
    exact (Generator.lowers_array_iff.1 ihbase).1
  | field _ _ hfield => exact henv.of_field hfield
  | localVariable hvar => exact henv.of_local hvar
  | ownField _ _ hfield => exact henv.of_field hfield
  | globalVariable _ _ hglobal => exact henv.of_global hglobal
  | length => exact ⟨_, rfl⟩
  | method _ _ hmethod _ _ _ hret =>
    rw [← hret]
    exact (henv.of_method hmethod).ret
  | ownMethod _ hmethod _ _ _ hret =>
    rw [← hret]
    exact (henv.of_method hmethod).ret
  | function _ hfun _ _ _ hret =>
    rw [← hret]
    exact (henv.of_function hfun).ret
  | new _ hclass => exact hg.named (Option.isSome_iff_exists.2 ⟨_, hclass⟩)
  | newArray _ helem hvoid => exact Generator.lowers_array_iff.2 ⟨helem.lowers hg, hvoid⟩
  | step _ _ _ _ ih => exact ih

/-- An expression that the checker accepts has a type at every node. -/
theorem typed_of_check (hclean : env.Clean) {e : Expr} (hshare : e.Coherent) {t : Option Ty}
    (hcheck : (({} : Checker).check env e).1 = .ok t)
    (hquiet : (({} : Checker).check env e).2.diagnostics = []) {s : Expr} (hs : s.Within e) :
    ∃ u, Typed env s u ∧ (({} : Checker).check env e).2.known? s = some (some u) := by
  have hresult : (env.verdict e).result = .ok t :=
    (Checker.check_fresh env hshare).1.symm.trans hcheck
  have hall : env.Quiet e := (Checker.diagnostics_check_fresh_eq_nil_iff hshare hresult).1 hquiet
  obtain ⟨v, hv⟩ := Env.verdict_ok_of_within hs hresult
  have hpasses : env.Passes s v := ⟨hv, fun r hr => hall r (hr.trans hs)⟩
  obtain ⟨u, rfl, htyped⟩ := (hclean.passes_iff_typed s v).1 hpasses
  exact ⟨u, htyped, Checker.known?_check_fresh hshare hresult hs hv⟩

/-- What is known to have a type with a representation is represented. -/
theorem Generator.exprType_eq_ok {p : Program} {c : Checker} {e : Expr} {t : Ty}
    (hknown : c.known? e = some (some t)) {u : Llvm.Ty} (hu : g.lower p (some t) = .ok u) :
    g.exprType p c e = .ok u := by
  obtain ⟨id, hid, htype⟩ := Checker.exists_id_of_known? hknown
  have hthere : e.isAbsent = false := by
    cases e with
    | absent => cases hid
    | _ => rfl
  simp [exprType, hthere, hid, htype, hu]

end Expressions

/-- **Everything the checker accepts can be represented.** Take a program that was built in any
    order, together with places in its methods and functions and with variables there, and let a
    generator have generated the program.  Let the signatures of interfaces have representations
    too, which are not generated, and take a context that is offered there, whose variables have
    types with representations.  If a checker that has seen nothing gives an expression a type and
    has nothing to complain about, then what it has found for the expression and for each of its
    parts has a representation, which is the one that the generator gives. -/
theorem accepted_expressions_lower (w : Workspace) (hw : w.Built) (g₀ g : Generator)
    (hgenerate : (Generator.generate w.program).run g₀ = (.ok (), g))
    (hinterfaces : ∀ c ∈ w.program.classes.values, c.isInterface → ∀ m ∈ c.methods.values,
      m.Declares (g.Lowers w.program))
    (ctx : Context) (hctx : w.Offers ctx)
    (hlocals : ∀ s ∈ ctx.scopes, ∀ v ∈ s.symbols.values, g.Lowers w.program v.type)
    (e : Expr) (hshare : e.Coherent) (t : Option Ty) (c : Checker)
    (hcheck : ({} : Checker).check ⟨w.program, ctx⟩ e = (.ok t, c)) (hquiet : c.diagnostics = []) :
    ∀ s : Expr, s.Within e →
      ∃ t u, c.known? s = some (some t) ∧ t.mentionsError = false ∧
        g.lower w.program (some t) = .ok u ∧ g.exprType w.program c s = .ok u := by
  intro s hs
  have hg : Generator.Lowered w.program g := Generator.lowered_of_run_generate hgenerate
  have henv : Env.Declares (g.Lowers w.program) ⟨w.program, ctx⟩ :=
    Generator.Lowered.declares ⟨w.program, ctx⟩ hg hw.program_built hinterfaces hlocals
  have hclean : Env.Clean ⟨w.program, ctx⟩ := henv.mono fun _ ht => ht.soundType
  have hresult : (({} : Checker).check ⟨w.program, ctx⟩ e).1 = .ok t := by rw [hcheck]
  obtain ⟨v, htyped, hknown⟩ := typed_of_check hclean hshare hresult (by rw [hcheck, hquiet]) hs
  rw [hcheck] at hknown
  -- only `this` needs the class around it to be declared
  obtain ⟨u, hu⟩ := htyped.lowers hg henv fun _ => hw.declared_of_offers hctx
  exact ⟨v, u, hknown, htyped.mentionsError hclean, hu, Generator.exprType_eq_ok hknown hu⟩

/-- In a method of a class with an array, an element of the array of what a method of an interface
    gives, and the object itself.  The call, whose type only the interface mentions, and everything
    else has a representation. -/
theorem element_of_promised_lowers :
    let ops : List ScopeOp :=
      [.program (.interface "I"), .program (.class_ "A" none []), .method "A",
        .program (.method "I" ⟨"make", [⟨"n", some (.named "A")⟩], some (.named "A"), none⟩),
        .program (.field "A" "cells" (some (.array .int))), .declare 0 "i" (some (.named "I"))]
    let w := Workspace.run { program := .empty } ops
    let ctx := w.scopes.context ⟨some "A", 0, []⟩
    let g : Generator := ((Generator.generate w.program).run {}).2
    let self : Expr := .leaf 0 ⟨"this", .start⟩ .this_
    let zero : Expr := .leaf 1 ⟨"0", .start⟩ .int
    let i : Expr := .member 2 .unqualified (some ⟨"i", ⟨"i", .start⟩⟩)
    let made : Expr := .call 3 (.qualified i) (some ⟨"make", ⟨"make", .start⟩⟩) [self]
    let cells : Expr := .member 4 (.qualified made) (some ⟨"cells", ⟨"cells", .start⟩⟩)
    let element : Expr := .index 5 ⟨"[", .start⟩ cells zero
    w.places = [⟨some "A", 0, []⟩] ∧ ∀ s ∈ [element, cells, made, i, self, zero],
      ∃ u, g.exprType w.program (({} : Checker).check ⟨w.program, ctx⟩ element).2 s = .ok u := by
  intro ops w ctx g self zero i made cells element
  have hplaces : w.places = [⟨some "A", 0, []⟩] := by decide +kernel
  refine ⟨hplaces, fun s hmem => ?_⟩
  have hgenerate : (Generator.generate w.program).run {} = (.ok (), g) :=
    run_eq_of_toBool (by decide +kernel)
  have hinterfaces : ∀ c ∈ w.program.classes.values, c.isInterface → ∀ m ∈ c.methods.values,
      (∀ q ∈ m.params, g.Lowers w.program q.type) ∧ g.Lowers w.program m.ret := by decide +kernel
  have hlocals : ∀ s ∈ ctx.scopes, ∀ v ∈ s.symbols.values, g.Lowers w.program v.type := by
    decide +kernel
  have hctx : w.Offers ctx := .place (by rw [hplaces]; exact List.mem_cons_self)
  have hnodes : Coherent (· ∈ [element, cells, made, i, self, zero]) :=
    coherent_of_list (by simp [element, cells, made, i, self, zero, Expr.parts, Receiver.parts])
      (by decide)
  have hwithin : s.Within element := by
    have hcells : cells.Within element := .part (by simp [element, Expr.parts]) .self
    have hmade : made.Within element :=
      .of_mem_parts (by simp [cells, Expr.parts, Receiver.parts]) hcells
    simp only [List.mem_cons, List.not_mem_nil, or_false] at hmem
    rcases hmem with rfl | rfl | rfl | rfl | rfl | rfl
    · exact .self
    · exact hcells
    · exact hmade
    · exact .of_mem_parts (by simp [made, Expr.parts, Receiver.parts]) hmade
    · exact .of_mem_parts (by simp [made, Expr.parts, Receiver.parts]) hmade
    · exact .part (by simp [element, Expr.parts]) .self
  obtain ⟨_, u, _, _, _, hu⟩ :=
    accepted_expressions_lower w (Workspace.built_run ops) {} g hgenerate
      (fun c hc hinterface m hm =>
        ⟨(hinterfaces c hc hinterface m hm).1, (hinterfaces c hc hinterface m hm).2⟩)
      ctx hctx hlocals element (hnodes.coherent List.mem_cons_self) (some .int) _
      (Prod.ext (by decide +kernel) rfl) (by decide +kernel) s hwithin
  exact ⟨u, hu⟩

end Decaf
