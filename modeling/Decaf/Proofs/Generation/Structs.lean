import Decaf.Generator
import Decaf.Proofs.Layout.Fields
import Decaf.Proofs.Run
import Mathlib.Data.List.Forall2

namespace Decaf

/-!
# Structs start as those of the classes above

The struct of a class has a reference to the dispatch table and then the representations of the
attributes, in their order.  As the attributes of a class above are the front of the attributes, its
struct is the front of the struct.

* `Generator.run_buildLayouts_iff`, `Generator.run_declareClasses_ok` — what the first two stages
  make.
* `Generator.struct_of_run_declareClasses` — the definition of the struct of each class.
* `layout_prefix_compatible` — objects are laid out alike for all the classes that they may be known
  by.
-/

namespace Generator

variable {p : Program} {g g' : Generator}

/-! ### Layouts -/

/-- The first stage makes the layouts, and nothing else.  It succeeds if there is no error in
    them. -/
theorem run_buildLayouts_iff :
    (buildLayouts p).run g = (.ok (), g') ↔
      p.layouts.2 = none ∧ g' = { g with layouts := p.layouts.1 } := by
  unfold buildLayouts
  rcases p.layouts with ⟨layouts, error⟩
  dsimp only
  rw [run_bind, run_modify]
  cases error with
  | some e =>
    constructor
    · intro h
      cases h
    · rintro ⟨hnone, _⟩
      cases hnone
  | none =>
    constructor
    · intro h
      cases h
      exact ⟨rfl, rfl⟩
    · rintro ⟨_, rfl⟩
      rfl

/-! ### Structs -/

/-- The representations of fields are those of their types. -/
theorem fieldTypes_eq_ok_iff {structs : Dict Nat} {cls : String} {attributes : List Attribute}
    {types : List Llvm.Ty} :
    fieldTypes p structs cls attributes = .ok types ↔
      attributes.map (fun a => lowerDeclared p structs a.type) = types.map .ok := by
  refine collect_eq_ok_iff (fieldTypes p structs cls) rfl
    (fun a attributes types => ?_) attributes types
  rw [fieldTypes]
  cases lowerDeclared p structs a.type with
  | error e => simp
  | ok t => cases fieldTypes p structs cls attributes <;> simp [eq_comm]

/-- The struct of a class, as it is defined: a reference to the dispatch table, then the fields. -/
def IsStructOf (p : Program) (structs : Dict Nat) (l : Layout) (d : Llvm.TypeDef) : Prop :=
  ∃ types, fieldTypes p structs l.name l.attributes = .ok types ∧ d = ⟨l.name, .anyPointer :: types⟩

/-- Defining structs adds one definition for each class, in their order, and changes nothing
    else. -/
theorem run_defineStructs_ok {ls : List Layout} (h : (defineStructs p ls).run g = (.ok (), g')) :
    ∃ defs log, g' =
      { g with module := { g.module with typeDefs := g.module.typeDefs ++ defs }, log } ∧
      List.Forall₂ (IsStructOf p g.structs) ls defs := by
  induction ls generalizing g with
  | nil =>
    cases h
    refine ⟨[], g'.log, ?_, .nil⟩
    rw [List.append_nil]
  | cons l ls ih =>
    rw [defineStructs] at h
    obtain ⟨_, _, hget, hrest⟩ := run_bind_ok h
    cases hget
    cases htypes : fieldTypes p g.structs l.name l.attributes with
    | error e =>
      rw [htypes] at hrest
      -- a class whose fields have no representation ends the run
      obtain ⟨_, _, _, hthrow⟩ := run_bind_ok hrest
      cases hthrow
    | ok types =>
      rw [htypes] at hrest
      obtain ⟨_, _, hmodify, hrest⟩ := run_bind_ok hrest
      cases hmodify
      obtain ⟨defs, log, rfl, hdefs⟩ := ih hrest
      refine ⟨⟨l.name, .anyPointer :: types⟩ :: defs, log, ?_, .cons ⟨types, htypes, rfl⟩ hdefs⟩
      simp [addTypeDef, note]

/-- A struct that gets no number keeps the one that it has. -/
theorem get?_numberStructs_of_not_mem {ls : List Layout} {name : String}
    (hname : name ∉ ls.map (·.name)) (structs : Dict Nat) (number : Nat) :
    (numberStructs structs number ls).get? name = structs.get? name := by
  induction ls generalizing structs number with
  | nil => rfl
  | cons l ls ih =>
    simp only [List.map_cons, List.mem_cons, not_or] at hname
    rw [numberStructs, ih hname.2, Dict.get?_insert_of_ne _ _ hname.1]

/-- Structs are numbered in their order. -/
theorem get?_numberStructs {ls : List Layout} (hnodup : (ls.map (·.name)).Nodup) {i : Nat}
    {l : Layout} (hl : ls[i]? = some l) (structs : Dict Nat) (number : Nat) :
    (numberStructs structs number ls).get? l.name = some (number + i) := by
  induction ls generalizing structs number i with
  | nil => simp at hl
  | cons k ls ih =>
    rw [List.map_cons, List.nodup_cons] at hnodup
    cases i with
    -- a later layout has another name and leaves the number alone
    | zero =>
      rw [List.getElem?_cons_zero, Option.some.injEq] at hl
      subst hl
      rw [numberStructs, get?_numberStructs_of_not_mem hnodup.1, Dict.get?_insert_self]
      rfl
    | succ i =>
      rw [List.getElem?_cons_succ] at hl
      rw [numberStructs, ih hnodup.2 hl]
      congr 1
      omega

/-- Structs that are known stay known while others get numbers. -/
theorem get?_numberStructs_of_known {name : String} {structs : Dict Nat}
    (h : structs.get? name ≠ none) (number : Nat) (ls : List Layout) :
    (numberStructs structs number ls).get? name ≠ none := by
  induction ls generalizing structs number with
  | nil => exact h
  | cons l ls ih =>
    rw [numberStructs]
    apply ih
    by_cases hname : name = l.name
    · rw [hname, Dict.get?_insert_self]
      exact Option.some_ne_none _
    · rwa [Dict.get?_insert_of_ne _ _ hname]

/-- Structs that get a number are known. -/
theorem get?_numberStructs_of_mem {ls : List Layout} {l : Layout} (hl : l ∈ ls) (structs : Dict Nat)
    (number : Nat) : (numberStructs structs number ls).get? l.name ≠ none := by
  induction ls generalizing structs number with
  | nil => cases hl
  | cons k ls ih =>
    rw [numberStructs]
    rcases List.mem_cons.1 hl with rfl | hl
    · apply get?_numberStructs_of_known
      rw [Dict.get?_insert_self]
      exact Option.some_ne_none _
    · exact ih hl _ _

/-- The second stage numbers and defines the structs, and changes nothing else. -/
theorem run_declareClasses_ok (h : (declareClasses p).run g = (.ok (), g')) :
    ∃ defs log, g' =
        { g with
          structs := numberStructs g.structs g.module.typeDefs.length (layoutOrder g.layouts)
          module := { g.module with typeDefs := g.module.typeDefs ++ defs }
          log } ∧
      List.Forall₂ (IsStructOf p g'.structs) (layoutOrder g.layouts) defs := by
  unfold declareClasses at h
  obtain ⟨_, _, hget, hrest⟩ := run_bind_ok h
  cases hget
  unfold declareStructs at hrest
  obtain ⟨_, _, hmodify, hrest⟩ := run_bind_ok hrest
  cases hmodify
  obtain ⟨defs, log, rfl, hdefs⟩ := run_defineStructs_ok hrest
  exact ⟨defs, log, rfl, hdefs⟩

/-- Every class has a struct afterwards, under the number that is known for it. -/
theorem struct_of_run_declareClasses (hlayouts : p.Completed g.layouts)
    (h : (declareClasses p).run g = (.ok (), g')) {name : String} {l : Layout}
    (hl : g.layouts.get? name = some l) :
    ∃ number d, g'.structs.get? name = some number ∧ g'.module.typeDefs[number]? = some d ∧
      IsStructOf p g'.structs l d := by
  obtain ⟨defs, log, hg', hdefs⟩ := run_declareClasses_ok h
  have hname : l.name = name := hlayouts.name_eq hl
  have hmem : l ∈ layoutOrder g.layouts := hlayouts.mem_layoutOrder_iff.2 (hname ▸ hl)
  -- the position in the order is the number of the struct and the place of its definition
  obtain ⟨i, hi, hget⟩ := List.getElem_of_mem hmem
  have hi' : i < defs.length := hdefs.length_eq ▸ hi
  refine ⟨g.module.typeDefs.length + i, defs[i], ?_, ?_, ?_⟩
  · have hnodup := nodup_layoutOrder fun _ _ => hlayouts.name_eq
    rw [hg', ← hname]
    exact get?_numberStructs hnodup (by rw [List.getElem?_eq_getElem hi, hget]) _ _
  · rw [hg', List.getElem?_append_right (Nat.le_add_right _ _), Nat.add_sub_cancel_left,
      List.getElem?_eq_getElem hi']
  · have hstruct := hdefs.get hi hi'
    rw [List.get_eq_getElem, List.get_eq_getElem, hget] at hstruct
    exact hstruct

/-- The struct of a layout that starts as another starts as the struct of that one. -/
theorem IsStructOf.fields_isPrefix {structs : Dict Nat} {l m : Layout} {d e : Llvm.TypeDef}
    (hd : IsStructOf p structs l d) (he : IsStructOf p structs m e)
    (h : m.attributes <+: l.attributes) : e.fields <+: d.fields := by
  obtain ⟨types, htypes, rfl⟩ := hd
  obtain ⟨front, hfront, rfl⟩ := he
  obtain ⟨rest, hrest⟩ := h
  rw [fieldTypes_eq_ok_iff] at htypes hfront
  rw [← hrest, List.map_append, hfront] at htypes
  obtain ⟨us, vs, hsplit, hus, _⟩ := List.append_eq_map_iff.1 htypes
  have heq : us = front := (List.map_inj_right fun _ _ h => Except.ok.inj h).1 hus
  rw [hsplit, heq]
  exact List.prefix_cons_inj _ |>.2 (List.prefix_append _ _)

end Generator

/-! ### Objects of classes and of the classes above them -/

/-- **Objects are laid out alike for all the classes that they may be known by.** Take a program
    that declarations build, no class having the empty name, with a valid hierarchy and with
    layouts.  The attributes of a class are the fields of the classes on its chain, from the top
    down and in the order of declaration; they have names of their own and lie one after the other,
    behind the reference to the dispatch table.  Those of a class above are the front of them, so
    its fields have the same offsets, and its struct is the front of the struct.  There is an offset
    for just the fields that are found by looking upwards, and they have the types that are
    found. -/
theorem layout_prefix_compatible (ds : List Decl) (hnames : ∀ d ∈ ds, d.class? ≠ some "")
    (hvalid : (Program.ofDecls ds).hierarchyErrors = []) (g₀ g : Generator)
    (hbuild : (Generator.buildLayouts (Program.ofDecls ds)).run g₀ = (.ok (), g)) (cls : String)
    (c : ClassDecl) (hc : (Program.ofDecls ds).class? cls = some c)
    (hclass : c.isInterface = false) :
    ∃ l, g.layouts.get? cls = some l ∧
      (l.attributes.map fun a => (a.name, a.type)) =
        ((Program.ofDecls ds).allFields cls).map (fun f => (f.name, f.type)) ∧
      (l.attributes.map (·.name)).Nodup ∧
      (∀ k a, l.attributes[k]? = some a → a.offset = k + 1) ∧
      l.size = l.attributes.length + 1 ∧
      (∀ a ∈ (Program.ofDecls ds).hierarchy.ancestors cls,
        ∃ m, g.layouts.get? a = some m ∧ m.attributes <+: l.attributes ∧
          (∀ f, (m.field? f).isSome → g.fieldOffset cls f = g.fieldOffset a f) ∧
          ∀ g', (Generator.declareClasses (Program.ofDecls ds)).run g = (.ok (), g') →
            ∃ i j d e, g'.structs.get? cls = some i ∧ g'.module.typeDefs[i]? = some d ∧
              g'.structs.get? a = some j ∧ g'.module.typeDefs[j]? = some e ∧
              e.fields <+: d.fields) ∧
      ∀ f, ((∃ k, g.fieldOffset cls f = .ok k) ↔ ((Program.ofDecls ds).field? cls f).isSome) ∧
        (l.field? f).map (·.type) = (Program.ofDecls ds).field? cls f := by
  have hp : (Program.ofDecls ds).Valid := ⟨Program.lawful_ofDecls ds, hvalid⟩
  -- an empty name would stand for no parent
  have hempty : (Program.ofDecls ds).class? "" = none := by
    cases hget : (Program.ofDecls ds).class? "" with
    | none => rfl
    | some c =>
      obtain ⟨d, hd, hname⟩ := Program.exists_decl_of_class? hget
      exact absurd hname (hnames d hd)
  obtain ⟨hnone, rfl⟩ := Generator.run_buildLayouts_iff.1 hbuild
  have hdone := hp.completed_layouts hempty (Prod.ext rfl hnone)
  obtain ⟨l, hl, _⟩ := hdone.complete hc hclass
  -- the attributes are all fields from the top down; the rest follows from that
  obtain ⟨hattributes, hnodup, hsize⟩ := hp.attributes_eq hdone hl
  refine ⟨l, hl, ?_, ?_, ?_, hsize, ?_, ?_⟩
  · rw [hattributes]
    exact map_attributesFrom Prod.mk 1 _
  · rw [hattributes, map_attributesFrom fun n _ => n]
    exact hnodup
  · intro k a ha
    rw [hattributes] at ha
    rw [offset_attributesFrom ha, Nat.add_comm]
  · intro a ha
    obtain ⟨d, hd, hd'⟩ := hp.class_of_mem_ancestors hc ha
    obtain ⟨m, hm, _⟩ := hdone.complete hd hd'
    -- the attributes above come first, so fields and structs do too
    have hprefix := hp.attributes_prefix hdone hl hm (List.mem_cons_of_mem cls ha)
    refine ⟨m, hm, hprefix, fun f hf => ?_, fun g' hrun => ?_⟩
    · obtain ⟨b, hb⟩ := Option.isSome_iff_exists.1 hf
      simp only [Generator.fieldOffset, hl, hm, hb, Program.field?_of_prefix hprefix hb]
    · obtain ⟨i, d, hi, hd, hstruct⟩ := Generator.struct_of_run_declareClasses hdone hrun hl
      obtain ⟨j, e, hj, he, hstruct'⟩ := Generator.struct_of_run_declareClasses hdone hrun hm
      exact ⟨i, j, d, e, hi, hd, hj, he, hstruct.fields_isPrefix hstruct' hprefix⟩
  · intro f
    -- an attribute is found exactly if the field is found by looking upwards
    have htype := hp.type_field? hdone hl f
    refine ⟨?_, htype⟩
    rw [← htype, Option.isSome_map]
    simp only [Generator.fieldOffset, hl]
    cases l.field? f with
    | none => simp
    | some a => simp

/-- Two classes, the lower one declared first: its objects start with the field of the upper one. -/
theorem layout_below_later_parent :
    let ds : List Decl :=
      [.class_ "B" (some "A") [], .field "B" "y" (some (.named "A")), .class_ "A" none [],
        .field "A" "x" (some .int)]
    let g : Generator := { layouts := (Program.ofDecls ds).layouts.1 }
    g.fieldOffset "B" "x" = g.fieldOffset "A" "x" ∧
      ∃ l, g.layouts.get? "B" = some l ∧
        (l.attributes.map fun a => (a.name, a.type)) =
          [("x", some .int), ("y", some (.named "A"))] := by
  intro ds g
  have hbuild : (Generator.buildLayouts (Program.ofDecls ds)).run {} = (.ok (), g) :=
    Generator.run_buildLayouts_iff.2 ⟨by decide, rfl⟩
  obtain ⟨l, hl, hattributes, _, _, _, habove, _⟩ :=
    layout_prefix_compatible ds (by decide) (by decide) {} g hbuild "B" _ rfl rfl
  obtain ⟨m, hm, _, hoffset, _⟩ := habove "A" (by decide)
  obtain rfl : m = (g.layouts.get? "A").get (by decide) := by simp [hm]
  exact ⟨hoffset "x" (by decide), l, hl, hattributes.trans (by decide)⟩

end Decaf
