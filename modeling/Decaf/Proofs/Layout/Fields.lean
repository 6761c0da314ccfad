import Decaf.Program.Lookup
import Decaf.Proofs.Layout.Completion

namespace Decaf

/-!
# Fields keep their places

The fields of an object are those of all the classes on the chain of its class, from the top down,
each class's own in the order of declaration.  So the objects of a class start as those of every
class above it, and a field is found at the same offset whichever of these classes an object is
known by.

* `Program.allFields` — the fields of the objects of a class, in their order.
* `attributesFrom` — fields with ascending offsets, and `Layout.appendFields_ok`, that layouts are
  made of these.
* `Program.Valid.attributes_eq` — the attributes of a class are all its fields, from offset one on.
* `Program.Valid.attributes_prefix` — those of a class above are the front of them.
* `Program.Valid.type_field?` — a layout has the fields that are found by looking upwards.
-/

/-! ### Fields with offsets -/

/-- The attributes of the given fields, the first at `offset`, and each just behind the one
    before. -/
def attributesFrom (offset : Nat) : List Symbol → List Attribute
  | [] => []
  | f :: fs => ⟨f.name, f.type, offset⟩ :: attributesFrom (offset + 1) fs

@[simp] theorem length_attributesFrom (offset : Nat) (fs : List Symbol) :
    (attributesFrom offset fs).length = fs.length := by
  induction fs generalizing offset with
  | nil => rfl
  | cons f fs ih => rw [attributesFrom, List.length_cons, ih, List.length_cons]

/-- Fields that come later have the later offsets. -/
theorem attributesFrom_append (offset : Nat) (fs gs : List Symbol) :
    attributesFrom offset (fs ++ gs) =
      attributesFrom offset fs ++ attributesFrom (offset + fs.length) gs := by
  induction fs generalizing offset with
  | nil => rfl
  | cons f fs ih =>
    have hoffset : offset + 1 + fs.length = offset + (fs.length + 1) := by omega
    rw [List.cons_append, attributesFrom, ih, attributesFrom, List.cons_append,
      List.length_cons, hoffset]

/-- The attributes have the names and the types of the fields. -/
theorem map_attributesFrom {β : Type} (F : String → Option Ty → β) (offset : Nat)
    (fs : List Symbol) :
    (attributesFrom offset fs).map (fun a => F a.name a.type) =
      fs.map fun f => F f.name f.type := by
  induction fs generalizing offset with
  | nil => rfl
  | cons f fs ih => rw [attributesFrom, List.map_cons, ih, List.map_cons]

/-- The offset of an attribute is its place. -/
theorem offset_attributesFrom {offset k : Nat} {fs : List Symbol} {a : Attribute}
    (h : (attributesFrom offset fs)[k]? = some a) : a.offset = offset + k := by
  induction fs generalizing offset k with
  | nil => simp [attributesFrom] at h
  | cons f fs ih =>
    cases k with
    | zero =>
      simp only [attributesFrom, List.getElem?_cons_zero, Option.some.injEq] at h
      rw [← h]
      rfl
    | succ k =>
      rw [attributesFrom, List.getElem?_cons_succ] at h
      rw [ih h]
      omega

/-- An attribute is found where its field is, with the same type. -/
theorem type_find?_attributesFrom (name : String) (offset : Nat) (fs : List Symbol) :
    ((attributesFrom offset fs).find? (·.name = name)).map (·.type) =
      (fs.find? (·.name = name)).map (·.type) := by
  induction fs generalizing offset with
  | nil => rfl
  | cons f fs ih =>
    by_cases hf : f.name = name
    · simp [attributesFrom, hf]
    · simp [attributesFrom, hf, ih]

/-- Fields that can be appended have names of their own, and get the next offsets. -/
theorem Layout.appendFields_ok {fs gs : List Symbol} {attributes : List Attribute}
    (hfs : (fs.map (·.name)).Nodup)
    (h : appendFields (attributesFrom 1 fs) gs = (attributes, none)) :
    attributes = attributesFrom 1 (fs ++ gs) ∧ ((fs ++ gs).map (·.name)).Nodup := by
  induction gs generalizing fs with
  | nil =>
    rw [List.append_nil]
    exact ⟨(Prod.mk.inj h).1.symm, hfs⟩
  | cons g gs ih =>
    rw [appendFields] at h
    by_cases htaken : (attributesFrom 1 fs).any (·.name = g.name)
    · simp [htaken] at h
    · have hnew : g.name ∉ fs.map (·.name) := by
        rw [← map_attributesFrom (fun n _ => n) 1 fs]
        simpa using htaken
      -- the new attribute is the one that comes next
      have hlast : attributesFrom 1 fs ++ [⟨g.name, g.type, (attributesFrom 1 fs).length + 1⟩] =
          attributesFrom 1 (fs ++ [g]) := by
        rw [attributesFrom_append, length_attributesFrom, Nat.add_comm]
        rfl
      have hnodup : ((fs ++ [g]).map (·.name)).Nodup := by
        rw [List.map_append, List.nodup_append]
        refine ⟨hfs, List.nodup_singleton _, fun a ha b hb => ?_⟩
        obtain rfl : b = g.name := List.mem_singleton.1 hb
        exact fun heq => hnew (heq ▸ ha)
      simp only [htaken, hlast, if_false, Bool.false_eq_true] at h
      simpa using ih hnodup h

namespace Program

variable {p : Program} {name : String} {c : ClassDecl}

/-! ### All fields of a class -/

/-- The fields that a class declares itself, in the order of declaration. -/
def ownFields (p : Program) (cls : String) : List Symbol :=
  ((p.class? cls).map (·.fields)).getD []

/-- The fields of the objects of a class: those of the classes on its chain, from the top down. -/
def allFields (p : Program) (cls : String) : List Symbol :=
  (p.chain cls).reverse.flatMap p.ownFields

/-- A class without a parent has its own fields only. -/
theorem Lawful.allFields_of_parent_eq_none (hp : p.Lawful) (hc : p.class? name = some c)
    (hparent : c.parent = none) : p.allFields name = c.fields := by
  simp [allFields, hp.chain_of_parent_eq_none hc hparent, ownFields, hc]

/-- The fields of the parent come first. -/
theorem Valid.allFields_of_parent (hp : p.Valid) (hc : p.class? name = some c) {a : String}
    (hparent : c.parent = some a) : p.allFields name = p.allFields a ++ c.fields := by
  simp [allFields, hp.chain_of_parent hc hparent, ownFields, hc]

/-- The fields of a class above are the front of all the fields. -/
theorem Valid.allFields_prefix (hp : p.Valid) (hc : p.class? name = some c) {a : String}
    (ha : a ∈ p.chain name) : p.allFields a <+: p.allFields name := by
  obtain ⟨front, hfront⟩ := hp.chain_suffix_of_mem hc ha
  refine ⟨front.reverse.flatMap p.ownFields, ?_⟩
  rw [allFields, allFields, ← hfront, List.reverse_append, List.flatMap_append]

/-- Looking upwards from a class without a parent finds its own fields. -/
theorem Lawful.field?_of_parent_eq_none (hp : p.Lawful) (hc : p.class? name = some c)
    (hparent : c.parent = none) (f : String) : p.field? name f = (c.field? f).map (·.type) := by
  simp [field?, hp.chain_of_parent_eq_none hc hparent, hc]

/-- Looking upwards finds a field of the class itself, else one that is found from the parent. -/
theorem Valid.field?_of_parent (hp : p.Valid) (hc : p.class? name = some c) {a : String}
    (hparent : c.parent = some a) (f : String) :
    p.field? name f = ((c.field? f).map (·.type)).or (p.field? a f) := by
  rw [field?, hp.chain_of_parent hc hparent, List.findSome?_cons, hc, Option.bind_some]
  cases hf : c.field? f with
  | none => simp [field?]
  | some g => rfl

/-- Looking upwards finds the field that the objects have, if no two of their fields share a
    name. -/
theorem Valid.field?_eq (hp : p.Valid) (hc : p.class? name = some c)
    (hnodup : ((p.allFields name).map (·.name)).Nodup) (f : String) :
    p.field? name f = ((p.allFields name).find? (·.name = f)).map (·.type) := by
  revert hnodup
  refine hp.induction
    (P := fun n => ((p.allFields n).map (·.name)).Nodup →
      p.field? n f = ((p.allFields n).find? (·.name = f)).map (·.type)) ?_ ?_ hc
  · intro n c hc hparent _
    rw [hp.lawful.field?_of_parent_eq_none hc hparent,
      hp.lawful.allFields_of_parent_eq_none hc hparent]
    rfl
  · intro n c a d hc hparent hd _ ih hnodup
    rw [hp.allFields_of_parent hc hparent, List.map_append, List.nodup_append] at hnodup
    rw [hp.field?_of_parent hc hparent, hp.allFields_of_parent hc hparent, ih hnodup.1,
      List.find?_append]
    cases hown : c.field? f with
    | none =>
      have hnone : c.fields.find? (·.name = f) = none := hown
      simp [hnone]
    | some g =>
      -- the parent has no field of that name
      have hsome : c.fields.find? (·.name = f) = some g := hown
      have hname : g.name = f := by simpa using List.find?_some hsome
      have hnot : (p.allFields a).find? (·.name = f) = none := by
        rw [List.find?_eq_none]
        intro x hx heq
        have hxf : x.name = f := by simpa using heq
        exact hnodup.2.2 _ (List.mem_map_of_mem hx) _
          (List.mem_map_of_mem (List.mem_of_find?_eq_some hsome))
          (hxf.trans hname.symm)
      simp [hnot, hsome]

/-! ### The fields of layouts -/

/-- **Fields from the top down.** The attributes of a class are all its fields, from offset one on,
    and no two of them share a name. -/
theorem Valid.attributes_eq (hp : p.Valid) {layouts : Dict Layout} (hlayouts : p.Completed layouts)
    {l : Layout} (hl : layouts.get? name = some l) :
    l.attributes = attributesFrom 1 (p.allFields name) ∧ ((p.allFields name).map (·.name)).Nodup ∧
      l.size = l.attributes.length + 1 := by
  obtain ⟨c, hc, _⟩ := hlayouts.class_of_get? hl
  revert l
  -- induction along the parents: the attributes of the parent come first
  refine hp.induction
    (P := fun n => ∀ {l}, layouts.get? n = some l →
      l.attributes = attributesFrom 1 (p.allFields n) ∧
        ((p.allFields n).map (·.name)).Nodup ∧ l.size = l.attributes.length + 1) ?_ ?_ hc
  · intro n c hc hparent l hl
    obtain ⟨attributes, happend, rfl⟩ := Layout.complete_ok (hlayouts.of_get? hl hc)
    rw [hparent] at happend
    -- a class without a parent starts from no attributes
    have hown : Layout.appendFields (attributesFrom 1 []) c.fields = (attributes, none) := happend
    obtain ⟨rfl, hnodup⟩ := Layout.appendFields_ok (by simp) hown
    rw [List.nil_append] at hnodup
    rw [hp.lawful.allFields_of_parent_eq_none hc hparent]
    exact ⟨rfl, hnodup, rfl⟩
  · intro n c a d hc hparent hd hclass ih l hl
    obtain ⟨attributes, happend, rfl⟩ := Layout.complete_ok (hlayouts.of_get? hl hc)
    obtain ⟨m, hm, _⟩ := hlayouts.complete hd hclass
    obtain ⟨hattributes, hfs, _⟩ := ih hm
    simp only [hparent, Option.bind_some, hm, Option.map_some, Option.getD_some,
      hattributes] at happend
    obtain ⟨rfl, hnodup⟩ := Layout.appendFields_ok hfs happend
    rw [hp.allFields_of_parent hc hparent]
    exact ⟨rfl, hnodup, rfl⟩

/-- **Prefixes.** The attributes of a class above are the front of the attributes. -/
theorem Valid.attributes_prefix (hp : p.Valid) {layouts : Dict Layout}
    (hlayouts : p.Completed layouts) {l m : Layout} {a : String} (hl : layouts.get? name = some l)
    (hm : layouts.get? a = some m) (ha : a ∈ p.chain name) : m.attributes <+: l.attributes := by
  obtain ⟨c, hc, _⟩ := hlayouts.class_of_get? hl
  obtain ⟨rest, hrest⟩ := hp.allFields_prefix hc ha
  rw [(hp.attributes_eq hlayouts hl).1, (hp.attributes_eq hlayouts hm).1, ← hrest,
    attributesFrom_append]
  exact List.prefix_append _ _

/-- **Looking upwards.** A layout has the fields that are found by looking upwards, with the same
    types. -/
theorem Valid.type_field? (hp : p.Valid) {layouts : Dict Layout} (hlayouts : p.Completed layouts)
    {l : Layout} (hl : layouts.get? name = some l) (f : String) :
    (l.field? f).map (·.type) = p.field? name f := by
  obtain ⟨c, hc, _⟩ := hlayouts.class_of_get? hl
  obtain ⟨hattributes, hnodup, _⟩ := hp.attributes_eq hlayouts hl
  rw [Layout.field?, hattributes, type_find?_attributesFrom, hp.field?_eq hc hnodup]

/-- A field of a layout is a field of every layout that starts with it. -/
theorem field?_of_prefix {l m : Layout} (h : m.attributes <+: l.attributes) {f : String}
    {a : Attribute} (ha : m.field? f = some a) : l.field? f = some a := by
  obtain ⟨rest, hrest⟩ := h
  rw [Layout.field?] at ha
  rw [Layout.field?, ← hrest, List.find?_append, ha, Option.some_or]

end Program

end Decaf
