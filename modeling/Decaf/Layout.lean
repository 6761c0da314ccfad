import Decaf.Program.Basic
import Decaf.Ranked

namespace Decaf

/-!
# Object layouts

An object starts with a reference to the dispatch table of its class; then come its fields,
inherited ones first. In the dispatch table every method has a slot, and a method that overrides
another has the slot of that one. So what knows an object only as one of a class above its own still
finds every field and every method in its place.

* `Layout` — the fields and the slots of a class.
* `Program.layouts` — the layouts of all classes, and the first error.
* `layoutOrder` — parents before children, and by name within a depth.
-/

/-- A field of an object. Offset zero is that of the dispatch table. -/
structure Attribute where
  name : String
  type : Option Ty
  offset : Nat
deriving DecidableEq, Repr

/-- The place of a method in a dispatch table, and the function that is found there. -/
structure Slot where
  symbol : String
  index : Nat
deriving DecidableEq, Repr

/-- How the objects of a class are laid out. -/
structure Layout where
  name : String
  parent : Option String
  depth : Nat
  attributes : List Attribute := []
  slots : Dict Slot := .empty
  size : Nat := 0
deriving DecidableEq

/-- A field has the name of one that is inherited. -/
structure AttributeRedefined where
  field : String
  cls : String
deriving DecidableEq, Repr

/-- What there is to say about it. -/
def AttributeRedefined.message (e : AttributeRedefined) : String :=
  s!"attribute {e.field} redefined in class {e.cls}"

/-- The name of the function that implements a method. -/
def methodSymbol (cls method : String) : String :=
  cls ++ "." ++ method

namespace Layout

/-- Appends fields, each at the next offset, up to one whose name is taken. -/
def appendFields : List Attribute → List Symbol → List Attribute × Option String
  | attributes, [] => (attributes, none)
  | attributes, f :: fs =>
    if attributes.any (·.name = f.name) then (attributes, some f.name)
    else appendFields (attributes ++ [⟨f.name, f.type, attributes.length + 1⟩]) fs

/-- Gives each method its slot: that of the method it overrides, else the next free one. -/
def assignSlots (cls : String) : Dict Slot → List String → Dict Slot
  | slots, [] => slots
  | slots, m :: ms =>
    let index :=
      -- slots are numbered without gaps, so the next free one is their number
      match slots.get? m with
      | some slot => slot.index
      | none => slots.size
    assignSlots cls (slots.insert m ⟨methodSymbol cls m, index⟩) ms

/-- Completes the layout of the class `c`, given that of its parent. If a field is redefined, the
    fields before it are kept. -/
def complete (l : Layout) (parent : Option Layout) (c : ClassDecl) :
    Layout × Option AttributeRedefined :=
  let inherited := (parent.map (·.attributes)).getD []
  let slots := (parent.map (·.slots)).getD .empty
  match appendFields inherited c.fields with
  | (attributes, some f) => ({ l with attributes, slots }, some ⟨f, l.name⟩)
  | (attributes, none) =>
    ({ l with
      attributes
      size := attributes.length + 1
      slots := assignSlots l.name slots c.methods.keys }, none)

/-- The field of the given name. -/
def field? (l : Layout) (name : String) : Option Attribute :=
  l.attributes.find? (·.name = name)

/-- The slots in the order of their indices. -/
def dispatchOrder (l : Layout) : List Slot :=
  sortByRank Slot.index l.slots.values

end Layout

/-- The layouts with parents before children, and by name within a depth. -/
def layoutOrder (layouts : Dict Layout) : List Layout :=
  sortByRank Layout.depth layouts.values

namespace Program

/-- Layouts without fields and slots, one for each class. Interfaces have no objects. -/
def blankLayouts (p : Program) : Dict Layout :=
  (p.classes.filter (!·.isInterface)).map fun name c =>
    { name, parent := c.parent, depth := p.hierarchy.depth name }

/-- Completes layouts in the given order, up to the first error. A class that extends nothing builds
    on the class with the empty name, where there is one. -/
def completeLayouts (p : Program) :
    List Layout → Dict Layout → Dict Layout × Option AttributeRedefined
  | [], layouts => (layouts, none)
  | l :: ls, layouts =>
    match p.class? l.name with
    | none => completeLayouts p ls layouts
    | some c =>
      -- off a cycle, a parent that the class names is less deep, so its layout is complete by now
      match l.complete (layouts.get? (l.parent.getD "")) c with
      | (l, some e) => (layouts.insert l.name l, some e)
      | (l, none) => completeLayouts p ls (layouts.insert l.name l)

/-- The layouts of all classes, and the first error. -/
def layouts (p : Program) : Dict Layout × Option AttributeRedefined :=
  p.completeLayouts (layoutOrder p.blankLayouts) p.blankLayouts

end Program

end Decaf
