import Decaf.Program.Basic

namespace Decaf

/-!
# Valid hierarchies

Parents and interfaces may be declared after the classes that name them, so they are only judged
once everything is declared.

* `Program.hierarchyErrors` — what is wrong, by class name; for each class its parent first, then
  its interfaces.
-/

/-- What is wrong with the place of a class in the hierarchy. -/
inductive HierarchyError where
  | undefinedParent (cls parent : String)
  | interfaceParent (cls parent : String)
  | cycle (cls : String)
  | undefinedInterface (cls interface : String)
deriving DecidableEq, Repr

/-- What there is to say about it. -/
def HierarchyError.message : HierarchyError → String
  | undefinedParent cls parent => s!"class {cls} extends undefined class {parent}"
  | interfaceParent cls parent => s!"class {cls} cannot extend interface {parent}"
  | cycle cls => s!"inheritance cycle detected involving class {cls}"
  | undefinedInterface cls interface => s!"class {cls} implements undefined interface {interface}"

namespace Program

/-- What is wrong with the parent of a class. A class below a cycle is as wrong as one on it. -/
def parentError? (p : Program) (c : ClassDecl) : Option HierarchyError :=
  match c.parent with
  | none => none
  | some parent =>
    match p.class? parent with
    | none => some (.undefinedParent c.name parent)
    | some d =>
      if d.isInterface then some (.interfaceParent c.name parent)
      else if (p.hierarchy.trail c.name).loops then some (.cycle c.name)
      else none

/-- Whether the name is that of an interface. -/
def isInterface (p : Program) (name : String) : Bool :=
  (p.class? name).any (·.isInterface)

/-- What is wrong with the place of a class in the hierarchy. -/
def errorsOf (p : Program) (c : ClassDecl) : List HierarchyError :=
  (p.parentError? c).toList ++
    (c.interfaces.filter fun i => !p.isInterface i).map (.undefinedInterface c.name)

/-- What is wrong with the hierarchy of the program. -/
def hierarchyErrors (p : Program) : List HierarchyError :=
  p.classes.values.flatMap p.errorsOf

end Program

end Decaf
