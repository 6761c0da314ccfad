import Decaf.Declaration
import Decaf.Dict

namespace Decaf

/-!
# The class hierarchy

A hierarchy gives each class at most one parent. Nothing keeps it from being cyclic, so every walk
through it ends at the first class that comes up again. The empty name stands for no class: the
ancestors of a class end before it.

* `Hierarchy.trail` — the walk from a class through its parents, and whether it runs into itself.
* `Hierarchy.ancestors` — the classes above a class, nearest first.
* `Hierarchy.depth` — how many there are.
-/

/-- The parent of each class that has one. -/
structure Hierarchy where
  parents : Dict String
deriving DecidableEq

/-- A walk from a class to its parent, to the parent of that, and so on. -/
structure Trail where
  /-- The classes of the walk, starting class first, each once. -/
  classes : List String
  /-- Whether the walk came back to one of its classes. -/
  loops : Bool
deriving DecidableEq, Repr

/-- The classes that the walk is still in the midst of at its end: all of them if it came back to
    one, else none. -/
def Trail.unfinished (t : Trail) : List String :=
  if t.loops then t.classes else []

namespace Hierarchy

/-- The hierarchy without parents. -/
def empty : Hierarchy := ⟨.empty⟩

/-- The parent of a class. -/
def parent? (h : Hierarchy) (cls : String) : Option String :=
  h.parents.get? cls

/-- Makes `parent` the parent of `child`. -/
def link (h : Hierarchy) (child parent : String) : Except DeclError Hierarchy :=
  if child = parent then .error (.extendsItself child)
  else if h.parents.contains child then .error (.classRedefined child)
  else .ok ⟨h.parents.insert child parent⟩

/-- At most `steps` steps of the walk from `cls`, after the classes in `seen`. -/
def trailFrom (h : Hierarchy) : (steps : Nat) → (seen : List String) → (cls : String) → Trail
  | 0, _, cls => ⟨[cls], false⟩
  | steps + 1, seen, cls =>
    match h.parent? cls with
    | none => ⟨[cls], false⟩
    | some parent =>
      -- the walk has come back to where it has been
      if parent ∈ cls :: seen then ⟨[cls], true⟩
      else
        let rest := h.trailFrom steps (cls :: seen) parent
        ⟨cls :: rest.classes, rest.loops⟩

/-- The walk from `cls`. Every step leaves a class with a parent, and no class is left twice, so
    there are no more steps than classes with a parent. -/
def trail (h : Hierarchy) (cls : String) : Trail :=
  h.trailFrom h.parents.size [] cls

/-- The classes above `cls`, nearest first. -/
def ancestors (h : Hierarchy) (cls : String) : List String :=
  (h.trail cls).classes.tail.takeWhile (· ≠ "")

/-- The number of classes above `cls`. -/
def depth (h : Hierarchy) (cls : String) : Nat :=
  (h.ancestors cls).length

end Hierarchy

end Decaf
