import Decaf.Position
import Decaf.Ty

namespace Decaf

/-!
# Written types

A type as it is written in a source, before it is known what it means. A tree that was not built to
the end may lack parts; they are kept, so that what is missing can be named.
-/

/-- How something is written, and where. -/
structure Origin where
  literal : String := ""
  pos : Position := .start
deriving DecidableEq, Repr, Inhabited

/-- The written name of a class, which may be missing. -/
structure ClassRef where
  name : Option String
  src : Origin
deriving DecidableEq, Repr

/-- A written type. -/
inductive TypeRef where
  /-- Nothing stands where a type belongs. -/
  | missing
  /-- A keyword such as `int`. -/
  | primitive (src : Origin)
  | named (ref : ClassRef)
  | array (src : Origin) (elem : TypeRef)
deriving DecidableEq, Repr, Inhabited

namespace TypeRef

/-- How the type is written, and where. -/
def src? : TypeRef → Option Origin
  | missing => none
  | primitive src => some src
  | named ref => some ref.src
  | array src _ => some src

/-- Where the type is written. -/
def pos (r : TypeRef) : Position :=
  (r.src?.map (·.pos)).getD .start

/-- The whole type as text, unless a part is missing. -/
def text? : TypeRef → Option String
  | missing => none
  | primitive src => some src.literal
  | named ref => ref.name
  | array _ elem => elem.text?.map (· ++ "[]")

/-- The type that `text` writes: an array for every pair of brackets at the end, of a keyword or of
    a class. Each part is written as the text that it is made from. -/
def ofChars (text : List Char) : (reversed : List Char) → TypeRef
  | ']' :: '[' :: rest =>
    array ⟨String.ofList text, .start⟩ (ofChars rest.reverse rest)
  | _ =>
    let s := String.ofList text
    if (Ty.ofKeyword? s).isSome then primitive ⟨s, .start⟩ else named ⟨some s, s, .start⟩

/-- The type that `text` writes. -/
def ofString (text : String) : TypeRef :=
  ofChars text.toList text.toList.reverse

end TypeRef

end Decaf
