import Decaf.Dict

namespace Decaf

/-!
# Folders

A program runs in a folder and reads the files in it by their paths. A path is followed name by
name. An empty name and a single dot stay where they are, two dots lead up, and only from a folder
does a path lead on. The folder holds files only; of the folders around it nothing is known but that
they are there.

* `Folder.read` — the content of the file that a path leads to.
* `ReadError` — why there is none.
* `Folder.walk` — the walk along the names of a path.
-/

/-! ### Errors -/

/-- Why nothing can be read at a path. -/
inductive ReadError where
  | notFound
  /-- The path leads on from a file. -/
  | notDirectory
  /-- The path ends at a folder. -/
  | isDirectory
  | nameTooLong
  /-- No path can be written like this. -/
  | invalidPath
  | other (reason : String)
deriving DecidableEq, Repr

/-- What there is to say about it. Folders can be opened like files, and fail only when they are
    read. -/
def ReadError.message (path : String) : ReadError → String
  | notFound => s!"open {path}: no such file or directory"
  | notDirectory => s!"open {path}: not a directory"
  | isDirectory => s!"read {path}: is a directory"
  | nameTooLong => s!"open {path}: file name too long"
  | invalidPath => s!"open {path}: invalid argument"
  | other reason => reason

/-! ### Paths -/

/-- The most bytes that a name can have. -/
def nameLimit : Nat := 255

/-- The most bytes that a path can have. -/
def pathLimit : Nat := 4095

/-- The parts of a text between its slashes, of which there is one more than there are slashes. -/
def splitPath : List Char → List (List Char)
  | [] => [[]]
  | c :: cs => if c = '/' then [] :: splitPath cs else (splitPath cs).modifyHead (c :: ·)

/-- The names along a path. -/
def pathNames (path : String) : List String :=
  (splitPath path.toList).map String.ofList

/-! ### Folders -/

/-- The files of a folder, by name. -/
structure Folder where
  files : Dict (List UInt8)
deriving DecidableEq

/-- Where a path can lead. -/
inductive Folder.Node where
  /-- The folder itself. -/
  | here
  /-- Some folder around it. -/
  | outside
  | file (content : List UInt8)
deriving DecidableEq, Repr

namespace Folder

/-- Where a name leads from a folder: itself, or one around it. -/
def enter (f : Folder) (inside : Bool) (name : String) : Except ReadError Node :=
  if name = "" ∨ name = "." then .ok (if inside then .here else .outside)
  else if name = ".." then .ok .outside
  else if nameLimit < name.utf8ByteSize then .error .nameTooLong
  else
    match inside, f.files.get? name with
    | true, some content => .ok (.file content)
    | _, _ => .error .notFound

/-- Where a name leads. Even an empty name does not lead on from a file. -/
def step (f : Folder) : Node → String → Except ReadError Node
  | .here, name => f.enter true name
  | .outside, name => f.enter false name
  | .file _, _ => .error .notDirectory

/-- Where names lead, one after the other. The first one that leads nowhere counts. -/
def walk (f : Folder) : Node → List String → Except ReadError Node
  | node, [] => .ok node
  | node, name :: names =>
    match f.step node name with
    | .error e => .error e
    | .ok next => f.walk next names

/-- Where a path starts: a slash in front leads away from the folder. -/
def start (path : String) : Node :=
  if path.toList.head? = some '/' then .outside else .here

/-- The content of the file at a path. -/
def read (f : Folder) (path : String) : Except ReadError (List UInt8) :=
  if '\x00' ∈ path.toList then .error .invalidPath
  else if path = "" then .error .notFound
  else if pathLimit < path.utf8ByteSize then .error .nameTooLong
  else
    match f.walk (start path) (pathNames path) with
    | .error e => .error e
    | .ok (.file content) => .ok content
    | .ok _ => .error .isDirectory

end Folder

end Decaf
