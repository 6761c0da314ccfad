import Decaf.Folder
import Decaf.Source
import Decaf.Text.Utf8
import Decaf.Token.Listing

namespace Decaf

/-!
# The command line

The program takes one option, `-i`, with the path of a source file, and lists the file's tokens.
What it writes and how it ends is decided here; reading the file is left to the caller.

* `CommandLine.inputPath` — the path that the arguments ask for.
* `CommandLine.run` — what is written, given a way to read a file.
-/

namespace CommandLine

/-- What a run writes, and the status it ends with. -/
structure Outcome where
  code : Nat
  output : String := ""
  errors : String := ""
deriving DecidableEq, Repr

/-! ### Arguments -/

/-- Why the arguments are not accepted. -/
inductive UsageError where
  /-- The arguments ask for help. -/
  | help
  | badForm (arg : String)
  | needsArgument (option : String)
  | unknownOption (option : String)
  /-- No path is given. -/
  | noInput
deriving DecidableEq, Repr

/-- The summary of the options. -/
def usage : String :=
  "Usage of dcc:\n  -i string\n    \tPath to the Decaf source file\n"

/-- The text that is written when the arguments are not accepted. -/
def UsageError.message : UsageError → String
  | help => usage
  | badForm arg => s!"bad flag syntax: {arg}\n{usage}"
  | needsArgument option => s!"flag needs an argument: -{option}\n{usage}"
  | unknownOption option => s!"flag provided but not defined: -{option}\n{usage}"
  | noInput => "Error: Input file path is required. Use -i <filename.decaf>\n"

/-- What a single argument is. -/
inductive Argument where
  /-- The options end before this argument. -/
  | plain
  /-- The argument `--`, after which the options end. -/
  | terminator
  | malformed
  | option (name : String) (value : Option String)
deriving DecidableEq, Repr

/-- An option without its dashes: a name, perhaps with a value after the first equals sign. -/
def Argument.ofBody (body : List Char) : Argument :=
  match body with
  | [] | '-' :: _ | '=' :: _ => malformed
  | _ =>
    let name := String.ofList (body.takeWhile (· ≠ '='))
    match body.dropWhile (· ≠ '=') with
    | _ :: value => option name (some (String.ofList value))
    | [] => option name none

/-- Sorts an argument. One or two dashes mark an option; a dash alone does not. -/
def Argument.ofString (arg : String) : Argument :=
  match arg.toList with
  | ['-', '-'] => terminator
  | '-' :: '-' :: body => ofBody body
  | '-' :: c :: body => ofBody (c :: body)
  | _ => plain

/-- The path given so far, or by the remaining arguments. The last one counts. -/
def parseArguments (path : String) : List String → Except UsageError String
  | [] => .ok path
  | arg :: rest =>
    match Argument.ofString arg with
    | .plain | .terminator => .ok path
    | .malformed => .error (.badForm arg)
    | .option "i" (some value) => parseArguments value rest
    | .option "i" none =>
      match rest with
      | value :: more => parseArguments value more
      | [] => .error (.needsArgument "i")
    | .option name _ => .error (if name = "h" ∨ name = "help" then .help else .unknownOption name)

/-- The path of the file to list. -/
def inputPath (args : List String) : Except UsageError String :=
  match parseArguments "" args with
  | .error e => .error e
  | .ok path => if path = "" then .error .noInput else .ok path

/-! ### Running -/

/-- The line that is written when the file at `path` cannot be read. -/
def unreadable (path : String) (e : ReadError) : String :=
  let reason := e.message path
  s!"Error reading file {path}: {reason}\n"

/-- Lists the tokens of a file. -/
def listFile (content : List UInt8) : Outcome :=
  let listing := Listing.ofTokens (Source.ofChars (Text.decodeUtf8 content)).tokens
  { code := if listing.errors.isEmpty then 0 else 1
    output := String.join listing.lines
    errors := String.join listing.errors }

/-- Runs the program on `args`, where `read` gives the content of a file. -/
def run (args : List String) (read : String → Except ReadError (List UInt8)) : Outcome :=
  match inputPath args with
  | .error e => { code := 1, errors := e.message }
  | .ok path =>
    match read path with
    | .error e => { code := 1, errors := unreadable path e }
    | .ok content => listFile content

end CommandLine

end Decaf
