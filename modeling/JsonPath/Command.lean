import JsonPath.Command.Manual
import JsonPath.Document.Indented
import JsonPath.Path.Printer
import JsonPath.Query

/-!
# Commands

What the command line can do: check a path, with or without running it on a document, explain a
path, and show the manual. Each command gives a value or a `CommandError`; reading arguments and
printing are left to the program.

## Main definitions

* `Check`, `Check.run`: a path on a document.
* `explain`: what a path does.
* `manualPage`: a page of the manual.
-/

namespace JsonPath

/-- Why a command failed. -/
inductive CommandError where
  /-- The path could not be read. -/
  | invalidPath (cause : Error)
  /-- The query failed. -/
  | queryFailed (cause : Error)
  /-- There is no document. -/
  | noInput
  /-- The manual has no such page. -/
  | unknownPage (name : String)
  deriving DecidableEq, Repr

namespace CommandError

/-- The wording of a failed command. -/
def message : CommandError → String
  | .invalidPath cause => "Invalid path: " ++ cause.message
  | .queryFailed cause => "Query failed: " ++ cause.message
  | .noInput => "No input provided. Use --input or pipe JSON to stdin."
  | .unknownPage name =>
    "Unknown category: '" ++ name ++ "'\nRun 'pathwise docs' to see available categories."

/-- The error of a path or a query behind a failed command. -/
def cause? : CommandError → Option Error
  | .invalidPath cause => some cause
  | .queryFailed cause => some cause
  | _ => none

end CommandError

/-- A path to check. -/
structure Check where
  /-- The path. -/
  path : String
  /-- The document, if there is one. -/
  input : Option String := none
  /-- Whether a container is to be indented. -/
  pretty : Bool := false
  /-- Whether the path is only to be read. -/
  readOnly : Bool := false

/-- The outcome of a check. -/
inductive CheckResult where
  /-- The path can be read. -/
  | valid
  /-- The query gave this text, or nothing. -/
  | found (text : Option String)
  deriving DecidableEq, Repr

/-- Reads a path and runs it on the document. -/
def Check.run (env : Environment) (c : Check) : Except CommandError CheckResult :=
  match Path.ofString c.path with
  | .error e => .error (.invalidPath e)
  | .ok path =>
    if c.readOnly then
      .ok .valid
    else
      match c.input with
      | none => .error .noInput
      | some input =>
        match path.query env input with
        | .error e => .error (.queryFailed e)
        | .ok text => .ok (.found (if c.pretty then text.map Document.indent else text))

/-- What a path does, segment by segment. -/
def explain (path : String) : Except CommandError String :=
  match Path.ofString path with
  | .error e => .error (.invalidPath e)
  | .ok p => .ok p.describe

/-- A page of the manual. -/
def manualPage (name : String) : Except CommandError String :=
  match Manual.Page.ofName? name with
  | some page => .ok page.text
  | none => .error (.unknownPage name)

end JsonPath
