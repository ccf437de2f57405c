import JsonPath.Command
import JsonPath.Environment.Standard

/-!
# The command line

Arguments are read here, results are printed to standard output and errors to standard error. All
else is done by the commands.

## Main definitions

* `Arguments`: what is asked for.
* `Arguments.ofList?`: reads the arguments.
* `main`: runs a command.
-/

namespace JsonPath

/-- What is asked for on the command line. -/
inductive Arguments where
  /-- To check a path. -/
  | check (asked : Check)
  /-- To explain a path. -/
  | explain (path : String)
  /-- To list the pages of the manual. -/
  | pages
  /-- To show a page of the manual. -/
  | page (name : String)

/-- The options and the path of a check. Each option may come once, and the path too; after `--`
everything is a path. -/
def readCheck (path : Option String) (asked : Check) : List String → Option Check
  | [] => path.map fun p => { asked with path := p }
  | "--" :: [p] => if path.isNone then some { asked with path := p } else none
  | "-i" :: text :: rest | "--input" :: text :: rest =>
    if asked.input.isNone then readCheck path { asked with input := some text } rest else none
  | word :: rest =>
    if word = "-p" ∨ word = "--pretty" then
      if asked.pretty then none else readCheck path { asked with pretty := true } rest
    else if word = "--syntax-only" then
      if asked.readOnly then none else readCheck path { asked with readOnly := true } rest
    else if word.startsWith "-" ∨ path.isSome then
      none
    else
      readCheck (some word) asked rest

/-- Reads the arguments of the command line. -/
def Arguments.ofList? : List String → Option Arguments
  | "check" :: rest => (readCheck none ⟨"", none, false, false⟩ rest).map .check
  | ["explain", path] => some (.explain path)
  | ["docs"] => some .pages
  | ["doc", name] => some (.page name)
  | _ => none

/-- How the program is called. -/
def usage : String :=
  "Usage: pathwise check <PATH> [-i|--input <INPUT>] [-p|--pretty] [--syntax-only]\n" ++
  "       pathwise explain <PATH>\n" ++
  "       pathwise docs\n" ++
  "       pathwise doc <CATEGORY>\n"

/-- A check on the document that is given or, if none is and one is needed, on standard input. -/
def Check.withInput (asked : Check) : IO Check := do
  if asked.input.isSome || asked.readOnly then
    return asked
  let stdin ← IO.getStdin
  if ← stdin.isTty then
    return asked
  return { asked with input := some (← stdin.readToEnd) }

/-- What a command prints. -/
def Arguments.run : Arguments → IO (Except CommandError String)
  | .check asked => do
    let asked ← asked.withInput
    return (asked.run .standard).map fun
      | .valid => "Syntax is valid\n"
      | .found (some text) => text ++ "\n"
      | .found none => ""
  | .explain path => return JsonPath.explain path
  | .pages => return .ok Manual.overview
  | .page name => return manualPage name

end JsonPath

/-- Runs the command that the arguments ask for. -/
def main (args : List String) : IO UInt32 := do
  match JsonPath.Arguments.ofList? args with
  | none =>
    IO.eprint JsonPath.usage
    return 2
  | some asked =>
    match ← asked.run with
    | .ok text =>
      IO.print text
      return 0
    | .error e =>
      IO.eprintln e.message
      return 1
