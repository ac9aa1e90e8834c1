import Typesheet.Command.Arguments
import Typesheet.Command.Disk
import Typesheet.Compile
import Typesheet.Excerpt

/-! The program: from its arguments and the files it is given to what it prints
and writes. -/
namespace Typesheet.Command

/-- What a run of the program leaves behind, files aside. -/
structure Outcome where
  exit : Nat
  stdout : String
  stderr : String
deriving DecidableEq, Repr, Inhabited

namespace Outcome

/-- Nothing went wrong. -/
def success (stdout stderr : String) : Outcome := ⟨0, stdout, stderr⟩

/-- Something went wrong, and what is said about it. -/
def failure (stderr : String) : Outcome := ⟨1, "", stderr⟩

/-- Something could not be done to a file. -/
def diskFailure (doing : String) (p : Path) (e : DiskError) : Outcome :=
  failure ("Error: " ++ doing ++ " '" ++ p.text ++ "'\n\nCaused by:\n    " ++ e.text ++ "\n")

end Outcome

/-- How the program is used, at length. -/
def helpText : String :=
  "Compile ICSS stylesheets to CSS\n\n" ++
  "Usage: icss [OPTIONS] <INPUT>\n\n" ++
  "Arguments:\n" ++
  "  <INPUT>  Input ICSS file\n\n" ++
  "Options:\n" ++
  "      --out <OUT>  Write the CSS here instead of stdout\n" ++
  "      --check      Only parse and check the input, without producing CSS\n" ++
  "  -h, --help       Print help\n" ++
  "  -V, --version    Print version\n"

/-- The program and its version. -/
def versionText : String := "icss 0.1.0\n"

/-- An error as it is reported, beside the text it is about. -/
def report (source : String) (e : Error) : String :=
  (if e.cause.isFault then "internal compiler error, please report this input\n" else "") ++
    e.excerpt source ++ "\n"

/-- Everything that is said about a failure: its errors, then the failure itself. -/
def reportAll (source : String) (f : Failure) : String :=
  String.join (f.errors.map (report source)) ++ f.text ++ "\n"

/-- The name a file is referred to by: without the directories it is in. -/
def displayName (p : Path) : String := p.fileName?.getD p.text

section
variable {m : Type → Type} [Monad m] (disk : Disk m)

/-- Writes CSS to a file, in a directory that is made if it is missing. -/
def deliver (p : Path) (css : String) : m Outcome := do
  let made ←
    match p.parent? with
    | none => pure none
    | some parent =>
      if parent.isEmpty then pure none
      else
        match ← disk.makeDirectories parent with
        | .ok () => pure none
        | .error e => pure (some (Outcome.diskFailure "create output dir" parent e))
  match made with
  | some failed => return failed
  | none =>
    match ← disk.write p css with
    | .ok () => return .success "" ("wrote " ++ p.text ++ "\n")
    | .error e => return .diskFailure "write css" p e

/-- What to do with the text of the file. -/
def respond (r : Request) (source name : String) : m Outcome := do
  if r.check then
    match checkText source name with
    | .ok _ => return .success "" (name ++ ": ok\n")
    | .error f => return .failure (reportAll source f)
  else
    match compile source name with
    | .error f => return .failure (reportAll source f)
    | .ok css =>
      match r.out with
      | none => return .success css ""
      | some out => deliver disk (.ofText out) css

/-- Does what is asked for. -/
def Request.run (r : Request) : m Outcome := do
  let input := Path.ofText r.input
  match ← disk.readText input with
  | .error e => return .diskFailure "read input" input e
  | .ok source => respond disk r source (displayName input)

/-- A run of the program. -/
def run (args : List String) : m Outcome := do
  match Invocation.ofArguments args with
  | .help => return .success helpText ""
  | .version => return .success versionText ""
  | .misuse misuse => return ⟨2, "", misuse.text⟩
  | .request r => r.run disk

end

end Typesheet.Command
