import Typesheet.Command.Resemblance
import Typesheet.Command.Terminal

/-! The arguments of the program.

One argument is required, the file to compile; the others are options, which may
stand anywhere before a double dash. An argument's value is settled only when the
next argument begins, so that a missing value, an empty one or an argument given
twice is noticed there. What cannot be understood is a `Misuse`, told together
with the usage of the program and in words that leave a terminal as it is. -/
namespace Typesheet.Command

/-- What can be given to the program. -/
inductive Argument where
  | input
  | out
  | check
  | help
  | version
deriving DecidableEq, Repr, Inhabited

namespace Argument

/-- How an argument is written. -/
def text : Argument → String
  | input => "<INPUT>"
  | out => "--out <OUT>"
  | check => "--check"
  | help => "--help"
  | version => "--version"

/-- The names of the options, without their dashes. -/
def names : List (String × Argument) :=
  [("out", out), ("check", check), ("help", help), ("version", version)]

/-- How the program is used: with the options that are in question, or with any. -/
def usage (inQuestion : List Argument) : String :=
  if inQuestion = [] then "icss [OPTIONS] <INPUT>"
  else
    let options := (inQuestion.eraseDups.filter (· ≠ input)).map (" " ++ ·.text)
    "icss" ++ String.join options ++ " <INPUT>"

/-- Whether an argument says what to do with a file. -/
def concernsFile (a : Argument) : Bool := a ∉ [help, version]

/-- How the program is used once it is told what to do with a file: with any of the
arguments that say so, behind an option in question that is none of them. -/
def usageOfAny (inQuestion : Argument) : String :=
  let option := if inQuestion.concernsFile then "" else " " ++ inQuestion.text
  "icss" ++ option ++ " <INPUT|" ++ out.text ++ "|" ++ check.text ++ ">"

end Argument

/-- Arguments that cannot be understood. -/
structure Misuse where
  problem : String
  tip : Option String
  usage : Option String
deriving DecidableEq, Repr, Inhabited

namespace Misuse

/-- What is told about it. -/
def text (m : Misuse) : String :=
  let section? (s : Option String) (label : String) :=
    match s with
    | some s => "\n\n" ++ label ++ s
    | none => ""
  "error: " ++ m.problem ++ section? m.tip "  tip: " ++ section? m.usage "Usage: " ++
    "\n\nFor more information, try '--help'.\n"

/-- An argument that takes a value has none, or an empty one. -/
def valueMissing (a : Argument) : Misuse :=
  ⟨"a value is required for '" ++ a.text ++ "' but none was supplied", none, none⟩

/-- An argument is given twice. -/
def repeated (a : Argument) : Misuse :=
  ⟨"the argument '" ++ a.text ++ "' cannot be used multiple times", none,
    some (Argument.usage [])⟩

/-- A value is attached to an option that takes none. -/
def valueRefused (a : Argument) (value : String) (given : List Argument) : Misuse :=
  ⟨"unexpected value '" ++ Terminal.visible value ++ "' for '" ++ a.text ++
      "' found; no more were expected",
    none, some (if given = [] then Argument.usage [a] else a.usageOfAny)⟩

/-- There is no such argument. -/
def unexpected (arg : String) (tip : Option String) (inQuestion : List Argument) : Misuse :=
  ⟨"unexpected argument '" ++ Terminal.visible arg ++ "' found", tip,
    some (Argument.usage inQuestion)⟩

/-- The file to compile is not given. -/
def inputMissing (given : List Argument) : Misuse :=
  ⟨"the following required arguments were not provided:\n  <INPUT>", none,
    some (Argument.usage (given ++ [.input]))⟩

/-- How to give something that looks like an option as a file. -/
def asValue (arg : String) : String :=
  let arg := Terminal.visible arg
  "to pass '" ++ arg ++ "' as a value, use '-- " ++ arg ++ "'"

end Misuse

/-- What the program is asked to do with a file. -/
structure Request where
  input : String
  out : Option String
  check : Bool
deriving DecidableEq, Repr, Inhabited

/-- What the arguments come to. -/
inductive Invocation where
  | request (r : Request)
  | help
  | version
  | misuse (m : Misuse)
deriving DecidableEq, Repr, Inhabited

/-- The arguments understood so far. -/
structure Progress where
  /-- The arguments settled, in the order they were given. -/
  given : List Argument
  input : Option String
  out : Option String
  /-- The argument being given, and its value once that was read. -/
  pending : Option (Argument × Option String)
deriving DecidableEq, Repr, Inhabited

namespace Progress

def start : Progress := ⟨[], none, none, none⟩

/-- Counts an argument as given, which it must not have been before. -/
def give (p : Progress) (a : Argument) : Progress × Option Misuse :=
  if a ∈ p.given then ({p with given := p.given.erase a}, some (.repeated a))
  else ({p with given := p.given ++ [a]}, none)

/-- Gives an argument its value. -/
def assign (p : Progress) (a : Argument) (value : String) : Progress × Option Misuse :=
  match p.give a with
  | (p, some m) => (p, some m)
  | (p, none) =>
    if value = "" then (p, some (.valueMissing a))
    else
      match a with
      | .input => ({p with input := some value}, none)
      | .out => ({p with out := some value}, none)
      | _ => (p, none)

/-- Settles the argument being given. -/
def settle (p : Progress) : Progress × Option Misuse :=
  match p.pending with
  | none => (p, none)
  | some (a, none) => ({p with pending := none}, some (.valueMissing a))
  | some (a, some value) => {p with pending := none}.assign a value

/-- Whether a file has been named, settled or not. -/
def hasInput (p : Progress) : Bool :=
  p.given.contains .input || p.pending.any (·.1 = .input)

/-- Goes on from a step unless it was a misuse. -/
def onward (step : Progress × Option Misuse) (go : Progress → Invocation) : Invocation :=
  match step with
  | (_, some m) => .misuse m
  | (p, none) => go p

/-- An option that is not known, with the known one that it resembles if any. -/
def unknownOption (p : Progress) (name : String) : Misuse :=
  let p := p.settle.1
  let arg := "--" ++ name
  match Resemblance.closest? name (Argument.names.map (·.1)) with
  | some candidate =>
    let tip := "a similar argument exists: '--" ++ candidate ++ "'"
    .unexpected arg (some tip) (p.given ++ (Argument.names.lookup candidate).toList)
  | none => .unexpected arg (some (Misuse.asValue arg)) p.given

/-- A short option, of which only the first letter counts. -/
def shortOption (p : Progress) (letter : Char) : Invocation :=
  if letter = 'h' then onward p.settle fun _ => .help
  else if letter = 'V' then onward p.settle fun _ => .version
  else
    let arg := "-" ++ String.ofList [letter]
    .misuse (.unexpected arg (some (Misuse.asValue arg)) [])

/-- A value of its own, which can only be the file to compile. -/
def operand (p : Progress) (arg : String) (go : Progress → Invocation) : Invocation :=
  if p.hasInput then .misuse (.unexpected arg none [])
  else onward p.settle fun p => go {p with pending := some (.input, some arg)}

/-- An option by its name, with the value attached to it if there is one. -/
def longOption (p : Progress) (name : String) (attached : Option String)
    (go : Progress → Invocation) : Invocation :=
  match Argument.names.lookup name, attached with
  | none, _ => .misuse (p.unknownOption name)
  | some .out, some value =>
    onward p.settle fun p => onward (p.assign .out value) go
  | some .out, none =>
    onward p.settle fun p => go {p with pending := some (.out, none)}
  | some a, some value => .misuse (.valueRefused a value p.given)
  | some .help, none => onward p.settle fun _ => .help
  | some .version, none => onward p.settle fun _ => .version
  | some a, none => onward p.settle fun p => onward (p.give a) go

/-- What the arguments come to once all have been read. -/
def finish (p : Progress) : Invocation :=
  onward p.settle fun p =>
    match p.input with
    | none => .misuse (.inputMissing p.given)
    | some input => .request ⟨input, p.out, p.given.contains .check⟩

end Progress

/-- The forms an argument can have. -/
inductive Form where
  | doubleDash
  | long (name : String) (attached : Option String)
  | short (letter : Char)
  | value
deriving DecidableEq, Repr, Inhabited

/-- The form of an argument. A single dash is a value. -/
def Form.of (arg : String) : Form :=
  match arg.toList with
  | ['-', '-'] => .doubleDash
  | '-' :: '-' :: cs =>
    let name := cs.takeWhile (· != '=')
    match cs.drop name.length with
    | [] => .long (String.ofList name) none
    | _ :: attached => .long (String.ofList name) (some (String.ofList attached))
  | '-' :: c :: _ => .short c
  | _ => .value

/-- Reads the arguments behind those that led to `p`; behind a double dash all are
values. -/
def Progress.read (p : Progress) (valuesOnly : Bool) : List String → Invocation
  | [] => p.finish
  | arg :: args =>
    if valuesOnly then p.operand arg fun p => p.read true args
    else
      match Form.of arg with
      | .doubleDash => p.read true args
      | .long name attached => p.longOption name attached fun p => p.read false args
      | .short letter => p.shortOption letter
      | .value =>
        match p.pending with
        | some (a, none) => Progress.read {p with pending := some (a, some arg)} false args
        | _ => p.operand arg fun p => p.read false args

/-- What the arguments of the program ask for. -/
def Invocation.ofArguments (args : List String) : Invocation := Progress.start.read false args

end Typesheet.Command
