import Typesheet.Css
import Typesheet.Grammar.Sheet
import Typesheet.Typing

/-! Compiling: from the text of a stylesheet to CSS. -/
namespace Typesheet

/-- Why there is no CSS. -/
inductive Failure where
  /-- Reading or flattening stopped at an error. -/
  | error (error : Error)
  /-- The checker found something wrong. -/
  | findings (found : List Diagnostic)
deriving DecidableEq, Repr, Inhabited

namespace Failure

/-- All errors, in the order they are reported. -/
def errors : Failure → List Error
  | error e => [e]
  | findings found => found.map (·.error)

/-- The failure in one line. -/
def text : Failure → String
  | error e => e.text
  | findings found => Text.decimalString found.length ++ " error(s) found while checking"

end Failure

/-- Reads and checks a stylesheet. -/
def checkText (text file : String) : Except Failure Sheet :=
  match Sheet.ofText text file with
  | .error e => .error (.error e)
  | .ok sheet =>
    match sheet.findings with
    | [] => .ok sheet
    | found => .error (.findings found)

/-- The CSS of a stylesheet that has been checked. -/
def Sheet.compile (sheet : Sheet) : Except Error String := do
  let flat ← sheet.flatten
  flat.css

/-- The CSS of a stylesheet. -/
def compile (text file : String) : Except Failure String := do
  let sheet ← checkText text file
  match sheet.compile with
  | .ok css => .ok css
  | .error e => .error (.error e)

end Typesheet
