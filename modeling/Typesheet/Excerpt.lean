import Typesheet.Error
import Typesheet.Text.Blank
import Typesheet.Text.Decimal
import Typesheet.Text.Line

/-! Errors shown beside the line they are about.

The heading names the error with its tip, the next line the file. If the place of
the error is in the text, its line follows without the blanks around it, and
under it an arrow that ends below the place. -/
namespace Typesheet

/-- Whether a character indents a line. -/
def isIndent (c : Char) : Bool := c == ' ' || c == '\t'

/-- The line number, the line, and the arrow under it. -/
def Text.Line.excerpt (line : Text.Line) : List Char :=
  let number := Text.decimal line.number
  let margin := List.replicate (number.length + 1) ' ' ++ ['|']
  let indent := line.text.takeWhile isIndent
  let shown := Text.trim (line.text.drop indent.length)
  let shaft := List.replicate (line.column - indent.length) '-'
  margin ++ ['\n'] ++
    number ++ [' ', '|', ' '] ++ shown ++ ['\n'] ++
    margin ++ [' '] ++ shaft ++ ['^', '\n']

/-- The error's name, and its tip in parentheses if it has one. -/
def Cause.heading (cause : Cause) : String :=
  match cause.tip with
  | none => "Error: " ++ cause.name ++ "\n"
  | some tip => "Error: " ++ cause.name ++ " (" ++ tip ++ ")\n"

/-- The error shown beside the text it was raised for. -/
def Error.excerpt (e : Error) (text : String) : String :=
  let heading := e.cause.heading ++ "-> " ++ e.position.file ++ "\n"
  match Text.lineAt text.toList e.position.offset with
  | none => heading
  | some line => heading ++ String.ofList line.excerpt

end Typesheet
