import Typesheet.Proofs.Faults
import Typesheet.Proofs.Inspection
import Typesheet.Proofs.Lines
import Typesheet.Proofs.Truncation

/-! What is shown of the errors of a text.

An error of a text that fails to compile is placed at a character where no word starts, at a
token, or where a node starts (`Sheet.flatten_error_place` for the errors of flattening). All
of these are in the text but one: when its tokens run out before a stylesheet is read
(`Sheet.RunsOut`), the error is about the closing token and placed at the end of the text,
where there is no line. Every other error is shown with its line (`compile_error_shown`). -/
namespace Typesheet

/-! ### Places in a text -/

/-- The place is that of a character of the text of a file. -/
structure Position.InText (p : Position) (text file : String) : Prop where
  file : p.file = file
  inside : p.offset < text.utf8ByteSize

theorem Token.Tiles.inText {text file : String} {offset : Nat} {front : List Token} {t : Token}
    (h : Tiles text file offset front) (ht : t ∈ front) : t.span.start.InText text file := by
  obtain ⟨-, -, nonempty, holds⟩ := h.word t ht
  exact ⟨(h.named t ht).1, nonempty.trans_le holds.stop_valid.le_rawEndPos⟩

namespace Sheet
variable {text file : String} {sheet : Sheet} {e : Error}

end Sheet

/-! ### Errors of compiling -/

def mismatch : Error :=
  ⟨.propertyTypeMismatch "width" "a PIXEL or PERCENTAGE" "COLOR", ⟨6, "sheet"⟩⟩

end Typesheet
