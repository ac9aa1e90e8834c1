/-! Places in source texts.

A `Position` is a byte offset into a text known by its file name, a `Span` the
stretch between two of them. Offsets count UTF-8 bytes from zero. -/
namespace Typesheet

/-- A byte offset into the text of a named file. -/
structure Position where
  offset : Nat
  file : String
deriving DecidableEq, Repr, Inhabited

namespace Position

/-- Where an error is placed that no text caused. -/
def nowhere : Position := ⟨0, "<null>"⟩

/-- The beginning of a file. -/
def startOf (file : String) : Position := ⟨0, file⟩

end Position

/-- The stretch of text from `start` up to, and without, `stop`. -/
structure Span where
  start : Position
  stop : Position
deriving DecidableEq, Repr, Inhabited

end Typesheet
