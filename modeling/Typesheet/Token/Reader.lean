import Typesheet.Position
import Typesheet.Text.Bytes

/-! A place in a text from which reading goes on.

What lies behind the reader matters only as the number of bytes passed, so a
reader is that offset and the characters still ahead. -/
namespace Typesheet

/-- A text read up to `offset`. -/
structure Reader where
  file : String
  offset : Nat
  ahead : List Char
deriving DecidableEq, Repr, Inhabited

namespace Reader

/-- The name of a text that comes from no file. -/
def unnamed : String := "shell"

/-- A reader at the start of a text. -/
def ofText (text : String) (file : Option String) : Reader :=
  ⟨file.getD unnamed, 0, text.toList⟩

/-- Where the reader stands. -/
def position (r : Reader) : Position := ⟨r.offset, r.file⟩

/-- The next `n` bytes, whether or not the text goes on so far. -/
def spanOver (r : Reader) (n : Nat) : Span := ⟨r.position, ⟨r.offset + n, r.file⟩⟩

/-- The next character. -/
def next? (r : Reader) : Option Char := r.ahead.head?

/-- Everything not read yet. -/
def remainder (r : Reader) : String := String.ofList r.ahead

/-- Whether the text is used up. -/
def atEnd (r : Reader) : Bool := r.ahead.isEmpty

/-- The reader behind `text`, which has to be the next thing ahead. -/
def past (r : Reader) (text : List Char) : Reader :=
  {r with offset := r.offset + Text.byteLength text, ahead := r.ahead.drop text.length}

/-- The reader `n` bytes on. -/
def advance (r : Reader) (n : Nat) : Reader := r.past (Text.takeBytes n r.ahead)

theorem past_ahead_length_lt {r : Reader} {text : List Char} (hr : r.ahead ≠ [])
    (ht : text ≠ []) : (r.past text).ahead.length < r.ahead.length := by
  have hr := List.length_pos_iff.2 hr
  have ht := List.length_pos_iff.2 ht
  simp only [past, List.length_drop]
  omega

end Reader

end Typesheet
