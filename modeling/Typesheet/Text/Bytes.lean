/-! Characters counted in UTF-8 bytes.

Texts are handled as lists of characters while positions count bytes;
`byteLength` is the bridge. -/
namespace Typesheet.Text

/-- How many bytes the characters take in UTF-8. -/
def byteLength : List Char → Nat
  | [] => 0
  | c :: cs => c.utf8Size + byteLength cs

@[simp] theorem byteLength_nil : byteLength [] = 0 := rfl

@[simp] theorem byteLength_cons (c : Char) (cs : List Char) :
    byteLength (c :: cs) = c.utf8Size + byteLength cs := rfl

@[simp] theorem byteLength_append (xs ys : List Char) :
    byteLength (xs ++ ys) = byteLength xs + byteLength ys := by
  induction xs with
  | nil => simp
  | cons c cs ih => simp [ih, Nat.add_assoc]

theorem size_utf8Encode (cs : List Char) : cs.utf8Encode.size = byteLength cs := by
  induction cs with
  | nil => rfl
  | cons c cs ih =>
    have one : [c].utf8Encode.size = c.utf8Size := by
      rw [List.utf8Encode_singleton, List.size_toByteArray, String.length_utf8EncodeChar]
    rw [List.utf8Encode_cons, ByteArray.size_append, ih, one, byteLength_cons]

theorem byteLength_pos {cs : List Char} (h : cs ≠ []) : 0 < byteLength cs := by
  cases cs with
  | nil => exact absurd rfl h
  | cons c cs => exact Nat.add_pos_left c.utf8Size_pos _

theorem byteLength_toList (text : String) : byteLength text.toList = text.utf8ByteSize := by
  rw [← size_utf8Encode, String.utf8Encode_toList, String.size_toByteArray]

/-- The shortest run of leading characters that takes at least `n` bytes, or
everything if the text is shorter. -/
def takeBytes : Nat → List Char → List Char
  | 0, _ => []
  | _, [] => []
  | n, c :: cs => c :: takeBytes (n - c.utf8Size) cs

end Typesheet.Text
