import Mathlib.Data.List.Count
import Typesheet.Proofs.Lines

/-! The line of an offset, byte by byte.

Texts are characters here and offsets count bytes, so an offset can also be in the middle of a
character. What the line at an offset is can be told from the bytes alone (`Text.Line.LiesAt`):
it begins at the beginning of the text or behind a newline, it goes on through the next newline
or to the end of the text, and its number counts the newlines in front of the offset. The byte
of a newline is in no other character (`Text.count_bytes`), so lines in characters are lines in
bytes. There is a line at every offset in the text and at no other, and it is the only one that
lies there (`Text.lineAt_liesAt_iff`). -/
namespace Typesheet.Text

/-! ### Characters and their bytes -/

/-- The bytes of characters in UTF-8. -/
def bytes (cs : List Char) : List UInt8 := cs.flatMap String.utf8EncodeChar

/-- The byte of a newline. -/
def newline : UInt8 := 0x0a

theorem bytes_toList (text : String) : bytes text.toList = text.toByteArray.data.toList := by
  rw [← String.utf8Encode_toList, List.utf8Encode, List.toList_data_toByteArray]
  rfl

theorem bytes_append (front back : List Char) : bytes (front ++ back) = bytes front ++ bytes back :=
  List.flatMap_append

theorem length_bytes (cs : List Char) : (bytes cs).length = byteLength cs := by
  rw [← size_utf8Encode, List.utf8Encode, List.size_toByteArray]
  rfl

theorem bytes_injective {cs ds : List Char} (h : bytes cs = bytes ds) : cs = ds := by
  have same : String.ofList cs = String.ofList ds := by
    rw [← String.toByteArray_inj, String.toByteArray_ofList, String.toByteArray_ofList,
      List.utf8Encode, List.utf8Encode]
    exact congrArg List.toByteArray h
  exact String.ofList_injective same

/-- The byte of a newline is in no other character. -/
theorem newline_not_mem {c : Char} (other : c ≠ '\n') : newline ∉ String.utf8EncodeChar c := by
  have code : c.toNat ≠ 10 := fun same => other (Char.ext (UInt32.toNat_inj.1 same))
  have value : c.val.toNat = c.toNat := rfl
  simp only [String.utf8EncodeChar, newline]
  -- A byte by itself is the code of its character, and of several bytes each is at least 128.
  split_ifs <;> simp [← UInt8.toNat_inj] <;> omega

/-- A text has the byte of a newline as often as newlines. -/
theorem count_bytes (cs : List Char) : (bytes cs).count newline = cs.count '\n' := by
  induction cs with
  | nil => rfl
  | cons c cs ih =>
    rw [← List.singleton_append, bytes_append, List.count_append, List.count_append, ih]
    by_cases same : c = '\n'
    · subst same
      rfl
    · have none : newline ∉ bytes [c] := by
        rw [bytes, List.flatMap_singleton]
        exact newline_not_mem same
      rw [List.count_eq_zero_of_not_mem none, List.count_singleton, if_neg (by simpa using same)]

theorem newline_mem_bytes {cs : List Char} : newline ∈ bytes cs ↔ '\n' ∈ cs := by
  rw [← List.count_pos_iff, count_bytes, List.count_pos_iff]

/-! ### Where a line lies -/

/-- In a content of bytes the line begins behind `start` of them, and it holds the place that its
column says. -/
structure Line.LiesAt (line : Line) (content : List UInt8) (start : Nat) : Prop where
  /-- Counted from one, by the newlines in front of the place. -/
  number : line.number = (content.take (start + line.column)).count newline + 1
  held : (content.drop start).take (bytes line.text).length = bytes line.text
  inside : line.column < (bytes line.text).length
  starts : start = 0 ∨ content[start - 1]? = some newline
  /-- It ends in its only newline, or it has none and goes on to the end. -/
  ends : (∃ body, newline ∉ body ∧ bytes line.text = body ++ [newline]) ∨
    newline ∉ bytes line.text ∧ start + (bytes line.text).length = content.length

/-- A line has no newline in front of its last byte. -/
theorem newline_not_mem_take {line : List UInt8} {n : Nat} (within : n < line.length)
    (h : (∃ body, newline ∉ body ∧ line = body ++ [newline]) ∨ newline ∉ line) :
    newline ∉ line.take n := by
  obtain ⟨body, single, rfl⟩ | none := h
  · rw [List.length_append, List.length_singleton] at within
    rw [List.take_append_of_le_length (Nat.le_of_lt_succ within)]
    exact fun inside => single (List.mem_of_mem_take inside)
  · exact fun inside => none (List.mem_of_mem_take inside)

namespace Line
variable {line other : Line}

/-- Where a line is in characters it is in bytes. -/
theorem IsAt.liesAt {cs : List Char} {offset : Nat} (h : line.IsAt 1 cs offset) :
    ∃ start, start + line.column = offset ∧ line.LiesAt (bytes cs) start := by
  obtain ⟨⟨front, back, rfl, number, place, starts, ends⟩, inside⟩ := h
  rw [← length_bytes] at place inside
  have ends : (∃ body, newline ∉ body ∧ bytes line.text = body ++ [newline]) ∨
      newline ∉ bytes line.text ∧ back = [] := by
    obtain ⟨body, single, ends | ⟨rfl, last⟩⟩ := ends
    · refine .inl ⟨bytes body, fun inside => single (newline_mem_bytes.1 inside), ?_⟩
      rw [ends, bytes_append]
      rfl
    · exact .inr ⟨fun inside => single (newline_mem_bytes.1 inside), last⟩
  refine ⟨(bytes front).length, place, ?_, ?_, inside, ?_, ends.imp_right (.imp_right ?_)⟩
  · have none := newline_not_mem_take inside (ends.imp_right And.left)
    rw [bytes_append, List.take_length_add_append, bytes_append,
      List.take_append_of_le_length inside.le, List.count_append, count_bytes,
      List.count_eq_zero_of_not_mem none, number, Nat.add_zero, Nat.add_comm]
  · rw [bytes_append, List.drop_left, bytes_append, List.take_left]
  · obtain rfl | last := starts
    · exact .inl rfl
    · obtain ⟨above, rfl⟩ := List.getLast?_eq_some_iff.1 last
      have split : bytes (above ++ ['\n']) = bytes above ++ [newline] := bytes_append _ _
      right
      rw [bytes_append, split, List.length_append, List.length_singleton, Nat.add_sub_cancel,
        List.append_assoc, List.getElem?_append_right (Nat.le_refl _), Nat.sub_self]
      rfl
  · rintro rfl
    rw [List.append_nil, bytes_append, List.length_append]

namespace LiesAt
variable {content : List UInt8} {start start' : Nat}

/-- The bytes of a line are those of the content from its start on. -/
theorem getElem?_eq (h : line.LiesAt content start) {n : Nat}
    (within : n < (bytes line.text).length) : (bytes line.text)[n]? = content[start + n]? := by
  rw [← h.held, List.getElem?_take_of_lt within, List.getElem?_drop]

/-- Of two lines that hold the same place none begins behind the other: there would be a newline
in the other in front of the place. -/
theorem start_le (h : line.LiesAt content start) (h' : other.LiesAt content start')
    (same : start + line.column = start' + other.column) : start' ≤ start := by
  by_contra behind
  have column := h.inside
  obtain first | newlineInFront := h'.starts
  · omega
  · have here : (bytes line.text)[start' - 1 - start]? = some newline := by
      rw [h.getElem?_eq (by omega), ← newlineInFront]
      congr 1
      omega
    refine newline_not_mem_take h.inside (h.ends.imp_right And.left)
      (List.mem_of_getElem? (i := start' - 1 - start) ?_)
    rw [List.getElem?_take_of_lt (by omega), here]

/-- Of two lines that begin at the same place none is longer: there would be a newline in it in
front of its end, or something behind the end of the content. -/
theorem length_le (h : line.LiesAt content start) (h' : other.LiesAt content start) :
    (bytes other.text).length ≤ (bytes line.text).length := by
  by_contra longer
  rw [Nat.not_le] at longer
  have front : (bytes other.text).take (bytes line.text).length = bytes line.text := by
    rw [← h'.held, List.take_take, Nat.min_eq_left longer.le, h.held]
  obtain ⟨body, -, ends⟩ | ⟨-, last⟩ := h.ends
  · refine newline_not_mem_take longer (h'.ends.imp_right And.left) ?_
    rw [front, ends]
    exact List.mem_concat_self
  · have fits := congrArg List.length h'.held
    rw [List.length_take, List.length_drop] at fits
    omega

/-- Only one line lies at a place. -/
theorem unique (h : line.LiesAt content start) (h' : other.LiesAt content start')
    (same : start + line.column = start' + other.column) : line = other := by
  obtain rfl : start = start' := Nat.le_antisymm (h'.start_le h same.symm) (h.start_le h' same)
  have column : line.column = other.column := Nat.add_left_cancel same
  have length := Nat.le_antisymm (h'.length_le h) (h.length_le h')
  have text : line.text = other.text := by
    refine bytes_injective ?_
    rw [← h.held, ← h'.held, length]
  have number : line.number = other.number := by
    rw [h.number, h'.number, column]
  obtain ⟨_, _, _⟩ := line
  obtain ⟨_, _, _⟩ := other
  cases column
  cases text
  cases number
  rfl

end LiesAt
end Line

/-! ### Main result -/

/-- **There is a line at an offset just if the offset is in the text, and it is the line that lies
there**: it begins at the beginning of the text or behind a newline, goes on through the next
newline or to the end, its column is the way from its start to the offset, and its number counts
the newlines in front of the offset. -/
theorem lineAt_liesAt_iff (text : String) (offset : Nat) :
    ((lineAt text.toList offset).isSome = true ↔ offset < text.utf8ByteSize) ∧
    ∀ line, lineAt text.toList offset = some line ↔
      ∃ start, start + line.column = offset ∧ line.LiesAt text.toByteArray.data.toList start := by
  have found : (lineAt text.toList offset).isSome = true ↔ offset < text.utf8ByteSize := by
    rw [lineAt, lineAmong_isSome_iff, flatten_lines, byteLength_toList]
  refine ⟨found, fun line => ?_⟩
  rw [← bytes_toList]
  constructor
  · intro here
    exact (isAt_of_lineAmong here).liesAt
  · rintro ⟨start, place, lies⟩
    have within : offset < text.utf8ByteSize := by
      have held := congrArg List.length lies.held
      have inside := lies.inside
      rw [List.length_take, List.length_drop, length_bytes text.toList, byteLength_toList] at held
      omega
    obtain ⟨other, here⟩ := Option.isSome_iff_exists.1 (found.2 within)
    obtain ⟨start', place', lies'⟩ := (isAt_of_lineAmong here).liesAt
    rw [here, lies.unique lies' (place.trans place'.symm)]

/-- The letter on the third line has two bytes, and the offset is that of the second. -/
example : lineAt "\u00e9\n\n\u00df".toList 5 = some ⟨3, ['\u00df'], 1⟩ := by cbv

end Typesheet.Text
