import Typesheet.Text.Bytes

/-! The line of a text that an offset falls into. -/
namespace Typesheet.Text

/-- A line of a text and a place in it. -/
structure Line where
  /-- Counted from one. -/
  number : Nat
  /-- The line with its newline, if it ends in one. -/
  text : List Char
  /-- Bytes from the start of the line to the place. -/
  column : Nat
deriving DecidableEq, Repr, Inhabited

/-- The first line with its newline, and the text behind it. -/
def splitLine : List Char → List Char × List Char
  | [] => ([], [])
  | '\n' :: cs => (['\n'], cs)
  | c :: cs =>
    let (line, rest) := splitLine cs
    (c :: line, rest)

theorem splitLine_append (cs : List Char) : (splitLine cs).1 ++ (splitLine cs).2 = cs := by
  fun_induction splitLine cs with
  | case1 => rfl
  | case2 => rfl
  | case3 c cs _ line rest h ih => simp_all

theorem splitLine_fst_ne_nil {cs : List Char} (h : cs ≠ []) : (splitLine cs).1 ≠ [] := by
  fun_cases splitLine cs <;> simp_all

theorem splitLine_snd_length_lt {cs : List Char} (h : cs ≠ []) :
    (splitLine cs).2.length < cs.length := by
  have hl := List.length_pos_iff.2 (splitLine_fst_ne_nil h)
  have ha := congrArg List.length (splitLine_append cs)
  rw [List.length_append] at ha
  omega

/-- The lines of a text, each with its newline; only the last can be without. -/
def lines (cs : List Char) : List (List Char) :=
  if h : cs = [] then []
  else
    have := splitLine_snd_length_lt h
    (splitLine cs).1 :: lines (splitLine cs).2
termination_by cs.length

/-- The line that a place falls into, `offset` bytes behind the start of the first
of these lines, which have numbers from `number` on. -/
def lineAmong (number offset : Nat) : List (List Char) → Option Line
  | [] => none
  | line :: rest =>
    if offset < byteLength line then some ⟨number, line, offset⟩
    else lineAmong (number + 1) (offset - byteLength line) rest

/-- The line that an offset falls into; there is none at the end of a text. -/
def lineAt (cs : List Char) (offset : Nat) : Option Line := lineAmong 1 offset (lines cs)

end Typesheet.Text
