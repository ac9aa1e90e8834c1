/-! Natural numbers in decimal digits.

`decimal` writes a number without leading zeros and `digits?` reads one with or
without. What is written reads back (`digits?_decimal`). -/
namespace Typesheet.Text

/-- The character of a digit below ten. -/
def digit (n : Nat) : Char := Char.ofNat (n + 48)

/-- The value of a digit's character. -/
def digitValue (c : Char) : Nat := c.toNat - 48

theorem isDigit_digit {n : Nat} (h : n < 10) : (digit n).isDigit = true := by
  have all : ∀ m ∈ List.range 10, (digit m).isDigit = true := by decide
  exact all n (List.mem_range.2 h)

theorem digitValue_digit {n : Nat} (h : n < 10) : digitValue (digit n) = n := by
  have all : ∀ m ∈ List.range 10, digitValue (digit m) = m := by decide
  exact all n (List.mem_range.2 h)

/-- A number in decimal digits. -/
def decimal (n : Nat) : List Char :=
  if n < 10 then [digit n] else decimal (n / 10) ++ [digit (n % 10)]

/-- A number in decimal digits, as a string. -/
def decimalString (n : Nat) : String := String.ofList (decimal n)

/-- The number that decimal digits denote. -/
def ofDigits (digits : List Char) : Nat := digits.foldl (fun n c => n * 10 + digitValue c) 0

/-- The number that a text denotes, if it is one or more decimal digits. -/
def digits? (cs : List Char) : Option Nat :=
  if cs ≠ [] ∧ cs.all Char.isDigit then some (ofDigits cs) else none

theorem decimal_ne_nil (n : Nat) : decimal n ≠ [] := by
  unfold decimal
  split
  · exact List.cons_ne_nil _ _
  · exact List.append_ne_nil_of_right_ne_nil _ (List.cons_ne_nil _ _)

theorem isDigit_of_mem_decimal {n : Nat} {c : Char} (h : c ∈ decimal n) : c.isDigit = true := by
  induction n using Nat.strongRecOn with
  | ind n ih =>
    unfold decimal at h
    split at h
    · rename_i small
      rw [List.mem_singleton] at h
      subst h
      exact isDigit_digit small
    · rw [List.mem_append, List.mem_singleton] at h
      rcases h with h | rfl
      · exact ih (n / 10) (by omega) h
      · exact isDigit_digit (by omega)

theorem ofDigits_decimal (n : Nat) : ofDigits (decimal n) = n := by
  induction n using Nat.strongRecOn with
  | ind n ih =>
    unfold decimal
    split
    · rename_i small
      simp only [ofDigits, List.foldl_cons, List.foldl_nil, digitValue_digit small]
      omega
    · have front := ih (n / 10) (by omega)
      unfold ofDigits at front ⊢
      rw [List.foldl_append, front, List.foldl_cons, List.foldl_nil, digitValue_digit (by omega)]
      omega

theorem digits?_decimal (n : Nat) : digits? (decimal n) = some n := by
  have all : (decimal n).all Char.isDigit = true :=
    List.all_eq_true.2 fun _ => isDigit_of_mem_decimal
  rw [digits?, if_pos ⟨decimal_ne_nil n, all⟩, ofDigits_decimal]

end Typesheet.Text
