import Typesheet.Text.Decimal

/-! Amounts: the whole numbers of a stylesheet.

An amount is a signed 64-bit integer. Nothing wraps: a number outside the range
is no amount (`ofInt?`), whether it was written down (`ofText?`) or came out of
a calculation. The text of an amount reads back (`ofText?_text`). -/
namespace Typesheet

/-- A whole number from -2^63 to 2^63 - 1. -/
abbrev Amount := Int64

namespace Amount

/-- The least amount, -2^63. -/
def least : Int := -9223372036854775808

/-- The greatest amount, 2^63 - 1. -/
def greatest : Int := 9223372036854775807

/-- The amount equal to an integer, if it is in range. -/
def ofInt? (n : Int) : Option Amount :=
  if least ≤ n ∧ n ≤ greatest then some (Int64.ofInt n) else none

theorem least_le_toInt (a : Amount) : least ≤ a.toInt := Int64.le_toInt a

theorem toInt_le_greatest (a : Amount) : a.toInt ≤ greatest :=
  Int.le_of_lt_add_one (Int64.toInt_lt a)

theorem ofInt?_eq_some_iff {n : Int} {a : Amount} : ofInt? n = some a ↔ a.toInt = n := by
  have hlow := least_le_toInt a
  have hhigh := toInt_le_greatest a
  unfold ofInt?
  split
  · rename_i h
    rw [Option.some.injEq]
    constructor
    · rintro rfl
      exact Int64.toInt_ofInt_of_le h.1 (Int.lt_add_one_of_le h.2)
    · rintro rfl
      exact Int64.ofInt_toInt a
  · rename_i h
    constructor
    · intro hn
      cases hn
    · rintro rfl
      exact absurd ⟨hlow, hhigh⟩ h

theorem ofInt?_eq_none_iff {n : Int} : ofInt? n = none ↔ n < least ∨ greatest < n := by
  unfold ofInt?
  split
  · rename_i h
    constructor
    · intro hn
      cases hn
    · omega
  · rename_i h
    constructor
    · intro _
      omega
    · intro _
      rfl

/-- The amount that a text denotes: decimal digits, with or without a sign. -/
def ofText? : List Char → Option Amount
  | '-' :: cs => (Text.digits? cs).bind fun n => ofInt? (-n)
  | '+' :: cs => (Text.digits? cs).bind fun n => ofInt? n
  | cs => (Text.digits? cs).bind fun n => ofInt? n

/-- An amount in decimal digits, with a minus sign if it is negative. -/
def text (a : Amount) : List Char :=
  if a.toInt < 0 then '-' :: Text.decimal a.toInt.natAbs else Text.decimal a.toInt.natAbs

theorem ofText?_digits {cs : List Char} (nonempty : cs ≠ [])
    (digits : ∀ c ∈ cs, c.isDigit = true) : ofText? cs = ofInt? (Text.ofDigits cs) := by
  have read : Text.digits? cs = some (Text.ofDigits cs) :=
    if_pos ⟨nonempty, List.all_eq_true.2 digits⟩
  unfold ofText?
  split
  · exact absurd (digits '-' List.mem_cons_self) (by decide)
  · exact absurd (digits '+' List.mem_cons_self) (by decide)
  · rw [read, Option.bind_some]

theorem ofText?_decimal (n : Nat) : ofText? (Text.decimal n) = ofInt? n := by
  rw [ofText?_digits (Text.decimal_ne_nil n) fun _ => Text.isDigit_of_mem_decimal,
    Text.ofDigits_decimal]

theorem ofText?_text (a : Amount) : ofText? (text a) = some a := by
  unfold text
  split
  · rename_i negative
    rw [ofText?, Text.digits?_decimal, Option.bind_some, ofInt?_eq_some_iff]
    omega
  · rename_i natural
    rw [ofText?_decimal, ofInt?_eq_some_iff]
    omega

end Amount

end Typesheet
