/-! How much two words resemble each other.

The measure is Jaro's: two characters correspond if they are equal and not too
far apart, and the measure is the mean of the share of characters of each word
that correspond and the share of those that come in the same order. -/
namespace Typesheet.Command.Resemblance

/-- The second word with the first character taken that equals `c`, is free, and
has a place from `low` up to and without `high`. -/
def take (c : Char) (low high : Nat) : Nat → List (Char × Bool) → Option (List (Char × Bool))
  | _, [] => none
  | place, (d, taken) :: rest =>
    if low ≤ place ∧ place < high ∧ d = c ∧ !taken then some ((d, true) :: rest)
    else (take c low high (place + 1) rest).map ((d, taken) :: ·)

/-- The characters of the first word that correspond, and the second word with
those that they correspond to taken. -/
def correspond (reach : Nat) : Nat → List Char → List (Char × Bool) →
    List Char × List (Char × Bool)
  | _, [], word => ([], word)
  | place, c :: cs, word =>
    match take c (place - reach) (place + reach + 1) 0 word with
    | none => correspond reach (place + 1) cs word
    | some word =>
      let (found, word) := correspond reach (place + 1) cs word
      (c :: found, word)

/-- The resemblance of two words, from 0 for none to 1 for the same word. -/
def jaro (a b : List Char) : Float :=
  let reach := max a.length b.length / 2 - 1
  let (left, word) := correspond reach 0 a (b.map (·, false))
  let right := (word.filter (·.2)).map (·.1)
  let found := left.length
  let moved := ((left.zip right).filter fun (c, d) => c ≠ d).length / 2
  if found = 0 then 0
  else
    (found.toFloat / a.length.toFloat + found.toFloat / b.length.toFloat +
      (found - moved).toFloat / found.toFloat) / 3

/-- The word that resembles another most, of those that resemble it enough; of
equals the last. -/
def closest? (word : String) (words : List String) : Option String :=
  let best := words.foldl (fun (best : Option (Float × String)) candidate =>
    let score := jaro word.toList candidate.toList
    match best with
    | some (top, _) => if top ≤ score ∧ 0.7 < score then some (score, candidate) else best
    | none => if 0.7 < score then some (score, candidate) else none) none
  best.map (·.2)

end Typesheet.Command.Resemblance
