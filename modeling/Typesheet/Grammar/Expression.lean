import Typesheet.Grammar
import Typesheet.Grammar.Cursor
import Typesheet.Tree

/-! Reading expressions.

An expression is an operand and the operations behind it. An operator is taken
into an expression only if it exceeds the strength of the operator the expression
is an operand of, which is how products come before sums and equal operators
group to the left.

Reading takes a budget of steps. Each step reads a token, so a budget above the
number of tokens ahead is never used up. -/
namespace Typesheet

/-! ### Values -/

/-- A text without the units of length at its end, however many. -/
def dropPixelUnits : List Char → List Char :=
  fun cs => (go cs.reverse).reverse
where
  go : List Char → List Char
    | 'x' :: 'p' :: cs => go cs
    | cs => cs

/-- A text without the percent signs at its end. -/
def dropPercentSigns (cs : List Char) : List Char := (cs.reverse.dropWhile (· == '%')).reverse

/-- The value that a token spells: nothing if its kind spells none, and no amount
if its number is out of range. -/
def Token.literal? (t : Token) : Option (Except Cause Literal) :=
  let amount (digits : List Char) (dimension : Dimension) :=
    match Amount.ofText? digits with
    | some a => .ok (.number dimension a)
    | none => .error (.numberParseError t.value)
  match t.kind with
  | .pixel => some (amount (dropPixelUnits t.value.toList) .pixel)
  | .percentage => some (amount (dropPercentSigns t.value.toList) .percentage)
  | .scalar => some (amount t.value.toList .scalar)
  | .color => some (.ok (.color t.value))
  | .trueWord => some (.ok (.bool true))
  | .falseWord => some (.ok (.bool false))
  | _ => none

/-- The operator that a kind of token spells. -/
def Kind.operator? : Kind → Option Operator
  | .plus => some .add
  | .dash => some .subtract
  | .star => some .multiply
  | _ => none

namespace Parse

/-- A value or a variable. A number out of range is not read past. -/
def primary : Parse Expr := do
  let t := (← get).current
  if t.kind = .identifier then
    let _ ← advance
    return .reference (← freshId) t.value t.span
  else
    match t.literal? with
    | some (.ok value) =>
      let _ ← advance
      return .literal (← freshId) value t.span
    | some (.error cause) => throw ⟨cause, t.span.start⟩
    | none => refuse "expected a value or variable"

/-- An expression between parentheses, which leave no node. -/
def grouping (inner : Parse Expr) : Parse Expr := do
  let _ ← advance
  let e ← inner
  let _ ← expect .closeParen
  return e

/-- An operator and its right operand, given the left one. -/
def operation (left : Expr) (operand : Parse Expr) : Parse Expr := do
  let sign ← advance
  match sign.kind.operator? with
  | none => throw (outOfPlace sign)
  | some op =>
    let right ← operand
    return .operation (← freshId) op left right ⟨left.span.start, right.span.stop⟩

mutual

/-- An expression whose operators exceed a strength, read in at most as many
steps as the budget has. -/
def exprWithin (g : Grammar) : Nat → Strength → Parse Expr
  | 0, _ => refuse "expected a value or variable"
  | n + 1, floor => do
    match g.operand (← kind) with
    | none => refuse "expected a value or variable"
    | some .primary =>
      let left ← primary
      operationsWithin g n floor left
    | some .grouping =>
      let left ← grouping (exprWithin g n .lowest)
      operationsWithin g n floor left

/-- The operations behind a left operand whose operators exceed a strength. -/
def operationsWithin (g : Grammar) : Nat → Strength → Expr → Parse Expr
  | 0, _, left => return left
  | n + 1, floor, left => do
    let k ← kind
    let s := (g.strength k).getD .lowest
    if g.isOperator k ∧ s.exceeds floor then
      let left ← operation left (exprWithin g n s)
      operationsWithin g n floor left
    else
      return left

end

/-- An expression whose operators exceed a strength. -/
def expr (g : Grammar) (floor : Strength) : Parse Expr := do
  exprWithin g (← budget) floor

end Parse

end Typesheet
