import Typesheet.Error
import Typesheet.Value

/-! The arithmetic of stylesheets.

Sums and differences need two numbers that measure the same, a product needs a
scalar on one side and measures what the other side does (`dimension?`). The
same rule is followed on types (`resultType`, with `complaint` telling what is
wrong with the operands) and on values (`apply`), where the result must also be
an amount. -/
namespace Typesheet

inductive Operator where
  | add
  | subtract
  | multiply
deriving DecidableEq, Repr, Inhabited

namespace Operator

/-- The sign an operator is written with. -/
def symbol : Operator → String
  | add => "+"
  | subtract => "-"
  | multiply => "*"

/-! ### Values -/

/-- What the result of an operation on two numbers measures, if they combine. -/
def dimension? : Operator → Dimension → Dimension → Option Dimension
  | multiply, .scalar, d => some d
  | multiply, d, .scalar => some d
  | multiply, _, _ => none
  | _, d, e => if d = e then some d else none

/-- The operation on integers of any size. -/
def exact : Operator → Int → Int → Int
  | add, a, b => a + b
  | subtract, a, b => a - b
  | multiply, a, b => a * b

/-- The fault of an operation on values that do not combine. -/
def mismatch (op : Operator) (left right : ValueType) : Cause :=
  .internalConsistencyFault
    ("cannot apply `" ++ op.symbol ++ "` to " ++ left.text ++ " and " ++ right.text)

/-- The result of an operation on two values: a number that measures what the
operands allow, unless it is out of range. -/
def apply (op : Operator) (left right : Literal) : Except Cause Literal :=
  match left, right with
  | .number d a, .number e b =>
    match op.dimension? d e with
    | some dimension =>
      match Amount.ofInt? (op.exact a.toInt b.toInt) with
      | some amount => .ok (.number dimension amount)
      | none => .error (.arithmeticOverflow op.symbol)
    | none => .error (op.mismatch left.type right.type)
  | _, _ => .error (op.mismatch left.type right.type)

/-! ### Types -/

/-- The type of an operation's result, undefined if the operands do not combine.
Equal operands of a sum keep their type even where a value could not. -/
def resultType : Operator → ValueType → ValueType → ValueType
  | multiply, .number .scalar, t => t
  | multiply, t, .number .scalar => t
  | multiply, _, _ => .undefined
  | _, t, u => if t = u then t else .undefined

/-- Whether values of a type never take part in an operation. -/
def isNonNumeric : ValueType → Bool
  | .color => true
  | .bool => true
  | _ => false

/-- The first rule that the operands break, if any. Colours and booleans are
refused on either side by themselves; the other rules need to know both types. -/
def complaint (op : Operator) (left right : ValueType) : Option Cause :=
  if isNonNumeric left then some (.nonNumericOperand left.text)
  else if isNonNumeric right then some (.nonNumericOperand right.text)
  else if left = .undefined ∨ right = .undefined then none
  else match op with
    | multiply =>
      if left ≠ .number .scalar ∧ right ≠ .number .scalar then
        some (.missingScalarOperand left.text right.text)
      else none
    | _ =>
      if left ≠ right then some (.operandTypeMismatch op.symbol left.text right.text) else none

end Operator

end Typesheet
