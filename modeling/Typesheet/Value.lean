import Typesheet.Amount

/-! Values and their types. -/
namespace Typesheet

/-- What a number measures; a scalar measures nothing. -/
inductive Dimension where
  | pixel
  | percentage
  | scalar
deriving DecidableEq, Repr, Inhabited

/-- The type of an expression. One that cannot be determined is undefined and
suits no purpose. -/
inductive ValueType where
  | color
  | number (dimension : Dimension)
  | bool
  | undefined
deriving DecidableEq, Repr, Inhabited

namespace ValueType

/-- How a type is shown. -/
def text : ValueType → String
  | color => "COLOR"
  | number .pixel => "PIXEL"
  | number .percentage => "PERCENTAGE"
  | number .scalar => "SCALAR"
  | bool => "BOOL"
  | undefined => "UNDEFINED"

/-- Every type, once. -/
def all : List ValueType :=
  [color, number .pixel, number .percentage, number .scalar, bool, undefined]

theorem mem_all (t : ValueType) : t ∈ all := by
  rcases t with _ | d | _ | _
  · decide
  · cases d <;> decide
  · decide
  · decide

/-- The type shown by a text. -/
def ofText? (text : String) : Option ValueType := all.find? (·.text == text)

end ValueType

/-- A value that is fully known. -/
inductive Literal where
  /-- A colour, kept as it was written. -/
  | color (text : String)
  | number (dimension : Dimension) (amount : Amount)
  | bool (value : Bool)
deriving DecidableEq, Repr, Inhabited

namespace Literal

/-- The type of a value, which is never undefined. -/
def type : Literal → ValueType
  | color _ => .color
  | number dimension _ => .number dimension
  | bool _ => .bool

/-- A value as a stylesheet spells it. -/
def text : Literal → String
  | color text => text
  | number .pixel amount => String.ofList (Amount.text amount ++ ['p', 'x'])
  | number .percentage amount => String.ofList (Amount.text amount ++ ['%'])
  | number .scalar amount => String.ofList (Amount.text amount)
  | bool true => "true"
  | bool false => "false"

end Literal

end Typesheet
