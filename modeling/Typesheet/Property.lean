import Typesheet.Value

/-! Properties that ask for values of certain types. -/
namespace Typesheet

/-- What a property asks of its value. -/
inductive Requirement where
  | color
  | size
deriving DecidableEq, Repr, Inhabited

namespace Requirement

/-- What a property asks for, its name read in either case; most properties take
any value. -/
def ofProperty? (property : String) : Option Requirement :=
  let name := property.toLower
  if name ∈ ["color", "background-color"] then some color
  else if name ∈ ["width", "height", "margin", "padding", "top", "left"] then some size
  else none

/-- Whether values of a type will do. -/
def accepts : Requirement → ValueType → Bool
  | color, .color => true
  | size, .number .pixel => true
  | size, .number .percentage => true
  | _, _ => false

/-- What is asked for, in words. -/
def describe : Requirement → String
  | color => "a COLOR"
  | size => "a PIXEL or PERCENTAGE"

end Requirement

end Typesheet
