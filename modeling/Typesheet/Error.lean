import Typesheet.Position
import Typesheet.Text.Decimal
import Typesheet.Text.Quoted

/-! Errors: what went wrong, where, and the texts that say so.

A `Cause` keeps the words it will be told in, since the same error can be raised
for any operator, type or property. `Cause.message` is the one-line account,
`Cause.tip` the advice printed above an excerpt, `Cause.name` the heading. -/
namespace Typesheet

/-- What went wrong. -/
inductive Cause where
  | unrecognisedToken (token : String)
  | unexpectedToken (token : String)
  | unexpectedTokenDetailed (token message : String)
  | numberParseError (token : String)
  | variableNotDeclared (name : String)
  | conditionNotBoolean (received : String)
  | operandTypeMismatch (operator left right : String)
  | missingScalarOperand (left right : String)
  | nonNumericOperand (operand : String)
  | propertyTypeMismatch (property expected received : String)
  | scopeUnderflow
  | arithmeticOverflow (operator : String)
  | internalConsistencyFault (message : String)
deriving DecidableEq, Repr, Inhabited

namespace Cause

/-- The heading an error is reported under. -/
def name : Cause → String
  | unrecognisedToken .. => "UnrecognisedToken"
  | unexpectedToken .. => "UnexpectedToken"
  | unexpectedTokenDetailed .. => "UnexpectedTokenDetailed"
  | numberParseError .. => "NumberParseError"
  | variableNotDeclared .. => "VariableNotDeclared"
  | conditionNotBoolean .. => "ConditionNotBoolean"
  | operandTypeMismatch .. => "OperandTypeMismatch"
  | missingScalarOperand .. => "MissingScalarOperand"
  | nonNumericOperand .. => "NonNumericOperand"
  | propertyTypeMismatch .. => "PropertyTypeMismatch"
  | scopeUnderflow => "ScopeUnderflow"
  | arithmeticOverflow .. => "ArithmeticOverflow"
  | internalConsistencyFault .. => "InternalConsistencyFault"

/-- What went wrong, in one line. Words taken from the source are quoted. -/
def message : Cause → String
  | unrecognisedToken token => "unrecognised token: " ++ Text.quoted token
  | unexpectedToken token => "unexpected token: " ++ Text.quoted token
  | unexpectedTokenDetailed token message =>
    "unexpected token (" ++ Text.quoted message ++ "): " ++ Text.quoted token
  | numberParseError token => "error parsing number: " ++ Text.quoted token
  | variableNotDeclared name => "variable " ++ Text.quoted name ++ " not declared"
  | conditionNotBoolean received =>
    "if-clause condition must be a boolean, received " ++ received
  | operandTypeMismatch operator left right =>
    "operands of " ++ operator ++ " must have the same type: received " ++ left ++ " and " ++ right
  | missingScalarOperand left right =>
    "at least one operand of * must be a scalar: received " ++ left ++ " and " ++ right
  | nonNumericOperand operand => operand ++ " values cannot be used in operations"
  | propertyTypeMismatch property expected received =>
    "property " ++ Text.quoted property ++ " requires " ++ expected ++ ", received " ++ received
  | scopeUnderflow => "scope stack underflow"
  | arithmeticOverflow operator => "arithmetic overflow in " ++ operator
  | internalConsistencyFault message => "internal consistency fault: " ++ message

/-- Advice for whoever wrote the stylesheet, where there is any. -/
def tip : Cause → Option String
  | unrecognisedToken _ => none
  | unexpectedToken token => some ("Unexpected token: `" ++ token ++ "`, did you miss a semicolon?")
  | unexpectedTokenDetailed token message =>
    some ("Unexpected token: `" ++ token ++ "`, " ++ message)
  | numberParseError token =>
    some ("Invalid number: `" ++ token ++ "`, is it above the integer limit?")
  | variableNotDeclared name => some ("Variable `" ++ name ++ "` not declared")
  | conditionNotBoolean received =>
    some ("If-clause condition must be a boolean, received `" ++ received ++ "`")
  | operandTypeMismatch operator left right =>
    some ("Operands of `" ++ operator ++ "` must have the same type, received `" ++ left ++
      "` and `" ++ right ++ "`")
  | missingScalarOperand left right =>
    some ("At least one operand of `*` must be a scalar, received `" ++ left ++ "` and `" ++
      right ++ "`")
  | nonNumericOperand operand =>
    some ("Values of type `" ++ operand ++ "` cannot be used in operations")
  | propertyTypeMismatch property expected received =>
    some ("Property `" ++ property ++ "` requires " ++ expected ++ ", received `" ++ received ++
      "`")
  | scopeUnderflow => none
  | arithmeticOverflow operator =>
    some ("Result of `" ++ operator ++ "` does not fit in a 64-bit integer")
  | internalConsistencyFault message =>
    some ("Internal error, the checker should have rejected this: " ++ message)

/-- A fault is an error that no stylesheet which passed the checker should raise. -/
def isFault : Cause → Bool
  | scopeUnderflow => true
  | arithmeticOverflow _ => true
  | internalConsistencyFault _ => true
  | _ => false

end Cause

/-- Something that went wrong at a place. -/
structure Error where
  cause : Cause
  position : Position
deriving DecidableEq, Repr, Inhabited

/-- The error in one line, with its place. -/
def Error.text (e : Error) : String :=
  e.cause.message ++ " at " ++ e.position.file ++ ":" ++ Text.decimalString e.position.offset

/-- The number a node of the tree is known by. -/
abbrev NodeId := Nat

/-- How a node's number is shown. -/
def NodeId.text (id : NodeId) : String := "#" ++ Text.decimalString id

/-- An error that the checker found at a node. -/
structure Diagnostic where
  node : NodeId
  error : Error
deriving DecidableEq, Repr, Inhabited

/-- The finding in one line, with its node. -/
def Diagnostic.text (d : Diagnostic) : String :=
  "node " ++ NodeId.text d.node ++ ": " ++ d.error.text

end Typesheet
