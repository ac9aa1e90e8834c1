import Typesheet.Error
import Typesheet.Operator

/-! The tree of a stylesheet.

A stylesheet is a list of members, each a variable's assignment or a rule. A
rule, and each branch of an if-clause inside it, has a body of items: the
declarations that become CSS, assignments, and further if-clauses. Every node
has a number of its own and the span of text it was read from. -/
namespace Typesheet

inductive Expr where
  | literal (id : NodeId) (value : Literal) (span : Span)
  | reference (id : NodeId) (name : String) (span : Span)
  | operation (id : NodeId) (operator : Operator) (left right : Expr) (span : Span)
deriving DecidableEq, Repr, Inhabited

namespace Expr

def id : Expr → NodeId
  | literal id .. => id
  | reference id .. => id
  | operation id .. => id

def span : Expr → Span
  | literal _ _ span => span
  | reference _ _ span => span
  | operation _ _ _ _ span => span

end Expr

/-- A variable given a value: `Name := value;`. -/
structure Assignment where
  id : NodeId
  name : String
  value : Expr
  span : Span
deriving DecidableEq, Repr, Inhabited

/-- A property given a value: `property: value;`. -/
structure Declaration where
  id : NodeId
  property : String
  value : Expr
  span : Span
deriving DecidableEq, Repr, Inhabited

/-- What applies when a condition is false. -/
structure ElseClause (α : Type) where
  id : NodeId
  body : List α
  span : Span
deriving Repr, Inhabited

/-- A body that applies when a condition is true, and what applies otherwise. -/
structure IfClause (α : Type) where
  id : NodeId
  condition : Expr
  body : List α
  otherwise : Option (ElseClause α)
  span : Span
deriving Repr, Inhabited

/-- What a body consists of. -/
inductive Item where
  | declaration (declaration : Declaration)
  | assignment (assignment : Assignment)
  | ifClause (clause : IfClause Item)
deriving Inhabited

/-- What a rule applies to. -/
inductive Selector where
  | tag (name : String)
  | className (name : String)
  | id (name : String)
deriving DecidableEq, Repr, Inhabited

/-- A selector as it is written. -/
def Selector.text : Selector → String
  | tag name => name
  | className name => "." ++ name
  | id name => "#" ++ name

/-- Selectors and the body that applies to what they select. -/
structure Rule where
  id : NodeId
  selectors : List Selector
  body : List Item
  span : Span
deriving Inhabited

/-- What a stylesheet consists of. -/
inductive Member where
  | assignment (assignment : Assignment)
  | rule (rule : Rule)
deriving Inhabited

structure Sheet where
  members : List Member
  span : Span
deriving Inhabited

namespace Sheet

/-- The rules in source order. -/
def rules (sheet : Sheet) : List Rule :=
  sheet.members.filterMap fun
    | .rule rule => some rule
    | .assignment _ => none

end Sheet

end Typesheet
