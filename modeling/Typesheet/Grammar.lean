import Typesheet.Token

/-! Grammars: which tokens begin what.

A `Grammar` says by the kind of a token whether it begins an operand, whether it
is an operator and how strongly it binds, and what item of a body it begins.
The grammar of the language is `Grammar.standard`; others differ in these tables
only, not in how operands, operations and items are read. -/
namespace Typesheet

/-- How strongly an operator holds its operands. -/
inductive Strength where
  | lowest
  | additive
  | multiplicative
  | primary
deriving DecidableEq, Repr, Inhabited

namespace Strength

/-- The place of a strength in their order. -/
def level : Strength → Nat
  | lowest => 0
  | additive => 1
  | multiplicative => 2
  | primary => 3

/-- Whether one strength exceeds another. -/
def exceeds (s t : Strength) : Bool := t.level < s.level

end Strength

/-- The ways to read an operand. -/
inductive OperandForm where
  /-- A value or a variable. -/
  | primary
  /-- An expression between parentheses. -/
  | grouping
deriving DecidableEq, Repr, Inhabited

/-- The ways to read an item of a body. -/
inductive ItemForm where
  /-- A name and what is given to it. -/
  | named
  | ifClause
deriving DecidableEq, Repr, Inhabited

/-- What tokens begin, by their kind. -/
structure Grammar where
  /-- How strongly a kind binds, known for every kind in any table. -/
  strength : Kind → Option Strength
  operand : Kind → Option OperandForm
  isOperator : Kind → Bool
  item : Kind → Option ItemForm

namespace Grammar

/-- The grammar in which nothing can be read. -/
def empty : Grammar := ⟨fun _ => none, fun _ => none, fun _ => false, fun _ => none⟩

/-- A table with one more entry, in place of the one it had for the kind. -/
def update {α : Type} (table : Kind → α) (kind : Kind) (entry : α) : Kind → α :=
  fun k => if k = kind then entry else table k

/-- Adds an operator. -/
def addOperator (g : Grammar) (kind : Kind) (s : Strength) : Grammar :=
  {g with
    strength := update g.strength kind (some s)
    isOperator := update g.isOperator kind true}

/-- Adds a beginning of operands; it binds as strongly as can be. -/
def addOperand (g : Grammar) (kind : Kind) (form : OperandForm) : Grammar :=
  {g with
    strength := update g.strength kind (some .primary)
    operand := update g.operand kind (some form)}

/-- Adds a beginning of items; it binds as it did before, or not at all. -/
def addItem (g : Grammar) (kind : Kind) (form : ItemForm) : Grammar :=
  {g with
    strength := update g.strength kind (some ((g.strength kind).getD .lowest))
    item := update g.item kind (some form)}

/-- Adds the operators, operands and items of the language. -/
def addStandard (g : Grammar) : Grammar :=
  g.addOperator .plus .additive
    |>.addOperator .dash .additive
    |>.addOperator .star .multiplicative
    |>.addOperand .pixel .primary
    |>.addOperand .percentage .primary
    |>.addOperand .scalar .primary
    |>.addOperand .color .primary
    |>.addOperand .trueWord .primary
    |>.addOperand .falseWord .primary
    |>.addOperand .identifier .primary
    |>.addOperand .openParen .grouping
    |>.addItem .ifWord .ifClause
    |>.addItem .identifier .named

/-- The grammar of the language. -/
def standard : Grammar := empty.addStandard

end Grammar

end Typesheet
