import Typesheet.Property
import Typesheet.Scope
import Typesheet.Tree

/-! Checking a stylesheet.

The checker goes through the whole stylesheet once, opening a scope of variable
types for each body, and reports every rule that is broken: a variable used
where nothing was assigned to it, operands that do not combine, a condition that
is no boolean, a value that does not suit its property. An undefined type was
reported where it arose and is not reported again by what contains it. -/
namespace Typesheet

/-- The types of the variables in scope. -/
abbrev TypeScopes := Scopes ValueType

namespace Expr

/-- The type of an expression in the current scopes. -/
def type (s : TypeScopes) : Expr → ValueType
  | literal _ value _ => value.type
  | reference _ name _ => (s.find? name).getD .undefined
  | operation _ op left right _ => op.resultType (left.type s) (right.type s)

/-- What is wrong inside an expression: an operation before its operands, and
the left operand before the right one. -/
def findings (s : TypeScopes) : Expr → List Diagnostic
  | literal .. => []
  | reference id name span =>
    if s.isDefined name then [] else [⟨id, ⟨.variableNotDeclared name, span.start⟩⟩]
  | operation id op left right span =>
    let own := (op.complaint (left.type s) (right.type s)).map fun cause =>
      ⟨id, ⟨cause, span.start⟩⟩
    own.toList ++ (left.findings s ++ right.findings s)

end Expr

/-- Checks something in the current scopes, and gives the scopes after it. -/
abbrev Check := TypeScopes → TypeScopes × List Diagnostic

namespace Check

/-- Checks one thing after another. -/
def sequence (first second : Check) : Check := fun s =>
  let (s, found) := first s
  let (s, later) := second s
  (s, found ++ later)

/-- Reports findings that leave the scopes as they are. -/
def report (found : TypeScopes → List Diagnostic) : Check := fun s => (s, found s)

/-- Checks a body in a scope of its own. -/
def inScope (body : Check) : Check := fun s =>
  let (inner, found) := body s.push
  match inner.pop with
  | .ok (_, outer) => (outer, found)
  | .error _ => (inner, found)

end Check

/-- Checks the value, then binds the name to its type, so that a variable is not
in scope in its own first value. -/
def Assignment.check (a : Assignment) : Check := fun s =>
  let found := a.value.findings s
  match s.define a.name (a.value.type s) with
  | .ok s => (s, found)
  | .error e => (s, found ++ [⟨a.id, e⟩])

/-- Whether the value suits the property, before what is wrong inside it. -/
def Declaration.findings (d : Declaration) (s : TypeScopes) : List Diagnostic :=
  let type := d.value.type s
  let own :=
    match Requirement.ofProperty? d.property with
    | none => []
    | some requirement =>
      if type = .undefined ∨ requirement.accepts type then []
      else [⟨d.id, ⟨.propertyTypeMismatch d.property requirement.describe type.text,
        d.span.start⟩⟩]
  own ++ d.value.findings s

/-- Whether a condition is a boolean, before what is wrong inside it. -/
def conditionFindings (id : NodeId) (condition : Expr) (span : Span) (s : TypeScopes) :
    List Diagnostic :=
  let type := condition.type s
  let own :=
    if type = .bool ∨ type = .undefined then []
    else [⟨id, ⟨.conditionNotBoolean type.text, span.start⟩⟩]
  own ++ condition.findings s

mutual

def Item.check : Item → Check
  | .declaration d => Check.report d.findings
  | .assignment a => a.check
  | .ifClause ⟨id, condition, body, otherwise, span⟩ =>
    Check.sequence (Check.report (conditionFindings id condition span)) <|
      Check.sequence (Check.inScope (checkBody body)) <|
        match otherwise with
        | none => Check.report fun _ => []
        | some ⟨_, body, _⟩ => Check.inScope (checkBody body)

/-- Checks the items of a body in order, in the scope that is open. -/
def checkBody : List Item → Check
  | [] => Check.report fun _ => []
  | item :: items => Check.sequence item.check (checkBody items)

end

def Rule.check (rule : Rule) : Check := Check.inScope (checkBody rule.body)

def Member.check : Member → Check
  | .assignment a => a.check
  | .rule r => r.check

/-- Checks the members in order, in the scope that is open. -/
def checkMembers : List Member → Check
  | [] => Check.report fun _ => []
  | member :: members => Check.sequence member.check (checkMembers members)

/-- A checker at work: the scopes that are open and everything found so far. -/
structure Checker where
  scopes : TypeScopes
  found : List Diagnostic
deriving DecidableEq, Repr, Inhabited

namespace Checker

/-- A checker that has seen nothing. -/
def fresh : Checker := ⟨.empty, []⟩

/-- Checks one more stylesheet. -/
def check (c : Checker) (sheet : Sheet) : Checker :=
  let (scopes, found) := Check.inScope (checkMembers sheet.members) c.scopes
  ⟨scopes, c.found ++ found⟩

end Checker

/-- Everything wrong with a stylesheet, in the order of the text. A stylesheet
with nothing wrong can be flattened. -/
def Sheet.findings (sheet : Sheet) : List Diagnostic := (Checker.fresh.check sheet).found

end Typesheet
