import Typesheet.Scope
import Typesheet.Tree

/-! Flattening a stylesheet.

A flattened stylesheet has rules only, and its rules have declarations of known
values only: every expression is replaced by its value, every if-clause by the
body that applies, and assignments are gone. An assignment binds its name in the
body it stands in, so a variable assigned inside a rule or a branch hides one of
the same name outside until that body ends.

Flattening stops at the first error. A stylesheet that has not been checked may
raise any error; the scopes are left as they were found in every case. -/
namespace Typesheet

/-- The values of the variables in scope. -/
abbrev ValueScopes := Scopes Literal

/-- A step of flattening: it works in the current scopes and may stop. -/
abbrev Flattening := EStateM Error ValueScopes

/-- The value of an expression in the current scopes. The left operand comes
before the right one, and both before the operation. -/
def Expr.value (s : ValueScopes) : Expr → Except Error Literal
  | literal _ value _ => .ok value
  | reference _ name span =>
    match s.find? name with
    | some value => .ok value
    | none => .error ⟨.variableNotDeclared name, span.start⟩
  | operation _ op left right span => do
    let l ← left.value s
    let r ← right.value s
    match op.apply l r with
    | .ok value => .ok value
    | .error cause => .error ⟨cause, span.start⟩

/-- An expression that already is a value. -/
def Expr.asLiteral? : Expr → Option Literal
  | literal _ value _ => some value
  | _ => none

namespace Flattening

/-- The value of an expression. -/
def value (e : Expr) : Flattening Literal := fun s =>
  match e.value s with
  | .ok v => .ok v s
  | .error error => .error error s

/-- An expression replaced by its value, under the number and span it had. -/
def fold (e : Expr) : Flattening Expr := return .literal e.id (← value e) e.span

/-- Binds a name in the innermost scope. -/
def define (name : String) (v : Literal) : Flattening Unit := fun s =>
  match s.define name v with
  | .ok s => .ok () s
  | .error error => .error error s

/-- Works in a scope of its own, which is closed again even after an error. -/
def inScope {α : Type} (body : Flattening α) : Flattening α := fun s =>
  match body s.push with
  | .ok a inner =>
    match inner.pop with
    | .ok (_, outer) => .ok a outer
    | .error error => .error error inner
  | .error error inner =>
    match inner.pop with
    | .ok (_, outer) => .error error outer
    | .error underflow => .error underflow inner

/-- Whether a condition is true. It has to be a boolean; the clause is where an
error is placed. -/
def holds (condition : Expr) (clause : Span) : Flattening Bool := do
  match ← value condition with
  | .bool b => return b
  | other => throw ⟨.conditionNotBoolean other.type.text, clause.start⟩

end Flattening

def Assignment.flatten (a : Assignment) : Flattening Unit := do
  Flattening.define a.name (← Flattening.value a.value)

mutual

/-- The declarations that an item comes to. -/
def Item.flatten : Item → Flattening (List Item)
  | .declaration d => return [.declaration {d with value := ← Flattening.fold d.value}]
  | .assignment a => do
    a.flatten
    return []
  | .ifClause ⟨_, condition, body, otherwise, span⟩ => do
    if ← Flattening.holds condition span then
      Flattening.inScope (flattenBody body)
    else
      match otherwise with
      | some ⟨_, body, _⟩ => Flattening.inScope (flattenBody body)
      | none => return []

/-- The declarations that the items of a body come to, in order. -/
def flattenBody : List Item → Flattening (List Item)
  | [] => return []
  | item :: items => do
    let front ← item.flatten
    let back ← flattenBody items
    return front ++ back

end

def Rule.flatten (rule : Rule) : Flattening Rule := do
  let body ← Flattening.inScope (flattenBody rule.body)
  return {rule with body}

/-- The rules that members come to, in order. -/
def flattenMembers : List Member → Flattening (List Member)
  | [] => return []
  | .assignment a :: members => do
    a.flatten
    flattenMembers members
  | .rule rule :: members => do
    let front ← rule.flatten
    let back ← flattenMembers members
    return .rule front :: back

/-- Flattens a stylesheet in a scope of its own inside those that are open. -/
def Sheet.flattenIn (sheet : Sheet) : Flattening Sheet := do
  let members ← Flattening.inScope (flattenMembers sheet.members)
  return {sheet with members}

/-- The flattened stylesheet, or the first error. -/
def Sheet.flatten (sheet : Sheet) : Except Error Sheet :=
  match sheet.flattenIn .empty with
  | .ok flat _ => .ok flat
  | .error error _ => .error error

end Typesheet
