import Typesheet.Flatten

/-! The CSS of a flattened stylesheet.

Each rule is written with its selectors on the first line, a declaration on each
indented line, and an empty line behind it. Only a flattened stylesheet has CSS:
the first assignment, if-clause or unknown value stops the writing. -/
namespace Typesheet

/-- Something that flattening would have removed. -/
def notFlattened (what : String) (span : Span) : Error :=
  ⟨.internalConsistencyFault (what ++ " left in evaluated stylesheet"), span.start⟩

def Declaration.css (d : Declaration) : Except Error String :=
  match d.value.asLiteral? with
  | some value => .ok ("  " ++ d.property ++ ": " ++ value.text ++ ";\n")
  | none => .error (notFlattened "unfolded expression" d.value.span)

def Item.css : Item → Except Error String
  | .declaration d => d.css
  | .assignment a => .error (notFlattened "variable assignment" a.span)
  | .ifClause clause => .error (notFlattened "if-clause" clause.span)

/-- The CSS of the items of a body, in order. -/
def cssBody : List Item → Except Error String
  | [] => .ok ""
  | item :: items => do
    let front ← item.css
    let back ← cssBody items
    return front ++ back

def Rule.css (rule : Rule) : Except Error String := do
  let body ← cssBody rule.body
  return ", ".intercalate (rule.selectors.map Selector.text) ++ " \x7b\n" ++ body ++ "\x7d\n\n"

def Member.css : Member → Except Error String
  | .rule r => r.css
  | .assignment a => .error (notFlattened "variable assignment" a.span)

/-- The CSS of members, in order. -/
def cssMembers : List Member → Except Error String
  | [] => .ok ""
  | member :: members => do
    let front ← member.css
    let back ← cssMembers members
    return front ++ back

/-- The CSS of a flattened stylesheet. -/
def Sheet.css (sheet : Sheet) : Except Error String := cssMembers sheet.members

end Typesheet
