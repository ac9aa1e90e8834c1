import Typesheet.Grammar.Expression
import Typesheet.Token.Scan

/-! Reading stylesheets.

A stylesheet is read member by member up to a closing token, and a body item by
item up to its closing brace. The first token that is out of place stops the
reading. -/
namespace Typesheet.Parse

/-! ### Names and what is given to them -/

/-- The rest of an assignment whose name has been read. -/
def assignmentTail (g : Grammar) (name : Token) : Parse Assignment := do
  let _ ← expect .assignment
  let value ← expr g .lowest
  let _ ← expect .semicolon
  return ⟨← freshId, name.value, value, ← spanFrom name.span.start⟩

/-- A declaration or an assignment, by what follows the name. -/
def namedItem (g : Grammar) : Parse Item := do
  let name ← advance
  match ← kind with
  | .assignment => return .assignment (← assignmentTail g name)
  | .colon =>
    let _ ← advance
    let value ← expr g .lowest
    let _ ← expect .semicolon
    return .declaration ⟨← freshId, name.value, value, ← spanFrom name.span.start⟩
  | _ => refuse "expected `:` or `:=`"

/-! ### Bodies -/

/-- What closes a condition, by what opens it. -/
def conditionEnd? : Kind → Option Kind
  | .openBracket => some .closeBracket
  | .openParen => some .closeParen
  | _ => none

/-- A condition in brackets or parentheses, a body, and another body behind the
word for it. -/
def ifClause (g : Grammar) (body : Parse (List Item)) : Parse Item := do
  let start := (← advance).span.start
  match conditionEnd? (← kind) with
  | none => refuse "expected `[` or `(` after `if`"
  | some closing =>
    let _ ← advance
    let condition ← expr g .lowest
    let _ ← expect closing
    let id ← freshId
    let whenTrue ← body
    let otherwise ← elseClause
    return .ifClause ⟨id, condition, whenTrue, otherwise, ← spanFrom start⟩
where
  elseClause : Parse (Option (ElseClause Item)) := do
    if (← kind) = .elseWord then
      let start := (← advance).span.start
      let id ← freshId
      let whenFalse ← body
      return some ⟨id, whenFalse, ← spanFrom start⟩
    else
      return none

/-- An item of a body, given how the bodies inside it are read. -/
def item (g : Grammar) (body : Parse (List Item)) : Parse Item := do
  match g.item (← kind) with
  | some .named => namedItem g
  | some .ifClause => ifClause g body
  | none => refuse "expected a declaration, variable assignment or if-clause"

/-- Items between braces. -/
def braces (items : Parse (List Item)) : Parse (List Item) := do
  let _ ← expect .openCurly
  let body ← items
  let _ ← expect .closeCurly
  return body

/-- The items up to a closing brace or token, read in at most as many steps as
the budget has. -/
def itemsWithin (g : Grammar) : Nat → Parse (List Item)
  | 0 => return []
  | n + 1 => do
    let k ← kind
    if k = .closeCurly ∨ k = .eof then
      return []
    else
      let front ← item g (braces (itemsWithin g n))
      let back ← itemsWithin g n
      return front :: back

/-- A body between braces. -/
def block (g : Grammar) : Parse (List Item) := do
  braces (itemsWithin g (← budget))

/-! ### Members -/

/-- A tag, a class or an id. What reads as a colour is an id here. -/
def selector : Parse Selector := do
  match (← kind) with
  | .identifier => return .tag (← advance).value
  | .classSelector => return .className (afterMark (← advance))
  | .idSelector => return .id (afterMark (← advance))
  | .color => return .id (afterMark (← advance))
  | _ => refuse "expected a tag, class or id selector"
where
  /-- The name behind the character that marks what it names. -/
  afterMark (t : Token) : String := String.ofList (t.value.toList.drop 1)

/-- The selectors behind commas, read in at most as many steps as the budget has. -/
def selectorsWithin : Nat → Parse (List Selector)
  | 0 => return []
  | n + 1 => do
    if (← kind) = .comma then
      let _ ← advance
      let front ← selector
      let back ← selectorsWithin n
      return front :: back
    else
      return []

/-- Selectors between commas, and a body. -/
def rule (g : Grammar) : Parse Rule := do
  let start ← position
  let front ← selector
  let back ← selectorsWithin (← budget)
  let id ← freshId
  let body ← block g
  return ⟨id, front :: back, body, ← spanFrom start⟩

/-- An assignment, which the second token shows, or a rule. -/
def member (g : Grammar) : Parse Member := do
  let c ← get
  if c.kind = .identifier ∧ (c.peek 1).kind = .assignment then
    let name ← advance
    return .assignment (← assignmentTail g name)
  else
    return .rule (← rule g)

/-- The members up to a closing token, read in at most as many steps as the budget
has. -/
def membersWithin (g : Grammar) : Nat → Parse (List Member)
  | 0 => return []
  | n + 1 => do
    if (← get).hasTokens then
      let front ← member g
      let back ← membersWithin g n
      return front :: back
    else
      return []

/-- A whole stylesheet. It spans everything from the start of the file. -/
def sheet (g : Grammar) : Parse Sheet := do
  let members ← membersWithin g (← budget)
  let c ← get
  return ⟨members, ⟨.startOf c.file, c.position⟩⟩

end Typesheet.Parse

namespace Typesheet

/-- Reads a stylesheet from tokens, and says where reading ended. -/
def Sheet.read (tokens : List Token) (file : String) : EStateM.Result Error Cursor Sheet :=
  Parse.sheet .standard (.ofTokens tokens file)

/-- The stylesheet that tokens spell. -/
def Sheet.ofTokens (tokens : List Token) (file : String) : Except Error Sheet :=
  match Sheet.read tokens file with
  | .ok sheet _ => .ok sheet
  | .error error _ => .error error

/-- The stylesheet that a text spells. -/
def Sheet.ofText (text file : String) : Except Error Sheet := do
  let tokens ← Token.ofText text file
  Sheet.ofTokens tokens file

end Typesheet
