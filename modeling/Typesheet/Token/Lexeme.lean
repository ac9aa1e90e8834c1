import Typesheet.Token
import Typesheet.Text.Blank

/-! Lexemes: what the text ahead begins with.

A `Pattern` looks at the text ahead and either recognises its beginning or does
not apply. The patterns are tried in the order of `patterns`, and the first that
applies decides (`first?`). White space and closed comments are lexemes without
a kind: they separate tokens and leave none behind. -/
namespace Typesheet

/-- A recognised beginning of a text. -/
structure Lexeme where
  /-- The kind of token it makes, if it makes one. -/
  kind : Option Kind
  text : List Char
deriving DecidableEq, Repr, Inhabited

/-- A way to recognise the beginning of a text. -/
abbrev Pattern := List Char → Option Lexeme

namespace Lexeme

/-! ### Characters of names -/

/-- A character that continues a name of any case. -/
def isNameChar (c : Char) : Bool := c.isAlphanum || c == '_' || c == '-'

/-- A character that begins the name of a class. -/
def isClassStart (c : Char) : Bool := c.isAlpha || c == '_' || c == '-'

/-- A character that continues a name in lower case. -/
def isLowerNameChar (c : Char) : Bool := c.isLower || c.isDigit || c == '-'

/-- A character that begins a name with a capital. -/
def isCapitalStart (c : Char) : Bool := c.isUpper || c == '_'

/-- A hexadecimal digit of either case. -/
def isHexDigit (c : Char) : Bool :=
  c.isDigit || ('a' ≤ c && c ≤ 'f') || ('A' ≤ c && c ≤ 'F')

/-! ### What separates tokens -/

/-- A run of white space. -/
def blanks : Pattern := fun cs =>
  match cs.takeWhile Text.isBlank with
  | [] => none
  | text => some ⟨none, text⟩

/-- A comment up to the end of its line. -/
def lineComment : Pattern
  | '/' :: '/' :: cs => some ⟨none, '/' :: '/' :: cs.takeWhile (· != '\n')⟩
  | _ => none

/-- The text up to and with the first end of a block comment. -/
def throughCommentEnd : List Char → Option (List Char)
  | [] => none
  | '*' :: '/' :: _ => some ['*', '/']
  | c :: cs => (throughCommentEnd cs).map (c :: ·)

/-- A comment between its two ends; one that is never closed is no lexeme. -/
def blockComment : Pattern
  | '/' :: '*' :: cs => (throughCommentEnd cs).map fun text => ⟨none, '/' :: '*' :: text⟩
  | _ => none

/-! ### Selectors, numbers and names -/

/-- A hash and a name: a colour if the name is six hexadecimal digits, else an id. -/
def hash : Pattern
  | '#' :: cs =>
    match cs.takeWhile isNameChar with
    | [] => none
    | name =>
      some ⟨some (if name.length == 6 && name.all isHexDigit then .color else .idSelector),
        '#' :: name⟩
  | _ => none

/-- A dot and a name that does not begin with a digit. -/
def className : Pattern
  | '.' :: c :: cs =>
    if isClassStart c then some ⟨some .classSelector, '.' :: c :: cs.takeWhile isNameChar⟩
    else none
  | _ => none

/-- The unit a number is followed by, and the kind it makes of the number. -/
def unit : List Char → Kind × List Char
  | 'p' :: 'x' :: _ => (.pixel, ['p', 'x'])
  | '%' :: _ => (.percentage, ['%'])
  | _ => (.scalar, [])

/-- Digits and the unit behind them. -/
def number : Pattern := fun cs =>
  match cs.takeWhile Char.isDigit with
  | [] => none
  | digits =>
    let (kind, suffix) := unit (cs.drop digits.length)
    some ⟨some kind, digits ++ suffix⟩

/-- What a name stands for: a reserved word, or whatever it is bound to. -/
def wordKind : List Char → Kind
  | ['i', 'f'] => .ifWord
  | ['e', 'l', 's', 'e'] => .elseWord
  | ['T', 'R', 'U', 'E'] => .trueWord
  | ['t', 'r', 'u', 'e'] => .trueWord
  | ['F', 'A', 'L', 'S', 'E'] => .falseWord
  | ['f', 'a', 'l', 's', 'e'] => .falseWord
  | _ => .identifier

/-- A name in lower case, dashes included. -/
def lowerName : Pattern
  | c :: cs =>
    if c.isLower then
      let name := c :: cs.takeWhile isLowerNameChar
      some ⟨some (wordKind name), name⟩
    else none
  | [] => none

/-- Whether a text goes on with the colon of a declaration, blanks aside. -/
def colonFollows (cs : List Char) : Bool :=
  match Text.trimStart cs with
  | ':' :: '=' :: _ => false
  | ':' :: _ => true
  | _ => false

/-- A name with a capital. It keeps its dashes only as the name of a property,
which a colon shows; otherwise the first dash is a minus sign. -/
def capitalName : Pattern
  | c :: cs =>
    if isCapitalStart c then
      let tail := cs.takeWhile isNameChar
      let name := c ::
        if colonFollows (cs.drop tail.length) then tail else tail.takeWhile (· != '-')
      some ⟨some (wordKind name), name⟩
    else none
  | [] => none

/-! ### Punctuation -/

/-- The mark a text begins with; the assignment comes before the colon it
begins with. -/
def punctuation : Pattern
  | ':' :: '=' :: _ => some ⟨some .assignment, [':', '=']⟩
  | ':' :: _ => some ⟨some .colon, [':']⟩
  | ';' :: _ => some ⟨some .semicolon, [';']⟩
  | ',' :: _ => some ⟨some .comma, [',']⟩
  | '[' :: _ => some ⟨some .openBracket, ['[']⟩
  | ']' :: _ => some ⟨some .closeBracket, [']']⟩
  | '{' :: _ => some ⟨some .openCurly, ['{']⟩
  | '}' :: _ => some ⟨some .closeCurly, ['}']⟩
  | '(' :: _ => some ⟨some .openParen, ['(']⟩
  | ')' :: _ => some ⟨some .closeParen, [')']⟩
  | '+' :: _ => some ⟨some .plus, ['+']⟩
  | '-' :: _ => some ⟨some .dash, ['-']⟩
  | '*' :: _ => some ⟨some .star, ['*']⟩
  | _ => none

/-! ### The first lexeme of a text -/

/-- The patterns, in the order they are tried. -/
def patterns : List Pattern :=
  [blanks, lineComment, blockComment, hash, className, number, lowerName, capitalName, punctuation]

/-- The lexeme a text begins with. -/
def first? (cs : List Char) : Option Lexeme := patterns.findSome? fun pattern => pattern cs

/-- A lexeme takes text, so a text of lexemes comes to an end. -/
theorem text_ne_nil {cs : List Char} {l : Lexeme} (h : first? cs = some l) : l.text ≠ [] := by
  obtain ⟨pattern, hp, h⟩ := List.exists_of_findSome?_eq_some h
  simp only [patterns, List.mem_cons, List.not_mem_nil, or_false] at hp
  rcases hp with rfl | rfl | rfl | rfl | rfl | rfl | rfl | rfl | rfl
  · unfold blanks at h
    split at h
    · cases h
    · rename_i hne
      cases h
      exact hne
  · unfold lineComment at h
    split at h <;> cases h
    exact List.cons_ne_nil _ _
  · unfold blockComment at h
    split at h
    · obtain ⟨_, _, rfl⟩ := Option.map_eq_some_iff.1 h
      exact List.cons_ne_nil _ _
    · cases h
  · unfold hash at h
    split at h
    · split at h <;> cases h
      exact List.cons_ne_nil _ _
    · cases h
  · unfold className at h
    split at h
    · split at h <;> cases h
      exact List.cons_ne_nil _ _
    · cases h
  · unfold number at h
    split at h
    · cases h
    · rename_i hne
      cases h
      exact fun hnil => hne (List.append_eq_nil_iff.1 hnil).1
  · unfold lowerName at h
    split at h
    · split at h <;> cases h
      exact List.cons_ne_nil _ _
    · cases h
  · unfold capitalName at h
    split at h
    · split at h <;> cases h
      exact List.cons_ne_nil _ _
    · cases h
  · unfold punctuation at h
    split at h <;> cases h <;> exact List.cons_ne_nil _ _

end Lexeme

end Typesheet
