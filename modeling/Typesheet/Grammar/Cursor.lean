import Typesheet.Error
import Typesheet.Token

/-! A place among tokens from which reading goes on.

A cursor stands before the tokens still ahead. Behind the last of them is the
closing token, which is current for ever once the others are used up. It also
hands out the numbers of nodes. -/
namespace Typesheet

/-- Tokens read up to a place. -/
structure Cursor where
  file : String
  /-- The end of the last token read, or the start of the file. -/
  readTo : Position
  ahead : List Token
  closing : Token
  closing_kind : closing.kind = .eof
  /-- The number of the next node. -/
  nextId : NodeId

namespace Cursor

/-- A cursor before all tokens. The last one closes the list if it is of the
closing kind; otherwise a closing token is put where the last one ends. -/
def ofTokens (tokens : List Token) (file : String) : Cursor :=
  let start := Position.startOf file
  match tokens.getLast? with
  | none => ⟨file, start, [], .closing start, rfl, 1⟩
  | some last =>
    if h : last.kind = .eof then ⟨file, start, tokens.dropLast, last, h, 1⟩
    else ⟨file, start, tokens, .closing ⟨last.span.stop.offset, file⟩, rfl, 1⟩

/-- The token `n` places on, which is the closing one from the end on. -/
def peek (c : Cursor) (n : Nat) : Token := c.ahead[n]?.getD c.closing

/-- The token to be read next. -/
def current (c : Cursor) : Token := c.ahead.head?.getD c.closing

/-- The kind of the token to be read next. -/
def kind (c : Cursor) : Kind := c.current.kind

/-- Where the token to be read next starts. -/
def position (c : Cursor) : Position := c.current.span.start

/-- Whether there is anything to be read before a closing token. -/
def hasTokens (c : Cursor) : Bool := c.kind ≠ .eof

/-- The cursor behind the current token; the closing token is never passed. -/
def next (c : Cursor) : Cursor :=
  match c.ahead with
  | [] => c
  | t :: ts => {c with ahead := ts, readTo := t.span.stop}

/-- What has been read since a place. -/
def spanFrom (c : Cursor) (start : Position) : Span := ⟨start, c.readTo⟩

/-- The error that the current token is out of place, with a reason. -/
def unexpected (c : Cursor) (message : String) : Error :=
  ⟨.unexpectedTokenDetailed c.current.value message, c.position⟩

end Cursor

/-- Reading something from tokens: it moves the cursor on and may stop, with the
cursor left where it stopped. -/
abbrev Parse := EStateM Error Cursor

namespace Parse

/-- The kind of the current token. -/
def kind : Parse Kind := return (← get).kind

/-- Where the current token starts. -/
def position : Parse Position := return (← get).position

/-- What has been read since a place. -/
def spanFrom (start : Position) : Parse Span := return (← get).spanFrom start

/-- Reads the current token, whatever it is. -/
def advance : Parse Token := fun c => .ok c.current c.next

/-- Stops because the current token is out of place. -/
def refuse {α : Type} (message : String) : Parse α := fun c => .error (c.unexpected message) c

/-- Reads a token of one kind, or stops with an error at any other. -/
def expectOr (kind : Kind) (error : Token → Error) : Parse Token := fun c =>
  if c.kind = kind then advance c else .error (error c.current) c

/-- A token where another was needed. -/
def outOfPlace (t : Token) : Error := ⟨.unexpectedToken t.value, t.span.start⟩

/-- Reads a token of one kind. -/
def expect (kind : Kind) : Parse Token := expectOr kind outOfPlace

/-- The number of a new node. -/
def freshId : Parse NodeId := fun c => .ok c.nextId {c with nextId := c.nextId + 1}

/-- More steps than there are tokens to read. -/
def budget : Parse Nat := return (← get).ahead.length + 1

end Parse

end Typesheet
