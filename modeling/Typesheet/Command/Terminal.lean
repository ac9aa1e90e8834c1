/-! Text as a terminal shows it.

A text may hold control sequences, which tell a terminal what to do and are not
shown: an escape character, and behind it a letter, a control sequence with
parameters, a device control string, a command, or a string of another kind. What
the program says about its own arguments is such text, and is said without them.
A sequence that breaks off takes everything behind it away until a character that
ends it. -/
namespace Typesheet.Command.Terminal

/-- A character that may stand before the last one of a sequence. -/
def isIntermediate (c : Char) : Bool := ' ' ≤ c && c ≤ '/'

/-- A character of the parameters of a sequence. -/
def isParameter (c : Char) : Bool := '0' ≤ c && c ≤ '?'

/-- A parameter that may only stand first. -/
def isPrivate (c : Char) : Bool := '<' ≤ c && c ≤ '?'

/-- A character that ends a sequence. -/
def isFinal (c : Char) : Bool := '@' ≤ c && c ≤ '~'

/-- A control character that moves on in the text and is kept with it. -/
def isLayout (c : Char) : Bool := c == '\t' || c == '\n' || c == '\x0c' || c == '\r'

/-- How far a sequence with parameters has come. -/
inductive Part where
  | start
  | parameters
  | intermediates
deriving DecidableEq, Repr, Inhabited

/-- How far it comes with a character that does not end it, unless that one has no
place there. -/
def Part.next? (part : Part) (c : Char) : Option Part :=
  match part with
  | start =>
    if isIntermediate c then some intermediates
    else if isParameter c then some parameters
    else some start
  | parameters =>
    if isIntermediate c then some intermediates
    else if isPrivate c then none
    else some parameters
  | intermediates => if isParameter c then none else some intermediates

/-- What is being read. -/
inductive Mode where
  /-- Text. -/
  | text
  /-- What follows an escape character. -/
  | escape
  /-- The same, behind intermediate characters. -/
  | escapeIntermediates
  | sequence (part : Part)
  /-- A sequence with a character in it that has no place there. -/
  | malformed
  /-- What a device control string begins with. -/
  | device (part : Part)
  /-- A string that a terminator ends. -/
  | string
  /-- A command to the system, which a bell ends. -/
  | command
deriving DecidableEq, Repr, Inhabited

namespace Mode

/-- Whether an ASCII character is shown. -/
def shows (mode : Mode) (c : Char) : Bool :=
  match mode with
  | text => (' ' ≤ c && c ≤ '~') || isLayout c
  | escape | escapeIntermediates | sequence _ | malformed => isLayout c
  | device _ | string | command => false

/-- What an escape character and the character behind it begin. -/
def introduced (c : Char) : Mode :=
  if isIntermediate c then escapeIntermediates
  else if c = '[' then sequence .start
  else if c = ']' then command
  else if c = 'P' then device .start
  else if c = 'X' ∨ c = '^' ∨ c = '_' then string
  else if isParameter c || isFinal c then text
  else escape

/-- What is being read behind an ASCII character. An escape character begins a
sequence anywhere, and two characters cancel any. -/
def next (mode : Mode) (c : Char) : Mode :=
  if c = '\x18' ∨ c = '\x1a' then text
  else if c = '\x1b' then escape
  else
    match mode with
    | text => text
    | escape => introduced c
    | escapeIntermediates => if isParameter c || isFinal c then text else escapeIntermediates
    | sequence part =>
      if isFinal c then text
      else match part.next? c with
        | some part => sequence part
        | none => malformed
    | malformed => if isFinal c then text else malformed
    | device part =>
      if isFinal c then string
      else match part.next? c with
        | some part => device part
        | none => string
    | string => string
    | command => if c = '\x07' then text else command

/-- What is being read behind a character that is not ASCII. A string ends at a byte
that is its terminator. -/
def past (mode : Mode) (c : Char) : Mode :=
  match mode with
  | string => if 0x9c ∈ String.utf8EncodeChar c then text else string
  | mode => mode

end Mode

/-- What is shown of the characters. Text goes on behind a character that is shown,
up to one that text does not show. -/
def shown (mode : Mode) (inText : Bool) : List Char → List Char
  | [] => []
  | c :: cs =>
    if c.toNat < 0x80 then
      if (if inText then Mode.text else mode).shows c then c :: shown mode true cs
      else shown (mode.next c) false cs
    else if inText || mode == .text then c :: shown .text true cs
    else shown (mode.past c) false cs

/-- The text as a terminal shows it. -/
def visible (text : String) : String := String.ofList (shown .text false text.toList)

/-- Text without control characters is shown as it is. -/
theorem shown_text (inText : Bool) (cs : List Char)
    (h : ∀ c ∈ cs, c.toNat < 0x80 → Mode.text.shows c = true) : shown .text inText cs = cs := by
  induction cs generalizing inText with
  | nil => rfl
  | cons c cs ih =>
    have rest := ih true fun d hd => h d (List.mem_cons_of_mem c hd)
    unfold shown
    split
    · rename_i hc
      rw [ite_self, if_pos (h c List.mem_cons_self hc), rest]
    · rw [if_pos (by simp), rest]

end Typesheet.Command.Terminal
