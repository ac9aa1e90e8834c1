import Typesheet.Error
import Typesheet.Token.Lexeme
import Typesheet.Token.Reader

/-! Scanning: the tokens of a text.

A text is scanned lexeme by lexeme; those with a kind become tokens, and a
closing token stands behind the last. Scanning stops where no pattern applies,
with the one character there as the unrecognised token. -/
namespace Typesheet.Token

/-- The tokens ahead of a reader. -/
def scan (r : Reader) : Except Error (List Token) :=
  match hr : r.ahead with
  | [] => .ok [closing r.position]
  | c :: _ =>
    match hl : Lexeme.first? r.ahead with
    | none => .error ⟨.unrecognisedToken (String.ofList [c]), r.position⟩
    | some lexeme => do
      have : (r.past lexeme.text).ahead.length < r.ahead.length :=
        Reader.past_ahead_length_lt (by simp [hr]) (Lexeme.text_ne_nil hl)
      let tokens ← scan (r.past lexeme.text)
      match lexeme.kind with
      | none => return tokens
      | some kind =>
        let span := r.spanOver (Text.byteLength lexeme.text)
        return ⟨kind, String.ofList lexeme.text, span⟩ :: tokens
termination_by r.ahead.length

/-- The tokens of a text, which has a name only if it comes from a file. -/
def ofText (text : String) (file : Option String) : Except Error (List Token) :=
  scan (.ofText text file)

end Typesheet.Token
