import Typesheet.Token.Scan

/-! Scanning, one lexeme at a time.

Where the text ends there is the closing token, where nothing is recognised an
error, and otherwise the text is scanned on behind the lexeme it begins with. -/
namespace Typesheet.Token
variable {r : Reader} {l : Lexeme}

theorem scan_nil (h : r.ahead = []) : scan r = .ok [closing r.position] := by
  rw [scan]
  split
  · rfl
  · rename_i hcons
    cases h.symm.trans hcons

theorem scan_none {c : Char} {cs : List Char} (h : r.ahead = c :: cs)
    (hl : Lexeme.first? r.ahead = none) :
    scan r = .error ⟨.unrecognisedToken (String.ofList [c]), r.position⟩ := by
  rw [scan]
  split
  · rename_i hnil
    cases h.symm.trans hnil
  · rename_i hcons
    cases h.symm.trans hcons
    split
    · rfl
    · rename_i hsome
      cases hl.symm.trans hsome

/-- The tokens behind a lexeme, with its own in front if it makes one. -/
def afterLexeme (r : Reader) (l : Lexeme) (tokens : List Token) : List Token :=
  match l.kind with
  | none => tokens
  | some kind =>
    ⟨kind, String.ofList l.text, r.spanOver (Text.byteLength l.text)⟩ :: tokens

theorem scan_some (hl : Lexeme.first? r.ahead = some l) :
    scan r = (scan (r.past l.text)).map (afterLexeme r l) := by
  rw [scan]
  split
  · rename_i hnil
    rw [hnil] at hl
    cases hl
  · split
    · rename_i hnone
      cases hnone.symm.trans hl
    · rename_i hsome
      cases hsome.symm.trans hl
      cases scan (r.past l.text) with
      | error e => rfl
      | ok tokens =>
        show (match l.kind with
          | none => Except.ok tokens
          | some kind => _) = Except.ok (afterLexeme r l tokens)
        unfold afterLexeme
        cases l.kind <;> rfl

/-- Scanning stops only at a character that begins no lexeme. -/
theorem scan_error {e : Error} (h : scan r = .error e) :
    ∃ c, e.cause = .unrecognisedToken (String.ofList [c]) := by
  induction r using scan.induct with
  | case1 r hr =>
    rw [scan_nil hr] at h
    cases h
  | case2 r c cs hr hl =>
    rw [scan_none hr hl] at h
    cases h
    exact ⟨c, rfl⟩
  | case3 r c cs hr l hl _ ih =>
    rw [scan_some hl] at h
    cases hs : scan (r.past l.text) with
    | error e' =>
      rw [hs] at h
      cases h
      exact ih hs
    | ok tokens =>
      rw [hs] at h
      cases h

end Typesheet.Token
