import Mathlib
import Typesheet.Proofs.Tracking

/-! Where reading stops.

A list of tokens that is refused is refused at the first token that no stylesheet could
have there (`Sheet.read_firstRefused`): what stands in front of it is the beginning of a
stylesheet (`Sheet.exists_of_run`), and together with it of none (`Sheet.not_ok_of_stuck`). -/
namespace Typesheet

/-! ### Lists of tokens -/

theorem Cursor.ofTokens_prefix (tokens : List Token) (file : String) :
    tokens <+: (Cursor.ofTokens tokens file).tokens := by
  unfold Cursor.ofTokens
  cases found : tokens.getLast? with
  | none =>
    rw [List.getLast?_eq_none_iff.1 found]
    exact List.nil_prefix
  | some last =>
    by_cases closes : last.kind = .eof
    · have split := List.dropLast_append_getLast? last found
      simp only [dif_pos closes, Cursor.tokens, split, List.prefix_rfl]
    · simp only [dif_neg closes, Cursor.tokens, List.prefix_append]

namespace Sheet
open Expected (run step)
variable {front : List Token}

/-- What runs to the end is a stylesheet. -/
theorem exists_of_run {place : Position} {stack : List Expected}
    (h : run [] (front ++ [.closing place]) = some stack) (file : String) :
    ∃ sheet, Sheet.ofTokens (front ++ [.closing place]) file = .ok sheet := by
  unfold Sheet.ofTokens Sheet.read
  cases hr : Parse.sheet .standard (.ofTokens (front ++ [.closing place]) file) with
  | ok sheet c => exact ⟨sheet, rfl⟩
  | error e c =>
    obtain ⟨-, stuckAt, ⟨ts, tokens, runs⟩, stuck⟩ := (Parse.sheet_tracks _).stops e c hr
    obtain ⟨rest, here⟩ := c.tokens_eq
    rw [Cursor.ofTokens_closing, here] at tokens
    have none : run [] (ts ++ c.current :: rest) = none := Expected.run_stuck runs stuck
    rw [← tokens] at none
    cases none.symm.trans h

/-- Tokens with one among them that cannot stand where it does begin no stylesheet. -/
theorem not_ok_of_stuck {t : Token} {stack : List Expected} (runs : run [] front = some stack)
    (stuck : step stack t = none) (going : ∀ u ∈ front, u.kind ≠ .eof) (others : List Token)
    (file : String) (sheet : Sheet) :
    Sheet.ofTokens (front ++ t :: others) file ≠ .ok sheet := by
  intro h
  unfold Sheet.ofTokens Sheet.read at h
  split at h
  · rename_i sheet d hr
    obtain ⟨stack', ⟨ts, tokens, runs'⟩, agrees⟩ := (Parse.sheet_tracks _).ok sheet d hr
    have ended : d.current.kind = .eof := Parse.sheet_ended hr
    obtain ⟨rest, here⟩ := d.tokens_eq
    obtain ⟨more, whole⟩ := Cursor.ofTokens_prefix (front ++ t :: others) file
    rw [← whole, here, List.append_assoc, List.cons_append] at tokens
    have apart : ts = front → t ≠ d.current := by
      rintro rfl rfl
      cases runs.symm.trans runs'
      rw [stuck] at agrees
      have closes : Expected.start? d.current = some [] := by
        rw [Expected.start?, ended]
      cases agrees.trans closes
    obtain ⟨us, rfl, later⟩ | ⟨us, rfl, later⟩ := List.append_eq_append_iff.1 tokens
    · cases us with
      | nil => exact apart (List.append_nil _) (List.cons.inj later).1
      | cons u us =>
        -- Reading went through the token.
        cases (List.cons.inj later).1
        cases (Expected.run_stuck runs stuck).symm.trans runs'
    · cases us with
      | nil => exact apart (List.append_nil _).symm (List.cons.inj later).1.symm
      | cons u us =>
        -- Reading ended in front of the token, where none is a closing one.
        cases (List.cons.inj later).1
        exact going _ (List.mem_append_right _ List.mem_cons_self) ended
  · cases h

end Sheet

/-! ### Main result -/

/-- The tokens of a text, in front of the closing one, are spelled like words. -/
theorem Token.spelled_of_ofText {text : String} {name : Option String} {tokens : List Token}
    (h : ofText text name = .ok tokens) :
    ∃ front place, tokens = front ++ [closing place] ∧ ∀ t ∈ front, t.word.Spelled := by
  obtain ⟨front, place, rfl, lexes⟩ := lexes_of_scan h
  exact ⟨front, place, rfl, fun t ht => lexes.wellSpelled.spelled _ (List.mem_map_of_mem ht)⟩

/-- The first token that cannot stand where it does: what stands in front of it begins a
stylesheet, and together with it none. -/
structure FirstRefused (tokens : List Token) (k : Nat) (t : Token) : Prop where
  here : tokens[k]? = some t
  before : ∃ more place, (∀ u ∈ tokens.take k ++ more, u.word.Spelled) ∧
    ∀ file, ∃ sheet, Sheet.ofTokens (tokens.take k ++ more ++ [.closing place]) file = .ok sheet
  through : ∀ others file sheet, Sheet.ofTokens (tokens.take (k + 1) ++ others) file ≠ .ok sheet

/-- A text whose tokens make no stylesheet is refused at the first token that cannot stand
where it does: the error is about that token, and reading has come up to it. -/
theorem Sheet.read_firstRefused {text file : String} {name : Option String} {tokens : List Token}
    {e : Error} {c : Cursor} (lexed : Token.ofText text name = .ok tokens)
    (stopped : Sheet.read tokens file = .error e c) :
    ∃ k t, FirstRefused tokens k t ∧ c.current = t ∧ e.position = t.span.start ∧
      e.cause.token? = some t.value := by
  obtain ⟨front, place, rfl, spelled⟩ := Token.spelled_of_ofText lexed
  obtain ⟨⟨position, token⟩, stack, ⟨ts, split, runs⟩, stuck⟩ :=
    (Parse.sheet_tracks _).stops e c stopped
  obtain ⟨rest, here⟩ := c.tokens_eq
  rw [Cursor.ofTokens_closing, here] at split
  have split : front ++ [.closing place] = ts ++ c.current :: rest := split
  have inFront : ts ⊆ front := by
    have length := congrArg List.length split
    simp only [List.length_append, List.length_cons, List.length_nil] at length
    exact (List.prefix_of_prefix_length_le ⟨_, split.symm⟩ (List.prefix_append front _)
      (by omega)).subset
  refine ⟨ts.length, c.current, ⟨?_, ?_, ?_⟩, rfl, position, token⟩
  · rw [split, List.getElem?_append_right (Nat.le_refl _), Nat.sub_self]
    rfl
  · rw [split, List.take_left]
    refine ⟨(Expected.completion stack).map Word.token, .nowhere, fun u hu => ?_, fun file => ?_⟩
    · obtain hu | hu := List.mem_append.1 hu
      · exact spelled u (inFront hu)
      · obtain ⟨w, hw, rfl⟩ := List.mem_map.1 hu
        exact Expected.completion_spelled stack w hw
    · have completed : Expected.run [] (ts ++ (Expected.completion stack).map Word.token ++
          [.closing .nowhere]) = some [] := by
        rw [List.append_assoc, Expected.run_append, runs, Option.bind_some]
        exact Expected.run_completion stack .nowhere
      exact exists_of_run completed file
  · intro others file sheet
    have taken : (front ++ [Token.closing place]).take (ts.length + 1) = ts ++ [c.current] := by
      rw [split, List.append_cons, List.take_left' (by rw [List.length_append]; rfl)]
    rw [taken, List.append_assoc, List.singleton_append]
    have going : ∀ u ∈ ts, u.kind ≠ .eof := fun u hu => (spelled u (inFront hu)).kind_ne_eof
    exact not_ok_of_stuck runs stuck going others file sheet

/-- An assignment without its semicolon, in front of a rule. -/
def unfinishedText : String := "Width := 2px p \x7b \x7d"

def unfinishedTokens : List Token :=
  [⟨.identifier, "Width", ⟨⟨0, "sheet"⟩, ⟨5, "sheet"⟩⟩⟩,
    ⟨.assignment, ":=", ⟨⟨6, "sheet"⟩, ⟨8, "sheet"⟩⟩⟩,
    ⟨.pixel, "2px", ⟨⟨9, "sheet"⟩, ⟨12, "sheet"⟩⟩⟩,
    ⟨.identifier, "p", ⟨⟨13, "sheet"⟩, ⟨14, "sheet"⟩⟩⟩,
    ⟨.openCurly, "\x7b", ⟨⟨15, "sheet"⟩, ⟨16, "sheet"⟩⟩⟩,
    ⟨.closeCurly, "\x7d", ⟨⟨17, "sheet"⟩, ⟨18, "sheet"⟩⟩⟩,
    .closing ⟨18, "sheet"⟩]

/-- The missing semicolon shows in the rule behind it. -/
theorem Sheet.read_firstRefused_unfinished :
    Token.ofText unfinishedText (some "sheet") = .ok unfinishedTokens ∧
    ∃ c, Sheet.read unfinishedTokens "sheet" =
        .error ⟨.unexpectedToken "p", ⟨13, "sheet"⟩⟩ c ∧
      ∃ k t, FirstRefused unfinishedTokens k t ∧ c.current = t ∧
        ⟨13, "sheet"⟩ = t.span.start ∧ (Cause.unexpectedToken "p").token? = some t.value := by
  have lexed : Token.ofText unfinishedText (some "sheet") = .ok unfinishedTokens := by cbv
  have refused : Sheet.ofTokens unfinishedTokens "sheet" =
      .error ⟨.unexpectedToken "p", ⟨13, "sheet"⟩⟩ := by cbv
  unfold Sheet.ofTokens at refused
  split at refused
  · cases refused
  · rename_i e c stopped
    cases refused
    exact ⟨lexed, c, stopped, Sheet.read_firstRefused lexed stopped⟩

end Typesheet
