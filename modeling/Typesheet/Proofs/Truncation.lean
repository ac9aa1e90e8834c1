import Typesheet.Proofs.Continuation

/-! Texts that are cut off.

Scanning a text that makes no tokens stops at a character where no pattern applies
(`Token.stops_of_scan`). What is in front of that character, taken for a text of its own,
consists of the words that had been found there (`LexesTo.cut`): no word had looked at the
character or beyond it. In particular a capital name had kept its dashes for a colon in front
of the character, or for none at all. -/
namespace Typesheet

namespace Lexeme
variable {c : Char} {front back rest : List Char} {l : Lexeme}

/-- Where no pattern applies the text does not go on with a colon. -/
theorem colonFollows_of_none (h : first? (c :: rest) = none) : colonFollows (c :: rest) = false := by
  rw [Bool.eq_false_iff]
  intro colon
  have blank : Text.isBlank c = false := by
    rw [Bool.eq_false_iff]
    intro blank
    rw [first?_of_isBlank blank, blanks, List.takeWhile_cons, blank] at h
    cases h
  have trimmed : Text.trimStart (c :: rest) = c :: rest := by
    rw [Text.trimStart, List.dropWhile_cons, blank]
    rfl
  unfold colonFollows at colon
  rw [trimmed] at colon
  split at colon
  · cases colon
  · rename_i other heq
    rw [heq, first?_colon other] at h
    cases h
  · cases colon

/-- A lexeme in front of such a place is found when the text is cut off there. -/
theorem first?_cut (h : first? (front ++ c :: rest) = some l) (split : front = l.text ++ back)
    (mark : front.getLast? = some ':' → c ≠ '=') (stuck : first? (c :: rest) = none) :
    first? front = some l := by
  have noColon := colonFollows_of_none stuck
  cases back with
  | nil =>
    -- The text ends with the lexeme.
    obtain ⟨kind, text⟩ := l
    obtain rfl : front = text := split.trans (List.append_nil text)
    cases kind with
    | none => exact first?_separator h
    | some kind =>
      obtain ⟨spelled, colon⟩ := isWord_of_first? h
      rw [List.drop_left, noColon] at colon
      exact spelled_iff.1 ⟨spelled, fun dashed => nomatch colon dashed⟩
  | cons d back =>
    have inside : l.text.length < front.length := by
      rw [split, List.length_append, List.length_cons]
      omega
    have nonempty : front ≠ [] := by
      rw [split]
      simp
    have same : Interchangeable (front.getLast nonempty) (c :: rest) [] := {
      apart := fun _ h => nomatch h
      mark := fun colon equals => by
        refine mark ?_ (Option.some.inj equals)
        rw [List.getLast?_eq_some_getLast nonempty, colon]
      colon := fun h => nomatch h
      blank := fun _ => noColon }
    have found := first?_inside h inside (List.getLast?_eq_some_getLast nonempty) same
    rwa [List.append_nil] at found

end Lexeme

section
variable {c : Char} {front rest : List Char} {ws : List Word}

/-- A colon in front of the place that a text is read up to is no beginning of an
assignment. -/
theorem LexesTo.head_ne_equals (h : LexesTo rest (front ++ rest) ws) :
    front.getLast? = some ':' → rest.head? ≠ some '=' := by
  refine LexesTo.front_induction
    (motive := fun front _ => front.getLast? = some ':' → rest.head? ≠ some '=') nofun ?_ h
  intro l back ws first _ ih ends
  cases back with
  | cons c back =>
    rw [List.getLast?_append_of_ne_nil _ (List.cons_ne_nil _ _)] at ends
    exact ih ends
  | nil =>
    rw [List.append_nil] at first ends
    obtain ⟨_ | kind, text⟩ := l
    · exact Lexeme.head_of_separator first ends
    · exact Lexeme.head_of_word first ends

/-- **Cut off where no pattern applies, a text consists of the words that were found up to
there.** -/
theorem LexesTo.cut (h : LexesTo (c :: rest) (front ++ c :: rest) ws)
    (stuck : Lexeme.first? (c :: rest) = none) : Lexes front ws := by
  refine LexesTo.front_induction (motive := fun front ws => Lexes front ws) .nil ?_ h
  intro l back ws first whole ih
  have found := Lexeme.first?_cut first rfl
    (fun ends equals => whole.head_ne_equals ends (congrArg some equals)) stuck
  refine .lexeme found ?_
  rwa [List.drop_left]

end

namespace Token

/-- Scanning that makes no tokens has read up to a character where no pattern applies. -/
theorem stops_of_scan {r : Reader} {e : Error} (h : scan r = .error e) :
    ∃ front c rest ws, r.ahead = front ++ c :: rest ∧ LexesTo (c :: rest) r.ahead ws ∧
      Lexeme.first? (c :: rest) = none ∧
      e = ⟨.unrecognisedToken (String.ofList [c]), ⟨r.offset + Text.byteLength front, r.file⟩⟩ := by
  induction r using scan.induct with
  | case1 r hr =>
    rw [scan_nil hr] at h
    cases h
  | case2 r c cs hr hl =>
    rw [scan_none hr hl] at h
    cases h
    have start : ∀ d, r.ahead.head? = some d → Text.isBlank d = false := by
      intro d hd
      rw [hr] at hd hl
      cases hd
      rw [Bool.eq_false_iff]
      intro blank
      rw [Lexeme.first?_of_isBlank blank, Lexeme.blanks, List.takeWhile_cons, blank] at hl
      cases hl
    exact ⟨[], c, cs, [], hr, hr ▸ .here (hr ▸ start), hr ▸ hl, rfl⟩
  | case3 r c cs hr l hl _ ih =>
    rw [scan_some hl] at h
    cases hs : scan (r.past l.text) with
    | ok tokens =>
      rw [hs] at h
      cases h
    | error e' =>
      rw [hs] at h
      cases h
      obtain ⟨front, d, rest, ws, ahead, read, stuck, rfl⟩ := ih hs
      have ahead : r.ahead.drop l.text.length = front ++ d :: rest := ahead
      have read : LexesTo (d :: rest) (r.ahead.drop l.text.length) ws := read
      obtain ⟨behind, whole⟩ := Lexeme.text_prefix hl
      refine ⟨l.text ++ front, d, rest, ?_⟩
      have split : r.ahead = l.text ++ front ++ d :: rest := by
        rw [List.append_assoc, ← ahead, ← whole, List.drop_left]
      have place : r.offset + Text.byteLength l.text + Text.byteLength front =
          r.offset + Text.byteLength (l.text ++ front) := by
        rw [Text.byteLength_append, Nat.add_assoc]
      obtain ⟨kind, text⟩ := l
      cases kind with
      | none => exact ⟨ws, split, .skip hl read, stuck, by rw [← place]; rfl⟩
      | some kind => exact ⟨_, split, .word hl read, stuck, by rw [← place]; rfl⟩

/-- The place of an error in a text, about the character `c` there, where no pattern applies.
In front of it are words and separators, and the text is scanned to these words also when it
is cut off there. -/
structure Stops (text : String) (name : Option String) (e : Error) (c : Char) : Prop where
  cause : e.cause = .unrecognisedToken (String.ofList [c])
  file : e.position.file = name.getD Reader.unnamed
  inside : e.position.offset < text.utf8ByteSize
  here : Text.Holds text e.position.offset (e.position.offset + c.utf8Size) (String.ofList [c])
  stuck : ∃ front rest words, text.toList = front ++ c :: rest ∧
    Text.byteLength front = e.position.offset ∧
    (∀ pattern ∈ Lexeme.patterns, pattern (c :: rest) = none) ∧
    LexesTo (c :: rest) text.toList (words.map word) ∧
    ofText (String.ofList front) name = .ok (words ++ [closing e.position])

/-- A text that makes no tokens has a first place where nothing is recognised, and what is in
front of that place is read without regard to what follows. -/
theorem stops_of_ofText {text : String} {name : Option String} {e : Error}
    (h : ofText text name = .error e) : ∃ c, Stops text name e c := by
  obtain ⟨front, c, rest, ws, split, read, stuck, rfl⟩ := stops_of_scan h
  have split : text.toList = front ++ c :: rest := split
  have read : LexesTo (c :: rest) text.toList ws := read
  have place : (Reader.ofText text name).offset + Text.byteLength front = Text.byteLength front :=
    Nat.zero_add _
  have alone : Lexes front ws := by
    rw [split] at read
    exact read.cut stuck
  obtain ⟨words, offset, rfl, ends, scanned⟩ :=
    scan_of_lexesTo alone (.ofText (String.ofList front) name) (String.toList_ofList)
  have ends : offset = Text.byteLength front := by
    have ends : offset + 0 = 0 + Text.byteLength front := ends
    omega
  have part : text.toList = front ++ ([c] ++ rest) := split
  rw [place]
  refine ⟨c, rfl, rfl, ?_, ?_, front, rest, words, split, rfl, ?_, read, ?_⟩
  · rw [← Text.byteLength_toList, split, Text.byteLength_append, Text.byteLength_cons]
    have size := c.utf8Size_pos
    show Text.byteLength front < _
    omega
  · exact Text.holds_of_append part
  · exact List.findSome?_eq_none_iff.1 stuck
  · subst ends
    unfold ofText
    rw [scanned, scan_nil rfl]
    rfl

/-- A property, a difference and a comment without an end. -/
def unclosedText : String := "MARGIN-TOP: Gap-2px /* \u00e9"

/-- The comment stops at its slash, which is about no word in front of it. -/
theorem stops_of_ofText_unclosed :
    ofText unclosedText (some "sheet") = .error ⟨.unrecognisedToken "/", ⟨20, "sheet"⟩⟩ ∧
    ∃ c, Stops unclosedText (some "sheet") ⟨.unrecognisedToken "/", ⟨20, "sheet"⟩⟩ c := by
  have stopped : ofText unclosedText (some "sheet") =
      .error ⟨.unrecognisedToken "/", ⟨20, "sheet"⟩⟩ := by cbv
  exact ⟨stopped, stops_of_ofText stopped⟩

end Token

end Typesheet
