import Typesheet.Grammar.Sheet
import Typesheet.Proofs.Lexical
import Typesheet.Proofs.Scanning

/-! The words of a text.

Where a token stands matters for errors only, so a text is taken for the list of its
words, kind and value of each token. `Lexes` relates the two without a position, and it
is what scanning does (`Token.scan_ok_iff`).

The words of a text are spelled like words of their kinds, and the dashed ones among
them stand before colons (`Lexes.wellSpelled`). -/
namespace Typesheet

/-- A token regardless of its place. -/
structure Word where
  kind : Kind
  text : String
deriving DecidableEq, Repr

def Token.word (t : Token) : Word := ⟨t.kind, t.value⟩

/-- The words still ahead. -/
def Cursor.words (c : Cursor) : List Word := c.ahead.map Token.word

/-- Up to a rest that does not begin with a blank, a text consists of these words and of
separators. -/
inductive LexesTo (rest : List Char) : List Char → List Word → Prop
  | here (start : ∀ c, rest.head? = some c → Text.isBlank c = false) : LexesTo rest rest []
  | skip {cs text : List Char} {ws : List Word} (first : Lexeme.first? cs = some ⟨none, text⟩)
      (more : LexesTo rest (cs.drop text.length) ws) : LexesTo rest cs ws
  | word {cs text : List Char} {kind : Kind} {ws : List Word}
      (first : Lexeme.first? cs = some ⟨some kind, text⟩)
      (more : LexesTo rest (cs.drop text.length) ws) :
      LexesTo rest cs (⟨kind, String.ofList text⟩ :: ws)

/-- A text consists of these words and of separators. -/
abbrev Lexes : List Char → List Word → Prop := LexesTo []

theorem Lexes.nil : Lexes [] [] := .here fun _ h => nomatch h

/-! ### Scanning finds the words -/

namespace Token

theorem lexes_of_scan {r : Reader} {tokens : List Token} (h : scan r = .ok tokens) :
    ∃ front place, tokens = front ++ [closing place] ∧ Lexes r.ahead (front.map word) := by
  induction r using scan.induct generalizing tokens with
  | case1 r hr =>
    rw [scan_nil hr] at h
    cases h
    exact ⟨[], r.position, rfl, hr ▸ .nil⟩
  | case2 r c cs hr hl =>
    rw [scan_none hr hl] at h
    cases h
  | case3 r c cs hr l hl _ ih =>
    rw [scan_some hl] at h
    cases hs : scan (r.past l.text) with
    | error e =>
      rw [hs] at h
      cases h
    | ok later =>
      rw [hs] at h
      obtain ⟨front, place, rfl, lexes⟩ := ih hs
      have lexes : Lexes (r.ahead.drop l.text.length) (front.map word) := lexes
      cases h
      obtain ⟨kind, text⟩ := l
      cases kind with
      | none => exact ⟨front, place, rfl, .skip hl lexes⟩
      | some kind => exact ⟨_ :: front, place, rfl, .word hl lexes⟩

/-- Up to a rest the words are scanned, and the rest where it stands. -/
theorem scan_of_lexesTo {rest cs : List Char} {ws : List Word} (h : LexesTo rest cs ws) :
    ∀ r : Reader, r.ahead = cs → ∃ front offset, front.map word = ws ∧
      offset + Text.byteLength rest = r.offset + Text.byteLength cs ∧
      scan r = (scan ⟨r.file, offset, rest⟩).map (front ++ ·) := by
  have move : ∀ {cs : List Char} {l : Lexeme} {n m : Nat}, Lexeme.first? cs = some l →
      m = n + Text.byteLength l.text + Text.byteLength (cs.drop l.text.length) →
      m = n + Text.byteLength cs := by
    intro cs l n m first hm
    obtain ⟨behind, rfl⟩ := Lexeme.text_prefix first
    rw [hm, List.drop_left, Text.byteLength_append, Nat.add_assoc]
  induction h with
  | here =>
    rintro r rfl
    refine ⟨[], r.offset, rfl, rfl, ?_⟩
    show scan r = (scan r).map ([] ++ ·)
    cases scan r <;> rfl
  | @skip cs text ws first more ih =>
    intro r hr
    obtain ⟨front, offset, words, place, later⟩ := ih (r.past text) (by rw [← hr]; rfl)
    refine ⟨front, offset, words, move first place, ?_⟩
    rw [scan_some (hr ▸ first), later]
    show ((scan ⟨r.file, offset, rest⟩).map (front ++ ·)).map (afterLexeme r ⟨none, text⟩) = _
    cases scan ⟨r.file, offset, rest⟩ <;> rfl
  | @word cs text kind ws first more ih =>
    intro r hr
    obtain ⟨front, offset, words, place, later⟩ := ih (r.past text) (by rw [← hr]; rfl)
    refine ⟨⟨kind, String.ofList text, r.spanOver (Text.byteLength text)⟩ :: front, offset,
      by rw [List.map_cons, words]; rfl, move first place, ?_⟩
    rw [scan_some (hr ▸ first), later]
    show ((scan ⟨r.file, offset, rest⟩).map (front ++ ·)).map (afterLexeme r ⟨kind, text⟩) = _
    cases scan ⟨r.file, offset, rest⟩ <;> rfl

theorem scan_of_lexes {cs : List Char} {ws : List Word} (h : Lexes cs ws) (r : Reader)
    (hr : r.ahead = cs) :
    ∃ front place, scan r = .ok (front ++ [closing place]) ∧ front.map word = ws := by
  obtain ⟨front, offset, words, -, later⟩ := scan_of_lexesTo h r hr
  refine ⟨front, ⟨offset, r.file⟩, ?_, words⟩
  rw [later, scan_nil rfl]
  rfl

/-- The first word of a text that begins with it starts where the text does. -/
theorem scan_of_first {r : Reader} {kind : Kind} {text : List Char} {ws : List Word}
    (first : Lexeme.first? r.ahead = some ⟨some kind, text⟩)
    (h : Lexes (r.ahead.drop text.length) ws) :
    ∃ t more place, scan r = .ok (t :: more ++ [closing place]) ∧
      t.word = ⟨kind, String.ofList text⟩ ∧ more.map word = ws ∧ t.span.start = r.position := by
  obtain ⟨more, place, later, words⟩ := scan_of_lexes h (r.past text) rfl
  refine ⟨⟨kind, String.ofList text, r.spanOver (Text.byteLength text)⟩, more, place, ?_, rfl,
    words, rfl⟩
  rw [scan_some first, later]
  rfl

/-- **Scanning a text finds its words**, with a closing token behind them. -/
theorem scan_ok_iff {r : Reader} {ws : List Word} :
    (∃ front place, scan r = .ok (front ++ [closing place]) ∧ front.map word = ws) ↔
      Lexes r.ahead ws := by
  constructor
  · rintro ⟨front, place, h, rfl⟩
    obtain ⟨front', place', same, lexes⟩ := lexes_of_scan h
    rw [(List.append_inj' same rfl).1]
    exact lexes
  · exact fun h => scan_of_lexes h r rfl

end Token

/-- A closing token at the end of a list closes it. -/
theorem Cursor.ofTokens_closing (front : List Token) (place : Position) (file : String) :
    Cursor.ofTokens (front ++ [.closing place]) file =
      ⟨file, .startOf file, front, .closing place, rfl, 1⟩ := by
  unfold Cursor.ofTokens
  simp [Token.closing]

namespace Sheet

/-- A text is read from the tokens it is scanned to. -/
theorem ofText_of_scan {text file : String} {front : List Token} {place : Position}
    (h : Token.ofText text (some file) = .ok (front ++ [.closing place])) : ofText text file =
      match Parse.sheet .standard ⟨file, .startOf file, front, .closing place, rfl, 1⟩ with
      | .ok sheet _ => .ok sheet
      | .error e _ => .error e := by
  unfold ofText
  rw [h]
  show (match Parse.sheet .standard (.ofTokens (front ++ [.closing place]) file) with
    | .ok sheet _ => .ok sheet
    | .error e _ => .error e : Except Error Sheet) = _
  rw [Cursor.ofTokens_closing]

/-- Reading a text is reading its words. -/
theorem ofText_of_lexes {text : String} {ws : List Word} (h : Lexes text.toList ws)
    (file : String) : ∃ c : Cursor, c.words = ws ∧ ofText text file =
      match Parse.sheet .standard c with
      | .ok sheet _ => .ok sheet
      | .error e _ => .error e := by
  obtain ⟨front, place, scanned, words⟩ := Token.scan_of_lexes h (.ofText text (some file)) rfl
  exact ⟨⟨file, .startOf file, front, .closing place, rfl, 1⟩, words, ofText_of_scan scanned⟩

/-- A text that can be read has words. -/
theorem lexes_of_ofText {text file : String} {sheet : Sheet} (h : ofText text file = .ok sheet) :
    ∃ ws, Lexes text.toList ws := by
  unfold ofText Token.ofText at h
  cases hs : Token.scan (.ofText text (some file)) with
  | error e =>
    rw [hs] at h
    cases h
  | ok tokens =>
    obtain ⟨front, _, _, lexes⟩ := Token.lexes_of_scan hs
    exact ⟨_, lexes⟩

end Sheet

/-! ### Separators and words in front of a text -/

section
variable {rest cs text : List Char} {ws : List Word}

theorem lexesTo_skip_iff (h : Lexeme.first? cs = some ⟨none, text⟩) (inside : cs ≠ rest) :
    LexesTo rest cs ws ↔ LexesTo rest (cs.drop text.length) ws := by
  constructor
  · intro lexes
    cases lexes with
    | here => exact absurd rfl inside
    | skip first more =>
      cases first.symm.trans h
      exact more
    | word first more => cases first.symm.trans h
  · exact .skip h

theorem lexes_word_iff {kind : Kind} (h : Lexeme.first? cs = some ⟨some kind, text⟩) :
    Lexes cs ws ↔
      ∃ more, ws = ⟨kind, String.ofList text⟩ :: more ∧ Lexes (cs.drop text.length) more := by
  constructor
  · intro lexes
    cases lexes with
    | here => cases h
    | skip first more => cases first.symm.trans h
    | word first more =>
      cases first.symm.trans h
      exact ⟨_, rfl, more⟩
  · rintro ⟨more, rfl, lexes⟩
    exact .word h lexes

/-- Blanks in front of a text make no difference. -/
theorem lexesTo_trimStart_iff (start : ∀ c, rest.head? = some c → Text.isBlank c = false) :
    LexesTo rest (Text.trimStart cs) ws ↔ LexesTo rest cs ws := by
  cases hb : cs.takeWhile Text.isBlank with
  | nil =>
    have same : Text.trimStart cs = cs := by
      rw [Text.trimStart, ← Lexeme.drop_takeWhile, hb]
      rfl
    rw [same]
  | cons c text =>
    have first : Lexeme.first? cs = some ⟨none, c :: text⟩ := by
      unfold Lexeme.first? Lexeme.patterns
      have found : Lexeme.blanks cs = some ⟨none, c :: text⟩ := by
        unfold Lexeme.blanks
        rw [hb]
      rw [List.findSome?_cons, found]
    have inside : cs ≠ rest := by
      rintro rfl
      have blank : Text.isBlank c = true := List.mem_takeWhile_imp (hb ▸ List.mem_cons_self)
      obtain ⟨behind, hcs⟩ := List.takeWhile_prefix (l := cs) Text.isBlank
      rw [hb] at hcs
      cases blank.symm.trans (start c (hcs ▸ rfl))
    rw [lexesTo_skip_iff first inside, ← hb, Lexeme.drop_takeWhile, Text.trimStart]

theorem LexesTo.start (h : LexesTo rest cs ws) :
    ∀ c, rest.head? = some c → Text.isBlank c = false := by
  induction h with
  | here start => exact start
  | skip _ _ ih => exact ih
  | word _ _ ih => exact ih

/-- Up to a rest as well as to the end. -/
theorem LexesTo.blank {c : Char} (h : Text.isBlank c = true) (lexes : LexesTo rest cs ws) :
    LexesTo rest (c :: cs) ws := by
  have same : Text.trimStart (c :: cs) = Text.trimStart cs := by
    rw [Text.trimStart, List.dropWhile_cons, h]
    rfl
  rw [← lexesTo_trimStart_iff lexes.start, same, lexesTo_trimStart_iff lexes.start]
  exact lexes

end

/-! ### Spelling -/

namespace Word

/-- The word is spelled like one of its kind. -/
def Spelled (w : Word) : Prop := Lexeme.Spelled w.kind w.text.toList

/-- The word is a capital name with dashes. -/
def Dashed (w : Word) : Prop := Lexeme.Dashed w.text.toList

end Word

/-- A word in front of a text that does not run into it. -/
theorem LexesTo.cons {w : Word} {rest cs : List Char} {ws : List Word} (spelled : w.Spelled)
    (apart : Lexeme.Apart cs) (colon : w.Dashed → Lexeme.colonFollows cs = true)
    (h : LexesTo rest cs ws) : LexesTo rest (w.text.toList ++ cs) (w :: ws) := by
  have first := Lexeme.first?_of_spelled spelled apart colon
  have behind : (w.text.toList ++ cs).drop w.text.toList.length = cs := List.drop_left
  have lexes := LexesTo.word first (behind.symm ▸ h)
  rw [String.ofList_toList] at lexes
  exact lexes

/-- Words that are spelled like their kinds, the dashed ones before colons. -/
def WellSpelled : List Word → Prop
  | [] => True
  | w :: ws => w.Spelled ∧ (w.Dashed → ws.head?.map Word.kind = some .colon) ∧ WellSpelled ws

theorem WellSpelled.spelled {ws : List Word} (h : WellSpelled ws) : ∀ w ∈ ws, w.Spelled := by
  induction ws with
  | nil => exact fun _ h => nomatch h
  | cons w ws ih => exact List.forall_mem_cons.2 ⟨h.1, ih h.2.2⟩

theorem head_of_colonFollows {cs : List Char} {ws : List Word} (h : Lexes cs ws)
    (colon : Lexeme.colonFollows cs = true) : ws.head?.map Word.kind = some .colon := by
  have h : Lexes (Text.trimStart cs) ws := (lexesTo_trimStart_iff h.start).2 h
  unfold Lexeme.colonFollows at colon
  split at colon
  · cases colon
  · rename_i cs' other heq
    rw [heq] at h
    obtain ⟨rest, rfl, -⟩ := (lexes_word_iff (Lexeme.first?_colon other)).1 h
    rfl
  · cases colon

/-- **The words of a text are well spelled.** -/
theorem Lexes.wellSpelled {cs : List Char} {ws : List Word} (h : Lexes cs ws) : WellSpelled ws := by
  induction h with
  | here => trivial
  | skip first more ih => exact ih
  | @word cs text kind ws first more ih =>
    obtain ⟨spelled, colon⟩ := Lexeme.isWord_of_first? first
    refine ⟨?_, ?_, ih⟩
    · show Lexeme.Spelled kind (String.ofList text).toList
      rw [String.toList_ofList]
      exact spelled
    · intro dashed
      have dashed : Lexeme.Dashed (String.ofList text).toList := dashed
      rw [String.toList_ofList] at dashed
      exact head_of_colonFollows more (colon dashed)

end Typesheet
