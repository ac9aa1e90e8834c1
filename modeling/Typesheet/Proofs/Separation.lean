import Typesheet.Proofs.Continuation

/-! What separates words.

A separator behind a word of a text, white space or a closed comment, is not noticed by the
words around it, but for one case: a capital name with dashes looks for its colon past white
space and not past a comment. `Token.words_insert_iff` gives that exact condition.

Where words stand apart anyway, one space between each two is enough: joined by spaces, the
words of a text are found again (`Token.ofText_spaced`). -/
namespace Typesheet

/-- A block comment, closed by the first mark that can close it. -/
inductive ClosedComment : List Char → Prop
  | mk {body : List Char} (unclosed : ¬['*', '/'] <:+: body ++ ['*']) :
      ClosedComment ('/' :: '*' :: body ++ ['*', '/'])

/-- A character of white space, or a closed comment. -/
inductive Separator : List Char → Prop
  | blank {c : Char} (blank : Text.isBlank c = true) : Separator [c]
  | comment {text : List Char} (closed : ClosedComment text) : Separator text

namespace Separator
variable {part rest : List Char}

theorem lexes {ws : List Word} (h : Separator part) (behind : Lexes rest ws) :
    Lexes (part ++ rest) ws := by
  cases h with
  | blank blank => exact behind.blank blank
  | comment closed =>
    obtain ⟨unclosed⟩ := closed
    refine .skip (Lexeme.first?_closed unclosed) ?_
    rwa [List.drop_left]

/-- No word runs into a separator. -/
theorem apart (h : Separator part) : Lexeme.Apart (part ++ rest) := by
  cases h with
  | @blank c blank =>
    refine Lexeme.apart_cons ⟨?_, ?_, ?_⟩
    · rw [Bool.eq_false_iff]
      intro name
      cases (Lexeme.isBlank_of_isNameChar name).symm.trans blank
    · rintro rfl
      cases blank
    · rintro rfl
      cases blank
  | comment closed =>
    obtain ⟨unclosed⟩ := closed
    exact Lexeme.apart_cons (by decide)

/-- A colon is found behind white space only. -/
theorem colonFollows_iff (h : Separator part) : Lexeme.colonFollows (part ++ rest) = true ↔
    ¬ClosedComment part ∧ Lexeme.colonFollows rest = true := by
  cases h with
  | @blank c blank =>
    have comment : ¬ClosedComment [c] := nofun
    rw [Lexeme.colonFollows_blanks (List.forall_mem_singleton.2 blank), and_iff_right comment]
  | comment closed =>
    refine iff_of_false ?_ fun kept => kept.1 closed
    obtain ⟨unclosed⟩ := closed
    exact Bool.false_ne_true

end Separator

namespace Lexeme
variable {kind : Kind} {text part rest other : List Char}

/-- Behind a word the same is in front of a separator and the text behind it as is in front of
that text alone. -/
theorem interchangeable_separator {last : Char} (h : Separator part)
    (first : first? (text ++ rest) = some ⟨some kind, text⟩) (ends : text.getLast? = some last) :
    Interchangeable last rest (part ++ rest) where
  apart := h.apart
  mark := by
    rintro rfl
    exact head_of_word first ends
  colon := fun follows => (h.colonFollows_iff.1 follows).2
  blank := fun blank => by
    have word := (isWord_of_first? first).1.isBlank last (List.mem_of_getLast? ends)
    cases word.symm.trans blank

/-- A name that kept its dashes is cut at the first of them where no colon follows. -/
theorem first?_of_dashed (h : first? (text ++ rest) = some ⟨some kind, text⟩) (dashed : Dashed text)
    (apart : Apart other) (none : colonFollows other = false) :
    ∃ kind' name, first? (text ++ other) = some ⟨some kind', name⟩ ∧ name ≠ text := by
  obtain ⟨c, name, rfl, start, dash⟩ := dashed
  have chars : ∀ d ∈ name, isNameChar d = true := by
    rw [List.cons_append, first?_of_isCapitalStart start] at h
    simp only [capitalName, if_pos start, Option.some.injEq, mk.injEq, List.cons.injEq] at h
    intro d hd
    rw [← h.2.2] at hd
    split at hd
    · exact List.mem_takeWhile_imp hd
    · exact List.mem_takeWhile_imp (List.takeWhile_subset _ hd)
  have tail := takeWhile_of_apart chars (fun _ h => h) apart
  refine ⟨wordKind (c :: name.takeWhile (· != '-')), c :: name.takeWhile (· != '-'), ?_, ?_⟩
  · rw [List.cons_append, first?_of_isCapitalStart start]
    simp only [capitalName, if_pos start, tail, List.drop_left, none, Bool.false_eq_true, if_false]
  · rw [ne_eq, List.cons.injEq, List.takeWhile_eq_self_iff]
    exact fun whole => absurd (whole.2 '-' dash) (by decide)

end Lexeme

/-- What is read up to a word is read up to it whatever follows the word, if that is not
noticed. -/
theorem LexesTo.exchange {front word rest other : List Char} {ws : List Word} {last : Char}
    (h : LexesTo (word ++ rest) (front ++ (word ++ rest)) ws) (ends : word.getLast? = some last)
    (same : Lexeme.Interchangeable last rest other) :
    LexesTo (word ++ other) (front ++ (word ++ other)) ws := by
  have nonempty : word ≠ [] := by
    rintro rfl
    cases ends
  refine LexesTo.front_induction
    (motive := fun front ws => LexesTo (word ++ other) (front ++ (word ++ other)) ws) ?_ ?_ h
  · refine .here ?_
    rw [List.head?_append_of_ne_nil _ nonempty, ← List.head?_append_of_ne_nil word nonempty]
    exact h.start
  · -- Each lexeme in front ends before the word does, so inside the text up to its end.
    intro l back ws first _ ih
    rw [← List.append_assoc] at first
    have inside : l.text.length < (l.text ++ back ++ word).length := by
      rw [List.length_append, List.length_append]
      have := List.length_pos_iff.2 nonempty
      omega
    have ends : (l.text ++ back ++ word).getLast? = some last := by
      rwa [List.getLast?_append_of_ne_nil _ nonempty]
    have found := Lexeme.first?_inside first inside ends same
    rw [List.append_assoc] at found
    refine .lexeme found ?_
    rwa [List.append_assoc, List.drop_left]

/-! ### A token in its text -/

/-- The word of the token that closes a text. -/
def Word.closing : Word := ⟨.eof, "EOF"⟩

namespace Token

/-- A token of the text ahead stands in it between `front` and `rest`, and is one of its words
between those that are read up to it and those behind it. -/
structure Stands (ahead : List Char) (words : List Word) (t : Token) (front rest : List Char) :
    Prop where
  split : ahead = front ++ (t.value.toList ++ rest)
  first : Lexeme.first? (t.value.toList ++ rest) = some ⟨some t.kind, t.value.toList⟩
  around : ∃ before behind, words = before ++ t.word :: behind ∧
    LexesTo (t.value.toList ++ rest) ahead before ∧ Lexes rest behind

/-- A word at the beginning of a text is that of a token there. -/
theorem stands_of_first {ahead : List Char} {ws : List Word} {kind : Kind} {text : List Char}
    (first : Lexeme.first? ahead = some ⟨some kind, text⟩)
    (lexes : Lexes (ahead.drop text.length) ws) (span : Span) :
    Stands ahead (⟨kind, String.ofList text⟩ :: ws) ⟨kind, String.ofList text, span⟩ []
      (ahead.drop text.length) := by
  obtain ⟨rest, rfl⟩ := Lexeme.text_prefix first
  rw [List.drop_left] at lexes ⊢
  refine ⟨?_, ?_, [], ws, rfl, ?_, lexes⟩
  · rw [String.toList_ofList, List.nil_append]
  · rwa [String.toList_ofList]
  · rw [String.toList_ofList]
    refine .here fun c hc => ?_
    rw [List.head?_append_of_ne_nil _ (Lexeme.text_ne_nil first)] at hc
    exact (Lexeme.isWord_of_first? first).1.isBlank c (List.mem_of_head? hc)

/-- A token behind the first lexeme stands behind it in the whole text as well. -/
theorem Stands.behind {ahead front rest : List Char} {words : List Word} {t : Token} {l : Lexeme}
    (first : Lexeme.first? ahead = some l) (h : Stands (ahead.drop l.text.length) words t front rest) :
    Stands ahead (l.words ++ words) t (l.text ++ front) rest where
  split := by
    obtain ⟨behind, rfl⟩ := Lexeme.text_prefix first
    have split := h.split
    rw [List.drop_left] at split
    rw [split, List.append_assoc]
  first := h.first
  around := by
    obtain ⟨before, behind, words, read, lexes⟩ := h.around
    exact ⟨l.words ++ before, behind, by rw [words, List.append_assoc], .lexeme first read, lexes⟩

section
variable {t : Token} {tokens : List Token} {r : Reader}

theorem map_word_afterLexeme (r : Reader) (l : Lexeme) (tokens : List Token) :
    (afterLexeme r l tokens).map word = l.words ++ tokens.map word := by
  obtain ⟨_ | kind, text⟩ := l <;> rfl

/-- The tokens of a text but the closing one stand in it, each up to the end of its span. -/
theorem stands_of_scan (h : scan r = .ok tokens) (ht : t ∈ tokens) (word : t.kind ≠ .eof) :
    ∃ words front rest, tokens.map Token.word = words ++ [.closing] ∧
      Stands r.ahead words t front rest ∧
      t.span.stop.offset = r.offset + Text.byteLength (front ++ t.value.toList) := by
  induction r using scan.induct generalizing tokens with
  | case1 r hr =>
    rw [scan_nil hr] at h
    cases h
    obtain rfl := List.mem_singleton.1 ht
    exact absurd rfl word
  | case2 r c cs hr hl =>
    rw [scan_none hr hl] at h
    cases h
  | case3 r c cs hr l hl _ ih =>
    rw [scan_some hl] at h
    cases hs : scan (r.past l.text) with
    | error e =>
      rw [hs] at h
      cases h
    | ok later =>
      rw [hs] at h
      cases h
      rw [map_word_afterLexeme]
      -- The lexeme makes the token only if that is none of the later ones.
      by_cases here : t ∈ later
      · obtain ⟨words, front, rest, all, stands, place⟩ := ih hs here
        have place : t.span.stop.offset =
            r.offset + Text.byteLength l.text + Text.byteLength (front ++ t.value.toList) := place
        refine ⟨l.words ++ words, l.text ++ front, rest, ?_, stands.behind hl, ?_⟩
        · rw [all, List.append_assoc]
        · rw [place, Nat.add_assoc, ← Text.byteLength_append, List.append_assoc]
      · obtain ⟨kind, text⟩ := l
        cases kind with
        | none => exact absurd ht here
        | some kind =>
          obtain rfl | ht := List.mem_cons.1 ht
          · obtain ⟨front, place, rfl, lexes⟩ := lexes_of_scan hs
            refine ⟨_, [], _, ?_, stands_of_first hl lexes _, ?_⟩
            · rw [List.map_append]
              rfl
            · rw [List.nil_append, String.toList_ofList]
              rfl
          · exact absurd ht here

/-- Behind a separator the words stay, unless a name with dashes has lost its colon. -/
theorem Stands.lexes_iff {ahead front rest part : List Char} {words : List Word}
    (h : Stands ahead words t front rest) (sep : Separator part) :
    Lexes (front ++ (t.value.toList ++ (part ++ rest))) words ↔
      ¬(ClosedComment part ∧ t.word.Dashed) := by
  obtain ⟨rfl, first, before, behind, rfl, read, lexes⟩ := h
  obtain ⟨spelled, colon⟩ := Lexeme.isWord_of_first? first
  rw [List.drop_left] at colon
  have ends := List.getLast?_eq_some_getLast (Lexeme.text_ne_nil first)
  have same := Lexeme.interchangeable_separator sep first ends
  rw [(read.exchange ends same).lexes_iff]
  constructor
  · rintro ⟨others, all, lexes⟩ ⟨comment, dashed⟩
    obtain rfl := List.append_cancel_left all
    have none : Lexeme.colonFollows (part ++ rest) = false := by
      rw [Bool.eq_false_iff]
      exact fun follows => (sep.colonFollows_iff.1 follows).1 comment
    obtain ⟨kind, name, cut, other⟩ := Lexeme.first?_of_dashed first dashed sep.apart none
    obtain ⟨more, whole, -⟩ := (lexes_word_iff cut).1 lexes
    obtain ⟨whole, -⟩ := List.cons.inj whole
    have same : t.value = String.ofList name := congrArg Word.text whole
    rw [same, String.toList_ofList] at other
    exact other rfl
  · intro kept
    refine ⟨t.word :: behind, rfl, ?_⟩
    refine LexesTo.cons (w := t.word) spelled sep.apart (fun dashed => ?_) (sep.lexes lexes)
    exact sep.colonFollows_iff.2 ⟨fun comment => kept ⟨comment, dashed⟩, colon dashed⟩

end

variable {t : Token} {tokens : List Token} {text : String} {name : Option String}

/-- Which words the tokens of a text are, the closing one aside. -/
theorem ofText_words_iff {ws : List Word} :
    (∃ tokens, ofText text name = .ok tokens ∧ tokens.map word = ws ++ [.closing]) ↔
      Lexes text.toList ws := by
  constructor
  · rintro ⟨tokens, h, words⟩
    obtain ⟨front, place, rfl, lexes⟩ := lexes_of_scan h
    rw [List.map_append] at words
    rwa [(List.append_inj' words rfl).1] at lexes
  · intro lexes
    obtain ⟨front, place, h, words⟩ := scan_of_lexes lexes (.ofText text name) rfl
    refine ⟨_, h, ?_⟩
    rw [List.map_append, words]
    rfl

/-- **A separator behind a token changes no token**, except for a comment behind a name that
has kept its dashes. -/
theorem words_insert_iff (h : ofText text name = .ok tokens) (ht : t ∈ tokens)
    (word : t.kind ≠ .eof) :
    ∃ front rest, text = front ++ rest ∧ front.utf8ByteSize = t.span.stop.offset ∧
      ∀ part : String, Separator part.toList →
        ((∃ others, ofText (front ++ part ++ rest) name = .ok others ∧
            others.map Token.word = tokens.map Token.word) ↔
          ¬(ClosedComment part.toList ∧ t.word.Dashed)) := by
  obtain ⟨words, front, rest, all, stands, place⟩ := stands_of_scan h ht word
  refine ⟨.ofList (front ++ t.value.toList), .ofList rest, ?_, ?_, fun part sep => ?_⟩
  · rw [← String.ofList_append, List.append_assoc, ← stands.split]
    exact String.ofList_toList.symm
  · rw [place, ← Text.byteLength_toList, String.toList_ofList]
    exact (Nat.zero_add _).symm
  · rw [all, ofText_words_iff, ← stands.lexes_iff sep]
    simp only [String.toList_append, String.toList_ofList, List.append_assoc]

/-- The name of a property, as a token of `namedText`. -/
def nameToken : Token := ⟨.identifier, "BACKGROUND-COLOR", ⟨⟨4, "sheet"⟩, ⟨20, "sheet"⟩⟩⟩

def namedText : String := "p \x7b BACKGROUND-COLOR: #102030; \x7d"

def namedTokens : List Token :=
  [⟨.identifier, "p", ⟨⟨0, "sheet"⟩, ⟨1, "sheet"⟩⟩⟩,
    ⟨.openCurly, "\x7b", ⟨⟨2, "sheet"⟩, ⟨3, "sheet"⟩⟩⟩, nameToken,
    ⟨.colon, ":", ⟨⟨20, "sheet"⟩, ⟨21, "sheet"⟩⟩⟩,
    ⟨.color, "#102030", ⟨⟨22, "sheet"⟩, ⟨29, "sheet"⟩⟩⟩,
    ⟨.semicolon, ";", ⟨⟨29, "sheet"⟩, ⟨30, "sheet"⟩⟩⟩,
    ⟨.closeCurly, "\x7d", ⟨⟨31, "sheet"⟩, ⟨32, "sheet"⟩⟩⟩, closing ⟨32, "sheet"⟩]

theorem ofText_namedText : ofText namedText (some "sheet") = .ok namedTokens := by cbv

/-- Behind the name of a property everything but a comment can be inserted. -/
theorem words_insert_iff_named :
    nameToken ∈ namedTokens ∧ nameToken.kind ≠ .eof ∧ nameToken.word.Dashed ∧
    ∃ front rest, namedText = front ++ rest ∧ front.utf8ByteSize = 20 ∧
      ∀ part : String, Separator part.toList →
        ((∃ others, ofText (front ++ part ++ rest) (some "sheet") = .ok others ∧
            others.map Token.word = namedTokens.map Token.word) ↔
          ¬(ClosedComment part.toList ∧ nameToken.word.Dashed)) := by
  have member : nameToken ∈ namedTokens := by decide
  have dashed : nameToken.word.Dashed := ⟨'B', "ACKGROUND-COLOR".toList, rfl, by decide, by decide⟩
  exact ⟨member, by decide, dashed, words_insert_iff ofText_namedText member (by decide)⟩

/-- The words of `namedText` with a comment behind the name. -/
def cutWords : List Word :=
  [⟨.identifier, "p"⟩, ⟨.openCurly, "\x7b"⟩, ⟨.identifier, "BACKGROUND"⟩, ⟨.dash, "-"⟩,
    ⟨.identifier, "COLOR"⟩, ⟨.colon, ":"⟩, ⟨.color, "#102030"⟩, ⟨.semicolon, ";"⟩,
    ⟨.closeCurly, "\x7d"⟩, .closing]

/-- A comment there makes three tokens of one. -/
theorem words_insert_comment :
    ofText ("p \x7b BACKGROUND-COLOR" ++ ": #102030; \x7d") (some "sheet") = .ok namedTokens ∧
    nameToken ∈ namedTokens ∧ ("p \x7b BACKGROUND-COLOR").utf8ByteSize = nameToken.span.stop.offset ∧
    ClosedComment "/**/".toList ∧
    (ofText ("p \x7b BACKGROUND-COLOR" ++ "/**/" ++ ": #102030; \x7d") (some "sheet")).map
        (·.map word) = .ok cutWords ∧
    cutWords ≠ namedTokens.map word := by
  have unclosed : ¬['*', '/'] <:+: [] ++ ['*'] := by decide
  exact ⟨by cbv, by decide, by decide, .mk unclosed, by cbv, by decide⟩

/-! ### Words apart -/

end Token

/-- The words with a space between each two. -/
def spaced (ws : List Word) : String := " ".intercalate (ws.map Word.text)

section
variable {w v : Word} {ws : List Word}

theorem toList_spaced_singleton : (spaced [w]).toList = w.text.toList := by
  simp [spaced]

theorem toList_spaced_cons_cons :
    (spaced (w :: v :: ws)).toList = w.text.toList ++ ' ' :: (spaced (v :: ws)).toList := by
  simp [spaced]

theorem colonFollows_spaced (h : w.Spelled) (colon : w.kind = .colon) :
    Lexeme.colonFollows (spaced (w :: ws)).toList = true := by
  have mark : (w.kind, w.text.toList) ∈ Lexeme.marks :=
    Lexeme.mark_of_spelled h (by rw [colon]; decide)
  have text : ∀ m ∈ Lexeme.marks, m.1 = .colon → m.2 = [':'] := by decide
  have text : w.text.toList = [':'] := text _ mark colon
  cases ws with
  | nil =>
    rw [toList_spaced_singleton, text]
    rfl
  | cons v ws =>
    rw [toList_spaced_cons_cons, text]
    rfl

/-- Well spelled words that stand apart are found. -/
theorem lexes_spaced (h : WellSpelled ws) : Lexes (spaced ws).toList ws := by
  induction ws with
  | nil => exact .nil
  | cons w ws ih =>
    obtain ⟨spelled, colon, later⟩ := h
    cases ws with
    | nil =>
      rw [toList_spaced_singleton, ← List.append_nil w.text.toList]
      exact .cons spelled nofun (fun dashed => nomatch colon dashed) Lexes.nil
    | cons v ws =>
      rw [toList_spaced_cons_cons]
      refine .cons spelled Lexeme.apart_space (fun dashed => ?_) ((ih later).blank rfl)
      have next : v.kind = .colon := Option.some.inj (colon dashed)
      rw [← List.singleton_append, Lexeme.colonFollows_blanks (List.forall_mem_singleton.2 rfl)]
      exact colonFollows_spaced later.1 next

end

/-- **The words of a text, joined by single spaces, are found again.** -/
theorem Token.ofText_spaced {text : String} {name : Option String} {tokens : List Token}
    (h : ofText text name = .ok tokens) (other : Option String) :
    ∃ others, ofText (" ".intercalate ((tokens.filter (·.kind ≠ .eof)).map Token.value)) other =
        .ok others ∧ others.map word = tokens.map word := by
  obtain ⟨front, place, rfl, lexes⟩ := lexes_of_scan h
  have spelled := lexes.wellSpelled.spelled
  have words : ∀ t ∈ front, t.kind ≠ .eof := fun t ht =>
    (spelled t.word (List.mem_map_of_mem ht)).kind_ne_eof
  have kept : (front ++ [closing place]).filter (·.kind ≠ .eof) = front := by
    rw [List.filter_append, List.filter_eq_self.2 (by simpa using words)]
    exact List.append_nil front
  have joined : " ".intercalate (front.map Token.value) = spaced (front.map word) := by
    rw [spaced, List.map_map]
    rfl
  rw [kept, joined, List.map_append]
  exact ofText_words_iff.2 (lexes_spaced lexes.wellSpelled)

/-- A declaration without spaces. -/
def denseText : String := "BORDER-WIDTH:Gap-2px"

def denseTokens : List Token :=
  [⟨.identifier, "BORDER-WIDTH", ⟨⟨0, "sheet"⟩, ⟨12, "sheet"⟩⟩⟩,
    ⟨.colon, ":", ⟨⟨12, "sheet"⟩, ⟨13, "sheet"⟩⟩⟩,
    ⟨.identifier, "Gap", ⟨⟨13, "sheet"⟩, ⟨16, "sheet"⟩⟩⟩,
    ⟨.dash, "-", ⟨⟨16, "sheet"⟩, ⟨17, "sheet"⟩⟩⟩,
    ⟨.pixel, "2px", ⟨⟨17, "sheet"⟩, ⟨20, "sheet"⟩⟩⟩, .closing ⟨20, "sheet"⟩]

/-- With spaces, the name has its dash still and the difference is one. -/
theorem Token.ofText_spaced_dense :
    ofText denseText (some "sheet") = .ok denseTokens ∧
    ∃ others, ofText "BORDER-WIDTH : Gap - 2px" none = .ok others ∧
      others.map word = denseTokens.map word := by
  have scanned : ofText denseText (some "sheet") = .ok denseTokens := by cbv
  have joined : " ".intercalate ((denseTokens.filter (·.kind ≠ .eof)).map Token.value) =
      "BORDER-WIDTH : Gap - 2px" := by decide
  exact ⟨scanned, joined ▸ ofText_spaced scanned none⟩

end Typesheet
