import Mathlib
import Typesheet.Proofs.Lexical
import Typesheet.Proofs.Scanning

/-! How the tokens of a text lie in it.

Between two tokens there is a `Gap`: blanks, comments up to the end of their line, and
comments that are closed. Reading on from some offset, the text ahead is a gap, a token,
a gap, a token and so on, up to the closing token behind the last gap (`Token.Laid`), and
scanning a lexeme either widens the first gap or puts a token in front
(`Token.laid_of_scan`).

`Token.ofText_tiles`: the tokens of a text are pieces of it in order, each the bytes of
its span, and the bytes around them are gaps. Nothing of the text is lost, doubled or
misplaced. -/
namespace Typesheet

/-! ### What stands between tokens -/

/-- Blanks and comments, in front of a rest. -/
inductive Gap (rest : List Char) : List Char → Prop
  | nil : Gap rest []
  | blank {c : Char} {cs : List Char} (blank : Text.isBlank c = true) (more : Gap rest cs) :
      Gap rest (c :: cs)
  /-- A comment ends with its line, or with the text. -/
  | line {body cs : List Char} (inside : '\n' ∉ body)
      (ends : ∀ c, (cs ++ rest).head? = some c → c = '\n') (more : Gap rest cs) :
      Gap rest ('/' :: '/' :: body ++ cs)
  /-- A comment is closed by the first mark that can close it. -/
  | block {body cs : List Char} (unclosed : ¬['*', '/'] <:+: body ++ ['*']) (more : Gap rest cs) :
      Gap rest ('/' :: '*' :: body ++ ['*', '/'] ++ cs)

namespace Lexeme

/-- A closed comment ends where it first can. -/
theorem throughCommentEnd_eq {cs text : List Char} (h : throughCommentEnd cs = some text) :
    ∃ body, text = body ++ ['*', '/'] ∧ ¬['*', '/'] <:+: body ++ ['*'] := by
  induction cs using throughCommentEnd.induct generalizing text with
  | case1 => cases h
  | case2 cs =>
    cases h
    exact ⟨[], rfl, by decide⟩
  | case3 c cs other ih =>
    rw [throughCommentEnd] at h
    · obtain ⟨later, through, rfl⟩ := Option.map_eq_some_iff.1 h
      obtain ⟨body, rfl, unclosed⟩ := ih through
      refine ⟨c :: body, rfl, fun inside => ?_⟩
      obtain front | inside := List.infix_cons_iff.1 inside
      · -- The mark would have closed the comment here.
        obtain ⟨rest, rfl⟩ := throughCommentEnd_prefix through
        cases body with
        | nil => simp at front
        | cons d body =>
          obtain ⟨rfl, rfl⟩ : c = '*' ∧ d = '/' := by
            simpa [eq_comm] using front
          exact other _ rfl rfl
      · exact unclosed inside
    · exact other

/-- What makes no token is white space or a comment. -/
theorem separator_of_first? {cs text : List Char} (h : first? cs = some ⟨none, text⟩) :
    (∀ c ∈ text, Text.isBlank c = true) ∨
    (∃ body, text = '/' :: '/' :: body ∧ '\n' ∉ body ∧
      ∀ c, (cs.drop text.length).head? = some c → c = '\n') ∨
    (∃ body, text = '/' :: '*' :: body ++ ['*', '/'] ∧ ¬['*', '/'] <:+: body ++ ['*']) := by
  obtain ⟨pattern, hp, h⟩ := List.exists_of_findSome?_eq_some h
  simp only [patterns, List.mem_cons, List.not_mem_nil, or_false] at hp
  rcases hp with rfl | rfl | rfl | rfl | rfl | rfl | rfl | rfl | rfl
  · unfold blanks at h
    split at h <;> cases h
    exact .inl fun _ hc => List.mem_takeWhile_imp hc
  · unfold lineComment at h
    split at h <;> cases h
    rename_i cs
    refine .inr (.inl ⟨_, rfl, fun newline => ?_, fun c behind => ?_⟩)
    · exact absurd (List.mem_takeWhile_imp newline) (by decide)
    · have stop := List.head?_dropWhile_not (· != '\n') cs
      rw [List.length_cons, List.length_cons, List.drop_succ_cons, List.drop_succ_cons,
        drop_takeWhile] at behind
      rw [behind] at stop
      simpa using stop
  · unfold blockComment at h
    split at h
    · obtain ⟨through, found, heq⟩ := Option.map_eq_some_iff.1 h
      obtain ⟨body, rfl, unclosed⟩ := throughCommentEnd_eq found
      cases heq
      exact .inr (.inr ⟨body, rfl, unclosed⟩)
    · cases h
  · unfold hash at h
    split at h
    · split at h <;> cases h
    · cases h
  · unfold className at h
    split at h
    · split at h <;> cases h
    · cases h
  · unfold number at h
    split at h <;> cases h
  · unfold lowerName at h
    split at h
    · split at h <;> cases h
    · cases h
  · unfold capitalName at h
    split at h
    · split at h <;> cases h
    · cases h
  · unfold punctuation at h
    split at h <;> cases h

end Lexeme

namespace Gap
variable {rest gap : List Char}

theorem blanks {cs : List Char} (blank : ∀ c ∈ cs, Text.isBlank c = true) (h : Gap rest gap) :
    Gap rest (cs ++ gap) := by
  induction cs with
  | nil => exact h
  | cons c cs ih =>
    exact .blank (blank c List.mem_cons_self) (ih fun d hd => blank d (List.mem_cons_of_mem c hd))

/-- A lexeme that makes no token widens the gap behind it. -/
theorem skip {text : List Char} (h : Gap rest gap)
    (first : Lexeme.first? (text ++ (gap ++ rest)) = some ⟨none, text⟩) :
    Gap rest (text ++ gap) := by
  obtain blank | ⟨body, rfl, inside, ends⟩ | ⟨body, rfl, unclosed⟩ :=
    Lexeme.separator_of_first? first
  · exact h.blanks blank
  · rw [List.drop_left] at ends
    exact .line inside ends h
  · exact .block unclosed h

end Gap

/-! ### A text as gaps and tokens -/

namespace Token

/-- From an offset on, the text ahead consists of these tokens and of gaps. -/
inductive Laid (file : String) : Nat → List Char → List Token → Prop
  | closing {offset : Nat} {gap : List Char} (before : Gap [] gap) :
      Laid file offset gap [closing ⟨offset + Text.byteLength gap, file⟩]
  | token {offset start stop : Nat} {gap text rest : List Char} {kind : Kind}
      {tokens : List Token} (before : Gap (text ++ rest) gap)
      (starts : start = offset + Text.byteLength gap) (stops : stop = start + Text.byteLength text)
      (nonempty : text ≠ []) (word : kind ≠ .eof) (more : Laid file stop rest tokens) :
      Laid file offset (gap ++ (text ++ rest))
        (⟨kind, String.ofList text, ⟨⟨start, file⟩, ⟨stop, file⟩⟩⟩ :: tokens)

/-- A lexeme that makes no token goes to the gap behind it. -/
theorem Laid.skip {file : String} {offset : Nat} {text ahead : List Char} {tokens : List Token}
    (h : Laid file (offset + Text.byteLength text) ahead tokens)
    (first : Lexeme.first? (text ++ ahead) = some ⟨none, text⟩) :
    Laid file offset (text ++ ahead) tokens := by
  cases h with
  | closing before =>
    rw [Nat.add_assoc, ← Text.byteLength_append]
    exact .closing (before.skip (by rwa [List.append_nil]))
  | token before starts stops nonempty word more =>
    rw [← List.append_assoc]
    refine .token (before.skip first) ?_ stops nonempty word more
    rw [Text.byteLength_append, ← Nat.add_assoc]
    exact starts

/-- Scanning finds the tokens where they lie. -/
theorem laid_of_scan {r : Reader} {tokens : List Token} (h : scan r = .ok tokens) :
    Laid r.file r.offset r.ahead tokens := by
  induction r using scan.induct generalizing tokens with
  | case1 r hr =>
    rw [scan_nil hr] at h
    cases h
    rw [hr]
    exact .closing .nil
  | case2 r c cs hr hl =>
    rw [scan_none hr hl] at h
    cases h
  | case3 r c cs hr l hl _ ih =>
    rw [scan_some hl] at h
    cases hs : scan (r.past l.text) with
    | error e =>
      rw [hs] at h
      cases h
    | ok later =>
      rw [hs] at h
      cases h
      obtain ⟨kind, text⟩ := l
      obtain ⟨rest, ahead⟩ := Lexeme.text_prefix hl
      have past : (r.past text).ahead = rest := by
        show r.ahead.drop text.length = rest
        rw [← ahead, List.drop_left]
      have laid : Laid r.file (r.offset + Text.byteLength text) rest later := past ▸ ih hs
      rw [← ahead] at hl ⊢
      cases kind with
      | none => exact laid.skip hl
      | some kind =>
        show Laid r.file r.offset ([] ++ (text ++ rest)) _
        exact .token .nil rfl rfl (Lexeme.text_ne_nil hl)
          (Lexeme.isWord_of_first? hl).1.kind_ne_eof laid

end Token

/-! ### Bytes -/

namespace Text

/-- The bytes of a text from one offset up to another are this part of it, which takes up
whole characters. -/
structure Holds (text : String) (start stop : Nat) (part : String) : Prop where
  bytes : text.toByteArray.extract start stop = part.toByteArray
  start_valid : String.Pos.Raw.IsValid text ⟨start⟩
  stop_valid : String.Pos.Raw.IsValid text ⟨stop⟩

variable {text : String} {front part rest : List Char}

theorem isValid_of_append (h : text.toList = front ++ rest) :
    String.Pos.Raw.IsValid text ⟨byteLength front⟩ := by
  refine String.Pos.Raw.isValid_iff_exists_append.2 ⟨.ofList front, .ofList rest, ?_, ?_⟩
  · rw [← String.ofList_append, ← h, String.ofList_toList]
  · rw [String.rawEndPos, ← byteLength_toList, String.toList_ofList]

theorem holds_of_append (h : text.toList = front ++ (part ++ rest)) :
    Holds text (byteLength front) (byteLength front + byteLength part) (.ofList part) where
  bytes := by
    have behind : (text.toByteArray.extract (byteLength front + 0)
        (byteLength front + byteLength part)) =
        (part ++ rest).utf8Encode.extract 0 (byteLength part) := by
      rw [← String.utf8Encode_toList, h, List.utf8Encode_append,
        ByteArray.extract_append_size_add' (size_utf8Encode front).symm]
    rw [Nat.add_zero] at behind
    rw [behind, List.utf8Encode_append,
      ByteArray.extract_append_eq_left (size_utf8Encode part).symm, String.toByteArray_ofList]
  start_valid := isValid_of_append h
  stop_valid := by
    rw [← byteLength_append]
    rw [← List.append_assoc] at h
    exact isValid_of_append h

/-- The bytes of a text from one offset up to another are a gap. -/
def GapAt (text : String) (start stop : Nat) : Prop :=
  ∃ gap rest, Gap rest gap ∧ Holds text start stop (.ofList gap) ∧
    Holds text stop text.utf8ByteSize (.ofList rest)

theorem gapAt_of_append (h : text.toList = front ++ (part ++ rest)) (gap : Gap rest part) :
    GapAt text (byteLength front) (byteLength front + byteLength part) := by
  refine ⟨part, rest, gap, holds_of_append h, ?_⟩
  have last : text.toList = (front ++ part) ++ (rest ++ []) := by
    rw [h, List.append_nil, List.append_assoc]
  have size : text.utf8ByteSize = byteLength (front ++ part) + byteLength rest := by
    rw [← byteLength_toList, h]
    simp only [byteLength_append, Nat.add_assoc]
  rw [size, ← byteLength_append]
  exact holds_of_append last

end Text

/-! ### Main result -/

namespace Token

/-- The stretches in front of tokens, from an offset on. -/
def between (offset : Nat) : List Token → List (Nat × Nat)
  | [] => []
  | t :: ts => (offset, t.span.start.offset) :: between t.span.stop.offset ts

/-- From an offset on, a text is tiled by tokens and the gaps around them. -/
structure Tiles (text file : String) (offset : Nat) (front : List Token) : Prop where
  /-- Each token is the bytes of its span, and there are some. -/
  word : ∀ t ∈ front, t.kind ≠ .eof ∧ t.value ≠ "" ∧
    t.span.start.offset < t.span.stop.offset ∧
    Text.Holds text t.span.start.offset t.span.stop.offset t.value
  named : ∀ t ∈ front, t.span.start.file = file ∧ t.span.stop.file = file
  behind : ∀ t ∈ front, offset ≤ t.span.start.offset
  ordered : front.Pairwise fun s t => s.span.stop.offset ≤ t.span.start.offset
  gaps : ∀ stretch ∈ between offset (front ++ [closing ⟨text.utf8ByteSize, file⟩]),
    Text.GapAt text stretch.1 stretch.2

section
variable {text file : String} {offset : Nat}

/-- A token behind a gap, in front of the others. -/
theorem Tiles.cons {t : Token} {front : List Token} (word : t.kind ≠ .eof ∧ t.value ≠ "")
    (named : t.span.start.file = file ∧ t.span.stop.file = file)
    (before : Text.GapAt text offset t.span.start.offset)
    (holds : Text.Holds text t.span.start.offset t.span.stop.offset t.value)
    (starts : offset ≤ t.span.start.offset) (stops : t.span.start.offset < t.span.stop.offset)
    (h : Tiles text file t.span.stop.offset front) : Tiles text file offset (t :: front) where
  word := by
    rintro s (_ | ⟨_, hs⟩)
    · exact ⟨word.1, word.2, stops, holds⟩
    · exact h.word s hs
  named := by
    rintro s (_ | ⟨_, hs⟩)
    · exact named
    · exact h.named s hs
  behind := by
    rintro s (_ | ⟨_, hs⟩)
    · exact starts
    · exact starts.trans (stops.le.trans (h.behind s hs))
  ordered := .cons h.behind h.ordered
  gaps := by
    rintro stretch (_ | ⟨_, hs⟩)
    · exact before
    · exact h.gaps stretch hs

theorem Laid.tiles {ahead : List Char} {tokens : List Token} (h : Laid file offset ahead tokens)
    {read : List Char} (ht : text.toList = read ++ ahead) (ho : offset = Text.byteLength read) :
    ∃ front, tokens = front ++ [Token.closing ⟨text.utf8ByteSize, file⟩] ∧
      Tiles text file offset front := by
  induction h generalizing read with
  | @closing offset gap before =>
    subst ho
    have size : text.utf8ByteSize = Text.byteLength read + Text.byteLength gap := by
      rw [← Text.byteLength_toList, ht, Text.byteLength_append]
    have whole : text.toList = read ++ (gap ++ []) := by rw [ht, List.append_nil]
    have last := Text.gapAt_of_append whole before
    rw [← size] at last ⊢
    refine ⟨[], rfl, nofun, nofun, nofun, .nil, fun stretch hs => ?_⟩
    cases List.mem_singleton.1 hs
    exact last
  | @token offset start stop gap word rest kind tokens before starts stops nonempty hk more ih =>
    have start_eq : start = Text.byteLength (read ++ gap) := by
      rw [starts, ho, Text.byteLength_append]
    have stop_eq : stop = Text.byteLength (read ++ gap ++ word) := by
      rw [stops, start_eq, Text.byteLength_append _ word]
    have inner : text.toList = (read ++ gap) ++ (word ++ rest) := by
      rw [ht, List.append_assoc]
    have later : text.toList = (read ++ gap ++ word) ++ rest := by
      rw [inner, List.append_assoc (read ++ gap)]
    obtain ⟨front, rfl, tiles⟩ := ih later stop_eq
    have here := Text.gapAt_of_append ht before
    have holds := Text.holds_of_append inner
    rw [← ho, ← starts] at here
    rw [← start_eq, ← stops] at holds
    refine ⟨_ :: front, rfl, .cons ⟨hk, ?_⟩ ⟨rfl, rfl⟩ here holds ?_ ?_ tiles⟩
    · exact fun empty => nonempty (String.ofList_eq_empty_iff.1 empty)
    · exact starts ▸ Nat.le_add_right ..
    · exact stops ▸ Nat.lt_add_of_pos_right (Text.byteLength_pos nonempty)

end

/-- The tokens of a text are pieces of it in order, with nothing but blanks and comments
around them, and behind them the closing token stands at its end. -/
theorem ofText_tiles {text : String} {name : Option String} {tokens : List Token}
    (h : ofText text name = .ok tokens) :
    ∃ front, tokens = front ++ [closing ⟨text.utf8ByteSize, name.getD Reader.unnamed⟩] ∧
      Tiles text (name.getD Reader.unnamed) 0 front :=
  (laid_of_scan h).tiles (show text.toList = [] ++ text.toList from rfl) rfl

/-- A declaration between comments of both kinds, the first in letters of two bytes. -/
def commentedText : String := "/* \u00e9\u00e9 */Width\u00a0:= 2px; // two"

def commentedWords : List Token :=
  [⟨.identifier, "Width", ⟨⟨10, "sheet"⟩, ⟨15, "sheet"⟩⟩⟩,
    ⟨.assignment, ":=", ⟨⟨17, "sheet"⟩, ⟨19, "sheet"⟩⟩⟩,
    ⟨.pixel, "2px", ⟨⟨20, "sheet"⟩, ⟨23, "sheet"⟩⟩⟩,
    ⟨.semicolon, ";", ⟨⟨23, "sheet"⟩, ⟨24, "sheet"⟩⟩⟩]

/-- The words are told by bytes, not by letters. -/
theorem ofText_tiles_commented :
    ofText commentedText (some "sheet") = .ok (commentedWords ++ [closing ⟨31, "sheet"⟩]) ∧
    Tiles commentedText "sheet" 0 commentedWords := by
  have read : ofText commentedText (some "sheet") =
      .ok (commentedWords ++ [closing ⟨31, "sheet"⟩]) := by cbv
  obtain ⟨front, split, tiles⟩ := ofText_tiles read
  obtain rfl := (List.append_inj' split rfl).1
  exact ⟨read, tiles⟩

end Token
end Typesheet
