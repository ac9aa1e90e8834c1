import Typesheet.Proofs.Bare
import Typesheet.Proofs.Readback

/-! Reading what was printed.

CSS is a stylesheet too, and a flat one is read back from its CSS, but for numbers and
places (`Sheet.ofText_css`). What keeps the words of CSS apart does so for all names that a
stylesheet can spell. The exception are negative numbers, which expressions can come to
while no stylesheet can spell them: reading stops at the sign of the first. -/
namespace Typesheet

/-! ### Where a word stands -/

/-- A word behind a part of a text stands where that part ends. -/
theorem Sheet.ofText_placed {text : String} {front rest lexeme : List Char} {kind : Kind}
    {ws vs : List Word} (split : text.toList = front ++ rest)
    (before : LexesTo rest (front ++ rest) ws)
    (first : Lexeme.first? rest = some ⟨some kind, lexeme⟩) (behind : Lexes rest vs)
    (file : String) : ∃ c : Cursor, c.words = ws ++ vs ∧
      (∀ e d, Parse.sheet .standard c = .error e d → ofText text file = .error e) ∧
      ∀ d : Cursor, d.ahead <:+ c.ahead → d.words = vs →
        d.position = ⟨Text.byteLength front, file⟩ := by
  obtain ⟨vs, rfl, further⟩ := (lexes_word_iff first).1 behind
  obtain ⟨tokens, offset, rfl, place, scanned⟩ :=
    Token.scan_of_lexesTo before (.ofText text (some file)) split
  have ends : offset = Text.byteLength front := by
    have place : offset + Text.byteLength rest = 0 + Text.byteLength (front ++ rest) := place
    rw [Text.byteLength_append] at place
    omega
  subst ends
  obtain ⟨t, more, closing, later, word, rfl, start⟩ :=
    Token.scan_of_first (r := ⟨file, Text.byteLength front, rest⟩) first further
  have whole : Token.ofText text (some file) = .ok (tokens ++ t :: more ++ [.closing closing]) := by
    show Token.scan _ = _
    rw [scanned, show (Reader.ofText text (some file)).file = file from rfl, later,
      List.append_assoc]
    rfl
  refine ⟨⟨file, .startOf file, tokens ++ t :: more, .closing closing, rfl, 1⟩, ?_, ?_, ?_⟩
  · show (tokens ++ t :: more).map Token.word = _
    rw [List.map_append, List.map_cons, word]
  · intro e d h
    rw [ofText_of_scan whole, h]
  · intro d suffix words
    -- What has as many words at the end of the tokens is the same.
    have length : d.ahead.length = (t :: more).length := by
      have words := congrArg List.length words
      rw [Cursor.words, List.length_map] at words
      rw [words, List.length_cons, List.length_cons, List.length_map]
    have ahead : d.ahead = t :: more :=
      (List.suffix_of_suffix_length_le suffix (List.suffix_append tokens _) length.le).eq_of_length
        length
    rw [Cursor.position, Cursor.current, ahead]
    exact start

/-! ### Negative numbers -/

/-- Where the first negative number of stanzas is: its setting `e` is in the stanza `s`
behind the settings `before`, and the stanza behind the stanzas `above`. -/
structure FirstNegative (stanzas above : List Stanza) (s : Stanza) (before : List Setting)
    (e : Setting) : Prop where
  stanza : ∃ below, stanzas = above ++ s :: below
  setting : ∃ behind, s.settings = before ++ e :: behind
  negative : e.value.isNegative = true
  signsAbove : ∀ t ∈ above, ∀ d ∈ t.settings, d.value.isNegative = false
  signsBefore : ∀ d ∈ before, d.value.isNegative = false

/-- The first of those that a list has. -/
theorem exists_first {α : Type} {p : α → Bool} {as : List α} (h : ∃ a ∈ as, p a = true) :
    ∃ front a, (∃ back, as = front ++ a :: back) ∧ p a = true ∧ ∀ b ∈ front, p b = false := by
  cases hf : as.find? p with
  | none =>
    obtain ⟨a, ha, hp⟩ := h
    exact absurd hp (List.find?_eq_none.1 hf a ha)
  | some a =>
    obtain ⟨hp, front, back, rfl, others⟩ := List.find?_eq_some_iff_append.1 hf
    exact ⟨front, a, ⟨back, rfl⟩, hp, fun b hb => by simpa using others b hb⟩

theorem exists_firstNegative {stanzas : List Stanza}
    (h : ∃ s ∈ stanzas, ∃ e ∈ s.settings, e.value.isNegative = true) :
    ∃ above s before e, FirstNegative stanzas above s before e := by
  have some : ∃ s ∈ stanzas, s.settings.any (·.value.isNegative) = true := by
    obtain ⟨s, hs, e, he, sign⟩ := h
    exact ⟨s, hs, List.any_eq_true.2 ⟨e, he, sign⟩⟩
  obtain ⟨above, s, stanza, hs, others⟩ := exists_first some
  obtain ⟨before, e, setting, negative, signsBefore⟩ := exists_first (List.any_eq_true.1 hs)
  refine ⟨above, s, before, e, stanza, setting, negative, fun t ht d hd => ?_, signsBefore⟩
  rw [Bool.eq_false_iff]
  exact List.any_eq_false.1 (others t ht) d hd

theorem Literal.text_of_negative {v : Literal} (h : v.isNegative = true) :
    v.text.toList = '-' :: v.text.toList.drop 1 := by
  cases v with
  | color text => cases h
  | bool b => cases h
  | number d a =>
    have negative : a.toInt < 0 := of_decide_eq_true h
    rw [text_number, Amount.text, if_pos negative]
    rfl

/-! ### CSS of stanzas as a stylesheet -/

/-- The CSS in front of the value of a setting. -/
def cssBefore (above : List Stanza) (s : Stanza) (before : List Setting) (e : Setting) : String :=
  String.join (above.map Stanza.css) ++ s.opening ++ String.join (before.map Setting.css) ++
    e.opening

/-- The CSS behind the value of a setting. -/
def cssBehind (behind : List Setting) (below : List Stanza) : String :=
  ";\n" ++ String.join (behind.map Setting.css) ++ "\x7d\n\n" ++ String.join (below.map Stanza.css)

theorem css_split {s : Stanza} {before behind : List Setting} {e : Setting}
    (h : s.settings = before ++ e :: behind) (above below : List Stanza) :
    String.join ((above ++ s :: below).map Stanza.css) =
      cssBefore above s before e ++ e.value.text ++ cssBehind behind below := by
  rw [List.map_append, List.map_cons, String.join_append, String.join_cons, Stanza.css_eq, h,
    List.map_append, List.map_cons, String.join_append, String.join_cons, Setting.css_eq, cssBefore,
    cssBehind]
  simp only [String.append_assoc]

/-- The sign of the first negative number is where it is looked for. -/
theorem FirstNegative.css {stanzas above : List Stanza} {s : Stanza} {before : List Setting}
    {e : Setting} (h : FirstNegative stanzas above s before e) : ∃ rest,
      String.join (stanzas.map Stanza.css) = cssBefore above s before e ++ "-" ++ rest := by
  obtain ⟨⟨below, rfl⟩, ⟨behind, hs⟩, negative, -, -⟩ := h
  refine ⟨String.ofList (e.value.text.toList.drop 1) ++ cssBehind behind below, ?_⟩
  have sign : e.value.text = "-" ++ String.ofList (e.value.text.toList.drop 1) := by
    rw [← String.toList_inj, String.toList_append, String.toList_ofList, String.toList_ofList]
    exact Literal.text_of_negative negative
  rw [css_split hs]
  conv => lhs; rw [sign]
  simp only [String.append_assoc]

theorem LexesTo.cssBefore {above : List Stanza} {s : Stanza} {before : List Setting} {e : Setting}
    {rest cs : List Char} {ws : List Word} (spelledAbove : ∀ t ∈ above, t.Spelled)
    (spelled : s.Spelled) (spelledBefore : ∀ d ∈ before, d.Spelled) (spelledSetting : e.Spelled)
    (h : LexesTo rest cs ws) : LexesTo rest ((cssBefore above s before e).toList ++ cs)
      (above.flatMap Stanza.words ++ (selectorsWords s.selectors ++
        .openCurly :: (settingsWords before ++ ⟨.identifier, e.property⟩ :: .colon :: ws))) := by
  have text : (Typesheet.cssBefore above s before e).toList ++ cs =
      (String.join (above.map Stanza.css)).toList ++ (s.opening.toList ++
        ((String.join (before.map Setting.css)).toList ++ (e.opening.toList ++ cs))) := by
    unfold Typesheet.cssBefore
    simp only [String.toList_append, List.append_assoc]
  rw [text]
  exact stanzas spelledAbove (stanzaOpening spelled
    (settings spelledBefore (settingOpening spelledSetting.property h)))

theorem lexes_cssBehind {e : Setting} {behind : List Setting} {below : List Stanza}
    (spelled : e.Spelled) (spelledBehind : ∀ d ∈ behind, d.Spelled)
    (spelledBelow : ∀ t ∈ below, t.Spelled) :
    Lexes (e.value.text.toList ++ (cssBehind behind below).toList)
      (e.value.words ++ .semicolon :: (settingsWords behind ++
        .closeCurly :: below.flatMap Stanza.words)) := by
  have text : (cssBehind behind below).toList = ';' :: '\n' ::
      ((String.join (behind.map Setting.css)).toList ++ '\x7d' :: '\n' :: '\n' ::
        (String.join (below.map Stanza.css)).toList) := by
    unfold cssBehind
    simp only [String.toList_append, List.append_assoc]
    rfl
  rw [text]
  refine .value spelled.value (Lexeme.apart_cons (by decide)) ?_
  refine .mark (by decide) rfl (by decide) Lexeme.apart_newline (.newline ?_)
  refine .settings spelledBehind ?_
  refine .mark (by decide) rfl (by decide) Lexeme.apart_newline (.newline (.newline ?_))
  exact lexes_css spelledBelow

section
variable {stanzas : List Stanza} (spelled : ∀ s ∈ stanzas, s.Spelled) (file : String)
include spelled

/-- Stanzas without negative numbers are read from their CSS. -/
theorem Sheet.ofText_stanzas
    (signs : ∀ s ∈ stanzas, ∀ e ∈ s.settings, e.value.isNegative = false) :
    ∃ sheet, ofText (String.join (stanzas.map Stanza.css)) file = .ok sheet ∧
      sheet.bare = ofStanzas stanzas := by
  obtain ⟨c, words, read⟩ := ofText_of_lexes (lexes_css spelled) file
  obtain ⟨sheet, d, parsed, -, -, same⟩ :=
    Parse.sheet_reads (fun s hs => (spelled s hs).nonempty) signs c words
  exact ⟨sheet, by rw [read, parsed], same⟩

/-- The sign of the first negative number stops the reading. -/
theorem Sheet.ofText_stanzas_negative {above : List Stanza} {s : Stanza} {before : List Setting}
    {e : Setting} (h : FirstNegative stanzas above s before e) :
    ofText (String.join (stanzas.map Stanza.css)) file = .error
      ⟨.unexpectedTokenDetailed "-" "expected a value or variable",
        ⟨Text.byteLength (cssBefore above s before e).toList, file⟩⟩ := by
  obtain ⟨⟨below, rfl⟩, ⟨behind, hs⟩, negative, signsAbove, signsBefore⟩ := h
  obtain ⟨spelledAbove, spelledRest⟩ := List.forall_mem_append.1 spelled
  obtain ⟨spelledStanza, spelledBelow⟩ := List.forall_mem_cons.1 spelledRest
  obtain ⟨spelledBefore, spelledSettings⟩ := List.forall_mem_append.1 (hs ▸ spelledStanza.settings)
  obtain ⟨spelledSetting, spelledBehind⟩ := List.forall_mem_cons.1 spelledSettings
  have sign := Literal.text_of_negative negative
  have start : ∀ c, (e.value.text.toList ++ (cssBehind behind below).toList).head? = some c →
      Text.isBlank c = false := by
    rw [sign]
    rintro c ⟨⟩
    decide
  have first : Lexeme.first? (e.value.text.toList ++ (cssBehind behind below).toList) =
      some ⟨some .dash, ['-']⟩ := by
    rw [sign]
    rfl
  have split : (String.join ((above ++ s :: below).map Stanza.css)).toList =
      (cssBefore above s before e).toList ++
        (e.value.text.toList ++ (cssBehind behind below).toList) := by
    rw [css_split hs, String.toList_append, String.toList_append, List.append_assoc]
  obtain ⟨c, words, stopped, placed⟩ := ofText_placed split
    (.cssBefore spelledAbove spelledStanza spelledBefore spelledSetting (.here start)) first
    (lexes_cssBehind spelledSetting spelledBehind spelledBelow) file
  have all : c.words = (above ++ s :: below).flatMap Stanza.words := by
    rw [words]
    simp [Stanza.words, settingsWords, Setting.words, hs]
  obtain ⟨d, parsed, ahead, suffix⟩ := Parse.sheet_stops
    (fun t ht => (spelledAbove t ht).nonempty) spelledStanza.nonempty signsAbove hs signsBefore
    negative c all
  rw [stopped _ d parsed, Cursor.unexpected, placed d suffix ahead]
  rw [Literal.words_of_negative negative] at ahead
  rw [show d.current.value = "-" from congrArg Word.text (Cursor.current_word ahead)]

end

/-! ### Main result -/

/-- A flat stylesheet with names that can be spelled is read back from its CSS if no number
in it is negative. Otherwise reading stops at the sign of the first that is. -/
theorem Sheet.ofText_css {sheet : Sheet} (flat : sheet.IsFlat)
    (spelled : ∀ s ∈ sheet.stanzas, s.Spelled) (file : String) : ∃ css, sheet.css = .ok css ∧
      ((∀ s ∈ sheet.stanzas, ∀ e ∈ s.settings, e.value.isNegative = false) →
        ∃ back, ofText css file = .ok back ∧ back.bare = sheet.bare) ∧
      ((∃ s ∈ sheet.stanzas, ∃ e ∈ s.settings, e.value.isNegative = true) →
        ∃ above s before e rest, FirstNegative sheet.stanzas above s before e ∧
          css = cssBefore above s before e ++ "-" ++ rest ∧
          ofText css file = .error ⟨.unexpectedTokenDetailed "-" "expected a value or variable",
            ⟨Text.byteLength (cssBefore above s before e).toList, file⟩⟩) := by
  refine ⟨_, css_of_isFlat flat, fun signs => ?_, fun negative => ?_⟩
  · obtain ⟨back, read, same⟩ := ofText_stanzas spelled file signs
    exact ⟨back, read, same.trans (bare_of_isFlat flat).symm⟩
  · obtain ⟨above, s, before, e, first⟩ := exists_firstNegative negative
    obtain ⟨rest, css⟩ := first.css
    exact ⟨above, s, before, e, rest, first, css, ofText_stanzas_negative spelled file first⟩

/-- The greatest number, for what has an id that could be a colour. -/
def widest : List Stanza :=
  [⟨[.id "abcdef", .className "-a"],
    [⟨"Max-Width", .number .pixel 9223372036854775807⟩, ⟨"color", .color "#00Ff00"⟩]⟩]

/-- The least number, behind other settings and stanzas. -/
def leftmost : List Stanza :=
  [⟨[.tag "a-b"], []⟩,
    ⟨[.tag "P_"],
      [⟨"top", .number .scalar 0⟩, ⟨"left", .number .percentage (-9223372036854775808)⟩]⟩]

/-- The one is read back and the other is not. -/
theorem Sheet.ofText_css_extremes :
    (∃ css back, (ofStanzas widest).css = .ok css ∧ ofText css "sheet" = .ok back ∧
      back.bare = (ofStanzas widest).bare) ∧
    ∃ css front rest, (ofStanzas leftmost).css = .ok css ∧ css = front ++ "-" ++ rest ∧
      ofText css "sheet" = .error ⟨.unexpectedTokenDetailed "-" "expected a value or variable",
        ⟨Text.byteLength front.toList, "sheet"⟩⟩ := by
  have widestSpelled : ∀ s ∈ (ofStanzas widest).stanzas, s.Spelled := by
    rw [stanzas_ofStanzas]
    decide
  have leftmostSpelled : ∀ s ∈ (ofStanzas leftmost).stanzas, s.Spelled := by
    rw [stanzas_ofStanzas]
    decide
  obtain ⟨css, printed, read, -⟩ := ofText_css (isFlat_ofStanzas widest) widestSpelled "sheet"
  obtain ⟨back, same⟩ := read (by rw [stanzas_ofStanzas]; decide)
  refine ⟨⟨css, back, printed, same⟩, ?_⟩
  obtain ⟨css, printed, -, stopped⟩ :=
    ofText_css (isFlat_ofStanzas leftmost) leftmostSpelled "sheet"
  obtain ⟨_, _, _, _, rest, -, text, error⟩ := stopped (by rw [stanzas_ofStanzas]; decide)
  exact ⟨css, _, rest, printed, text, error⟩

end Typesheet
