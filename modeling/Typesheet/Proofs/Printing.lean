import Typesheet.Proofs.Flat
import Typesheet.Proofs.Words

/-! The words of CSS.

What is printed for a stanza is told in words (`Stanza.words`), and if its names are ones
that a stylesheet can spell, these are the words that the CSS consists of
(`lexes_css`). A negative number is two of them, as no number is written with a sign. -/
namespace Typesheet

/-! ### Words of stanzas -/

namespace Word

def comma : Word := ⟨.comma, ","⟩
def colon : Word := ⟨.colon, ":"⟩
def semicolon : Word := ⟨.semicolon, ";"⟩
def dash : Word := ⟨.dash, "-"⟩
def openCurly : Word := ⟨.openCurly, "\x7b"⟩
def closeCurly : Word := ⟨.closeCurly, "\x7d"⟩

end Word

/-- The kind of token a selector is written with. -/
def Selector.kind : Selector → Kind
  | .tag _ => .identifier
  | .className _ => .classSelector
  | .id name => Lexeme.hashKind name.toList

def Selector.word (s : Selector) : Word := ⟨s.kind, s.text⟩

/-- The words of selectors that are not the first. -/
def furtherWords (selectors : List Selector) : List Word :=
  selectors.flatMap fun s => [.comma, s.word]

def selectorsWords : List Selector → List Word
  | [] => []
  | s :: selectors => s.word :: furtherWords selectors

/-- The kind of token a number is written with. -/
def Dimension.kind : Dimension → Kind
  | .pixel => .pixel
  | .percentage => .percentage
  | .scalar => .scalar

namespace Literal

/-- The kind of token a value is written with, signs aside. -/
def kind : Literal → Kind
  | .color _ => .color
  | .number d _ => d.kind
  | .bool true => .trueWord
  | .bool false => .falseWord

/-- A number below zero, which no token spells. -/
def isNegative : Literal → Bool
  | .number _ a => a.toInt < 0
  | _ => false

def words (v : Literal) : List Word :=
  if v.isNegative then [.dash, ⟨v.kind, String.ofList (v.text.toList.drop 1)⟩]
  else [⟨v.kind, v.text⟩]

end Literal

def Setting.words (e : Setting) : List Word :=
  ⟨.identifier, e.property⟩ :: .colon :: (e.value.words ++ [.semicolon])

def settingsWords (settings : List Setting) : List Word := settings.flatMap Setting.words

theorem Literal.words_of_negative {v : Literal} (h : v.isNegative = true) :
    v.words = [.dash, ⟨v.kind, String.ofList (v.text.toList.drop 1)⟩] := if_pos h

theorem Literal.words_of_not_negative {v : Literal} (h : v.isNegative = false) :
    v.words = [⟨v.kind, v.text⟩] := by
  rw [Literal.words, h]
  rfl

theorem Setting.words_append (e : Setting) (ws : List Word) :
    e.words ++ ws =
      ⟨.identifier, e.property⟩ :: .colon :: (e.value.words ++ .semicolon :: ws) := by
  simp [Setting.words]

theorem furtherWords_cons (s : Selector) (selectors : List Selector) :
    furtherWords (s :: selectors) = .comma :: s.word :: furtherWords selectors := rfl

theorem settingsWords_cons (e : Setting) (settings : List Setting) :
    settingsWords (e :: settings) = e.words ++ settingsWords settings := rfl

def Stanza.words (s : Stanza) : List Word :=
  selectorsWords s.selectors ++ .openCurly :: (settingsWords s.settings ++ [.closeCurly])

/-! ### Names that can be spelled -/

/-- A selector that a token spells. It has no dashes behind a capital, since no colon
follows it. -/
def Selector.Spelled (s : Selector) : Prop := s.word.Spelled ∧ ¬s.word.Dashed

/-- A colour that a token spells; numbers and booleans always are. -/
def Literal.Spelled : Literal → Prop
  | .color text => Lexeme.Spelled .color text.toList
  | _ => True

structure Setting.Spelled (e : Setting) : Prop where
  property : Lexeme.Spelled .identifier e.property.toList
  value : e.value.Spelled

structure Stanza.Spelled (s : Stanza) : Prop where
  nonempty : s.selectors ≠ []
  selectors : ∀ selector ∈ s.selectors, selector.Spelled
  settings : ∀ e ∈ s.settings, e.Spelled

instance (s : Selector) : Decidable s.Spelled := decidable_of_iff _ Lexeme.spelled_iff.symm

instance : (v : Literal) → Decidable v.Spelled
  | .color _ => decidable_of_iff _ Lexeme.spelled_color_iff.symm
  | .number _ _ => .isTrue trivial
  | .bool _ => .isTrue trivial

theorem Setting.spelled_iff {e : Setting} : e.Spelled ↔
    Lexeme.first? (e.property.toList ++ [':']) = some ⟨some .identifier, e.property.toList⟩ ∧
      e.value.Spelled := by
  rw [← Lexeme.spelled_identifier_iff]
  exact ⟨fun ⟨property, value⟩ => ⟨property, value⟩, fun ⟨property, value⟩ => ⟨property, value⟩⟩

theorem Stanza.spelled_iff {s : Stanza} : s.Spelled ↔ s.selectors ≠ [] ∧
    (∀ selector ∈ s.selectors, selector.Spelled) ∧ ∀ e ∈ s.settings, e.Spelled :=
  ⟨fun ⟨nonempty, selectors, settings⟩ => ⟨nonempty, selectors, settings⟩,
    fun ⟨nonempty, selectors, settings⟩ => ⟨nonempty, selectors, settings⟩⟩

instance (e : Setting) : Decidable e.Spelled := decidable_of_iff _ Setting.spelled_iff.symm

instance (s : Stanza) : Decidable s.Spelled := decidable_of_iff _ Stanza.spelled_iff.symm

/-! ### Openings -/

/-- What is printed in front of the value of a setting. -/
def Setting.opening (e : Setting) : String := "  " ++ e.property ++ ": "

/-- What is printed in front of the settings of a stanza. -/
def Stanza.opening (s : Stanza) : String :=
  ", ".intercalate (s.selectors.map Selector.text) ++ " \x7b\n"

theorem Setting.css_eq (e : Setting) : e.css = e.opening ++ e.value.text ++ ";\n" := rfl

theorem Stanza.css_eq (s : Stanza) :
    s.css = s.opening ++ String.join (s.settings.map Setting.css) ++ "\x7d\n\n" := rfl

theorem toList_intercalate_comma (s : Selector) (selectors : List Selector) :
    (", ".intercalate ((s :: selectors).map Selector.text)).toList =
      s.text.toList ++ selectors.flatMap fun s => ',' :: ' ' :: s.text.toList := by
  induction selectors generalizing s with
  | nil => simp
  | cons next selectors ih =>
    rw [List.map_cons, List.map_cons, String.intercalate_cons_cons, ← List.map_cons,
      String.toList_append, String.toList_append, ih, List.flatMap_cons]
    simp

/-! ### Values -/

/-- The unit of a number. -/
def Dimension.suffix : Dimension → List Char
  | .pixel => ['p', 'x']
  | .percentage => ['%']
  | .scalar => []

theorem Dimension.suffix_mem (d : Dimension) : (d.kind, d.suffix) ∈ Lexeme.units := by
  cases d <;> decide

theorem Literal.text_number (d : Dimension) (a : Amount) :
    (Literal.number d a).text.toList = Amount.text a ++ d.suffix := by
  cases d <;> simp [Literal.text, Dimension.suffix]

namespace LexesTo
variable {rest cs : List Char} {ws : List Word}

/-- A number without its sign is a word, and not a dashed one. -/
theorem number {d : Dimension} {n : Nat} (apart : Lexeme.Apart cs) (h : LexesTo rest cs ws) :
    LexesTo rest (Text.decimal n ++ d.suffix ++ cs)
      (⟨d.kind, String.ofList (Text.decimal n ++ d.suffix)⟩ :: ws) := by
  have spelled : Lexeme.Spelled d.kind (Text.decimal n ++ d.suffix) :=
    .number (Text.decimal_ne_nil n) (fun _ => Text.isDigit_of_mem_decimal) d.suffix_mem
  have undashed : ¬Lexeme.Dashed (Text.decimal n ++ d.suffix) := by
    obtain ⟨c, digits, hd⟩ := List.exists_cons_of_ne_nil (Text.decimal_ne_nil n)
    have digit : c.isDigit = true := Text.isDigit_of_mem_decimal (hd ▸ List.mem_cons_self)
    rw [hd]
    exact Lexeme.not_dashed (Lexeme.not_capital_of_isDigit digit)
  have first := Lexeme.first?_of_spelled spelled apart fun dashed => absurd dashed undashed
  refine .word first ?_
  rw [List.drop_left]
  exact h

/-- A dash is a word of its own, whatever it is in front of. -/
theorem dash (h : LexesTo rest cs ws) : LexesTo rest ('-' :: cs) (.dash :: ws) :=
  .word (show Lexeme.first? ('-' :: cs) = some ⟨some .dash, ['-']⟩ from rfl) h

theorem value {v : Literal} (spelled : v.Spelled) (apart : Lexeme.Apart cs)
    (h : LexesTo rest cs ws) : LexesTo rest (v.text.toList ++ cs) (v.words ++ ws) := by
  cases v with
  | color text =>
    have spelled : Lexeme.Spelled .color text.toList := spelled
    obtain ⟨name, hname, -⟩ := Lexeme.hash_of_spelled spelled (by decide)
    have undashed : ¬Lexeme.Dashed text.toList := hname ▸ Lexeme.not_dashed (by decide)
    exact .cons (w := ⟨.color, text⟩) spelled apart (fun dashed => absurd dashed undashed) h
  | number d a =>
    by_cases negative : a.toInt < 0
    · have text : (Literal.number d a).text.toList =
          '-' :: (Text.decimal a.toInt.natAbs ++ d.suffix) := by
        rw [Literal.text_number, Amount.text, if_pos negative]
        rfl
      have sign : (Literal.number d a).isNegative = true := decide_eq_true negative
      rw [Literal.words_of_negative sign, text]
      exact dash (number apart h)
    · have text : (Literal.number d a).text =
          String.ofList (Text.decimal a.toInt.natAbs ++ d.suffix) := by
        rw [← String.toList_inj, String.toList_ofList, Literal.text_number, Amount.text,
          if_neg negative]
      have sign : (Literal.number d a).isNegative = false := decide_eq_false negative
      rw [Literal.words_of_not_negative sign, text, String.toList_ofList]
      exact number apart h
  | bool b =>
    have word : ∀ {kind : Kind} {text : String}, Lexeme.Spelled kind text.toList →
        ¬Lexeme.Dashed text.toList → LexesTo rest (text.toList ++ cs) (⟨kind, text⟩ :: ws) :=
      fun {kind text} spelled undashed => .cons (w := ⟨kind, text⟩) spelled apart
        (fun dashed => absurd dashed undashed) h
    cases b with
    | true =>
      have name : Lexeme.Spelled (Lexeme.wordKind ['t', 'r', 'u', 'e']) ['t', 'r', 'u', 'e'] :=
        .lower (by decide) (List.all_eq_true.1 (by decide))
      exact word name (Lexeme.not_dashed (by decide))
    | false =>
      have name : Lexeme.Spelled (Lexeme.wordKind ['f', 'a', 'l', 's', 'e'])
          ['f', 'a', 'l', 's', 'e'] := .lower (by decide) (List.all_eq_true.1 (by decide))
      exact word name (Lexeme.not_dashed (by decide))

/-! ### Settings -/

/-- A mark of one character in front of a text that it does not run into. -/
theorem mark {w : Word} {c : Char} (mark : (w.kind, w.text.toList) ∈ Lexeme.marks)
    (text : w.text.toList = [c]) (start : Lexeme.isCapitalStart c = false)
    (apart : Lexeme.Apart cs) (h : LexesTo rest cs ws) : LexesTo rest (c :: cs) (w :: ws) := by
  have undashed : ¬w.Dashed := by
    show ¬Lexeme.Dashed w.text.toList
    rw [text]
    exact Lexeme.not_dashed start
  have lexes := cons (.mark mark) apart (fun dashed => absurd dashed undashed) h
  rw [text] at lexes
  exact lexes

theorem newline (h : LexesTo rest cs ws) : LexesTo rest ('\n' :: cs) ws := h.blank (by decide)

theorem space (h : LexesTo rest cs ws) : LexesTo rest (' ' :: cs) ws := h.blank (by decide)

/-- The property of a setting may have dashes behind a capital, since a colon follows it. -/
theorem settingOpening {e : Setting} (spelled : Lexeme.Spelled .identifier e.property.toList)
    (h : LexesTo rest cs ws) :
    LexesTo rest (e.opening.toList ++ cs) (⟨.identifier, e.property⟩ :: .colon :: ws) := by
  have text : e.opening.toList ++ cs =
      ' ' :: ' ' :: (e.property.toList ++ ':' :: ' ' :: cs) := by
    unfold Setting.opening
    simp only [String.toList_append]
    simp
  rw [text]
  refine space (space (cons (w := ⟨.identifier, e.property⟩) spelled
    (Lexeme.apart_cons (by decide)) (fun _ => rfl) ?_))
  exact mark (by decide) rfl (by decide) Lexeme.apart_space (space h)

theorem setting {e : Setting} (spelled : e.Spelled) (h : LexesTo rest cs ws) :
    LexesTo rest (e.css.toList ++ cs) (e.words ++ ws) := by
  have text : e.css.toList ++ cs =
      e.opening.toList ++ (e.value.text.toList ++ ';' :: '\n' :: cs) := by
    rw [e.css_eq]
    simp only [String.toList_append]
    simp
  rw [text, Setting.words_append]
  refine settingOpening spelled.property (value spelled.value (Lexeme.apart_cons (by decide)) ?_)
  exact mark (by decide) rfl (by decide) Lexeme.apart_newline (newline h)

theorem settings {settings : List Setting} (spelled : ∀ e ∈ settings, e.Spelled)
    (h : LexesTo rest cs ws) :
    LexesTo rest ((String.join (settings.map Setting.css)).toList ++ cs)
      (settingsWords settings ++ ws) := by
  induction settings with
  | nil => exact h
  | cons e settings ih =>
    have back := ih fun other hother => spelled other (List.mem_cons_of_mem _ hother)
    rw [List.map_cons, String.join_cons, String.toList_append, List.append_assoc,
      settingsWords_cons, List.append_assoc]
    exact setting (spelled e List.mem_cons_self) back

/-! ### Selectors -/

theorem selector {s : Selector} (spelled : s.Spelled) (apart : Lexeme.Apart cs)
    (h : LexesTo rest cs ws) : LexesTo rest (s.text.toList ++ cs) (s.word :: ws) :=
  cons spelled.1 apart (fun dashed => absurd dashed spelled.2) h

/-- The selectors that are not the first, each behind a comma. -/
theorem furtherSelectors {selectors : List Selector} (spelled : ∀ s ∈ selectors, s.Spelled)
    (apart : Lexeme.Apart cs) (h : LexesTo rest cs ws) :
    LexesTo rest (selectors.flatMap (fun s => ',' :: ' ' :: s.text.toList) ++ cs)
        (furtherWords selectors ++ ws) ∧
      Lexeme.Apart (selectors.flatMap (fun s => ',' :: ' ' :: s.text.toList) ++ cs) := by
  induction selectors with
  | nil => exact ⟨h, apart⟩
  | cons s selectors ih =>
    obtain ⟨back, behind⟩ := ih fun other hother => spelled other (List.mem_cons_of_mem _ hother)
    rw [List.flatMap_cons, List.append_assoc, furtherWords_cons]
    refine ⟨?_, Lexeme.apart_cons (by decide)⟩
    refine mark (by decide) rfl (by decide) Lexeme.apart_space (space ?_)
    exact selector (spelled s List.mem_cons_self) behind back

/-! ### Stanzas -/

theorem stanzaOpening {s : Stanza} (spelled : s.Spelled) (h : LexesTo rest cs ws) :
    LexesTo rest (s.opening.toList ++ cs) (selectorsWords s.selectors ++ .openCurly :: ws) := by
  obtain ⟨selectors, settings⟩ := s
  obtain ⟨nonempty, selectorsSpelled, -⟩ := spelled
  cases selectors with
  | nil => exact absurd rfl nonempty
  | cons first selectors =>
    have brace : LexesTo rest (' ' :: '\x7b' :: '\n' :: cs) (.openCurly :: ws) :=
      space (mark (by decide) rfl (by decide) Lexeme.apart_newline (newline h))
    obtain ⟨further, apart⟩ := furtherSelectors
      (fun other hother => selectorsSpelled other (List.mem_cons_of_mem _ hother))
      Lexeme.apart_space brace
    have text : (Stanza.opening ⟨first :: selectors, settings⟩).toList ++ cs = first.text.toList ++
        (selectors.flatMap (fun s => ',' :: ' ' :: s.text.toList) ++
          ' ' :: '\x7b' :: '\n' :: cs) := by
      unfold Stanza.opening
      simp only [String.toList_append, toList_intercalate_comma, List.append_assoc]
      rfl
    rw [text]
    exact selector (selectorsSpelled first List.mem_cons_self) apart further

theorem stanza {s : Stanza} (spelled : s.Spelled) (h : LexesTo rest cs ws) :
    LexesTo rest (s.css.toList ++ cs) (s.words ++ ws) := by
  have text : s.css.toList ++ cs = s.opening.toList ++
      ((String.join (s.settings.map Setting.css)).toList ++ '\x7d' :: '\n' :: '\n' :: cs) := by
    rw [s.css_eq]
    simp only [String.toList_append, List.append_assoc]
    rfl
  have words : s.words ++ ws = selectorsWords s.selectors ++
      .openCurly :: (settingsWords s.settings ++ .closeCurly :: ws) := by
    simp [Stanza.words]
  rw [text, words]
  refine stanzaOpening spelled (settings spelled.settings ?_)
  exact mark (by decide) rfl (by decide) Lexeme.apart_newline (newline (newline h))

theorem stanzas {stanzas : List Stanza} (spelled : ∀ s ∈ stanzas, s.Spelled)
    (h : LexesTo rest cs ws) :
    LexesTo rest ((String.join (stanzas.map Stanza.css)).toList ++ cs)
      (stanzas.flatMap Stanza.words ++ ws) := by
  induction stanzas with
  | nil => exact h
  | cons s stanzas ih =>
    have back := ih fun other hother => spelled other (List.mem_cons_of_mem _ hother)
    rw [List.map_cons, String.join_cons, String.toList_append, List.append_assoc,
      List.flatMap_cons, List.append_assoc]
    exact stanza (spelled s List.mem_cons_self) back

end LexesTo

/-- **The CSS of stanzas that can be spelled consists of their words.** -/
theorem lexes_css {stanzas : List Stanza} (spelled : ∀ s ∈ stanzas, s.Spelled) :
    Lexes (String.join (stanzas.map Stanza.css)).toList (stanzas.flatMap Stanza.words) := by
  have lexes := LexesTo.stanzas spelled Lexes.nil
  rw [List.append_nil, List.append_nil] at lexes
  exact lexes

end Typesheet
