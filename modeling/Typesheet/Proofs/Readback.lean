import Typesheet.Proofs.Completeness
import Typesheet.Proofs.Printing

/-! Reading the words of CSS.

The words of stanzas are what the rules with these stanzas are written with
(`membersWrittenAs_stanzas`), and so they are read as the stanzas (`sheet_reads`), as
long as no number in them is negative. The dash of the first that is stops the reading
(`sheet_stops`), since no operand begins with one: `Stops` says where among the words a
reader is refused. -/
namespace Typesheet

/-! ### Values -/

theorem dropPixelUnits_repeated {cs : List Char} (h : 'x' ∉ cs) (n : Nat) :
    dropPixelUnits (cs ++ (List.replicate n ['p', 'x']).flatten) = cs := by
  have stop : dropPixelUnits.go cs.reverse = cs.reverse := by
    unfold dropPixelUnits.go
    split
    · rename_i rest heq
      exact absurd (List.mem_reverse.1 (heq ▸ List.mem_cons_self)) h
    · rfl
  have units : dropPixelUnits.go ((List.replicate n ['x', 'p']).flatten ++ cs.reverse) =
      cs.reverse := by
    induction n with
    | zero => exact stop
    | succ n ih => exact ih
  unfold dropPixelUnits
  rw [List.reverse_append, List.reverse_flatten, List.map_replicate, List.reverse_replicate]
  exact (congrArg List.reverse units).trans (List.reverse_reverse cs)

theorem dropPixelUnits_append {cs : List Char} (h : ∀ c ∈ cs, c.isDigit = true) :
    dropPixelUnits (cs ++ ['p', 'x']) = cs :=
  dropPixelUnits_repeated (fun unit => absurd (h _ unit) (by decide)) 1

theorem dropPercentSigns_repeated {cs : List Char} (h : '%' ∉ cs) (n : Nat) :
    dropPercentSigns (cs ++ (List.replicate n ['%']).flatten) = cs := by
  have stop : cs.reverse.dropWhile (· == '%') = cs.reverse := by
    rw [List.dropWhile_eq_self_iff]
    intro nonempty sign
    exact h (List.mem_reverse.1 (beq_iff_eq.1 sign ▸ List.getElem_mem nonempty))
  have signs : ((List.replicate n ['%']).flatten ++ cs.reverse).dropWhile (· == '%') =
      cs.reverse := by
    induction n with
    | zero => exact stop
    | succ n ih => exact ih
  unfold dropPercentSigns
  rw [List.reverse_append, List.reverse_flatten, List.map_replicate, List.reverse_replicate]
  exact (congrArg List.reverse signs).trans (List.reverse_reverse cs)

theorem dropPercentSigns_append {cs : List Char} (h : ∀ c ∈ cs, c.isDigit = true) :
    dropPercentSigns (cs ++ ['%']) = cs :=
  dropPercentSigns_repeated (fun sign => absurd (h _ sign) (by decide)) 1

/-- A word spells the value whose text it has, unless the value is negative. -/
theorem Word.literal?_text {v : Literal} (sign : v.isNegative = false) :
    literal? ⟨v.kind, v.text⟩ = some (.ok v) := by
  cases v with
  | color text => rfl
  | bool b => cases b <;> rfl
  | number d a =>
    have natural : ¬a.toInt < 0 := of_decide_eq_false sign
    have digits : Amount.text a = Text.decimal a.toInt.natAbs := by
      rw [Amount.text, if_neg natural]
    have chars : ∀ c ∈ Amount.text a, c.isDigit = true := by
      rw [digits]
      exact fun _ => Text.isDigit_of_mem_decimal
    have read := Amount.ofText?_text a
    cases d with
    | pixel =>
      simp only [literal?, Token.literal?, Literal.kind, Literal.text, Dimension.kind,
        String.toList_ofList, dropPixelUnits_append chars, read]
    | percentage =>
      simp only [literal?, Token.literal?, Literal.kind, Literal.text, Dimension.kind,
        String.toList_ofList, dropPercentSigns_append chars, read]
    | scalar =>
      simp only [literal?, Token.literal?, Literal.kind, Literal.text, Dimension.kind,
        String.toList_ofList, read]

/-! ### Rules written with the words of stanzas -/

theorem Setting.writtenAs {e : Setting} (sign : e.value.isNegative = false) :
    Given .colon e.property (.literal 0 e.value .nowhere) e.words := by
  refine ⟨.colon, [⟨e.value.kind, e.value.text⟩], .semicolon, ?_, rfl, ?_, rfl⟩
  · rw [words, Literal.words_of_not_negative sign]
  · exact .literal (Word.literal?_text sign)

theorem bodyWrittenAs_settings {settings : List Setting}
    (signs : ∀ e ∈ settings, e.value.isNegative = false) :
    bodyWrittenAs (settings.map Setting.item) (settingsWords settings) := by
  induction settings with
  | nil => rfl
  | cons e settings ih =>
    obtain ⟨sign, signs⟩ := List.forall_mem_cons.1 signs
    exact ⟨e.words, settingsWords settings, rfl, Setting.writtenAs sign, ih signs⟩

/-- An id that reads as a colour is an id all the same. -/
theorem Selector.selector?_word (s : Selector) : s.word.selector? = some s := by
  cases s with
  | tag name => rfl
  | className name =>
    show some (Selector.className _) = _
    simp [word, text]
  | id name =>
    have name_eq : String.ofList ((Selector.id name).word.text.toList.drop 1) = name := by
      simp [word, text]
    unfold Word.selector?
    obtain kind | kind := Lexeme.hashKind_cases name.toList <;>
      simp only [show (Selector.id name).word.kind = _ from kind, name_eq]

theorem furtherWrittenAs_furtherWords (selectors : List Selector) :
    furtherWrittenAs selectors (furtherWords selectors) := by
  induction selectors with
  | nil => rfl
  | cons s selectors ih => exact ⟨.comma, s.word, _, rfl, rfl, s.selector?_word, ih⟩

theorem Stanza.writtenAs {s : Stanza} (nonempty : s.selectors ≠ [])
    (signs : ∀ e ∈ s.settings, e.value.isNegative = false) : s.rule.WrittenAs s.words := by
  obtain ⟨selectors, settings⟩ := s
  cases selectors with
  | nil => exact absurd rfl nonempty
  | cons first selectors =>
    refine ⟨first, selectors, first.word, furtherWords selectors, _, rfl, rfl,
      first.selector?_word, furtherWrittenAs_furtherWords selectors, ?_⟩
    exact ⟨.openCurly, settingsWords settings, .closeCurly, rfl, rfl, rfl,
      bodyWrittenAs_settings signs⟩

theorem membersWrittenAs_stanzas {stanzas : List Stanza}
    (nonempty : ∀ s ∈ stanzas, s.selectors ≠ [])
    (signs : ∀ s ∈ stanzas, ∀ e ∈ s.settings, e.value.isNegative = false) :
    membersWrittenAs (Sheet.ofStanzas stanzas).members (stanzas.flatMap Stanza.words) := by
  induction stanzas with
  | nil => rfl
  | cons s stanzas ih =>
    obtain ⟨selectors, nonempty⟩ := List.forall_mem_cons.1 nonempty
    obtain ⟨sign, signs⟩ := List.forall_mem_cons.1 signs
    exact ⟨s.words, stanzas.flatMap Stanza.words, rfl, Stanza.writtenAs selectors sign,
      ih nonempty signs⟩

namespace Parse
variable {α β : Type}

/-- **The words of stanzas without negative numbers are read as the stanzas.** -/
theorem sheet_reads {stanzas : List Stanza} (nonempty : ∀ s ∈ stanzas, s.selectors ≠ [])
    (signs : ∀ s ∈ stanzas, ∀ e ∈ s.settings, e.value.isNegative = false) :
    Reads (sheet .standard) (stanzas.flatMap Stanza.words) [] (·.bare = .ofStanzas stanzas) := by
  intro c hc
  obtain ⟨sheet, d, read, words, suffix, same⟩ :=
    sheet_complete (membersWrittenAs_stanzas nonempty signs) c hc
  have bare : sheet.bare = (Sheet.ofStanzas stanzas).bare := congrArg (Sheet.mk · .nowhere) same
  exact ⟨sheet, d, read, words, suffix, bare.trans (Sheet.bare_ofStanzas stanzas)⟩

/-! ### Readers that are refused -/

/-- From the words `before` the reader is refused where it needs an operand, with
`after` still ahead. -/
def Stops (m : Parse α) (before after : List Word) : Prop :=
  ∀ c : Cursor, c.words = before →
    ∃ d : Cursor, m c = .error (d.unexpected "expected a value or variable") d ∧
      d.words = after ∧ d.ahead <:+ c.ahead

section
variable {m : Parse α} {k : α → Parse β} {before mid after ws : List Word} {w : Word}
  {Q : α → Prop} {R : β → Prop}

/-- What stops behind a reader stops the whole. -/
theorem Stops.behind (hm : Reads m before mid Q) (hk : ∀ a, Q a → Stops (k a) mid after) :
    Stops (m >>= k) before after := by
  intro c hc
  obtain ⟨a, c', h, hc', onward, ha⟩ := hm c hc
  obtain ⟨d, h', hd, further⟩ := hk a ha c' hc'
  exact ⟨d, bind_error_iff.2 (.inr ⟨a, c', h, h'⟩), hd, further.trans onward⟩

theorem Stops.bind (hm : Stops m before after) : Stops (m >>= k) before after := by
  intro c hc
  obtain ⟨d, h, behind⟩ := hm c hc
  exact ⟨d, bind_error_iff.2 (.inl h), behind⟩

theorem Stops.refuse : Stops (refuse "expected a value or variable" : Parse α) ws ws :=
  fun c hc => ⟨c, rfl, hc, List.suffix_refl _⟩

end

/-! ### The sign of a negative number -/

section
variable {v : Literal} {e : Setting} {body : Parse (List Item)} {front settings : List Setting}
  {ws : List Word}

theorem expr_stops (sign : v.isNegative = true) :
    Stops (expr .standard .lowest) (v.words ++ ws) (v.words ++ ws) := by
  rw [Literal.words_of_negative sign]
  refine .behind .budget fun n hn => ?_
  subst hn
  refine .behind .kind fun k hk => ?_
  subst hk
  exact .refuse

theorem item_stops (sign : e.value.isNegative = true) :
    Stops (item .standard body) (e.words ++ ws) (e.value.words ++ .semicolon :: ws) := by
  rw [Setting.words_append]
  refine .behind .kind fun k hk => ?_
  subst hk
  refine .behind .advance fun name hname => .behind .kind fun k hk => ?_
  subst hk
  exact .behind .advance fun _ _ => .bind (expr_stops sign)

theorem item_reads (sign : e.value.isNegative = false) :
    Reads (item .standard body) (e.words ++ ws) ws (·.bare = e.item.bare) := by
  refine .bind (.first rfl _) fun k hk => ?_
  subst hk
  exact declaration_complete (d := ⟨0, e.property, .literal 0 e.value .nowhere, .nowhere⟩)
    (Setting.writtenAs sign)

/-- Behind a setting there is a step left for each of the others. -/
theorem itemsWithin_stops (signs : ∀ e ∈ front, e.value.isNegative = false)
    (sign : e.value.isNegative = true) {n : Nat} (steps : front.length < n) :
    Stops (itemsWithin .standard n) (settingsWords (front ++ e :: settings) ++ ws)
      (e.value.words ++ .semicolon :: (settingsWords settings ++ ws)) := by
  induction front generalizing n with
  | nil =>
    obtain ⟨n, rfl⟩ := Nat.exists_eq_add_one.2 steps
    rw [List.nil_append, settingsWords_cons, List.append_assoc]
    refine .behind .kind fun k hk => ?_
    subst hk
    exact .bind (item_stops sign)
  | cons d front ih =>
    obtain ⟨n, rfl⟩ := Nat.exists_eq_add_one.2 (Nat.zero_lt_of_lt steps)
    obtain ⟨signFirst, signs⟩ := List.forall_mem_cons.1 signs
    have back := ih signs (Nat.lt_of_succ_lt_succ steps)
    rw [List.cons_append, settingsWords_cons, List.append_assoc]
    refine .behind .kind fun k hk => ?_
    subst hk
    exact .behind (item_reads signFirst) fun _ _ => .bind back

/-- Where everything is printed with a word, there are words for all. -/
theorem length_le_flatMap {f : α → List β} (h : ∀ a, f a ≠ []) (as : List α) :
    as.length ≤ (as.flatMap f).length := by
  induction as with
  | nil => exact Nat.le_refl _
  | cons a as ih =>
    have first : 0 < (f a).length := List.length_pos_iff.2 (h a)
    rw [List.flatMap_cons, List.length_append, List.length_cons]
    omega

theorem block_stops (signs : ∀ e ∈ front, e.value.isNegative = false)
    (sign : e.value.isNegative = true) :
    Stops (block .standard) (.openCurly :: (settingsWords (front ++ e :: settings) ++ ws))
      (e.value.words ++ .semicolon :: (settingsWords settings ++ ws)) := by
  refine .behind .budget fun n hn => ?_
  have steps : front.length < n := by
    have length : (front ++ e :: settings).length ≤
        (settingsWords (front ++ e :: settings)).length :=
      length_le_flatMap (fun _ => List.cons_ne_nil _ _) _
    rw [List.length_append] at length
    rw [hn]
    simp only [List.length_cons, List.length_append]
    omega
  exact .behind .expect fun _ _ => .bind (itemsWithin_stops signs sign steps)

end

section
variable {s : Stanza} {before behind : List Setting} {e : Setting} {front stanzas : List Stanza}
  {ws : List Word}

theorem words_of_nonempty (nonempty : s.selectors ≠ []) (ws : List Word) :
    ∃ (first : Selector) (selectors : List Selector), s.words ++ ws =
      first.word :: (furtherWords selectors ++
        .openCurly :: (settingsWords s.settings ++ .closeCurly :: ws)) := by
  obtain ⟨selectors, settings⟩ := s
  cases selectors with
  | nil => exact absurd rfl nonempty
  | cons first selectors => exact ⟨first, selectors, by simp [Stanza.words, selectorsWords]⟩

theorem rule_stops (nonempty : s.selectors ≠ []) (hs : s.settings = before ++ e :: behind)
    (signs : ∀ e ∈ before, e.value.isNegative = false) (sign : e.value.isNegative = true) :
    Stops (rule .standard) (s.words ++ ws)
      (e.value.words ++ .semicolon :: (settingsWords behind ++ .closeCurly :: ws)) := by
  obtain ⟨first, selectors, words⟩ := words_of_nonempty nonempty ws
  rw [words, hs]
  refine .behind .position fun _ _ => .behind (selector_complete first.selector?_word) fun _ _ => ?_
  refine .behind .budget fun n hn => ?_
  have steps : (furtherWords selectors).length < n := by
    rw [hn, List.length_append]
    omega
  refine .behind (selectorsWithin_complete (furtherWrittenAs_furtherWords selectors)
    Kind.noConfusion steps) fun _ _ => ?_
  exact .behind .freshId fun _ _ => .bind (block_stops signs sign)

theorem member_stops (nonempty : s.selectors ≠ []) (hs : s.settings = before ++ e :: behind)
    (signs : ∀ e ∈ before, e.value.isNegative = false) (sign : e.value.isNegative = true) :
    Stops (member .standard) (s.words ++ ws)
      (e.value.words ++ .semicolon :: (settingsWords behind ++ .closeCurly :: ws)) := by
  refine .behind .get fun c hc => ?_
  have other : ¬(c.kind = .identifier ∧ (c.peek 1).kind = .assignment) := by
    obtain ⟨first, selectors, words⟩ := words_of_nonempty nonempty ws
    rw [words] at hc
    cases selectors with
    | nil => exact Cursor.not_assignment_of_words hc Kind.noConfusion
    | cons _ _ => exact Cursor.not_assignment_of_words hc Kind.noConfusion
  rw [if_neg other]
  exact .bind (rule_stops nonempty hs signs sign)

theorem hasTokens_of_stanza (nonempty : s.selectors ≠ []) {c : Cursor}
    (h : c.words = s.words ++ ws) : c.hasTokens = true := by
  obtain ⟨first, selectors, words⟩ := words_of_nonempty nonempty ws
  exact Cursor.hasTokens_of_words (h.trans words) (Word.kind_of_selector? first.selector?_word)

theorem membersWithin_stops (nonempty : ∀ s ∈ front, s.selectors ≠ [])
    (selectors : s.selectors ≠ [])
    (signs : ∀ s ∈ front, ∀ e ∈ s.settings, e.value.isNegative = false)
    (hs : s.settings = before ++ e :: behind)
    (signsBefore : ∀ e ∈ before, e.value.isNegative = false) (sign : e.value.isNegative = true)
    {n : Nat} (steps : front.length < n) :
    Stops (membersWithin .standard n) ((front ++ s :: stanzas).flatMap Stanza.words)
      (e.value.words ++ .semicolon :: (settingsWords behind ++
        .closeCurly :: stanzas.flatMap Stanza.words)) := by
  induction front generalizing n with
  | nil =>
    obtain ⟨n, rfl⟩ := Nat.exists_eq_add_one.2 steps
    rw [List.nil_append, List.flatMap_cons]
    refine .behind .get fun c hc => ?_
    rw [if_pos (hasTokens_of_stanza selectors hc)]
    exact .bind (member_stops selectors hs signsBefore sign)
  | cons t front ih =>
    obtain ⟨n, rfl⟩ := Nat.exists_eq_add_one.2 (Nat.zero_lt_of_lt steps)
    obtain ⟨first, nonempty⟩ := List.forall_mem_cons.1 nonempty
    obtain ⟨signsFirst, signs⟩ := List.forall_mem_cons.1 signs
    have back := ih nonempty signs (Nat.lt_of_succ_lt_succ steps)
    rw [List.cons_append, List.flatMap_cons]
    refine .behind .get fun c hc => ?_
    rw [if_pos (hasTokens_of_stanza first hc)]
    exact .behind (member_complete (m := .rule t.rule) (Stanza.writtenAs first signsFirst))
      fun _ _ => .bind back

/-- **The dash of the first negative number stops the reading.** -/
theorem sheet_stops (nonempty : ∀ s ∈ front, s.selectors ≠ []) (selectors : s.selectors ≠ [])
    (signs : ∀ s ∈ front, ∀ e ∈ s.settings, e.value.isNegative = false)
    (hs : s.settings = before ++ e :: behind)
    (signsBefore : ∀ e ∈ before, e.value.isNegative = false)
    (sign : e.value.isNegative = true) :
    Stops (sheet .standard) ((front ++ s :: stanzas).flatMap Stanza.words)
      (e.value.words ++ .semicolon :: (settingsWords behind ++
        .closeCurly :: stanzas.flatMap Stanza.words)) := by
  refine .behind .budget fun n hn => ?_
  have steps : front.length < n := by
    have length : (front ++ s :: stanzas).length ≤
        ((front ++ s :: stanzas).flatMap Stanza.words).length :=
      length_le_flatMap (fun _ => List.append_ne_nil_of_right_ne_nil _ (List.cons_ne_nil _ _)) _
    rw [List.length_append] at length
    omega
  exact .bind (membersWithin_stops nonempty selectors signs hs signsBefore sign steps)

end

end Parse

end Typesheet
