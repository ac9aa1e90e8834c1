import Mathlib.Data.List.Basic
import Typesheet.Proofs.Words

/-! Texts one below the other.

A text that ends with a mark that closes something can be continued on the next line: it
consists of the words that it has by itself (`lexes_seam`), since no lexeme in it looks
beyond the line break. The mark is needed. A capital name with dashes at the end of a text
becomes the name of a property if a colon is found on the next line. -/
namespace Typesheet

namespace Lexeme

/-! ### Patterns in front of a line break -/

section
variable {p : Char → Bool} {cs b : List Char}

theorem takeWhile_stop {c : Char} (stop : p c = false) :
    (cs ++ c :: b).takeWhile p = cs.takeWhile p := by
  induction cs with
  | nil => rw [List.nil_append, List.takeWhile_cons, stop]; rfl
  | cons c cs ih => rw [List.cons_append, List.takeWhile_cons, List.takeWhile_cons, ih]

theorem takeWhile_of_exists (h : ∃ c ∈ cs, p c = false) : (cs ++ b).takeWhile p = cs.takeWhile p := by
  induction cs with
  | nil =>
    obtain ⟨c, hc, -⟩ := h
    cases hc
  | cons c cs ih =>
    rw [List.cons_append, List.takeWhile_cons, List.takeWhile_cons]
    cases hp : p c with
    | false => rfl
    | true =>
      obtain ⟨d, hd, outside⟩ := h
      obtain rfl | hd := List.mem_cons.1 hd
      · cases hp.symm.trans outside
      · rw [ih ⟨d, hd, outside⟩]

theorem dropWhile_of_exists (h : ∃ c ∈ cs, p c = false) :
    (cs ++ b).dropWhile p = cs.dropWhile p ++ b ∧ cs.dropWhile p ≠ [] := by
  induction cs with
  | nil =>
    obtain ⟨c, hc, -⟩ := h
    cases hc
  | cons c cs ih =>
    rw [List.cons_append, List.dropWhile_cons, List.dropWhile_cons]
    cases hp : p c with
    | false => exact ⟨rfl, List.cons_ne_nil _ _⟩
    | true =>
      obtain ⟨d, hd, outside⟩ := h
      obtain rfl | hd := List.mem_cons.1 hd
      · cases hp.symm.trans outside
      · exact ih ⟨d, hd, outside⟩

theorem getLast?_dropWhile (h : cs.dropWhile p ≠ []) : (cs.dropWhile p).getLast? = cs.getLast? := by
  conv => rhs; rw [← List.takeWhile_append_dropWhile (p := p) (l := cs)]
  rw [List.getLast?_append_of_ne_nil _ h]

theorem drop_takeWhile_append : (cs ++ b).drop (cs.takeWhile p).length =
    cs.drop (cs.takeWhile p).length ++ b :=
  List.drop_append_of_le_length (List.takeWhile_prefix p).length_le

end

section
variable {c : Char} {cs b : List Char}

theorem throughCommentEnd_append {text : List Char} (h : throughCommentEnd cs = some text) :
    throughCommentEnd (cs ++ b) = some text := by
  induction cs using throughCommentEnd.induct generalizing text with
  | case1 => cases h
  | case2 cs => exact h
  | case3 c cs other ih =>
    rw [throughCommentEnd] at h
    · obtain ⟨rest, hrest, rfl⟩ := Option.map_eq_some_iff.1 h
      rw [List.cons_append, throughCommentEnd, ih hrest]
      · rfl
      · intro cs' star slash
        cases cs with
        | nil => cases hrest
        | cons d cs =>
          cases slash
          exact other cs star rfl
    · exact other

theorem unit_newline : unit (cs ++ '\n' :: b) = unit cs := by
  match cs with
  | [] => rfl
  | [c] =>
    by_cases hp : c = 'p'
    · subst hp
      rfl
    · by_cases hs : c = '%'
      · subst hs
        rfl
      · simp [unit, hp, hs]
  | c :: d :: cs =>
    unfold unit
    split <;> simp_all

theorem colonFollows_colon (h : b.head? ≠ some '=') : colonFollows (':' :: b) = true := by
  cases b with
  | nil => rfl
  | cons c b =>
    have other : c ≠ '=' := fun heq => h (congrArg some heq)
    have trimmed : Text.trimStart (':' :: c :: b) = ':' :: c :: b := rfl
    simp [colonFollows, trimmed, other]

/-- Whether a text that is not blank goes on with a colon is seen in it, unless the colon is
its last character. -/
theorem colonFollows_append (h : ∃ c ∈ cs, Text.isBlank c = false)
    (mark : cs.getLast? = some ':' → b.head? ≠ some '=') :
    colonFollows (cs ++ b) = colonFollows cs := by
  obtain ⟨behind, nonempty⟩ := dropWhile_of_exists (b := b) h
  rw [← getLast?_dropWhile nonempty] at mark
  unfold colonFollows Text.trimStart
  rw [behind]
  match hd : cs.dropWhile Text.isBlank, nonempty with
  | [c], _ =>
    by_cases hc : c = ':'
    · subst hc
      exact colonFollows_colon (mark (congrArg _ hd))
    · simp [hc]
  | c :: d :: cs, _ =>
    by_cases hc : c = ':'
    · subst hc
      by_cases hd : d = '='
      · subst hd
        rfl
      · simp [hd]
    · simp [hc]

theorem colonFollows_newline (h : ∃ c ∈ cs, Text.isBlank c = false) :
    colonFollows (cs ++ '\n' :: b) = colonFollows cs :=
  colonFollows_append h fun _ equals => nomatch equals

theorem blanks_newline (h : ∃ c ∈ cs, Text.isBlank c = false) :
    blanks (cs ++ '\n' :: b) = blanks cs := by
  unfold blanks
  rw [takeWhile_of_exists h]

theorem hash_newline : hash (c :: cs ++ '\n' :: b) = hash (c :: cs) := by
  have take : (cs ++ '\n' :: b).takeWhile isNameChar = cs.takeWhile isNameChar :=
    takeWhile_stop (by decide)
  by_cases hc : c = '#'
  · subst hc
    simp only [hash, List.cons_append, take]
  · rw [List.cons_append, hash_none hc, hash_none hc]

theorem className_newline : className (c :: cs ++ '\n' :: b) = className (c :: cs) := by
  by_cases hc : c = '.'
  · subst hc
    cases cs with
    | nil => rfl
    | cons d cs =>
      have take : (cs ++ '\n' :: b).takeWhile isNameChar = cs.takeWhile isNameChar :=
        takeWhile_stop (by decide)
      simp only [className, List.cons_append, take]
  · rw [List.cons_append, className_none hc, className_none hc]

theorem number_newline : number (cs ++ '\n' :: b) = number cs := by
  have take : (cs ++ '\n' :: b).takeWhile Char.isDigit = cs.takeWhile Char.isDigit :=
    takeWhile_stop (by decide)
  have drop : (cs ++ '\n' :: b).drop (cs.takeWhile Char.isDigit).length =
      cs.drop (cs.takeWhile Char.isDigit).length ++ '\n' :: b := drop_takeWhile_append
  unfold number
  rw [take]
  cases hd : cs.takeWhile Char.isDigit with
  | nil => rfl
  | cons d digits =>
    rw [hd] at drop
    simp only [drop, unit_newline]

theorem lowerName_newline : lowerName (c :: cs ++ '\n' :: b) = lowerName (c :: cs) := by
  have take : (cs ++ '\n' :: b).takeWhile isLowerNameChar = cs.takeWhile isLowerNameChar :=
    takeWhile_stop (by decide)
  simp only [lowerName, List.cons_append, take]

/-- Behind a name that is not the last word a colon is not looked for on the next line. -/
theorem capitalName_newline (h : isCapitalStart c = true →
    ∃ d ∈ cs, isNameChar d = false ∧ Text.isBlank d = false) :
    capitalName (c :: cs ++ '\n' :: b) = capitalName (c :: cs) := by
  by_cases start : isCapitalStart c = true
  · have take : (cs ++ '\n' :: b).takeWhile isNameChar = cs.takeWhile isNameChar :=
      takeWhile_stop (by decide)
    have colon : colonFollows ((cs ++ '\n' :: b).drop (cs.takeWhile isNameChar).length) =
        colonFollows (cs.drop (cs.takeWhile isNameChar).length) := by
      rw [drop_takeWhile_append]
      apply colonFollows_newline
      obtain ⟨d, hd, noName, noBlank⟩ := h start
      refine ⟨d, ?_, noBlank⟩
      rw [← List.takeWhile_append_dropWhile (p := isNameChar) (l := cs), List.mem_append] at hd
      obtain hd | hd := hd
      · cases noName.symm.trans (List.mem_takeWhile_imp hd)
      · rwa [drop_takeWhile]
    simp only [capitalName, List.cons_append, take, colon]
  · rw [Bool.not_eq_true] at start
    rw [List.cons_append, capitalName_none start, capitalName_none start]

theorem punctuation_newline : punctuation (c :: cs ++ '\n' :: b) = punctuation (c :: cs) := by
  by_cases hc : c = ':'
  · subst hc
    cases cs with
    | nil => rfl
    | cons d cs =>
      by_cases hd : d = '='
      · subst hd
        rfl
      · simp [punctuation, hd]
  · unfold punctuation
    split <;> simp_all

/-- What begins with a slash is a comment. -/
theorem first?_slash :
    first? ('/' :: cs) = (lineComment ('/' :: cs)).or (blockComment ('/' :: cs)) := by
  unfold first? patterns
  simp only [List.findSome?_cons, blanks_none (show Text.isBlank '/' = false by decide),
    hash_none (show '/' ≠ '#' by decide), className_none (show '/' ≠ '.' by decide),
    number_none (show '/'.isDigit = false by decide),
    lowerName_none (show '/'.isLower = false by decide),
    capitalName_none (show isCapitalStart '/' = false by decide)]
  cases lineComment ('/' :: cs) with
  | some l => rfl
  | none => cases blockComment ('/' :: cs) <;> rfl

theorem comment_newline {l : Lexeme} (h : first? ('/' :: cs) = some l) :
    first? ('/' :: cs ++ '\n' :: b) = some l := by
  rw [List.cons_append, first?_slash]
  rw [first?_slash] at h
  cases cs with
  | nil => cases h
  | cons d cs =>
    by_cases line : d = '/'
    · subst line
      have take : (cs ++ '\n' :: b).takeWhile (· != '\n') = cs.takeWhile (· != '\n') :=
        takeWhile_stop (by decide)
      rw [← h]
      simp only [lineComment, List.cons_append, take, Option.some_or]
    · have noLine : ∀ cs, lineComment ('/' :: d :: cs) = none := fun cs => by
        simp [lineComment, line]
      rw [noLine, Option.none_or] at h
      rw [List.cons_append, noLine, Option.none_or]
      by_cases block : d = '*'
      · subst block
        obtain ⟨text, through, rfl⟩ := Option.map_eq_some_iff.1 h
        exact Option.map_eq_some_iff.2 ⟨text, throughCommentEnd_append through, rfl⟩
      · simp [blockComment, block] at h

/-- **A lexeme in front of a line break is none of what follows**, unless it is made of the
blanks at the end of a text or of a name there. -/
theorem first?_newline {l : Lexeme} (h : first? cs = some l)
    (word : ∃ c ∈ cs, Text.isBlank c = false)
    (mark : ∀ c cs', cs = c :: cs' → isCapitalStart c = true →
      ∃ d ∈ cs', isNameChar d = false ∧ Text.isBlank d = false) :
    first? (cs ++ '\n' :: b) = some l := by
  have blanks := blanks_newline (b := b) word
  cases cs with
  | nil => cases h
  | cons c cs =>
    by_cases slash : c = '/'
    · subst slash
      exact comment_newline h
    · rw [← h]
      unfold first? patterns
      simp only [List.findSome?_cons, List.cons_append, lineComment_none slash,
        blockComment_none slash]
      simp only [← List.cons_append, blanks, hash_newline, className_newline, number_newline,
        lowerName_newline, capitalName_newline (mark c cs rfl), punctuation_newline,
        List.findSome?_nil]

end

end Lexeme

/-! ### Words up to a seam -/

/-- The kinds of marks behind which nothing of a text is left open. -/
def closers : List Kind := [.semicolon, .openCurly, .closeCurly]

/-- A word of such a kind has a character that is neither part of a name nor blank. -/
theorem Word.Spelled.closer {w : Word} (h : w.Spelled) (hk : w.kind ∈ closers) :
    ∃ c ∈ w.text.toList, Lexeme.isNameChar c = false ∧ Text.isBlank c = false := by
  have marks : w.kind ∈ Lexeme.marks.map Prod.fst := by
    revert hk
    cases w.kind <;> decide
  have all : ∀ m ∈ Lexeme.marks, m.1 ∈ closers →
      m.2.any (fun c => !Lexeme.isNameChar c && !Text.isBlank c) := by decide
  simpa only [List.any_eq_true, Bool.and_eq_true, Bool.not_eq_true'] using
    all _ (Lexeme.mark_of_spelled h marks) hk

/-- The characters of words are characters of the text. -/
theorem Lexes.mem_text {cs : List Char} {ws : List Word} (h : Lexes cs ws) :
    ∀ w ∈ ws, ∀ c ∈ w.text.toList, c ∈ cs := by
  induction h with
  | here => exact fun _ h => nomatch h
  | skip first more ih => exact fun w hw c hc => List.mem_of_mem_drop (ih w hw c hc)
  | @word cs text kind ws first more ih =>
    refine List.forall_mem_cons.2 ⟨fun c hc => ?_, fun w hw c hc => ?_⟩
    · rw [String.toList_ofList] at hc
      exact (Lexeme.text_prefix first).subset hc
    · exact List.mem_of_mem_drop (ih w hw c hc)

/-- What begins with a capital begins with a word. -/
theorem Lexeme.kind_of_capital {c : Char} {cs : List Char} {l : Lexeme}
    (start : isCapitalStart c = true) (h : first? (c :: cs) = some l) : l.kind ≠ none := by
  rw [first?_of_isNameChar (isNameChar_of_isCapitalStart start),
    number_none (isDigit_of_isCapitalStart start),
    lowerName_none (isLower_of_isCapitalStart start), capitalName, if_pos start] at h
  cases h
  exact Option.some_ne_none _

/-- Where a text that ends with a closing mark begins with a capital, more follows than the
name and blanks. -/
theorem Lexes.mark_of_capital {c : Char} {cs : List Char} {ws : List Word}
    (h : Lexes (c :: cs) ws) (last : ∀ w, ws.getLast? = some w → w.kind ∈ closers)
    (start : Lexeme.isCapitalStart c = true) :
    ∃ d ∈ cs, Lexeme.isNameChar d = false ∧ Text.isBlank d = false := by
  have nonempty : ws ≠ [] := by
    cases h with
    | skip first more => exact absurd rfl (Lexeme.kind_of_capital start first)
    | word first more => exact List.cons_ne_nil _ _
  have mem := List.getLast_mem nonempty
  obtain ⟨d, hd, noName, noBlank⟩ := (h.wellSpelled.spelled _ mem).closer
    (last _ (List.getLast?_eq_some_getLast nonempty))
  obtain rfl | member := List.mem_cons.1 (h.mem_text _ mem d hd)
  · cases noName.symm.trans (Lexeme.isNameChar_of_isCapitalStart start)
  · exact ⟨d, member, noName, noBlank⟩

/-- Blanks alone are no words, and none in front of others. -/
theorem lexes_blanks {cs : List Char} (blank : ∀ c ∈ cs, Text.isBlank c = true) {b : List Char}
    {vs : List Word} (h : Lexes b vs) : Lexes (cs ++ b) vs := by
  induction cs with
  | nil => exact h
  | cons c cs ih =>
    obtain ⟨first, rest⟩ := List.forall_mem_cons.1 blank
    exact (ih rest).blank first

theorem blank_or_word (cs : List Char) :
    (∀ c ∈ cs, Text.isBlank c = true) ∨ ∃ c ∈ cs, Text.isBlank c = false := by
  by_cases h : ∀ c ∈ cs, Text.isBlank c = true
  · exact .inl h
  · simp only [not_forall, Bool.not_eq_true, exists_prop] at h
    exact .inr h

theorem Lexes.nil_of_blanks {cs : List Char} (blank : ∀ c ∈ cs, Text.isBlank c = true)
    {ws : List Word} (h : Lexes cs ws) : ws = [] := by
  have h : Lexes (Text.trimStart cs) ws := (lexesTo_trimStart_iff h.start).2 h
  rw [Text.trimStart, List.dropWhile_eq_nil_iff.2 blank] at h
  cases h with
  | here => rfl
  | skip first more => cases first
  | word first more => cases first

section
variable {cs b : List Char} {ws vs : List Word}

/-- In such a text no lexeme is affected by what follows on the next line, unless it is the
blanks at the end. -/
theorem Lexes.first_newline {l : Lexeme} (h : Lexes cs ws)
    (last : ∀ w, ws.getLast? = some w → w.kind ∈ closers) (first : Lexeme.first? cs = some l)
    (word : ∃ c ∈ cs, Text.isBlank c = false) :
    Lexeme.first? (cs ++ '\n' :: b) = some l ∧
      (cs ++ '\n' :: b).drop l.text.length = cs.drop l.text.length ++ '\n' :: b := by
  constructor
  · refine Lexeme.first?_newline first word ?_
    rintro c cs rfl start
    exact h.mark_of_capital last start
  · exact List.drop_append_of_le_length (Lexeme.text_prefix first).length_le

/-- **The words of a text that ends with a closing mark are not affected by what follows**
on the next line. -/
theorem lexes_seam (h : Lexes cs ws) (last : ∀ w, ws.getLast? = some w → w.kind ∈ closers)
    (h' : Lexes b vs) : Lexes (cs ++ '\n' :: b) (ws ++ vs) := by
  have line : Lexes ('\n' :: b) vs := h'.blank (by decide)
  induction h with
  | here => exact line
  | @skip cs text ws skipped more ih =>
    have whole : Lexes cs ws := .skip skipped more
    obtain blank | word := blank_or_word cs
    · -- Blanks at the end of the text and the line break are one lexeme.
      rw [whole.nil_of_blanks blank]
      exact lexes_blanks blank line
    · obtain ⟨first, behind⟩ := whole.first_newline (b := b) last skipped word
      exact .skip first (behind.symm ▸ ih last)
  | @word cs text kind ws taken more ih =>
    have whole : Lexes cs (⟨kind, String.ofList text⟩ :: ws) := .word taken more
    obtain blank | word := blank_or_word cs
    · cases whole.nil_of_blanks blank
    · obtain ⟨first, behind⟩ := whole.first_newline (b := b) last taken word
      refine .word first (behind.symm ▸ ih fun w hw => last w ?_)
      rw [List.getLast?_cons, hw]
      rfl

end

end Typesheet
