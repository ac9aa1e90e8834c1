import Typesheet.Proofs.Layout
import Typesheet.Proofs.Seam

/-! A text continued otherwise.

Lexemes are found one by one from the front, so what a text consists of should not depend
on what follows it. It does where its last lexeme could go on in what follows, and where a
capital name with dashes looks for a colon. `Lexeme.Interchangeable` says when neither can
be noticed, and then each lexeme that ends inside the text is found in front of the one rest
as of the other (`Lexeme.first?_inside`). -/
namespace Typesheet

namespace Lexeme

/-! ### Which pattern applies, by the first character -/

section
variable {c : Char} {cs : List Char}

theorem first?_of_isBlank (h : Text.isBlank c = true) : first? (c :: cs) = blanks (c :: cs) := by
  have found : ∃ l, blanks (c :: cs) = some l := by
    unfold blanks
    rw [List.takeWhile_cons, h]
    exact ⟨_, rfl⟩
  obtain ⟨l, found⟩ := found
  unfold first? patterns
  rw [List.findSome?_cons, found]

theorem first?_of_isDigit (h : c.isDigit = true) : first? (c :: cs) = number (c :: cs) := by
  have found : ∃ l, number (c :: cs) = some l := by
    unfold number
    rw [List.takeWhile_cons, h]
    exact ⟨_, rfl⟩
  obtain ⟨l, found⟩ := found
  rw [first?_of_isNameChar (isNameChar_of_isDigit h), found]
  rfl

theorem first?_of_isLower (h : c.isLower = true) : first? (c :: cs) = lowerName (c :: cs) := by
  have isName : isNameChar c = true := isNameChar_iff.2 (.inr (.inl (isLower_iff.1 h)))
  rw [first?_of_isNameChar isName, number_none (isDigit_of_isLower h), lowerName, if_pos h]
  rfl

theorem first?_of_isCapitalStart (h : isCapitalStart c = true) :
    first? (c :: cs) = capitalName (c :: cs) := by
  rw [first?_of_isNameChar (isNameChar_of_isCapitalStart h),
    number_none (isDigit_of_isCapitalStart h), lowerName_none (isLower_of_isCapitalStart h),
    capitalName, if_pos h]
  rfl

/-- What begins neither a separator nor a name is read by one of three patterns, and the last
one does not apply where one of the others could. -/
theorem first?_of_mark (blank : Text.isBlank c = false) (slash : c ≠ '/')
    (digit : c.isDigit = false) (lower : c.isLower = false) (capital : isCapitalStart c = false) :
    first? (c :: cs) =
      if c = '#' then hash (c :: cs) else if c = '.' then className (c :: cs)
      else punctuation (c :: cs) := by
  unfold first? patterns
  simp only [List.findSome?_cons, blanks_none blank, lineComment_none slash,
    blockComment_none slash, number_none digit, lowerName_none lower, capitalName_none capital,
    List.findSome?_nil]
  by_cases hc : c = '#'
  · subst hc
    rw [if_pos rfl, className_none (by decide)]
    cases hash ('#' :: cs) <;> rfl
  · rw [if_neg hc, hash_none hc]
    by_cases hd : c = '.'
    · subst hd
      rw [if_pos rfl]
      cases className ('.' :: cs) <;> rfl
    · rw [if_neg hd, className_none hd]
      cases punctuation (c :: cs) <;> rfl

end

/-! ### Runs that end inside a text -/

section
variable {p : Char → Bool} {a b b' text : List Char}

theorem exists_of_takeWhile_inside (h : ((a ++ b).takeWhile p).length < a.length) :
    ∃ c ∈ a, p c = false := by
  by_contra all
  simp only [not_exists, not_and, Bool.not_eq_false] at all
  rw [List.takeWhile_append_of_pos all, List.length_append] at h
  omega

theorem takeWhile_inside (h : ((a ++ b).takeWhile p).length < a.length) :
    (a ++ b').takeWhile p = (a ++ b).takeWhile p := by
  have stop := exists_of_takeWhile_inside h
  rw [takeWhile_of_exists stop, takeWhile_of_exists stop]

/-- The end of a comment is found where it first can be, whatever follows. -/
theorem throughCommentEnd_of_closed (unclosed : ¬['*', '/'] <:+: text ++ ['*']) :
    throughCommentEnd (text ++ ['*', '/'] ++ b) = some (text ++ ['*', '/']) := by
  induction text with
  | nil => rfl
  | cons c text ih =>
    have later := ih fun inside => unclosed (inside.trans (List.infix_cons (List.infix_refl _)))
    rw [List.cons_append, List.cons_append, throughCommentEnd, later]
    · rfl
    · rintro cs rfl slash
      -- A slash behind this star would have closed the comment.
      cases text with
      | nil => cases slash
      | cons d text =>
        cases slash
        exact unclosed ⟨[], text ++ ['*'], rfl⟩

theorem throughCommentEnd_inside (h : throughCommentEnd (a ++ b) = some text)
    (inside : text.length ≤ a.length) : throughCommentEnd (a ++ b') = some text := by
  have taken := throughCommentEnd_prefix h
  have front : text <+: a :=
    List.prefix_of_prefix_length_le taken (List.prefix_append a b) inside
  obtain ⟨body, rfl, unclosed⟩ := throughCommentEnd_eq h
  obtain ⟨more, rfl⟩ := front
  rw [List.append_assoc]
  exact throughCommentEnd_of_closed unclosed

end

/-! ### What may follow instead -/

/-- Behind a text with this last character, its lexemes do not notice whether `rest` follows
or `other`, the latter being a text that no word runs into. -/
structure Interchangeable (last : Char) (rest other : List Char) : Prop where
  apart : Apart other
  /-- No colon becomes the beginning of an assignment, or the reverse. -/
  mark : last = ':' → rest.head? ≠ some '='
  /-- No name comes to stand in front of a colon. -/
  colon : colonFollows other = true → colonFollows rest = true
  /-- A name behind which there are only blanks had no colon to lose. -/
  blank : Text.isBlank last = true → colonFollows rest = false

section
variable {c d last : Char} {a b b' : List Char} {l : Lexeme}

theorem colonFollows_blanks (blank : ∀ c ∈ a, Text.isBlank c = true) :
    colonFollows (a ++ b) = colonFollows b := by
  unfold colonFollows Text.trimStart
  rw [List.dropWhile_append_of_pos blank]

/-- A text that goes on with a colon does not begin with a name. -/
theorem not_isNameChar_of_colonFollows {c : Char} {cs : List Char} (h : colonFollows (c :: cs) = true) :
    isNameChar c = false := by
  rw [Bool.eq_false_iff]
  intro name
  have trimmed : Text.trimStart (c :: cs) = c :: cs := by
    rw [Text.trimStart, List.dropWhile_cons, isBlank_of_isNameChar name]
    rfl
  have other : c ≠ ':' := by
    rintro rfl
    revert name
    decide
  simp [colonFollows, trimmed, other] at h

/-- Behind a part of the text the same colon is found, whichever rest follows. -/
theorem Interchangeable.colonFollows_eq (h : Interchangeable last b b')
    (ends : a.getLast? = some last) : colonFollows (a ++ b) = colonFollows (a ++ b') := by
  obtain blank | word := blank_or_word a
  · have none : colonFollows b = false := h.blank (blank last (List.mem_of_getLast? ends))
    have none' : colonFollows b' = false := by
      rw [Bool.eq_false_iff]
      intro colon
      cases none.symm.trans (h.colon colon)
    rw [colonFollows_blanks blank, colonFollows_blanks blank, none, none']
  · have mark : a.getLast? = some ':' → b.head? ≠ some '=' := fun colon =>
      h.mark (Option.some.inj (ends.symm.trans colon))
    have mark' : a.getLast? = some ':' → b'.head? ≠ some '=' := fun _ equals =>
      (h.apart '=' equals).2.2 rfl
    rw [colonFollows_append word mark, colonFollows_append word mark']

/-! ### Lexemes that end inside a text -/

theorem unit_inside (h : (unit (a ++ b)).2.length < a.length) (apart : Apart b') :
    unit (a ++ b') = unit (a ++ b) := by
  match a with
  | [] => cases h
  | [c] =>
    by_cases hp : c = 'p'
    · subst hp
      have scalar : ∀ {cs : List Char}, (∀ cs', cs ≠ 'x' :: cs') → unit ('p' :: cs) = (.scalar, []) := by
        intro cs hx
        cases cs with
        | nil => rfl
        | cons d cs =>
          have other : d ≠ 'x' := fun heq => hx cs (heq ▸ rfl)
          simp [unit, other]
      have none : ∀ cs', b ≠ 'x' :: cs' := by
        rintro cs rfl
        simp [unit] at h
      have none' : ∀ cs', b' ≠ 'x' :: cs' := by
        rintro cs rfl
        exact absurd (apart 'x' rfl).1 (by decide)
      rw [List.singleton_append, List.singleton_append, scalar none, scalar none']
    · by_cases hs : c = '%'
      · subst hs
        rfl
      · simp [unit, hp, hs]
  | c :: d :: a =>
    unfold unit
    split <;> simp_all

theorem blanks_inside (h : blanks (a ++ b) = some l) (inside : l.text.length < a.length) :
    blanks (a ++ b') = some l := by
  unfold blanks at h ⊢
  cases ht : (a ++ b).takeWhile Text.isBlank with
  | nil =>
    rw [ht] at h
    cases h
  | cons c text =>
    rw [ht] at h
    cases h
    rw [takeWhile_inside (by rw [ht]; exact inside), ht]

theorem hash_inside (h : hash (c :: a ++ b) = some l) (inside : l.text.length < (c :: a).length) :
    hash (c :: a ++ b') = some l := by
  by_cases hc : c = '#'
  · subst hc
    rw [List.cons_append] at h ⊢
    unfold hash at h ⊢
    simp only [] at h ⊢
    cases ht : (a ++ b).takeWhile isNameChar with
    | nil =>
      rw [ht] at h
      cases h
    | cons d name =>
      rw [ht] at h
      cases h
      rw [takeWhile_inside (by rw [ht]; exact Nat.lt_of_succ_lt_succ inside), ht]
  · rw [List.cons_append, hash_none hc] at h
    cases h

theorem className_inside (h : className (c :: d :: a ++ b) = some l)
    (inside : l.text.length < (c :: d :: a).length) : className (c :: d :: a ++ b') = some l := by
  by_cases hc : c = '.'
  · subst hc
    rw [List.cons_append, List.cons_append] at h ⊢
    unfold className at h ⊢
    simp only [] at h ⊢
    split at h
    · rename_i start
      cases h
      rw [if_pos start, takeWhile_inside (Nat.lt_of_succ_lt_succ (Nat.lt_of_succ_lt_succ inside))]
    · cases h
  · rw [List.cons_append, className_none hc] at h
    cases h

theorem number_inside (h : number (a ++ b) = some l) (inside : l.text.length < a.length)
    (apart : Apart b') : number (a ++ b') = some l := by
  have taken : ((a ++ b).takeWhile Char.isDigit).length ≤ l.text.length := by
    unfold number at h
    split at h
    · cases h
    · cases h
      rw [List.length_append]
      exact Nat.le_add_right _ _
  have stop := exists_of_takeWhile_inside (lt_of_le_of_lt taken inside)
  have drop : (a ++ b).drop (a.takeWhile Char.isDigit).length =
      a.drop (a.takeWhile Char.isDigit).length ++ b := drop_takeWhile_append
  have drop' : (a ++ b').drop (a.takeWhile Char.isDigit).length =
      a.drop (a.takeWhile Char.isDigit).length ++ b' := drop_takeWhile_append
  unfold number at h ⊢
  rw [takeWhile_of_exists stop] at h ⊢
  cases hd : a.takeWhile Char.isDigit with
  | nil =>
    rw [hd] at h
    cases h
  | cons d digits =>
    rw [hd] at h drop drop'
    simp only [drop] at h
    simp only [drop']
    cases h
    have unit := unit_inside (a := a.drop (d :: digits).length) (b := b) (by
      rw [List.length_drop]
      rw [List.length_append] at inside
      omega) apart
    rw [unit]

theorem lowerName_inside (h : lowerName (c :: a ++ b) = some l)
    (inside : l.text.length < (c :: a).length) : lowerName (c :: a ++ b') = some l := by
  rw [List.cons_append] at h ⊢
  unfold lowerName at h ⊢
  simp only [] at h ⊢
  split at h
  · rename_i start
    cases h
    rw [if_pos start, takeWhile_inside (Nat.lt_of_succ_lt_succ inside)]
  · cases h

/-- A name is cut at its first dash whichever rest follows, or whichever rest follows a colon
is found behind it. -/
theorem capitalName_inside (h : capitalName (c :: a ++ b) = some l)
    (inside : l.text.length < (c :: a).length) (ends : (c :: a).getLast? = some last)
    (same : Interchangeable last b b') : capitalName (c :: a ++ b') = some l := by
  rw [List.cons_append] at h ⊢
  unfold capitalName at h ⊢
  simp only [] at h ⊢
  split at h
  case isFalse => cases h
  rename_i start
  rw [if_pos start]
  by_cases stop : ∃ d ∈ a, isNameChar d = false
  · -- The name ends in the text, and what is behind it there is looked at.
    obtain ⟨-, nonempty⟩ := dropWhile_of_exists (b := b) stop
    have ends' : (a.dropWhile isNameChar).getLast? = some last := by
      have tail : a ≠ [] := by
        rintro rfl
        exact nonempty rfl
      rw [getLast?_dropWhile nonempty, ← ends, ← List.singleton_append,
        List.getLast?_append_of_ne_nil _ tail]
    rw [takeWhile_of_exists stop, drop_takeWhile_append, drop_takeWhile] at h ⊢
    rw [← same.colonFollows_eq ends']
    exact h
  · -- The whole text is a name. Had it been kept, it would not end inside the text.
    have all : ∀ d ∈ a, isNameChar d = true := by simpa using stop
    have tail : (a ++ b').takeWhile isNameChar = a :=
      takeWhile_of_apart all (fun _ name => name) same.apart
    rw [List.takeWhile_append_of_pos all] at h
    rw [tail, List.drop_left]
    split at h
    · cases h
      simp only [List.length_cons, List.length_append] at inside
      omega
    · rename_i none
      have none' : ¬colonFollows b' = true := by
        intro colon
        have colon := same.colon colon
        have start : b.takeWhile isNameChar = [] := by
          cases b with
          | nil => rfl
          | cons d b => rw [List.takeWhile_cons, not_isNameChar_of_colonFollows colon]; rfl
        rw [start, List.append_nil, List.drop_left] at none
        exact none colon
      cases h
      have name : (a ++ []).takeWhile (· != '-') =
          (a ++ b.takeWhile isNameChar).takeWhile (· != '-') :=
        takeWhile_inside (Nat.lt_of_succ_lt_succ inside)
      rw [List.append_nil] at name
      rw [if_neg none', name]

/-- A mark has two characters at most. -/
theorem punctuation_inside (h : punctuation (c :: d :: a ++ b) = some l) :
    punctuation (c :: d :: a ++ b') = some l := by
  rw [← h]
  by_cases hc : c = ':'
  · subst hc
    by_cases hd : d = '='
    · subst hd
      rfl
    · simp [punctuation, hd]
  · unfold punctuation
    split <;> simp_all

theorem comment_inside (h : first? ('/' :: d :: a ++ b) = some l)
    (inside : l.text.length < ('/' :: d :: a).length) : first? ('/' :: d :: a ++ b') = some l := by
  rw [List.cons_append, List.cons_append, first?_slash] at h ⊢
  by_cases line : d = '/'
  · subst line
    simp only [lineComment, Option.some_or] at h ⊢
    cases h
    rw [takeWhile_inside (Nat.lt_of_succ_lt_succ (Nat.lt_of_succ_lt_succ inside))]
  · have noLine : ∀ cs, lineComment ('/' :: d :: cs) = none := fun cs => by
      simp [lineComment, line]
    rw [noLine, Option.none_or] at h ⊢
    by_cases block : d = '*'
    · subst block
      obtain ⟨text, through, rfl⟩ := Option.map_eq_some_iff.1 h
      have inside := Nat.lt_of_succ_lt_succ (Nat.lt_of_succ_lt_succ inside)
      exact Option.map_eq_some_iff.2 ⟨text, throughCommentEnd_inside through inside.le, rfl⟩
    · simp [blockComment, block] at h

/-- **A lexeme that ends inside a text is found in front of either rest.** -/
theorem first?_inside (h : first? (a ++ b) = some l) (inside : l.text.length < a.length)
    (ends : a.getLast? = some last) (same : Interchangeable last b b') :
    first? (a ++ b') = some l := by
  have taken := List.length_pos_iff.2 (text_ne_nil h)
  match a, inside with
  | [c], inside => exact absurd taken (Nat.not_lt.2 (Nat.le_of_lt_succ inside))
  | c :: d :: a, inside =>
    by_cases blank : Text.isBlank c = true
    · rw [List.cons_append, first?_of_isBlank blank, ← List.cons_append] at h ⊢
      exact blanks_inside h inside
    by_cases slash : c = '/'
    · subst slash
      exact comment_inside h inside
    by_cases digit : c.isDigit = true
    · rw [List.cons_append, first?_of_isDigit digit, ← List.cons_append] at h ⊢
      exact number_inside h inside same.apart
    by_cases lower : c.isLower = true
    · rw [List.cons_append, first?_of_isLower lower, ← List.cons_append] at h ⊢
      exact lowerName_inside h inside
    by_cases capital : isCapitalStart c = true
    · rw [List.cons_append, first?_of_isCapitalStart capital, ← List.cons_append] at h ⊢
      exact capitalName_inside h inside ends same
    rw [Bool.not_eq_true] at blank digit lower capital
    rw [List.cons_append, first?_of_mark blank slash digit lower capital, ← List.cons_append] at h ⊢
    split at h
    · rw [if_pos ‹_›]
      exact hash_inside h inside
    · rw [if_neg ‹_›]
      split at h
      · rw [if_pos ‹_›]
        exact className_inside h inside
      · rw [if_neg ‹_›]
        exact punctuation_inside h

end

/-! ### Where the last lexeme of a text ends -/

section
variable {kind : Kind} {text rest : List Char}

theorem isNameChar_of_isClassStart {c : Char} (h : isClassStart c = true) :
    isNameChar c = true := by
  simp only [isClassStart, Bool.or_eq_true] at h
  simp only [isNameChar, Char.isAlphanum, Bool.or_eq_true]
  obtain (h | h) | h := h
  · exact .inl (.inl (.inl h))
  · exact .inl (.inr h)
  · exact .inr h

/-- A character of a word that is no mark: one of a name, or one that shows what kind of word
it is. -/
def isWordChar (c : Char) : Bool := isNameChar c || c == '#' || c == '.' || c == '%'

theorem isWordChar_of_isNameChar {c : Char} (h : isNameChar c = true) : isWordChar c = true := by
  rw [isWordChar, h]
  rfl

theorem isBlank_of_isWordChar {c : Char} (h : isWordChar c = true) : Text.isBlank c = false := by
  simp only [isWordChar, Bool.or_eq_true, beq_iff_eq] at h
  obtain ((name | rfl) | rfl) | rfl := h
  · exact isBlank_of_isNameChar name
  all_goals decide

theorem Spelled.chars (h : Spelled kind text) :
    (kind, text) ∈ marks ∨ ∀ c ∈ text, isWordChar c = true := by
  have names : ∀ {cs : List Char}, (∀ c ∈ cs, isNameChar c = true) → ∀ c ∈ cs, isWordChar c = true :=
    fun chars c hc => isWordChar_of_isNameChar (chars c hc)
  cases h with
  | hash nonempty chars => exact .inr (List.forall_mem_cons.2 ⟨by decide, names chars⟩)
  | className start chars =>
    refine .inr (List.forall_mem_cons.2 ⟨by decide, List.forall_mem_cons.2 ⟨?_, names chars⟩⟩)
    exact isWordChar_of_isNameChar (isNameChar_of_isClassStart start)
  | number nonempty chars unit =>
    have suffix : ∀ u ∈ units, u.2.all isWordChar = true := by decide
    refine .inr (List.forall_mem_append.2 ⟨?_, List.all_eq_true.1 (suffix _ unit)⟩)
    exact names fun c hc => isNameChar_of_isDigit (chars c hc)
  | lower start chars =>
    refine .inr (names (List.forall_mem_cons.2 ⟨isNameChar_iff.2 (.inr (.inl ?_)), fun c hc => ?_⟩))
    · exact isLower_iff.1 start
    · exact isNameChar_of_isLowerNameChar (chars c hc)
  | capital start chars =>
    exact .inr (names (List.forall_mem_cons.2 ⟨isNameChar_of_isCapitalStart start, chars⟩))
  | mark mark => exact .inl mark

/-- Of all words only marks have colons. -/
theorem Spelled.mark_of_colon (h : Spelled kind text) (colon : ':' ∈ text) :
    (kind, text) ∈ marks := by
  obtain mark | chars := h.chars
  · exact mark
  · exact absurd (chars ':' colon) (by decide)

/-- No word has blanks. -/
theorem Spelled.isBlank (h : Spelled kind text) : ∀ c ∈ text, Text.isBlank c = false := by
  obtain mark | chars := h.chars
  · have none : ∀ m ∈ marks, m.2.all (fun c => !Text.isBlank c) = true := by decide
    simpa only [List.all_eq_true, Bool.not_eq_true'] using none _ mark
  · exact fun c hc => isBlank_of_isWordChar (chars c hc)

/-- A word that ends with a colon is a colon and not the beginning of an assignment. -/
theorem head_of_word (h : first? (text ++ rest) = some ⟨some kind, text⟩)
    (ends : text.getLast? = some ':') : rest.head? ≠ some '=' := by
  have mark := (isWord_of_first? h).1.mark_of_colon (List.mem_of_getLast? ends)
  have colon : ∀ m ∈ marks, m.2.getLast? = some ':' → m.2 = [':'] := by decide
  obtain rfl : text = [':'] := colon _ mark ends
  intro equals
  obtain ⟨rest, rfl⟩ : ∃ more, rest = '=' :: more := by
    cases rest with
    | nil => cases equals
    | cons c rest =>
      cases equals
      exact ⟨rest, rfl⟩
  cases h

/-- A separator that ends with a colon is a comment that ends with its line. -/
theorem head_of_separator (h : first? (text ++ rest) = some ⟨none, text⟩)
    (ends : text.getLast? = some ':') : rest.head? ≠ some '=' := by
  obtain blank | ⟨body, rfl, inside, line⟩ | ⟨body, rfl, unclosed⟩ := separator_of_first? h
  · cases blank ':' (List.mem_of_getLast? ends)
  · rw [List.drop_left] at line
    intro equals
    cases line '=' equals
  · rw [List.getLast?_append] at ends
    cases ends

/-- A comment that is closed where it first can be is found whatever follows. -/
theorem first?_closed (unclosed : ¬['*', '/'] <:+: text ++ ['*']) :
    first? ('/' :: '*' :: text ++ ['*', '/'] ++ rest) =
      some ⟨none, '/' :: '*' :: text ++ ['*', '/']⟩ := by
  have noLine : ∀ cs, lineComment ('/' :: '*' :: cs) = none := fun cs => by simp [lineComment]
  rw [List.cons_append, List.cons_append, List.cons_append, List.cons_append, first?_slash, noLine,
    Option.none_or, blockComment, throughCommentEnd_of_closed unclosed]
  rfl

/-- A separator in front of nothing is the separator that it was. -/
theorem first?_separator (h : first? (text ++ rest) = some ⟨none, text⟩) :
    first? text = some ⟨none, text⟩ := by
  have nonempty := text_ne_nil h
  obtain blank | ⟨body, rfl, inside, -⟩ | ⟨body, rfl, unclosed⟩ := separator_of_first? h
  · cases text with
    | nil => exact absurd rfl nonempty
    | cons c text =>
      have whole : (c :: text).takeWhile Text.isBlank = c :: text :=
        List.takeWhile_eq_self_iff.2 blank
      rw [first?_of_isBlank (blank c List.mem_cons_self), blanks, whole]
  · have whole : body.takeWhile (· != '\n') = body := by
      refine List.takeWhile_eq_self_iff.2 fun c hc => ?_
      rw [bne_iff_ne]
      rintro rfl
      exact inside hc
    rw [first?_slash, lineComment, whole]
    rfl
  · rw [← List.append_nil ('/' :: '*' :: body ++ ['*', '/']), first?_closed unclosed,
      List.append_nil]

end

end Lexeme

/-! ### Texts read up to a rest -/

section
variable {front rest cs : List Char} {ws us : List Word}

theorem LexesTo.suffix (h : LexesTo rest cs ws) : rest <:+ cs := by
  induction h with
  | here => exact List.suffix_refl _
  | skip first more ih => exact ih.trans (List.drop_suffix _ _)
  | word first more ih => exact ih.trans (List.drop_suffix _ _)

/-- The first lexeme in front of a rest that is read up to does not reach into it. -/
theorem LexesTo.split {l : Lexeme} (first : Lexeme.first? (front ++ rest) = some l)
    (more : LexesTo rest ((front ++ rest).drop l.text.length) ws) :
    ∃ back, front = l.text ++ back ∧ (front ++ rest).drop l.text.length = back ++ rest := by
  have taken := Lexeme.text_prefix first
  have length := more.suffix.length_le
  rw [List.length_drop, List.length_append] at length
  have inside : l.text.length ≤ front.length := by
    have whole := taken.length_le
    rw [List.length_append] at whole
    omega
  obtain ⟨back, rfl⟩ := List.prefix_of_prefix_length_le taken (List.prefix_append _ _) inside
  exact ⟨back, rfl, by rw [List.append_assoc, List.drop_left]⟩

/-- The word that a lexeme makes, if it makes one. -/
def Lexeme.words (l : Lexeme) : List Word :=
  match l.kind with
  | none => []
  | some kind => [⟨kind, String.ofList l.text⟩]

theorem LexesTo.lexeme {l : Lexeme} (first : Lexeme.first? cs = some l)
    (more : LexesTo rest (cs.drop l.text.length) ws) : LexesTo rest cs (l.words ++ ws) := by
  obtain ⟨_ | kind, text⟩ := l
  · exact .skip first more
  · exact .word first more

/-- A text that is read up to a rest is built up from its end, one lexeme in front of the
other, and each is found where the others and the rest follow. -/
theorem LexesTo.front_induction {motive : List Char → List Word → Prop} (nil : motive [] [])
    (cons : ∀ {l : Lexeme} {back : List Char} {ws : List Word},
      Lexeme.first? (l.text ++ back ++ rest) = some l →
      LexesTo rest (l.text ++ back ++ rest) (l.words ++ ws) → motive back ws →
      motive (l.text ++ back) (l.words ++ ws))
    (h : LexesTo rest (front ++ rest) ws) : motive front ws := by
  generalize hcs : front ++ rest = cs at h
  induction h generalizing front with
  | here =>
    rw [List.append_left_eq_self] at hcs
    rw [hcs]
    exact nil
  | skip first more ih =>
    subst hcs
    obtain ⟨back, rfl, behind⟩ := LexesTo.split first more
    exact cons first (.lexeme first more) (ih behind.symm)
  | word first more ih =>
    subst hcs
    obtain ⟨back, rfl, behind⟩ := LexesTo.split first more
    exact cons first (.lexeme first more) (ih behind.symm)

/-- The words of a text are those up to a rest and those of the rest. -/
theorem LexesTo.lexes_iff (h : LexesTo rest cs ws) :
    Lexes cs us ↔ ∃ vs, us = ws ++ vs ∧ Lexes rest vs := by
  induction h generalizing us with
  | here => simp
  | @skip cs text ws first more ih =>
    have inside : cs ≠ [] := by
      rintro rfl
      cases first
    rw [Lexes, lexesTo_skip_iff first inside]
    exact ih
  | @word cs text kind ws first more ih =>
    rw [lexes_word_iff first]
    constructor
    · rintro ⟨later, rfl, lexes⟩
      obtain ⟨vs, rfl, behind⟩ := ih.1 lexes
      exact ⟨vs, rfl, behind⟩
    · rintro ⟨vs, rfl, behind⟩
      exact ⟨_, rfl, ih.2 ⟨vs, rfl, behind⟩⟩

end

end Typesheet
