import Mathlib.Data.List.TakeWhile
import Typesheet.Token.Lexeme

/-! What tokens look like.

`Lexeme.Spelled kind text` says that `text` is a word of a kind, without regard to how
words are recognised. The two directions of recognition are compared with it: a lexeme
that makes a token is spelled like one (`Lexeme.isWord_of_first?`), and a word that
nothing runs into is recognised in one piece (`Lexeme.first?_of_spelled`). A capital name
with dashes is the exception, which a colon has to follow. -/
namespace Typesheet.Lexeme

/-! ### Characters -/

theorem isLower_iff {c : Char} : c.isLower = true ↔ 97 ≤ c.toNat ∧ c.toNat ≤ 122 := by
  show (decide (c.val ≥ 'a'.val) && decide (c.val ≤ 'z'.val)) = true ↔ _
  simp only [Bool.and_eq_true, decide_eq_true_eq, ge_iff_le, UInt32.le_iff_toNat_le]
  exact Iff.rfl

theorem isUpper_iff {c : Char} : c.isUpper = true ↔ 65 ≤ c.toNat ∧ c.toNat ≤ 90 := by
  show decide (c.val ≥ 'A'.val ∧ c.val ≤ 'Z'.val) = true ↔ _
  simp only [decide_eq_true_eq, ge_iff_le, UInt32.le_iff_toNat_le]
  exact Iff.rfl

theorem isDigit_iff {c : Char} : c.isDigit = true ↔ 48 ≤ c.toNat ∧ c.toNat ≤ 57 := by
  simp only [Char.isDigit, Bool.and_eq_true, decide_eq_true_eq, UInt32.le_iff_toNat_le]
  exact Iff.rfl

theorem isNameChar_iff {c : Char} : isNameChar c = true ↔
    (65 ≤ c.toNat ∧ c.toNat ≤ 90) ∨ (97 ≤ c.toNat ∧ c.toNat ≤ 122) ∨
      (48 ≤ c.toNat ∧ c.toNat ≤ 57) ∨ c = '_' ∨ c = '-' := by
  show (c.isUpper || c.isLower || c.isDigit || c == '_' || c == '-') = true ↔ _
  simp only [Bool.or_eq_true, beq_iff_eq, isLower_iff, isUpper_iff, isDigit_iff, or_assoc]

theorem isNameChar_of_isLowerNameChar {c : Char} (h : isLowerNameChar c = true) :
    isNameChar c = true := by
  simp only [isLowerNameChar, Bool.or_eq_true, beq_iff_eq, isLower_iff, isDigit_iff] at h
  rw [isNameChar_iff]
  obtain (h | h) | h := h
  · exact .inr (.inl h)
  · exact .inr (.inr (.inl h))
  · exact .inr (.inr (.inr (.inr h)))

theorem isNameChar_of_isDigit {c : Char} (h : c.isDigit = true) : isNameChar c = true :=
  isNameChar_iff.2 (.inr (.inr (.inl (isDigit_iff.1 h))))

/-- A character of a name separates nothing. -/
theorem isBlank_of_isNameChar {c : Char} (h : isNameChar c = true) : Text.isBlank c = false := by
  rw [isNameChar_iff] at h
  rw [Bool.eq_false_iff]
  intro blank
  simp only [Text.isBlank, Bool.or_eq_true, Bool.and_eq_true, decide_eq_true_eq, beq_iff_eq]
    at blank
  obtain h | h | h | rfl | rfl := h
  · omega
  · omega
  · omega
  · revert blank
    decide
  · revert blank
    decide

/-! ### Words -/

/-- The marks of punctuation, by kind. -/
def marks : List (Kind × List Char) :=
  [(.assignment, [':', '=']), (.colon, [':']), (.semicolon, [';']), (.comma, [',']),
    (.openBracket, ['[']), (.closeBracket, [']']), (.openCurly, ['\x7b']),
    (.closeCurly, ['\x7d']), (.openParen, ['(']), (.closeParen, [')']), (.plus, ['+']),
    (.dash, ['-']), (.star, ['*'])]

/-- The kinds of numbers, with the unit each is written with. -/
def units : List (Kind × List Char) := [(.pixel, ['p', 'x']), (.percentage, ['%']), (.scalar, [])]

/-- A hash and a name make a colour or an id. -/
def hashKind (name : List Char) : Kind :=
  if name.length == 6 && name.all isHexDigit then .color else .idSelector

theorem hashKind_cases (name : List Char) : hashKind name = .color ∨ hashKind name = .idSelector := by
  unfold hashKind
  split
  · exact .inl rfl
  · exact .inr rfl

/-- The words of each kind. -/
inductive Spelled : Kind → List Char → Prop
  | hash {name : List Char} (nonempty : name ≠ []) (chars : ∀ c ∈ name, isNameChar c = true) :
      Spelled (hashKind name) ('#' :: name)
  | className {c : Char} {name : List Char} (start : isClassStart c = true)
      (chars : ∀ d ∈ name, isNameChar d = true) : Spelled .classSelector ('.' :: c :: name)
  | number {kind : Kind} {digits suffix : List Char} (nonempty : digits ≠ [])
      (chars : ∀ c ∈ digits, c.isDigit = true) (unit : (kind, suffix) ∈ units) :
      Spelled kind (digits ++ suffix)
  | lower {c : Char} {name : List Char} (start : c.isLower = true)
      (chars : ∀ d ∈ name, isLowerNameChar d = true) : Spelled (wordKind (c :: name)) (c :: name)
  | capital {c : Char} {name : List Char} (start : isCapitalStart c = true)
      (chars : ∀ d ∈ name, isNameChar d = true) : Spelled (wordKind (c :: name)) (c :: name)
  | mark {kind : Kind} {text : List Char} (mark : (kind, text) ∈ marks) : Spelled kind text

/-- A name with a capital and dashes, which only a property can have. -/
def Dashed (text : List Char) : Prop :=
  ∃ c name, text = c :: name ∧ isCapitalStart c = true ∧ '-' ∈ name

/-! ### Words are recognised -/

/-- A text that no word runs into. -/
def Apart (rest : List Char) : Prop :=
  ∀ c, rest.head? = some c → isNameChar c = false ∧ c ≠ '%' ∧ c ≠ '='

theorem apart_cons {c : Char} {cs : List Char} (h : isNameChar c = false ∧ c ≠ '%' ∧ c ≠ '=') :
    Apart (c :: cs) := by
  intro d hd
  cases hd
  exact h

theorem apart_newline {cs : List Char} : Apart ('\n' :: cs) := apart_cons (by decide)

theorem apart_space {cs : List Char} : Apart (' ' :: cs) := apart_cons (by decide)

theorem takeWhile_of_apart {p : Char → Bool} {name rest : List Char}
    (chars : ∀ c ∈ name, p c = true) (names : ∀ c, p c = true → isNameChar c = true)
    (apart : Apart rest) : (name ++ rest).takeWhile p = name := by
  have stop : rest.takeWhile p = [] := by
    cases rest with
    | nil => rfl
    | cons c cs =>
      have outside : p c = false := by
        rw [Bool.eq_false_iff]
        intro h
        cases (names c h).symm.trans (apart c rfl).1
      rw [List.takeWhile_cons, outside]
      rfl
  rw [List.takeWhile_append_of_pos chars, stop, List.append_nil]

section
variable {c : Char} {cs : List Char}

theorem blanks_none (h : Text.isBlank c = false) : blanks (c :: cs) = none := by
  rw [blanks, List.takeWhile_cons, h]
  rfl

theorem lineComment_none (h : c ≠ '/') : lineComment (c :: cs) = none := by
  unfold lineComment
  split
  · rename_i heq
    cases heq
    exact absurd rfl h
  · rfl

theorem blockComment_none (h : c ≠ '/') : blockComment (c :: cs) = none := by
  unfold blockComment
  split
  · rename_i heq
    cases heq
    exact absurd rfl h
  · rfl

theorem hash_none (h : c ≠ '#') : hash (c :: cs) = none := by
  unfold hash
  split
  · rename_i heq
    cases heq
    exact absurd rfl h
  · rfl

theorem className_none (h : c ≠ '.') : className (c :: cs) = none := by
  unfold className
  split
  · rename_i heq
    cases heq
    exact absurd rfl h
  · rfl

theorem number_none (h : c.isDigit = false) : number (c :: cs) = none := by
  rw [number, List.takeWhile_cons, h]
  rfl

theorem lowerName_none (h : c.isLower = false) : lowerName (c :: cs) = none := by
  rw [lowerName, h]
  rfl

theorem capitalName_none (h : isCapitalStart c = false) : capitalName (c :: cs) = none := by
  rw [capitalName, h]
  rfl

/-- At a character of a name the patterns up to names of classes do not apply. -/
theorem first?_of_isNameChar (h : isNameChar c = true) :
    first? (c :: cs) = (number (c :: cs)).or
      ((lowerName (c :: cs)).or ((capitalName (c :: cs)).or (punctuation (c :: cs)))) := by
  have comment : c ≠ '/' := by
    rintro rfl
    revert h
    decide
  have mark : c ≠ '#' := by
    rintro rfl
    revert h
    decide
  have dot : c ≠ '.' := by
    rintro rfl
    revert h
    decide
  unfold first? patterns
  simp only [List.findSome?_cons, blanks_none (isBlank_of_isNameChar h), lineComment_none comment,
    blockComment_none comment, hash_none mark, className_none dot]
  cases number (c :: cs) with
  | some l => rfl
  | none =>
    cases lowerName (c :: cs) with
    | some l => rfl
    | none =>
      cases capitalName (c :: cs) with
      | some l => rfl
      | none => cases punctuation (c :: cs) <;> rfl

end

theorem first?_hash {name rest : List Char} (nonempty : name ≠ [])
    (chars : ∀ c ∈ name, isNameChar c = true) (apart : Apart rest) :
    first? ('#' :: name ++ rest) = some ⟨some (hashKind name), '#' :: name⟩ := by
  have take := takeWhile_of_apart chars (fun _ h => h) apart
  have found : hash ('#' :: (name ++ rest)) = some ⟨some (hashKind name), '#' :: name⟩ := by
    unfold hash
    simp only [take]
    cases name with
    | nil => exact absurd rfl nonempty
    | cons c cs => rfl
  unfold first? patterns
  rw [List.cons_append]
  simp only [List.findSome?_cons, blanks_none (show Text.isBlank '#' = false by decide),
    lineComment_none (show '#' ≠ '/' by decide), blockComment_none (show '#' ≠ '/' by decide),
    found]

theorem first?_className {c : Char} {name rest : List Char} (start : isClassStart c = true)
    (chars : ∀ d ∈ name, isNameChar d = true) (apart : Apart rest) :
    first? ('.' :: c :: name ++ rest) = some ⟨some .classSelector, '.' :: c :: name⟩ := by
  have take := takeWhile_of_apart chars (fun _ h => h) apart
  have found : className ('.' :: c :: (name ++ rest)) =
      some ⟨some .classSelector, '.' :: c :: name⟩ := by
    unfold className
    simp only [if_pos start, take]
  unfold first? patterns
  rw [List.cons_append]
  simp only [List.findSome?_cons, blanks_none (show Text.isBlank '.' = false by decide),
    lineComment_none (show '.' ≠ '/' by decide), blockComment_none (show '.' ≠ '/' by decide),
    hash_none (show '.' ≠ '#' by decide), List.cons_append, found]

/-- Behind digits the unit is recognised, and no unit where there is none. -/
theorem unit_of_apart {kind : Kind} {suffix rest : List Char} (h : (kind, suffix) ∈ units)
    (apart : Apart rest) : unit (suffix ++ rest) = (kind, suffix) := by
  simp only [units, List.mem_cons, List.not_mem_nil, or_false, Prod.mk.injEq] at h
  obtain ⟨rfl, rfl⟩ | ⟨rfl, rfl⟩ | ⟨rfl, rfl⟩ := h
  · rfl
  · rfl
  · unfold unit
    split
    · rename_i heq
      have start := (apart 'p' (by rw [show rest = _ from heq]; rfl)).1
      revert start
      decide
    · rename_i heq
      exact absurd rfl (apart '%' (by rw [show rest = _ from heq]; rfl)).2.1
    · rfl

theorem first?_number {kind : Kind} {digits suffix rest : List Char} (nonempty : digits ≠ [])
    (chars : ∀ c ∈ digits, c.isDigit = true) (h : (kind, suffix) ∈ units) (apart : Apart rest) :
    first? (digits ++ suffix ++ rest) = some ⟨some kind, digits ++ suffix⟩ := by
  have behind : (suffix ++ rest).takeWhile Char.isDigit = [] := by
    simp only [units, List.mem_cons, List.not_mem_nil, or_false, Prod.mk.injEq] at h
    obtain ⟨rfl, rfl⟩ | ⟨rfl, rfl⟩ | ⟨rfl, rfl⟩ := h
    · rfl
    · rfl
    · have none : ∀ c ∈ ([] : List Char), c.isDigit = true := fun _ h => nomatch h
      exact takeWhile_of_apart none (fun _ h => isNameChar_of_isDigit h) apart
  have take : (digits ++ (suffix ++ rest)).takeWhile Char.isDigit = digits := by
    rw [List.takeWhile_append_of_pos chars, behind, List.append_nil]
  cases digits with
  | nil => exact absurd rfl nonempty
  | cons c cs =>
    have found : number (c :: (cs ++ (suffix ++ rest))) = some ⟨some kind, c :: cs ++ suffix⟩ := by
      unfold number
      rw [show c :: (cs ++ (suffix ++ rest)) = c :: cs ++ (suffix ++ rest) from rfl, take]
      simp only [List.drop_left, unit_of_apart h apart]
    rw [List.append_assoc, List.cons_append,
      first?_of_isNameChar (isNameChar_of_isDigit (chars c List.mem_cons_self)), found]
    rfl

theorem isDigit_of_isLower {c : Char} (h : c.isLower = true) : c.isDigit = false := by
  rw [Bool.eq_false_iff]
  intro digit
  rw [isLower_iff] at h
  rw [isDigit_iff] at digit
  omega

theorem first?_lower {c : Char} {name rest : List Char} (start : c.isLower = true)
    (chars : ∀ d ∈ name, isLowerNameChar d = true) (apart : Apart rest) :
    first? (c :: name ++ rest) = some ⟨some (wordKind (c :: name)), c :: name⟩ := by
  have take := takeWhile_of_apart chars (fun _ => isNameChar_of_isLowerNameChar) apart
  have found : lowerName (c :: (name ++ rest)) =
      some ⟨some (wordKind (c :: name)), c :: name⟩ := by
    unfold lowerName
    simp only [if_pos start, take]
  have isName : isNameChar c = true := isNameChar_iff.2 (.inr (.inl (isLower_iff.1 start)))
  rw [List.cons_append, first?_of_isNameChar isName, number_none (isDigit_of_isLower start), found]
  rfl

theorem isCapitalStart_iff {c : Char} :
    isCapitalStart c = true ↔ (65 ≤ c.toNat ∧ c.toNat ≤ 90) ∨ c = '_' := by
  simp only [isCapitalStart, Bool.or_eq_true, beq_iff_eq, isUpper_iff]

theorem isDigit_of_isCapitalStart {c : Char} (h : isCapitalStart c = true) :
    c.isDigit = false := by
  rw [Bool.eq_false_iff]
  intro digit
  rw [isDigit_iff] at digit
  obtain h | rfl := isCapitalStart_iff.1 h
  · omega
  · revert digit
    decide

theorem not_capital_of_isDigit {c : Char} (h : c.isDigit = true) : isCapitalStart c = false := by
  rw [Bool.eq_false_iff]
  intro capital
  cases (isDigit_of_isCapitalStart capital).symm.trans h

theorem isLower_of_isCapitalStart {c : Char} (h : isCapitalStart c = true) :
    c.isLower = false := by
  rw [Bool.eq_false_iff]
  intro lower
  rw [isLower_iff] at lower
  obtain h | rfl := isCapitalStart_iff.1 h
  · omega
  · revert lower
    decide

theorem isNameChar_of_isCapitalStart {c : Char} (h : isCapitalStart c = true) :
    isNameChar c = true := by
  obtain h | rfl := isCapitalStart_iff.1 h
  · exact isNameChar_iff.2 (.inl h)
  · decide

theorem first?_capital {c : Char} {name rest : List Char} (start : isCapitalStart c = true)
    (chars : ∀ d ∈ name, isNameChar d = true) (apart : Apart rest)
    (colon : '-' ∈ name → colonFollows rest = true) :
    first? (c :: name ++ rest) = some ⟨some (wordKind (c :: name)), c :: name⟩ := by
  have take := takeWhile_of_apart chars (fun _ h => h) apart
  have found : capitalName (c :: (name ++ rest)) =
      some ⟨some (wordKind (c :: name)), c :: name⟩ := by
    unfold capitalName
    simp only [if_pos start, take, List.drop_left]
    split
    · rfl
    · rename_i other
      have undashed : ∀ d ∈ name, (d != '-') = true := by
        intro d hd
        rw [bne_iff_ne]
        rintro rfl
        exact other (colon hd)
      rw [List.takeWhile_eq_self_iff.2 undashed]
  rw [List.cons_append, first?_of_isNameChar (isNameChar_of_isCapitalStart start),
    number_none (isDigit_of_isCapitalStart start), lowerName_none (isLower_of_isCapitalStart start),
    found]
  rfl

/-- A colon is the one mark that begins another. -/
theorem first?_colon {rest : List Char} (h : ∀ cs, rest ≠ '=' :: cs) :
    first? (':' :: rest) = some ⟨some .colon, [':']⟩ := by
  have found : punctuation (':' :: rest) = some ⟨some .colon, [':']⟩ := by
    unfold punctuation
    split
    · rename_i heq
      cases heq
      exact absurd rfl (h _)
    all_goals simp_all
  unfold first? patterns
  simp only [List.findSome?_cons, blanks_none (show Text.isBlank ':' = false by decide),
    lineComment_none (show ':' ≠ '/' by decide), blockComment_none (show ':' ≠ '/' by decide),
    hash_none (show ':' ≠ '#' by decide), className_none (show ':' ≠ '.' by decide),
    number_none (show ':'.isDigit = false by decide),
    lowerName_none (show ':'.isLower = false by decide),
    capitalName_none (show isCapitalStart ':' = false by decide), found]

theorem first?_mark {kind : Kind} {text rest : List Char} (h : (kind, text) ∈ marks)
    (apart : Apart rest) : first? (text ++ rest) = some ⟨some kind, text⟩ := by
  simp only [marks, List.mem_cons, List.not_mem_nil, or_false, Prod.mk.injEq] at h
  obtain ⟨rfl, rfl⟩ | ⟨rfl, rfl⟩ | ⟨rfl, rfl⟩ | ⟨rfl, rfl⟩ | ⟨rfl, rfl⟩ | ⟨rfl, rfl⟩ | ⟨rfl, rfl⟩ |
    ⟨rfl, rfl⟩ | ⟨rfl, rfl⟩ | ⟨rfl, rfl⟩ | ⟨rfl, rfl⟩ | ⟨rfl, rfl⟩ | ⟨rfl, rfl⟩ := h
  case inr.inl =>
    refine first?_colon ?_
    rintro cs rfl
    exact (apart '=' rfl).2.2 rfl
  all_goals rfl

/-- **A word is recognised in one piece where nothing runs into it**, if a colon follows
where one has to. -/
theorem first?_of_spelled {kind : Kind} {text rest : List Char} (h : Spelled kind text)
    (apart : Apart rest) (colon : Dashed text → colonFollows rest = true) :
    first? (text ++ rest) = some ⟨some kind, text⟩ := by
  cases h with
  | hash nonempty chars => exact first?_hash nonempty chars apart
  | className start chars => exact first?_className start chars apart
  | number nonempty chars unit => exact first?_number nonempty chars unit apart
  | lower start chars => exact first?_lower start chars apart
  | capital start chars =>
    exact first?_capital start chars apart fun dash => colon ⟨_, _, rfl, start, dash⟩
  | mark mark => exact first?_mark mark apart

/-! ### What is recognised is a word -/

theorem unit_mem (cs : List Char) : unit cs ∈ units := by
  unfold unit
  split <;> decide

/-- A word, and behind a capital name with dashes the text goes on with a colon. -/
def IsWord (cs : List Char) (kind : Kind) (text : List Char) : Prop :=
  Spelled kind text ∧ (Dashed text → colonFollows (cs.drop text.length) = true)

theorem not_dashed {c : Char} {name : List Char} (h : isCapitalStart c = false) :
    ¬Dashed (c :: name) := by
  rintro ⟨d, _, heq, capital, -⟩
  cases heq
  cases h.symm.trans capital

section
variable {cs text : List Char} {kind : Kind}

/-- A word that does not begin with a capital has no dashes behind one. -/
theorem Spelled.isWord {c : Char} {name : List Char} (h : Spelled kind (c :: name))
    (start : isCapitalStart c = false) : IsWord cs kind (c :: name) :=
  ⟨h, fun dashed => absurd dashed (not_dashed start)⟩

theorem isWord_of_hash (h : hash cs = some ⟨some kind, text⟩) : IsWord cs kind text := by
  unfold hash at h
  split at h
  · split at h
    · cases h
    · rename_i nonempty
      cases h
      exact (Spelled.hash nonempty fun _ hc => List.mem_takeWhile_imp hc).isWord (by decide)
  · cases h

theorem isWord_of_className (h : className cs = some ⟨some kind, text⟩) : IsWord cs kind text := by
  unfold className at h
  split at h
  · split at h
    · rename_i start
      cases h
      exact (Spelled.className start fun _ hc => List.mem_takeWhile_imp hc).isWord (by decide)
    · cases h
  · cases h

theorem isWord_of_number (h : number cs = some ⟨some kind, text⟩) : IsWord cs kind text := by
  have chars : ∀ c ∈ cs.takeWhile Char.isDigit, c.isDigit = true := fun _ =>
    List.mem_takeWhile_imp
  unfold number at h
  cases hd : cs.takeWhile Char.isDigit with
  | nil =>
    rw [hd] at h
    cases h
  | cons c digits =>
    rw [hd] at chars h
    cases h
    have start : isCapitalStart c = false := by
      rw [Bool.eq_false_iff]
      intro capital
      cases (isDigit_of_isCapitalStart capital).symm.trans (chars c List.mem_cons_self)
    exact Spelled.isWord (.number (List.cons_ne_nil _ _) chars (unit_mem _)) start

theorem isWord_of_lowerName (h : lowerName cs = some ⟨some kind, text⟩) : IsWord cs kind text := by
  unfold lowerName at h
  split at h
  · split at h
    · rename_i lower
      cases h
      refine (Spelled.lower lower fun _ hc => List.mem_takeWhile_imp hc).isWord ?_
      rw [Bool.eq_false_iff]
      intro capital
      cases (isLower_of_isCapitalStart capital).symm.trans lower
    · cases h
  · cases h

/-- A capital name either has a colon behind it or ends before its first dash. -/
theorem isWord_of_capitalName (h : capitalName cs = some ⟨some kind, text⟩) :
    IsWord cs kind text := by
  unfold capitalName at h
  split at h
  · split at h
    · rename_i start
      cases h
      split
      · rename_i follows
        refine ⟨.capital start fun _ hc => List.mem_takeWhile_imp hc, fun _ => ?_⟩
        exact follows
      · refine ⟨.capital start fun d hd => ?_, ?_⟩
        · exact List.mem_takeWhile_imp (List.takeWhile_subset _ hd)
        · rintro ⟨d, name, heq, -, dash⟩
          cases heq
          exact absurd (List.mem_takeWhile_imp dash) (by decide)
    · cases h
  · cases h

theorem isWord_of_punctuation (h : punctuation cs = some ⟨some kind, text⟩) :
    IsWord cs kind text := by
  unfold punctuation at h
  split at h <;> cases h <;> exact Spelled.isWord (.mark (by decide)) (by decide)

/-- **What makes a token is a word of its kind.** -/
theorem isWord_of_first? (h : first? cs = some ⟨some kind, text⟩) : IsWord cs kind text := by
  obtain ⟨pattern, hp, h⟩ := List.exists_of_findSome?_eq_some h
  simp only [patterns, List.mem_cons, List.not_mem_nil, or_false] at hp
  rcases hp with rfl | rfl | rfl | rfl | rfl | rfl | rfl | rfl | rfl
  · unfold blanks at h
    split at h <;> cases h
  · unfold lineComment at h
    split at h <;> cases h
  · unfold blockComment at h
    split at h
    · obtain ⟨_, _, heq⟩ := Option.map_eq_some_iff.1 h
      cases heq
    · cases h
  · exact isWord_of_hash h
  · exact isWord_of_className h
  · exact isWord_of_number h
  · exact isWord_of_lowerName h
  · exact isWord_of_capitalName h
  · exact isWord_of_punctuation h

end

/-! ### A lexeme is the beginning of a text -/

theorem drop_takeWhile {p : Char → Bool} {cs : List Char} :
    cs.drop (cs.takeWhile p).length = cs.dropWhile p := by
  conv => lhs; arg 2; rw [← List.takeWhile_append_dropWhile (p := p) (l := cs)]
  rw [List.drop_left]

theorem throughCommentEnd_prefix {cs text : List Char} (h : throughCommentEnd cs = some text) :
    text <+: cs := by
  induction cs using throughCommentEnd.induct generalizing text with
  | case1 => cases h
  | case2 cs =>
    cases h
    simp
  | case3 c cs other ih =>
    rw [throughCommentEnd] at h
    · obtain ⟨rest, hrest, rfl⟩ := Option.map_eq_some_iff.1 h
      exact List.cons_prefix_cons.2 ⟨rfl, ih hrest⟩
    · exact other

theorem unit_prefix (cs : List Char) : (unit cs).2 <+: cs := by
  unfold unit
  split <;> simp

/-- A lexeme takes a beginning of the text. -/
theorem text_prefix {cs : List Char} {l : Lexeme} (h : first? cs = some l) : l.text <+: cs := by
  obtain ⟨pattern, hp, h⟩ := List.exists_of_findSome?_eq_some h
  simp only [patterns, List.mem_cons, List.not_mem_nil, or_false] at hp
  rcases hp with rfl | rfl | rfl | rfl | rfl | rfl | rfl | rfl | rfl
  · unfold blanks at h
    split at h <;> cases h
    exact List.takeWhile_prefix _
  · unfold lineComment at h
    split at h <;> cases h
    exact List.cons_prefix_cons.2 ⟨rfl, List.cons_prefix_cons.2 ⟨rfl, List.takeWhile_prefix _⟩⟩
  · unfold blockComment at h
    split at h
    · obtain ⟨text, through, rfl⟩ := Option.map_eq_some_iff.1 h
      have inside := throughCommentEnd_prefix through
      exact List.cons_prefix_cons.2 ⟨rfl, List.cons_prefix_cons.2 ⟨rfl, inside⟩⟩
    · cases h
  · unfold hash at h
    split at h
    · split at h <;> cases h
      exact List.cons_prefix_cons.2 ⟨rfl, List.takeWhile_prefix _⟩
    · cases h
  · unfold className at h
    split at h
    · split at h <;> cases h
      exact List.cons_prefix_cons.2 ⟨rfl, List.cons_prefix_cons.2 ⟨rfl, List.takeWhile_prefix _⟩⟩
    · cases h
  · unfold number at h
    split at h
    · cases h
    · cases h
      obtain ⟨rest, behind⟩ := unit_prefix (cs.drop (cs.takeWhile Char.isDigit).length)
      refine ⟨rest, ?_⟩
      show cs.takeWhile Char.isDigit ++ (unit (cs.drop _)).2 ++ rest = cs
      rw [List.append_assoc, behind, drop_takeWhile, List.takeWhile_append_dropWhile]
  · unfold lowerName at h
    split at h
    · split at h <;> cases h
      exact List.cons_prefix_cons.2 ⟨rfl, List.takeWhile_prefix _⟩
    · cases h
  · unfold capitalName at h
    split at h
    · split at h <;> cases h
      refine List.cons_prefix_cons.2 ⟨rfl, ?_⟩
      split
      · exact List.takeWhile_prefix _
      · exact (List.takeWhile_prefix _).trans (List.takeWhile_prefix _)
    · cases h
  · unfold punctuation at h
    split at h <;> cases h <;> simp

/-! ### Words by their kinds -/

/-- The kinds that names can be of. -/
def nameKinds : List Kind := [.ifWord, .elseWord, .trueWord, .falseWord, .identifier]

theorem wordKind_mem (name : List Char) : wordKind name ∈ nameKinds := by
  unfold wordKind
  split <;> decide

/-- The forms of words, which their kinds tell apart. -/
theorem Spelled.forms {kind : Kind} {text : List Char} (h : Spelled kind text) :
    (kind ∈ [Kind.color, Kind.idSelector] ∧
      ∃ name, text = '#' :: name ∧ name ≠ [] ∧ ∀ c ∈ name, isNameChar c = true) ∨
    (kind ∈ [Kind.classSelector] ∧ ∃ name, text = '.' :: name) ∨
    (kind ∈ units.map Prod.fst ∧ ∃ digits suffix, text = digits ++ suffix ∧ digits ≠ [] ∧
      (∀ c ∈ digits, c.isDigit = true) ∧ (kind, suffix) ∈ units) ∨
    kind ∈ nameKinds ∨ (kind ∈ marks.map Prod.fst ∧ (kind, text) ∈ marks) := by
  cases h with
  | hash nonempty chars =>
    refine .inl ⟨?_, _, rfl, nonempty, chars⟩
    obtain h | h := hashKind_cases _ <;> rw [h] <;> decide
  | className => exact .inr (.inl ⟨by decide, _, rfl⟩)
  | number nonempty chars unit =>
    exact .inr (.inr (.inl ⟨List.mem_map_of_mem unit, _, _, rfl, nonempty, chars, unit⟩))
  | lower => exact .inr (.inr (.inr (.inl (wordKind_mem _))))
  | capital => exact .inr (.inr (.inr (.inl (wordKind_mem _))))
  | mark mark => exact .inr (.inr (.inr (.inr ⟨List.mem_map_of_mem mark, mark⟩)))

section
variable {kind : Kind} {text : List Char}

/-- Colours and ids are hashes with names. -/
theorem hash_of_spelled (h : Spelled kind text) (hk : kind ∈ [Kind.color, Kind.idSelector]) :
    ∃ name, text = '#' :: name ∧ name ≠ [] ∧ ∀ c ∈ name, isNameChar c = true := by
  obtain ⟨-, name⟩ | ⟨other, -⟩ | ⟨other, -⟩ | other | ⟨other, -⟩ := h.forms
  · exact name
  all_goals
    exfalso
    revert hk other
    cases kind <;> decide

/-- Names of classes are dots with names. -/
theorem className_of_spelled (h : Spelled .classSelector text) : ∃ name, text = '.' :: name := by
  obtain ⟨other, -⟩ | ⟨-, name⟩ | ⟨other, -⟩ | other | ⟨other, -⟩ := h.forms
  case inr.inl => exact name
  all_goals exact absurd other (by decide)

/-- Numbers are digits with a unit. -/
theorem number_of_spelled (h : Spelled kind text) (hk : kind ∈ units.map Prod.fst) :
    ∃ digits suffix, text = digits ++ suffix ∧ digits ≠ [] ∧
      (∀ c ∈ digits, c.isDigit = true) ∧ (kind, suffix) ∈ units := by
  obtain ⟨other, -⟩ | ⟨other, -⟩ | ⟨-, number⟩ | other | ⟨other, -⟩ := h.forms
  case inr.inr.inl => exact number
  all_goals
    exfalso
    revert hk other
    cases kind <;> decide

theorem mark_of_spelled (h : Spelled kind text) (hk : kind ∈ marks.map Prod.fst) :
    (kind, text) ∈ marks := by
  obtain ⟨other, -⟩ | ⟨other, -⟩ | ⟨other, -⟩ | other | ⟨-, mark⟩ := h.forms
  case inr.inr.inr.inr => exact mark
  all_goals
    exfalso
    revert hk other
    cases kind <;> decide

theorem Spelled.kind_ne_eof (h : Spelled kind text) : kind ≠ .eof := by
  rintro rfl
  obtain ⟨other, -⟩ | ⟨other, -⟩ | ⟨other, -⟩ | other | ⟨other, -⟩ := h.forms <;>
    exact absurd other (by decide)

end

/-! ### Deciding what can be spelled -/

/-- A word that is not dashed is spelled like one of its kind just when it is found to be
one. -/
theorem spelled_iff {kind : Kind} {text : List Char} :
    Spelled kind text ∧ ¬Dashed text ↔ first? text = some ⟨some kind, text⟩ := by
  constructor
  · rintro ⟨spelled, undashed⟩
    have first : first? (text ++ []) = some ⟨some kind, text⟩ :=
      first?_of_spelled spelled (fun _ h => nomatch h) fun dashed => absurd dashed undashed
    rwa [List.append_nil] at first
  · intro first
    obtain ⟨spelled, colon⟩ := isWord_of_first? first
    rw [List.drop_length] at colon
    exact ⟨spelled, fun dashed => nomatch colon dashed⟩

/-- A colour is never dashed. -/
theorem spelled_color_iff {text : List Char} :
    Spelled .color text ↔ first? text = some ⟨some .color, text⟩ := by
  refine ⟨fun spelled => spelled_iff.1 ⟨spelled, ?_⟩, fun first => (isWord_of_first? first).1⟩
  obtain ⟨name, rfl, -⟩ := hash_of_spelled spelled (by decide)
  exact not_dashed (by decide)

/-- A name is spelled like one just when it is found in front of a colon. -/
theorem spelled_identifier_iff {name : List Char} : Spelled .identifier name ↔
    first? (name ++ [':']) = some ⟨some .identifier, name⟩ :=
  ⟨fun spelled => first?_of_spelled spelled (apart_cons (by decide)) fun _ => rfl,
    fun first => (isWord_of_first? first).1⟩

end Typesheet.Lexeme
