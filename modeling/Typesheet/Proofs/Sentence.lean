import Mathlib
import Typesheet.Proofs.Readback
import Typesheet.Proofs.Soundness

/-! The sentences that are read.

The grammar of stylesheets, production by production, on the kinds of tokens:

    stylesheet  := (assignment | stylerule)*
    assignment  := IDENT ':=' expr ';'
    stylerule   := selector (',' selector)* '{' body '}'
    body        := (declaration | assignment | if)*
    declaration := IDENT ':' expr ';'
    if          := 'if' ('[' expr ']' | '(' expr ')') '{' body '}' ('else' '{' body '}')?
    expr        := literal | IDENT | expr ('+' | '-' | '*') expr | '(' expr ')'

It is ambiguous in expressions, but it does not have to say which tree is meant. A token
list is read just when its kinds are a sentence and its numbers are amounts
(`ofTokens_ok_iff`): a tree is written with a sentence, and for a sentence there is a tree
that is written with it, since operands and operators can be grouped as their strengths
demand (`Expr.WrittenAs.join`). -/
namespace Typesheet

/-! ### The grammar -/

namespace Grammar

/-- The kinds of tokens that spell values. -/
def literals : List Kind := [.pixel, .percentage, .scalar, .color, .trueWord, .falseWord]

def operators : List Kind := [.plus, .dash, .star]

/-- The kinds of tokens that spell selectors. What reads as a colour is an id there. -/
def selectors : List Kind := [.identifier, .classSelector, .idSelector, .color]

inductive IsExpr : List Kind → Prop
  | literal {k : Kind} (h : k ∈ literals) : IsExpr [k]
  | name : IsExpr [.identifier]
  | operation {l r : List Kind} {k : Kind} (left : IsExpr l) (h : k ∈ operators)
      (right : IsExpr r) : IsExpr (l ++ k :: r)
  | grouping {e : List Kind} (inner : IsExpr e) : IsExpr (.openParen :: (e ++ [.closeParen]))

/-- A name, a mark and the expression that it gives to the name. -/
inductive IsGiven (mark : Kind) : List Kind → Prop
  | intro {e : List Kind} (value : IsExpr e) :
      IsGiven mark (.identifier :: mark :: (e ++ [.semicolon]))

abbrev IsAssignment : List Kind → Prop := IsGiven .assignment

abbrev IsDeclaration : List Kind → Prop := IsGiven .colon

inductive IsCondition : List Kind → Prop
  | brackets {e : List Kind} (value : IsExpr e) :
      IsCondition (.openBracket :: (e ++ [.closeBracket]))
  | parentheses {e : List Kind} (value : IsExpr e) :
      IsCondition (.openParen :: (e ++ [.closeParen]))

/-- Tokens between braces. -/
def braced (ks : List Kind) : List Kind := .openCurly :: (ks ++ [.closeCurly])

inductive IsBody : List Kind → Prop
  | nil : IsBody []
  | declaration {d b : List Kind} (first : IsDeclaration d) (rest : IsBody b) : IsBody (d ++ b)
  | assignment {a b : List Kind} (first : IsAssignment a) (rest : IsBody b) : IsBody (a ++ b)
  | ifClause {c t b : List Kind} (condition : IsCondition c) (whenTrue : IsBody t)
      (rest : IsBody b) : IsBody (.ifWord :: (c ++ (braced t ++ b)))
  | ifElse {c t f b : List Kind} (condition : IsCondition c) (whenTrue : IsBody t)
      (whenFalse : IsBody f) (rest : IsBody b) :
      IsBody (.ifWord :: (c ++ (braced t ++ .elseWord :: (braced f ++ b))))

/-- Selectors between commas. -/
inductive IsSelectors : List Kind → Prop
  | last {k : Kind} (h : k ∈ selectors) : IsSelectors [k]
  | more {k : Kind} {ks : List Kind} (h : k ∈ selectors) (rest : IsSelectors ks) :
      IsSelectors (k :: .comma :: ks)

inductive IsRule : List Kind → Prop
  | intro {s b : List Kind} (selectors : IsSelectors s) (body : IsBody b) : IsRule (s ++ braced b)

inductive IsSheet : List Kind → Prop
  | nil : IsSheet []
  | assignment {a b : List Kind} (first : IsAssignment a) (rest : IsSheet b) : IsSheet (a ++ b)
  | rule {r b : List Kind} (first : IsRule r) (rest : IsSheet b) : IsSheet (r ++ b)

end Grammar

open Grammar

/-! ### Words by their kinds -/

namespace Word

/-- The word spells no number, or one that is an amount. -/
def Readable (w : Word) : Prop := ∀ cause, w.literal? ≠ some (.error cause)

theorem mem_literals_iff {w : Word} : w.kind ∈ literals ↔ ∃ r, w.literal? = some r := by
  obtain ⟨kind, text⟩ := w
  cases kind <;> simp [literals, literal?, Token.literal?]

theorem mem_selectors_iff {w : Word} : w.kind ∈ selectors ↔ ∃ s, w.selector? = some s := by
  obtain ⟨kind, text⟩ := w
  cases kind <;> simp [selectors, selector?]

theorem mem_operators_iff {k : Kind} : k ∈ operators ↔ ∃ op, k.operator? = some op := by
  cases k <;> simp [operators, Kind.operator?]

theorem readable_of_kind {w : Word} (h : w.kind ∉ literals) : w.Readable :=
  fun cause error => h (mem_literals_iff.2 ⟨.error cause, error⟩)

/-- A word for a value that is readable has a value. -/
theorem Readable.value {w : Word} (h : w.Readable) (kind : w.kind ∈ literals) :
    ∃ v, w.literal? = some (.ok v) := by
  obtain ⟨r, hr⟩ := mem_literals_iff.1 kind
  cases r with
  | ok v => exact ⟨v, hr⟩
  | error cause => exact absurd hr (h cause)

theorem readable_of_selector? {w : Word} {s : Selector} (h : w.selector? = some s) :
    w.Readable := by
  obtain ⟨kind, text⟩ := w
  intro cause error
  cases kind <;> simp [selector?, literal?, Token.literal?] at h error

theorem eq_of_kind {w : Word} {k : Kind} (h : w.kind = k) : w = ⟨k, w.text⟩ := by
  subst h
  rfl

end Word

/-- The kinds of the words are as `P` says, and the numbers among them are amounts. -/
structure Sentence (P : List Kind → Prop) (ws : List Word) : Prop where
  kinds : P (ws.map Word.kind)
  readable : ∀ w ∈ ws, w.Readable

/-- Marks around words are no numbers. -/
theorem readable_enclosed {o c : Word} {ws : List Word} (ho : o.kind ∉ literals)
    (h : ∀ w ∈ ws, w.Readable) (hc : c.kind ∉ literals) : ∀ w ∈ o :: (ws ++ [c]), w.Readable := by
  refine List.forall_mem_cons.2 ⟨Word.readable_of_kind ho, List.forall_mem_append.2 ⟨h, ?_⟩⟩
  exact List.forall_mem_singleton.2 (Word.readable_of_kind hc)

/-! ### Trees are written with sentences -/

section
variable {ws : List Word}

theorem Expr.WrittenAs.sentence {e : Expr} {floor : Strength} (h : e.WrittenAs floor ws) :
    Sentence IsExpr ws := by
  induction h with
  | @literal _ v _ _ w value =>
    refine ⟨.literal (Word.mem_literals_iff.2 ⟨_, value⟩), List.forall_mem_singleton.2 ?_⟩
    intro cause error
    cases value.symm.trans error
  | reference =>
    refine ⟨.name, List.forall_mem_singleton.2 (Word.readable_of_kind ?_)⟩
    show Kind.identifier ∉ literals
    decide
  | @grouping e floor opening closing ws ho hc inner ih =>
    constructor
    · rw [List.map_cons, List.map_append, ho, List.map_singleton, hc]
      exact .grouping ih.kinds
    · exact readable_enclosed (by rw [ho]; decide) ih.readable (by rw [hc]; decide)
  | @operation _ op l r _ floor sign wl wr hs exceeds left right ihl ihr =>
    have operator : sign.kind ∈ operators := Word.mem_operators_iff.2 ⟨op, hs⟩
    have noLiteral : sign.kind ∉ literals := by
      revert operator
      cases sign.kind <;> decide
    constructor
    · rw [List.map_append, List.map_cons]
      exact .operation ihl.kinds operator ihr.kinds
    · exact List.forall_mem_append.2 ⟨ihl.readable,
        List.forall_mem_cons.2 ⟨Word.readable_of_kind noLiteral, ihr.readable⟩⟩

theorem Given.sentence {mark : Kind} {name : String} {value : Expr} (h : Given mark name value ws)
    (hmark : mark ∉ literals) : Sentence (IsGiven mark) ws := by
  obtain ⟨m, wv, s, rfl, hm, written, hs⟩ := h
  have inner := written.sentence
  constructor
  · rw [List.map_cons, List.map_cons, List.map_append, List.map_singleton, hm, hs]
    exact .intro inner.kinds
  · refine List.forall_mem_cons.2 ⟨Word.readable_of_kind (by decide : Kind.identifier ∉ _), ?_⟩
    exact readable_enclosed (hm ▸ hmark) inner.readable (by rw [hs]; decide)

theorem conditionEnd?_cases {opening closing : Kind}
    (h : Parse.conditionEnd? opening = some closing) :
    opening = .openBracket ∧ closing = .closeBracket ∨
      opening = .openParen ∧ closing = .closeParen := by
  cases opening <;> cases h <;> simp

theorem Expr.IsCondition.sentence {e : Expr} (h : e.IsCondition ws) :
    Sentence Grammar.IsCondition ws := by
  obtain ⟨opening, closing, ends, o, wv, c, rfl, ho, hc, written⟩ := h
  have inner := written.sentence
  obtain ⟨rfl, rfl⟩ | ⟨rfl, rfl⟩ := conditionEnd?_cases ends
  · refine ⟨?_, readable_enclosed (by rw [ho]; decide) inner.readable (by rw [hc]; decide)⟩
    rw [List.map_cons, List.map_append, List.map_singleton, ho, hc]
    exact .brackets inner.kinds
  · refine ⟨?_, readable_enclosed (by rw [ho]; decide) inner.readable (by rw [hc]; decide)⟩
    rw [List.map_cons, List.map_append, List.map_singleton, ho, hc]
    exact .parentheses inner.kinds

theorem Enclosed.sentence {P : List Word → Prop} {Q : List Kind → Prop} (h : Braced P ws)
    (inner : ∀ ws, P ws → Sentence Q ws) : Sentence (fun ks => ∃ b, Q b ∧ ks = braced b) ws := by
  obtain ⟨o, wb, c, rfl, ho, hc, hP⟩ := h
  have body := inner wb hP
  constructor
  · refine ⟨_, body.kinds, ?_⟩
    rw [List.map_cons, List.map_append, List.map_singleton, ho, hc, braced]
  · exact readable_enclosed (by rw [ho]; decide) body.readable (by rw [hc]; decide)

end

theorem bodyWrittenAs_sentence :
    (∀ (item : Item) ws, item.WrittenAs ws → ∀ vs, Sentence IsBody vs →
      Sentence IsBody (ws ++ vs)) ∧
    ∀ (items : List Item) ws, bodyWrittenAs items ws → Sentence IsBody ws := by
  apply Item.body_induction
  case declaration =>
    intro d ws h vs rest
    have first := Given.sentence h (by decide)
    constructor
    · rw [List.map_append]
      exact .declaration first.kinds rest.kinds
    · exact List.forall_mem_append.2 ⟨first.readable, rest.readable⟩
  case assignment =>
    intro a ws h vs rest
    have first := Given.sentence h (by decide)
    constructor
    · rw [List.map_append]
      exact .assignment first.kinds rest.kinds
    · exact List.forall_mem_append.2 ⟨first.readable, rest.readable⟩
  case ifClause =>
    rintro ⟨id, condition, body, otherwise, span⟩ ih ws h vs rest
    unfold Item.WrittenAs at h
    obtain ⟨word, wc, wb, wo, rfl, hw, hcondition, hbody, hother⟩ := h
    have first := hcondition.sentence
    obtain ⟨⟨t, ht, hwb⟩, readable⟩ := Enclosed.sentence hbody (ih true)
    have noLiteral : word.Readable := Word.readable_of_kind (by rw [hw]; decide)
    simp only [List.cons_append, List.append_assoc]
    cases otherwise with
    | none =>
      cases hother
      constructor
      · simp only [List.map_cons, List.map_append, hw, hwb, List.nil_append]
        exact .ifClause first.kinds ht rest.kinds
      · refine List.forall_mem_cons.2 ⟨noLiteral, List.forall_mem_append.2 ⟨first.readable, ?_⟩⟩
        exact List.forall_mem_append.2 ⟨readable, rest.readable⟩
    | some other =>
      obtain ⟨elseWord, wf, rfl, he, hfalse⟩ := hother
      obtain ⟨⟨f, hf, hwf⟩, readable'⟩ := Enclosed.sentence hfalse (ih false)
      have noLiteral' : elseWord.Readable := Word.readable_of_kind (by rw [he]; decide)
      constructor
      · simp only [List.map_cons, List.map_append, hw, hwb, he, hwf, List.cons_append]
        exact .ifElse first.kinds ht hf rest.kinds
      · refine List.forall_mem_cons.2 ⟨noLiteral, List.forall_mem_append.2 ⟨first.readable, ?_⟩⟩
        refine List.forall_mem_append.2 ⟨readable, List.forall_mem_cons.2 ⟨noLiteral', ?_⟩⟩
        exact List.forall_mem_append.2 ⟨readable', rest.readable⟩
  case nil =>
    rintro ws rfl
    exact ⟨.nil, List.forall_mem_nil _⟩
  case cons =>
    rintro item items first rest _ ⟨front, back, rfl, hfront, hback⟩
    exact first front hfront back (rest back hback)

section
variable {ws : List Word}

theorem furtherWrittenAs_sentence {s : Selector} {selectors : List Selector} {w : Word}
    (hw : w.selector? = some s) (h : furtherWrittenAs selectors ws) :
    Sentence IsSelectors (w :: ws) := by
  induction selectors generalizing s w ws with
  | nil =>
    cases h
    refine ⟨.last (Word.mem_selectors_iff.2 ⟨s, hw⟩), ?_⟩
    exact List.forall_mem_singleton.2 (Word.readable_of_selector? hw)
  | cons t selectors ih =>
    obtain ⟨comma, v, rest, rfl, hcomma, hv, hrest⟩ := h
    have back := ih hv hrest
    have noLiteral : comma.Readable := Word.readable_of_kind (by rw [hcomma]; decide)
    constructor
    · rw [List.map_cons, List.map_cons, hcomma]
      exact .more (Word.mem_selectors_iff.2 ⟨s, hw⟩) back.kinds
    · refine List.forall_mem_cons.2 ⟨Word.readable_of_selector? hw, ?_⟩
      exact List.forall_mem_cons.2 ⟨noLiteral, back.readable⟩

theorem Rule.WrittenAs.sentence {r : Rule} (h : r.WrittenAs ws) : Sentence IsRule ws := by
  obtain ⟨s, selectors, w, further, wb, -, rfl, hw, hfurther, hbody⟩ := h
  have first := furtherWrittenAs_sentence hw hfurther
  obtain ⟨⟨b, hb, hwb⟩, readable⟩ := Enclosed.sentence hbody (bodyWrittenAs_sentence.2 r.body)
  rw [← List.cons_append]
  constructor
  · rw [List.map_append, hwb]
    exact .intro first.kinds hb
  · exact List.forall_mem_append.2 ⟨first.readable, readable⟩

theorem membersWrittenAs_sentence {members : List Member} (h : membersWrittenAs members ws) :
    Sentence IsSheet ws := by
  induction members generalizing ws with
  | nil =>
    cases h
    exact ⟨.nil, fun _ h => nomatch h⟩
  | cons m members ih =>
    obtain ⟨front, back, rfl, first, written⟩ := h
    have rest := ih written
    cases m with
    | assignment a =>
      have first := Given.sentence first (by decide)
      refine ⟨?_, List.forall_mem_append.2 ⟨first.readable, rest.readable⟩⟩
      rw [List.map_append]
      exact .assignment first.kinds rest.kinds
    | rule r =>
      have first := Rule.WrittenAs.sentence first
      refine ⟨?_, List.forall_mem_append.2 ⟨first.readable, rest.readable⟩⟩
      rw [List.map_append]
      exact .rule first.kinds rest.kinds

end

/-! ### Sentences are what trees are written with -/

/-- Words around others, by their kinds. -/
theorem enclosed_of_kinds {ws : List Word} {opening closing : Kind} {ks : List Kind}
    (h : ws.map Word.kind = opening :: (ks ++ [closing])) :
    Enclosed opening closing (·.map Word.kind = ks) ws := by
  obtain ⟨o, rest, rfl, ho, hrest⟩ := List.map_eq_cons_iff.1 h
  obtain ⟨inner, last, rfl, hinner, hlast⟩ := List.map_eq_append_iff.1 hrest
  obtain ⟨c, rfl, hc⟩ := List.map_eq_singleton_iff.1 hlast
  exact ⟨o, inner, c, rfl, ho, hc, hinner⟩

namespace Expr.WrittenAs

/-- One more operation with an operand takes as much for its left operand as its strength
lets it take. -/
theorem snoc {e : Expr} {floor : Strength} {ws vs : List Word} {sign : Word} {op : Operator}
    (h : e.WrittenAs floor ws) (hs : sign.kind.operator? = some op)
    (exceeds : op.strength.exceeds floor = true) (p : Expr)
    (operand : ∀ floor, p.WrittenAs floor vs) :
    ∃ e' : Expr, e'.WrittenAs floor (ws ++ sign :: vs) := by
  have behind : ∀ (e : Expr) {floor ws}, e.WrittenAs op.floor ws →
      op.strength.exceeds floor = true → ∃ e' : Expr, e'.WrittenAs floor (ws ++ sign :: vs) :=
    fun e _ _ left exceeds => ⟨.operation 0 op e p .nowhere, .operation hs exceeds left (operand _)⟩
  induction h with
  | @literal id v span _ _ value => exact behind (.literal id v span) (.literal value) exceeds
  | @reference id name span => exact behind (.reference id name span) .reference exceeds
  | grouping ho hc inner => exact behind _ (.grouping ho hc inner) exceeds
  | @operation id op' l r span floor sign' wl wr hs' exceeds' left right _ ihr =>
    by_cases stronger : op.strength.exceeds op'.strength = true
    · -- The operation goes on in the right operand.
      obtain ⟨r', right'⟩ := ihr stronger
      refine ⟨.operation id op' l r' span, ?_⟩
      rw [List.append_assoc, List.cons_append]
      exact .operation hs' exceeds' left right'
    · rw [Strength.exceeds_iff] at stronger
      refine behind (.operation id op' l r span) (.operation hs' ?_ left right) exceeds
      rw [Strength.exceeds_iff]
      have level := op.level_strength
      omega

/-- **Two expressions with an operator between them are an expression**, though the
operands may be other ones. -/
theorem join {e e' : Expr} {floor : Strength} {ws vs : List Word} {sign : Word} {op : Operator}
    (h : e.WrittenAs .lowest ws) (hs : sign.kind.operator? = some op)
    (h' : e'.WrittenAs floor vs) : ∃ e'' : Expr, e''.WrittenAs .lowest (ws ++ sign :: vs) := by
  have exceeds : ∀ op : Operator, op.strength.exceeds .lowest = true := by
    intro op
    cases op <;> rfl
  induction h' generalizing e ws sign op with
  | @literal id v span _ _ value =>
    exact h.snoc hs (exceeds op) (.literal id v span) fun _ => .literal value
  | @reference id name span =>
    exact h.snoc hs (exceeds op) (.reference id name span) fun _ => .reference
  | grouping ho hc inner => exact h.snoc hs (exceeds op) _ fun _ => .grouping ho hc inner
  | operation hs' _ left right ihl ihr =>
    obtain ⟨e₁, front⟩ := ihl h hs
    obtain ⟨e₂, whole⟩ := ihr front hs'
    rw [List.append_assoc, List.cons_append] at whole
    exact ⟨e₂, whole⟩

end Expr.WrittenAs

section
variable {ws : List Word}

theorem exists_expr (h : Sentence IsExpr ws) : ∃ e : Expr, e.WrittenAs .lowest ws := by
  obtain ⟨kinds, readable⟩ := h
  generalize hk : ws.map Word.kind = ks at kinds
  induction kinds generalizing ws with
  | literal h =>
    obtain ⟨w, rfl, hw⟩ := List.map_eq_singleton_iff.1 hk
    obtain ⟨v, value⟩ := (readable w List.mem_cons_self).value (hw ▸ h)
    exact ⟨.literal 0 v .nowhere, .literal value⟩
  | name =>
    obtain ⟨w, rfl, hw⟩ := List.map_eq_singleton_iff.1 hk
    rw [Word.eq_of_kind hw]
    exact ⟨.reference 0 w.text .nowhere, .reference⟩
  | operation left h right ihl ihr =>
    obtain ⟨wl, rest, rfl, hl, hrest⟩ := List.map_eq_append_iff.1 hk
    obtain ⟨sign, wr, rfl, hsign, hr⟩ := List.map_eq_cons_iff.1 hrest
    obtain ⟨readableLeft, readableRest⟩ := List.forall_mem_append.1 readable
    obtain ⟨l, leftWritten⟩ := ihl readableLeft hl
    obtain ⟨r, rightWritten⟩ := ihr (List.forall_mem_cons.1 readableRest).2 hr
    obtain ⟨op, hop⟩ := Word.mem_operators_iff.1 h
    exact leftWritten.join (hsign ▸ hop) rightWritten
  | grouping inner ih =>
    obtain ⟨o, wi, c, rfl, ho, hc, hinner⟩ := enclosed_of_kinds hk
    obtain ⟨-, readable⟩ := List.forall_mem_cons.1 readable
    obtain ⟨e, written⟩ := ih (List.forall_mem_append.1 readable).1 hinner
    exact ⟨e, .grouping ho hc written⟩

theorem exists_given {mark : Kind} (h : Sentence (IsGiven mark) ws) :
    ∃ name value, Given mark name value ws := by
  obtain ⟨kinds, readable⟩ := h
  generalize hk : ws.map Word.kind = ks at kinds
  obtain ⟨value⟩ := kinds
  obtain ⟨n, rest, rfl, hn, hrest⟩ := List.map_eq_cons_iff.1 hk
  obtain ⟨m, wv, s, rfl, hm, hs, hv⟩ := enclosed_of_kinds hrest
  obtain ⟨-, readable⟩ := List.forall_mem_cons.1 (List.forall_mem_cons.1 readable).2
  obtain ⟨e, written⟩ := exists_expr ⟨hv ▸ value, (List.forall_mem_append.1 readable).1⟩
  rw [Word.eq_of_kind hn]
  exact ⟨n.text, e, m, wv, s, rfl, hm, written, hs⟩

theorem exists_condition (h : Sentence Grammar.IsCondition ws) : ∃ e : Expr, e.IsCondition ws := by
  obtain ⟨kinds, readable⟩ := h
  have within : ∀ {opening closing e}, ws.map Word.kind = opening :: (e ++ [closing]) →
      IsExpr e → ∃ e : Expr, Enclosed opening closing (e.WrittenAs .lowest) ws := by
    intro opening closing e hk value
    obtain ⟨o, wv, c, rfl, ho, hc, hv⟩ := enclosed_of_kinds hk
    obtain ⟨-, readable⟩ := List.forall_mem_cons.1 readable
    obtain ⟨e, written⟩ := exists_expr ⟨hv ▸ value, (List.forall_mem_append.1 readable).1⟩
    exact ⟨e, o, wv, c, rfl, ho, hc, written⟩
  generalize hk : ws.map Word.kind = ks at kinds
  cases kinds with
  | brackets value =>
    obtain ⟨e, enclosed⟩ := within hk value
    exact ⟨e, .openBracket, .closeBracket, rfl, enclosed⟩
  | parentheses value =>
    obtain ⟨e, enclosed⟩ := within hk value
    exact ⟨e, .openParen, .closeParen, rfl, enclosed⟩

theorem exists_braced {ks : List Kind} {P : List Item → List Word → Prop}
    (hk : ws.map Word.kind = braced ks) (readable : ∀ w ∈ ws, w.Readable)
    (inner : ∀ {ws : List Word}, (∀ w ∈ ws, w.Readable) → ws.map Word.kind = ks →
      ∃ items, P items ws) : ∃ items, Braced (P items) ws := by
  obtain ⟨o, wb, c, rfl, ho, hc, hb⟩ := enclosed_of_kinds hk
  obtain ⟨-, readable⟩ := List.forall_mem_cons.1 readable
  obtain ⟨items, written⟩ := inner (List.forall_mem_append.1 readable).1 hb
  exact ⟨items, o, wb, c, rfl, ho, hc, written⟩

theorem exists_body (h : Sentence IsBody ws) : ∃ items, bodyWrittenAs items ws := by
  obtain ⟨kinds, readable⟩ := h
  generalize hk : ws.map Word.kind = ks at kinds
  induction kinds generalizing ws with
  | nil => exact ⟨[], List.map_eq_nil_iff.1 hk⟩
  | declaration first rest ih =>
    obtain ⟨wd, wb, rfl, hd, hb⟩ := List.map_eq_append_iff.1 hk
    obtain ⟨readable, readableRest⟩ := List.forall_mem_append.1 readable
    obtain ⟨name, value, given⟩ := exists_given ⟨hd ▸ first, readable⟩
    obtain ⟨items, written⟩ := ih readableRest hb
    exact ⟨.declaration ⟨0, name, value, .nowhere⟩ :: items, wd, wb, rfl, given, written⟩
  | assignment first rest ih =>
    obtain ⟨wa, wb, rfl, ha, hb⟩ := List.map_eq_append_iff.1 hk
    obtain ⟨readable, readableRest⟩ := List.forall_mem_append.1 readable
    obtain ⟨name, value, given⟩ := exists_given ⟨ha ▸ first, readable⟩
    obtain ⟨items, written⟩ := ih readableRest hb
    exact ⟨.assignment ⟨0, name, value, .nowhere⟩ :: items, wa, wb, rfl, given, written⟩
  | ifClause condition whenTrue rest iht ihb =>
    obtain ⟨word, behind, rfl, hw, hk⟩ := List.map_eq_cons_iff.1 hk
    obtain ⟨wc, behind, rfl, hc, hk⟩ := List.map_eq_append_iff.1 hk
    obtain ⟨wt, wb, rfl, ht, hb⟩ := List.map_eq_append_iff.1 hk
    obtain ⟨readableFirst, readable⟩ := List.forall_mem_append.1 (List.forall_mem_cons.1 readable).2
    obtain ⟨readableTrue, readable⟩ := List.forall_mem_append.1 readable
    obtain ⟨e, hcondition⟩ := exists_condition ⟨hc ▸ condition, readableFirst⟩
    obtain ⟨body, hbody⟩ := exists_braced ht readableTrue iht
    obtain ⟨items, written⟩ := ihb readable hb
    refine ⟨.ifClause ⟨0, e, body, none, .nowhere⟩ :: items, word :: (wc ++ wt), wb, ?_, ?_, written⟩
    · rw [List.cons_append, List.append_assoc]
    · unfold Item.WrittenAs
      exact ⟨word, wc, wt, [], by rw [List.append_nil], hw, hcondition, hbody, rfl⟩
  | ifElse condition whenTrue whenFalse rest iht ihf ihb =>
    obtain ⟨word, behind, rfl, hw, hk⟩ := List.map_eq_cons_iff.1 hk
    obtain ⟨wc, behind, rfl, hc, hk⟩ := List.map_eq_append_iff.1 hk
    obtain ⟨wt, behind, rfl, ht, hk⟩ := List.map_eq_append_iff.1 hk
    obtain ⟨elseWord, behind, rfl, he, hk⟩ := List.map_eq_cons_iff.1 hk
    obtain ⟨wf, wb, rfl, hf, hb⟩ := List.map_eq_append_iff.1 hk
    obtain ⟨readableFirst, readable⟩ := List.forall_mem_append.1 (List.forall_mem_cons.1 readable).2
    obtain ⟨readableTrue, readable⟩ := List.forall_mem_append.1 readable
    obtain ⟨readableFalse, readable⟩ :=
      List.forall_mem_append.1 (List.forall_mem_cons.1 readable).2
    obtain ⟨e, hcondition⟩ := exists_condition ⟨hc ▸ condition, readableFirst⟩
    obtain ⟨body, hbody⟩ := exists_braced ht readableTrue iht
    obtain ⟨other, hother⟩ := exists_braced hf readableFalse ihf
    obtain ⟨items, written⟩ := ihb readable hb
    refine ⟨.ifClause ⟨0, e, body, some ⟨0, other, .nowhere⟩, .nowhere⟩ :: items,
      word :: (wc ++ (wt ++ elseWord :: wf)), wb, ?_, ?_, written⟩
    · simp only [List.cons_append, List.append_assoc]
    · unfold Item.WrittenAs
      exact ⟨word, wc, wt, elseWord :: wf, rfl, hw, hcondition, hbody, elseWord, wf, rfl, he, hother⟩

theorem exists_selectors (h : IsSelectors (ws.map Word.kind)) :
    ∃ s selectors w further, ws = w :: further ∧ w.selector? = some s ∧
      furtherWrittenAs selectors further := by
  generalize hk : ws.map Word.kind = ks at h
  induction h generalizing ws with
  | last h =>
    obtain ⟨w, rfl, hw⟩ := List.map_eq_singleton_iff.1 hk
    obtain ⟨s, hs⟩ := Word.mem_selectors_iff.1 (hw ▸ h)
    exact ⟨s, [], w, [], rfl, hs, rfl⟩
  | more h rest ih =>
    obtain ⟨w, behind, rfl, hw, hk⟩ := List.map_eq_cons_iff.1 hk
    obtain ⟨comma, behind, rfl, hcomma, hk⟩ := List.map_eq_cons_iff.1 hk
    obtain ⟨s, hs⟩ := Word.mem_selectors_iff.1 (hw ▸ h)
    obtain ⟨t, selectors, v, further, rfl, hv, hfurther⟩ := ih hk
    exact ⟨s, t :: selectors, w, _, rfl, hs, comma, v, further, rfl, hcomma, hv, hfurther⟩

theorem exists_rule (h : Sentence IsRule ws) : ∃ r : Rule, r.WrittenAs ws := by
  obtain ⟨kinds, readable⟩ := h
  generalize hk : ws.map Word.kind = ks at kinds
  obtain ⟨selectors, body⟩ := kinds
  obtain ⟨wsel, wb, rfl, hs, hb⟩ := List.map_eq_append_iff.1 hk
  obtain ⟨s, more, w, further, rfl, hw, hfurther⟩ := exists_selectors (hs ▸ selectors)
  obtain ⟨-, readable⟩ := List.forall_mem_append.1 readable
  obtain ⟨items, braced⟩ := exists_braced hb readable fun readable hk =>
    exists_body ⟨hk ▸ body, readable⟩
  exact ⟨⟨0, s :: more, items, .nowhere⟩, s, more, w, further, wb, rfl, rfl, hw, hfurther, braced⟩

theorem exists_members (h : Sentence IsSheet ws) : ∃ members, membersWrittenAs members ws := by
  obtain ⟨kinds, readable⟩ := h
  generalize hk : ws.map Word.kind = ks at kinds
  induction kinds generalizing ws with
  | nil => exact ⟨[], List.map_eq_nil_iff.1 hk⟩
  | assignment first rest ih =>
    obtain ⟨wa, wb, rfl, ha, hb⟩ := List.map_eq_append_iff.1 hk
    obtain ⟨readable, readableRest⟩ := List.forall_mem_append.1 readable
    obtain ⟨name, value, given⟩ := exists_given ⟨ha ▸ first, readable⟩
    obtain ⟨members, written⟩ := ih readableRest hb
    exact ⟨.assignment ⟨0, name, value, .nowhere⟩ :: members, wa, wb, rfl, given, written⟩
  | rule first rest ih =>
    obtain ⟨wr, wb, rfl, hr, hb⟩ := List.map_eq_append_iff.1 hk
    obtain ⟨readable, readableRest⟩ := List.forall_mem_append.1 readable
    obtain ⟨r, hrule⟩ := exists_rule ⟨hr ▸ first, readable⟩
    obtain ⟨members, written⟩ := ih readableRest hb
    exact ⟨.rule r :: members, wr, wb, rfl, hrule, written⟩

end

/-! ### Numbers -/

namespace Grammar

/-- The kinds of tokens that spell numbers. -/
def numbers : List Kind := [.pixel, .percentage, .scalar]

end Grammar

/-- The digits of the token denote a number below 2^63, if it spells one. -/
def Token.InRange (t : Token) : Prop :=
  t.kind ∈ numbers → Text.ofDigits (t.value.toList.takeWhile Char.isDigit) ≤ 2 ^ 63 - 1

/-- The number of a word is read from its digits. -/
theorem Word.literal?_number {kind : Kind} {digits suffix : List Char} (nonempty : digits ≠ [])
    (chars : ∀ c ∈ digits, c.isDigit = true) (unit : (kind, suffix) ∈ Lexeme.units) :
    ∃ d, literal? ⟨kind, String.ofList (digits ++ suffix)⟩ =
      some (match Amount.ofInt? (Text.ofDigits digits) with
        | some a => .ok (.number d a)
        | none => .error (.numberParseError (String.ofList (digits ++ suffix)))) := by
  have read := Amount.ofText?_digits nonempty chars
  simp only [Lexeme.units, List.mem_cons, List.not_mem_nil, or_false, Prod.mk.injEq] at unit
  obtain ⟨rfl, rfl⟩ | ⟨rfl, rfl⟩ | ⟨rfl, rfl⟩ := unit
  · refine ⟨.pixel, ?_⟩
    cases ha : Amount.ofInt? (Text.ofDigits digits) <;>
      simp only [literal?, Token.literal?, String.toList_ofList, dropPixelUnits_append chars, read,
        ha]
  · refine ⟨.percentage, ?_⟩
    cases ha : Amount.ofInt? (Text.ofDigits digits) <;>
      simp only [literal?, Token.literal?, String.toList_ofList, dropPercentSigns_append chars, read,
        ha]
  · refine ⟨.scalar, ?_⟩
    cases ha : Amount.ofInt? (Text.ofDigits digits) <;>
      simp only [literal?, Token.literal?, String.toList_ofList, List.append_nil, read, ha]

theorem takeWhile_isDigit_of_unit {kind : Kind} {digits suffix : List Char}
    (chars : ∀ c ∈ digits, c.isDigit = true) (unit : (kind, suffix) ∈ Lexeme.units) :
    (digits ++ suffix).takeWhile Char.isDigit = digits := by
  have stop : suffix.takeWhile Char.isDigit = [] := by
    simp only [Lexeme.units, List.mem_cons, List.not_mem_nil, or_false, Prod.mk.injEq] at unit
    obtain ⟨-, rfl⟩ | ⟨-, rfl⟩ | ⟨-, rfl⟩ := unit <;> decide
  rw [List.takeWhile_append_of_pos chars, stop, List.append_nil]

/-- **A token that is spelled like its kind is readable just when its number is in range.** -/
theorem Token.readable_iff {t : Token} (h : t.word.Spelled) : t.word.Readable ↔ t.InRange := by
  obtain ⟨kind, value, span⟩ := t
  by_cases number : kind ∈ numbers
  · obtain ⟨digits, suffix, text, nonempty, chars, (unit : (kind, suffix) ∈ Lexeme.units)⟩ :=
      Lexeme.number_of_spelled h number
    obtain rfl : value = String.ofList (digits ++ suffix) := by
      rw [← text]
      exact String.ofList_toList.symm
    obtain ⟨d, read⟩ := Word.literal?_number nonempty chars unit
    have inRange : Token.InRange ⟨kind, String.ofList (digits ++ suffix), span⟩ ↔
        Text.ofDigits digits ≤ 2 ^ 63 - 1 := by
      unfold InRange
      rw [String.toList_ofList, takeWhile_isDigit_of_unit chars unit]
      exact ⟨fun h => h number, fun h _ => h⟩
    rw [inRange]
    show (∀ cause, Word.literal? ⟨kind, String.ofList (digits ++ suffix)⟩ ≠ some (.error cause)) ↔ _
    rw [read]
    cases amount : Amount.ofInt? (Text.ofDigits digits) with
    | some a =>
      have same : a.toInt = Text.ofDigits digits := Amount.ofInt?_eq_some_iff.1 amount
      have bound := Amount.toInt_le_greatest a
      unfold Amount.greatest at bound
      exact ⟨fun _ => by omega, fun _ cause error => nomatch error⟩
    | none =>
      have out := Amount.ofInt?_eq_none_iff.1 amount
      unfold Amount.least Amount.greatest at out
      exact ⟨fun readable => absurd rfl (readable _), fun small => by omega⟩
  · have noError : ∀ (w : Word) cause, w.kind ∉ numbers → w.literal? ≠ some (.error cause) := by
      rintro ⟨kind, text⟩ cause other
      cases kind <;> simp [numbers, Word.literal?, Token.literal?] at other ⊢
    exact ⟨fun _ member => absurd member number, fun _ cause => noError _ cause number⟩

/-! ### Main result -/

/-- What is written with all the words ahead is read from them, and nothing else is. -/
theorem Parse.sheet_ok_iff {c : Cursor} (going : ∀ w ∈ c.words, w.kind ≠ .eof) :
    (∃ sheet d, Parse.sheet .standard c = .ok sheet d) ↔ Sentence IsSheet c.words := by
  constructor
  · rintro ⟨sheet, d, read⟩
    exact membersWrittenAs_sentence (Parse.sheet_sound read going)
  · intro sentence
    obtain ⟨members, written⟩ := exists_members sentence
    obtain ⟨sheet, d, read, -⟩ := Parse.sheet_complete written c rfl
    exact ⟨sheet, d, read⟩

/-- The tokens of a text can be read just when the kinds in front of the closing token are a
sentence of the grammar and the numbers among them are in range. -/
theorem ofTokens_ok_iff {text : String} {name : Option String} {tokens : List Token}
    (h : Token.ofText text name = .ok tokens) (file : String) : ∃ front closing,
      tokens = front ++ [closing] ∧ closing.kind = .eof ∧
      ((∃ sheet, Sheet.ofTokens tokens file = .ok sheet) ↔
        IsSheet (front.map Token.kind) ∧ ∀ t ∈ front, t.InRange) := by
  obtain ⟨front, place, rfl, lexes⟩ := Token.lexes_of_scan h
  refine ⟨front, .closing place, rfl, rfl, ?_⟩
  have spelled : ∀ t ∈ front, t.word.Spelled := fun t ht =>
    lexes.wellSpelled.spelled t.word (List.mem_map_of_mem ht)
  have going : ∀ w ∈ front.map Token.word, w.kind ≠ .eof := fun w hw =>
    (lexes.wellSpelled.spelled w hw).kind_ne_eof
  have read : (∃ sheet, Sheet.ofTokens (front ++ [.closing place]) file = .ok sheet) ↔
      Sentence IsSheet (front.map Token.word) := by
    have ok := Parse.sheet_ok_iff (c := ⟨file, .startOf file, front, .closing place, rfl, 1⟩) going
    unfold Sheet.ofTokens Sheet.read
    rw [Cursor.ofTokens_closing]
    refine Iff.trans ?_ ok
    cases Parse.sheet .standard ⟨file, .startOf file, front, .closing place, rfl, 1⟩ with
    | ok sheet d => simp
    | error e d => simp
  rw [read]
  have kinds : (front.map Token.word).map Word.kind = front.map Token.kind := by
    rw [List.map_map]
    rfl
  constructor
  · rintro ⟨sentence, readable⟩
    refine ⟨kinds ▸ sentence, fun t ht => ?_⟩
    exact (Token.readable_iff (spelled t ht)).1 (readable t.word (List.mem_map_of_mem ht))
  · rintro ⟨sentence, inRange⟩
    refine ⟨kinds ▸ sentence, fun w hw => ?_⟩
    obtain ⟨t, ht, rfl⟩ := List.mem_map.1 hw
    exact (Token.readable_iff (spelled t ht)).2 (inRange t ht)

/-- An assignment of 2^63. -/
def overlongText : String := "A := 9223372036854775808;"

def overlongFront : List Token :=
  [⟨.identifier, "A", ⟨⟨0, "sheet"⟩, ⟨1, "sheet"⟩⟩⟩,
    ⟨.assignment, ":=", ⟨⟨2, "sheet"⟩, ⟨4, "sheet"⟩⟩⟩,
    ⟨.scalar, "9223372036854775808", ⟨⟨5, "sheet"⟩, ⟨24, "sheet"⟩⟩⟩,
    ⟨.semicolon, ";", ⟨⟨24, "sheet"⟩, ⟨25, "sheet"⟩⟩⟩]

/-- A sentence is not read if a number in it is out of range. -/
theorem ofTokens_ok_iff_overlong :
    Token.ofText overlongText (some "sheet") =
      .ok (overlongFront ++ [.closing ⟨25, "sheet"⟩]) ∧
    IsSheet (overlongFront.map Token.kind) ∧
    ¬∃ sheet, Sheet.ofTokens (overlongFront ++ [.closing ⟨25, "sheet"⟩]) "sheet" = .ok sheet := by
  have scanned : Token.ofText overlongText (some "sheet") =
      .ok (overlongFront ++ [.closing ⟨25, "sheet"⟩]) := by cbv
  have sentence : IsSheet (overlongFront.map Token.kind) :=
    .assignment (.intro (.literal (by decide))) .nil
  refine ⟨scanned, sentence, ?_⟩
  obtain ⟨front, closing, tokens, -, read⟩ := ofTokens_ok_iff scanned "sheet"
  rw [read, ← (List.append_inj' tokens rfl).1]
  rintro ⟨-, inRange⟩
  have scalar := inRange ⟨.scalar, "9223372036854775808", ⟨⟨5, "sheet"⟩, ⟨24, "sheet"⟩⟩⟩
    (by simp [overlongFront])
  exact absurd (scalar (by decide)) (by decide)

end Typesheet
