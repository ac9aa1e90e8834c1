import Typesheet.Proofs.Bare
import Typesheet.Proofs.Wordwise
import Typesheet.Proofs.Writing

/-! What is written is read.

From the words that a tree is written with, the reader gives a tree that differs in
numbers and places at most (`sheet_complete`). An expression is written up to a word
that does not take it into another operation, so its lemma (`exprWithin_complete`) is
about going on behind it: whatever is read behind the expression as a left operand is
read from the beginning of the expression. -/
namespace Typesheet

theorem Grammar.isOperator_standard (k : Kind) :
    Grammar.standard.isOperator k = k.operator?.isSome := by
  cases k <;> rfl

theorem Grammar.strength_standard {k : Kind} {op : Operator} (h : k.operator? = some op) :
    Grammar.standard.strength k = some op.strength := by
  cases k <;> cases h <;> rfl

/-- A word for a value begins an operand, and it is no name. -/
theorem Word.kind_of_literal? {w : Word} {r : Except Cause Literal} (h : w.literal? = some r) :
    Grammar.standard.operand w.kind = some .primary ∧ w.kind ≠ .identifier := by
  obtain ⟨kind, text⟩ := w
  cases kind <;> first | exact ⟨rfl, Kind.noConfusion⟩ | cases h

theorem Word.kind_of_selector? {w : Word} {s : Selector} (h : w.selector? = some s) :
    w.kind ≠ .eof := by
  intro eof
  unfold selector? at h
  rw [eof] at h
  cases h

/-- A member begins with a word for a selector. -/
theorem Member.WrittenAs.first {m : Member} {ws : List Word} (h : m.WrittenAs ws) :
    ∃ w rest, ws = w :: rest ∧ w.kind ≠ .eof := by
  cases m with
  | assignment a =>
    obtain ⟨m, wv, s, rfl, -⟩ := h
    exact ⟨_, _, rfl, Kind.noConfusion⟩
  | rule r =>
    obtain ⟨s, selectors, w, further, wb, -, rfl, hw, -⟩ := h
    exact ⟨w, _, rfl, Word.kind_of_selector? hw⟩

namespace Parse

theorem Reads.expectOf {k : Kind} {w : Word} {ws : List Word} (h : w.kind = k) :
    Reads (Parse.expect k) (w :: ws) ws (·.word = w) := h ▸ .expect

theorem Reads.first {w : Word} {ws vs : List Word} (h : ws = w :: vs) (rest : List Word) :
    Reads Parse.kind (ws ++ rest) (ws ++ rest) (· = w.kind) := by
  rw [h]
  exact .kind

/-! ### Expressions -/

section
variable {e r : Expr} {w : Word} {rest : List Word}

theorem literal_complete {v : Literal} (h : w.literal? = some (.ok v)) :
    Reads primary (w :: rest) rest (·.bare = .literal 0 v .nowhere) := by
  refine .bind .get fun c hc => ?_
  have word := Cursor.current_word hc
  have name : c.current.kind ≠ .identifier := by
    rw [show c.current.kind = w.kind from congrArg Word.kind word]
    exact (Word.kind_of_literal? h).2
  have value : c.current.literal? = some (.ok v) := by
    rw [← Token.literal?_word, word, h]
  simp only [if_neg name, value]
  exact .bind .advance fun _ _ => .bind .freshId fun _ _ => .pure rfl

theorem reference_complete {name : String} :
    Reads primary (⟨.identifier, name⟩ :: rest) rest (·.bare = .reference 0 name .nowhere) := by
  refine .bind .get fun c hc => ?_
  have word := Cursor.current_word hc
  have kind : c.current.kind = .identifier := congrArg Word.kind word
  have text : c.current.value = name := congrArg Word.text word
  rw [if_pos kind]
  refine .bind .advance fun _ _ => .bind .freshId fun _ _ => .pure ?_
  rw [text, Expr.bare]

theorem grouping_complete {inner : Parse Expr} {opening closing : Word} {ws : List Word}
    (hc : closing.kind = .closeParen)
    (h : Reads inner (ws ++ closing :: rest) (closing :: rest) (·.bare = e.bare)) :
    Reads (grouping inner) (opening :: (ws ++ closing :: rest)) rest (·.bare = e.bare) := by
  refine .bind .advance fun _ _ => .bind h fun e' he => ?_
  exact .bind (.expectOf hc) fun _ _ => .pure he

theorem operation_complete {left l r : Expr} {operand : Parse Expr} {sign : Word} {op : Operator}
    {before : List Word} (hs : sign.kind.operator? = some op) (hl : left.bare = l.bare)
    (h : Reads operand before rest (·.bare = r.bare)) (id : NodeId) (span : Span) :
    Reads (operation left operand) (sign :: before) rest
      (·.bare = (Expr.operation id op l r span).bare) := by
  refine .bind .advance fun t ht => ?_
  rw [show t.kind = sign.kind from congrArg Word.kind ht, hs]
  refine .bind h fun right hr => .bind .freshId fun _ _ => .pure ?_
  rw [Expr.bare, Expr.bare, hl, hr]

/-- Where no operator exceeds the strength, the left operand is the whole. -/
theorem operationsWithin_halts {floor : Strength} (halts : (nextKind rest).Halts floor)
    (he : e.bare = r.bare) (n : Nat) :
    Reads (operationsWithin .standard n floor e) rest rest (·.bare = r.bare) := by
  cases n with
  | zero => exact .pure he
  | succ n =>
    refine .bind .nextKind fun k hk => ?_
    subst hk
    have stop : ¬(Grammar.standard.isOperator (nextKind rest) = true ∧
        ((Grammar.standard.strength (nextKind rest)).getD .lowest).exceeds floor = true) := by
      rintro ⟨isOperator, exceeds⟩
      rw [Grammar.isOperator_standard] at isOperator
      obtain ⟨op, hop⟩ := Option.isSome_iff_exists.1 isOperator
      rw [Grammar.strength_standard hop, Option.getD_some, halts op hop] at exceeds
      cases exceeds
    simp only [if_neg stop]
    exact .pure he

/-- An operator that exceeds the strength is taken with its right operand, and reading goes
on behind them. -/
theorem operationsWithin_takes {left l r : Expr} {floor : Strength} {sign : Word} {op : Operator}
    {before after : List Word} {Q : Expr → Prop} {n : Nat} (hs : sign.kind.operator? = some op)
    (exceeds : op.strength.exceeds floor = true) (hl : left.bare = l.bare)
    (right : Reads (exprWithin .standard n op.strength) before rest (·.bare = r.bare))
    (id : NodeId) (span : Span)
    (onward : ∀ e, e.bare = (Expr.operation id op l r span).bare →
      Reads (operationsWithin .standard n floor e) rest after Q) :
    Reads (operationsWithin .standard (n + 1) floor left) (sign :: before) after Q := by
  refine .bind .kind fun k hk => ?_
  subst hk
  have go : Grammar.standard.isOperator sign.kind = true ∧ op.strength.exceeds floor = true := by
    rw [Grammar.isOperator_standard, hs]
    exact ⟨rfl, exceeds⟩
  simp only [Grammar.strength_standard hs, Option.getD_some, if_pos go]
  exact .bind (operation_complete hs hl right id span) onward

end

/-- **What is read behind an expression as a left operand is read from its beginning**, unless
the word behind it takes a part of it into another operation. -/
theorem exprWithin_complete {e : Expr} {floor : Strength} {ws : List Word}
    (h : e.WrittenAs floor ws) {low : Strength} {rest after : List Word}
    {Q : Expr → Prop} (level : low.level ≤ floor.level)
    (halts : ∀ s, s.exceeds floor = true → (nextKind rest).Halts s)
    (onward : ∀ e' n, rest.length < n → e'.bare = e.bare →
      Reads (operationsWithin .standard n low e') rest after Q)
    (n : Nat) (steps : (ws ++ rest).length < n) :
    Reads (exprWithin .standard n low) (ws ++ rest) after Q := by
  induction h generalizing low rest after Q n with
  | @literal id v span floor value hv =>
    obtain ⟨n, rfl⟩ := Nat.exists_eq_add_one.2 (Nat.zero_lt_of_lt steps)
    refine .bind .kind fun k hk => ?_
    rw [hk, (Word.kind_of_literal? hv).1]
    exact .bind (literal_complete hv) fun e' he => onward e' n (Nat.lt_of_succ_lt_succ steps) he
  | reference =>
    obtain ⟨n, rfl⟩ := Nat.exists_eq_add_one.2 (Nat.zero_lt_of_lt steps)
    refine .bind .kind fun k hk => ?_
    subst hk
    exact .bind reference_complete fun e' he => onward e' n (Nat.lt_of_succ_lt_succ steps) he
  | @grouping e floor opening closing ws ho hc inner ih =>
    obtain ⟨n, rfl⟩ := Nat.exists_eq_add_one.2 (Nat.zero_lt_of_lt steps)
    simp only [List.cons_append, List.append_assoc, List.nil_append, List.length_cons,
      List.length_append] at steps ⊢
    have closes : ∀ s, (nextKind (closing :: rest)).Halts s :=
      Kind.halts_of_not_operator (show closing.kind.operator? = none by rw [hc]; rfl)
    have length : (ws ++ closing :: rest).length < n := by
      simp only [List.length_cons, List.length_append]
      omega
    have read := ih (Nat.le_refl _) (fun s _ => closes s)
      (fun e' n _ he => operationsWithin_halts (closes _) he n) n length
    refine .bind .kind fun k hk => ?_
    rw [hk, ho]
    exact .bind (grouping_complete hc read) fun e' he => onward e' n (by omega) he
  | @operation id op l r span floor sign wl wr hs exceeds left right ihl ihr =>
    simp only [List.cons_append, List.append_assoc, List.length_cons, List.length_append]
      at steps ⊢
    have stop : (nextKind rest).Halts op.strength := halts _ exceeds
    refine ihl (level.trans (Operator.exceeds_iff.1 exceeds)) ?_ ?_ n (by
      simp only [List.length_cons, List.length_append]; omega)
    · -- Equal operators group to the left.
      intro s hs' op' hop'
      cases hs.symm.trans hop'
      rw [Strength.exceeds_iff] at hs'
      rw [← Bool.not_eq_true, Strength.exceeds_iff, op.level_strength]
      omega
    · intro e' n steps he
      obtain ⟨n, rfl⟩ := Nat.exists_eq_add_one.2 (Nat.zero_lt_of_lt steps)
      simp only [List.length_cons, List.length_append] at steps
      have length : (wr ++ rest).length < n := by
        rw [List.length_append]
        omega
      have read := ihr (Nat.le_refl _)
        (fun s hs => stop.mono (Strength.exceeds_iff.1 hs).le)
        (fun e' n _ he => operationsWithin_halts stop he n) n length
      refine operationsWithin_takes hs ?_ he read id span fun e' he => ?_
      · exact Operator.exceeds_iff.2 (level.trans (Operator.exceeds_iff.1 exceeds))
      · exact onward e' n (by omega) he

theorem expr_complete_of_nextKind {e : Expr} {ws rest : List Word} (h : e.WrittenAs .lowest ws)
    (ends : (nextKind rest).operator? = none) :
    Reads (expr .standard .lowest) (ws ++ rest) rest (·.bare = e.bare) := by
  have halts := Kind.halts_of_not_operator ends
  refine .bind .budget fun n hn => ?_
  exact exprWithin_complete h (Nat.le_refl _) (fun s _ => halts s)
    (fun e' n _ he => operationsWithin_halts (halts _) he n) n (by omega)

theorem expr_complete {e : Expr} {w : Word} {ws rest : List Word} (h : e.WrittenAs .lowest ws)
    (ends : w.kind.operator? = none) :
    Reads (expr .standard .lowest) (ws ++ w :: rest) (w :: rest) (·.bare = e.bare) :=
  expr_complete_of_nextKind h ends

/-! ### Bodies -/

section
variable {ws rest : List Word} {w : Word}

theorem assignmentTail_complete {t : Token} {a : Assignment} {m s : Word} (ht : t.value = a.name)
    (hm : m.kind = .assignment) (value : a.value.WrittenAs .lowest ws)
    (hs : s.kind = .semicolon) :
    Reads (assignmentTail .standard t) (m :: (ws ++ s :: rest)) rest (·.bare = a.bare) := by
  refine .bind (.expectOf hm) fun _ _ => ?_
  refine .bind (expr_complete value (by rw [hs]; rfl)) fun e he => ?_
  refine .bind (.expectOf hs) fun _ _ => .bind .freshId fun _ _ => .bind (.spanFrom _) fun _ _ => ?_
  refine .pure ?_
  rw [Assignment.bare, Assignment.bare, he, ht]

theorem assignment_complete {a : Assignment} (h : Given .assignment a.name a.value ws) :
    Reads (namedItem .standard) (ws ++ rest) rest (·.bare = (Item.assignment a).bare) := by
  obtain ⟨m, wv, s, rfl, hm, value, hs⟩ := h
  simp only [List.cons_append, List.append_assoc, List.nil_append]
  refine .bind .advance fun t ht => .bind .kind fun k hk => ?_
  rw [hk, hm]
  have name : t.value = a.name := congrArg Word.text ht
  refine .bind (assignmentTail_complete name hm value hs) fun a' ha => .pure ?_
  rw [Item.bare, Item.bare, ha]

theorem declaration_complete {d : Declaration} (h : Given .colon d.property d.value ws) :
    Reads (namedItem .standard) (ws ++ rest) rest (·.bare = (Item.declaration d).bare) := by
  obtain ⟨m, wv, s, rfl, hm, value, hs⟩ := h
  simp only [List.cons_append, List.append_assoc, List.nil_append]
  refine .bind .advance fun t ht => .bind .kind fun k hk => ?_
  rw [hk, hm]
  have name : t.value = d.property := congrArg Word.text ht
  refine .bind .advance fun _ _ => .bind (expr_complete value (by rw [hs]; rfl)) fun e he => ?_
  refine .bind (.expectOf hs) fun _ _ => .bind .freshId fun _ _ => .bind (.spanFrom _) fun _ _ => ?_
  refine .pure ?_
  rw [Item.bare, Item.bare, Declaration.bare, Declaration.bare, he, name]

theorem conditionEnd?_ends {opening closing : Kind} (h : conditionEnd? opening = some closing) :
    closing.operator? = none := by
  cases opening <;> cases h <;> rfl

/-- The reader takes a body between braces, of at most so many words. -/
def ReadsBody (body : Parse (List Item)) (items : List Item) (n : Nat) : Prop :=
  ∀ ws rest, Braced (bodyWrittenAs items) ws → ws.length ≤ n →
    Reads body (ws ++ rest) rest (bareBody · = bareBody items)

theorem elseClause_complete {body : Parse (List Item)} {other : ElseClause Item} {n : Nat}
    (hbody : ReadsBody body other.body n) (h : Otherwise (bodyWrittenAs other.body) ws)
    (steps : ws.length ≤ n) :
    Reads (ifClause.elseClause body) (ws ++ rest) rest
      (·.map ElseClause.bare = some other.bare) := by
  obtain ⟨word, wb, rfl, hw, braced⟩ := h
  rw [List.length_cons] at steps
  rw [List.cons_append]
  refine .bind .kind fun k hk => ?_
  rw [if_pos (hk.trans hw)]
  refine .bind .advance fun _ _ => .bind .freshId fun _ _ => ?_
  refine .bind (hbody wb rest braced (by omega)) fun items hitems => ?_
  refine .bind (.spanFrom _) fun _ _ => .pure ?_
  rw [Option.map_some, ElseClause.bare, ElseClause.bare, hitems]

theorem noElse_complete {body : Parse (List Item)} (hw : w.kind ≠ .elseWord) :
    Reads (ifClause.elseClause body) (w :: rest) (w :: rest) (·.map ElseClause.bare = none) := by
  refine .bind .kind fun k hk => ?_
  rw [if_neg (by rw [hk]; exact hw)]
  exact .pure rfl

theorem ifClause_complete {clause : IfClause Item} {body : Parse (List Item)} {n : Nat}
    (hbody : ∀ b, ReadsBody body (clause.branch b) n) (h : (Item.ifClause clause).WrittenAs ws)
    (steps : ws.length ≤ n) (hw : w.kind ≠ .elseWord) :
    Reads (ifClause .standard body) (ws ++ w :: rest) (w :: rest)
      (·.bare = (Item.ifClause clause).bare) := by
  obtain ⟨id, condition, items, otherwise, span⟩ := clause
  unfold Item.WrittenAs at h
  obtain ⟨word, wc, wb, wo, rfl, hword, hcondition, braced, hother⟩ := h
  obtain ⟨opening, closing, hend, o, inner, c, rfl, ho, hc, value⟩ := hcondition
  simp only [List.length_cons, List.length_append] at steps
  simp only [List.cons_append, List.append_assoc, List.nil_append]
  refine .bind .advance fun _ _ => .bind .kind fun k hk => ?_
  rw [hk, ho, hend]
  refine .bind .advance fun _ _ => ?_
  refine .bind (expr_complete value (by rw [hc]; exact conditionEnd?_ends hend)) fun e he => ?_
  refine .bind (.expectOf hc) fun _ _ => .bind .freshId fun _ _ => ?_
  refine .bind (hbody true wb _ braced (by omega)) fun whenTrue htrue => ?_
  have other : Reads (ifClause.elseClause body) (wo ++ w :: rest) (w :: rest)
      (·.map ElseClause.bare = otherwise.map ElseClause.bare) := by
    cases otherwise with
    | none =>
      cases hother
      exact noElse_complete hw
    | some other => exact elseClause_complete (hbody false) hother (by omega)
  refine .bind other fun other' hother' => .bind (.spanFrom _) fun _ _ => .pure ?_
  rw [Item.bare_ifClause, Item.bare_ifClause, IfClause.bare, IfClause.bare, he, hother',
    show bareBody whenTrue = bareBody items from htrue]

theorem braces_complete {items : List Item} {reader : Parse (List Item)} {n : Nat}
    (h : ∀ ws w rest, bodyWrittenAs items ws → w.kind = .closeCurly → ws.length < n →
      Reads reader (ws ++ w :: rest) (w :: rest) (bareBody · = bareBody items)) :
    ReadsBody (braces reader) items n := by
  rintro _ rest ⟨o, inner, c, rfl, ho, hc, written⟩ steps
  simp only [List.length_cons, List.length_append] at steps
  simp only [List.cons_append, List.append_assoc, List.nil_append]
  refine .bind (.expectOf ho) fun _ _ => ?_
  refine .bind (h inner c rest written hc (by omega)) fun items' hitems => ?_
  exact .bind (.expectOf hc) fun _ _ => .pure hitems

/-- **Items are read from what they are written with**, an item up to what is no further
part of it, and the items of a body up to the brace that closes it. -/
theorem itemsWithin_complete :
    (∀ (i : Item) ws (w : Word) rest n, i.WrittenAs ws → w.kind ≠ .elseWord → ws.length ≤ n →
      Reads (item .standard (braces (itemsWithin .standard n))) (ws ++ w :: rest) (w :: rest)
        (·.bare = i.bare)) ∧
    ∀ (items : List Item) n ws (w : Word) rest, bodyWrittenAs items ws → w.kind = .closeCurly →
      ws.length < n → Reads (itemsWithin .standard n) (ws ++ w :: rest) (w :: rest)
        (bareBody · = bareBody items) := by
  apply Item.body_induction
  case declaration =>
    intro d ws w rest n h _ _
    obtain ⟨m, wv, s, words, -⟩ := id h
    refine .bind (.first words _) fun k hk => ?_
    subst hk
    exact declaration_complete h
  case assignment =>
    intro a ws w rest n h _ _
    obtain ⟨m, wv, s, words, -⟩ := id h
    refine .bind (.first words _) fun k hk => ?_
    subst hk
    exact assignment_complete h
  case ifClause =>
    intro clause ih ws w rest n h hw steps
    have bodies : ∀ b, ReadsBody (braces (itemsWithin .standard n)) (clause.branch b) n :=
      fun b => braces_complete (ih b n)
    have kind : ∃ v vs, ws = v :: vs ∧ v.kind = .ifWord := by
      obtain ⟨id, condition, body, otherwise, span⟩ := clause
      unfold Item.WrittenAs at h
      obtain ⟨word, wc, wb, wo, rfl, hword, -⟩ := h
      exact ⟨_, _, rfl, hword⟩
    obtain ⟨v, vs, words, hv⟩ := kind
    refine .bind (.first words _) fun k hk => ?_
    rw [hk, hv]
    exact ifClause_complete bodies h steps hw
  case nil =>
    intro n ws w rest h hw steps
    cases h
    obtain ⟨n, rfl⟩ := Nat.exists_eq_add_one.2 (Nat.zero_lt_of_lt steps)
    refine .bind .kind fun k hk => ?_
    rw [if_pos (.inl (hk.trans hw))]
    exact .pure rfl
  case cons =>
    intro item items ihitem ihitems n ws w rest h hw steps
    obtain ⟨n, rfl⟩ := Nat.exists_eq_add_one.2 (Nat.zero_lt_of_lt steps)
    obtain ⟨front, back, rfl, first, written⟩ := h
    obtain ⟨v, vs, hfront, hv⟩ := first.first
    have length : (front ++ back).length = vs.length + 1 + back.length := by
      rw [hfront, List.length_append, List.length_cons]
    have more : ¬(v.kind = .closeCurly ∨ v.kind = .eof) := by
      obtain hv | hv := hv <;> rw [hv] <;> simp
    have next : ∃ u us, back ++ w :: rest = u :: us ∧ u.kind ≠ .elseWord := by
      cases items with
      | nil =>
        cases written
        exact ⟨w, rest, rfl, by rw [hw]; exact Kind.noConfusion⟩
      | cons item items =>
        obtain ⟨_, back, rfl, second, -⟩ := written
        obtain ⟨u, us, rfl, hu⟩ := second.first
        exact ⟨u, _, rfl, by obtain hu | hu := hu <;> rw [hu] <;> exact Kind.noConfusion⟩
    obtain ⟨u, us, hnext, hu⟩ := next
    have front_reads := ihitem front u us n first hu (by rw [hfront, List.length_cons]; omega)
    rw [← hnext] at front_reads
    rw [List.append_assoc]
    refine .bind (.first hfront _) fun k hk => ?_
    rw [hk, if_neg more]
    refine .bind front_reads fun item' hitem => ?_
    refine .bind (ihitems n back w rest written hw (by omega)) fun items' hitems => .pure ?_
    rw [bareBody, bareBody, hitem, hitems]

theorem block_complete {items : List Item} (h : Braced (bodyWrittenAs items) ws) :
    Reads (block .standard) (ws ++ rest) rest (bareBody · = bareBody items) := by
  refine .bind .budget fun n hn => ?_
  refine braces_complete (itemsWithin_complete.2 items n) ws rest h ?_
  rw [hn, List.length_append]
  omega

end

/-! ### Members -/

section
variable {ws rest : List Word} {w : Word}

theorem selector_complete {s : Selector} (h : w.selector? = some s) :
    Reads selector (w :: rest) rest (· = s) := by
  obtain ⟨wordKind, text⟩ := w
  refine .bind .kind fun k hk => ?_
  rw [hk]
  cases wordKind <;> cases h
  all_goals
    refine .bind .advance fun t ht => .pure ?_
    obtain ⟨_, value, _⟩ := t
    cases ht
    rfl

theorem selectorsWithin_complete {selectors : List Selector}
    (h : furtherWrittenAs selectors ws) (hw : w.kind ≠ .comma) {n : Nat} (steps : ws.length < n) :
    Reads (selectorsWithin n) (ws ++ w :: rest) (w :: rest) (· = selectors) := by
  induction selectors generalizing ws n with
  | nil =>
    cases h
    obtain ⟨n, rfl⟩ := Nat.exists_eq_add_one.2 (Nat.zero_lt_of_lt steps)
    refine .bind .kind fun k hk => ?_
    rw [if_neg (by rw [hk]; exact hw)]
    exact .pure rfl
  | cons s selectors ih =>
    obtain ⟨comma, v, further, rfl, hcomma, hv, hfurther⟩ := h
    obtain ⟨n, rfl⟩ := Nat.exists_eq_add_one.2 (Nat.zero_lt_of_lt steps)
    simp only [List.length_cons] at steps
    refine .bind .kind fun k hk => ?_
    rw [if_pos (hk.trans hcomma)]
    refine .bind .advance fun _ _ => .bind (selector_complete hv) fun front hfront => ?_
    refine .bind (ih hfurther (by omega)) fun back hback => .pure ?_
    rw [hfront, hback]

theorem rule_complete {r : Rule} (h : r.WrittenAs ws) :
    Reads (rule .standard) (ws ++ rest) rest (·.bare = r.bare) := by
  obtain ⟨s, selectors, v, further, wb, hr, rfl, hv, hfurther, braced⟩ := h
  obtain ⟨o, inner, c, hwb, ho, -⟩ := id braced
  have opens : wb ++ rest = o :: (inner ++ [c] ++ rest) := by rw [hwb, List.cons_append]
  have notComma : o.kind ≠ .comma := by rw [ho]; exact Kind.noConfusion
  rw [List.cons_append, List.append_assoc]
  refine .bind .position fun _ _ => .bind (selector_complete hv) fun front hfront => ?_
  refine .bind .budget fun n hn => ?_
  have back : Reads (selectorsWithin n) (further ++ (wb ++ rest)) (wb ++ rest) (· = selectors) := by
    rw [opens]
    refine selectorsWithin_complete hfurther notComma ?_
    rw [hn, List.length_append]
    omega
  refine .bind back fun back hback => .bind .freshId fun _ _ => ?_
  refine .bind (block_complete braced) fun body hbody => .bind (.spanFrom _) fun _ _ => .pure ?_
  rw [Rule.bare, Rule.bare, hr, hfront, hback, hbody]

/-- What is behind the name tells an assignment from a rule. -/
theorem not_assignment_of_rule {r : Rule} (h : r.WrittenAs ws) {c : Cursor}
    (hc : c.words = ws ++ rest) : ¬(c.kind = .identifier ∧ (c.peek 1).kind = .assignment) := by
  obtain ⟨s, selectors, v, further, wb, -, rfl, -, hfurther, o, inner, _, rfl, ho, -⟩ := h
  cases selectors with
  | nil =>
    cases hfurther
    exact Cursor.not_assignment_of_words hc (by rw [ho]; exact Kind.noConfusion)
  | cons s selectors =>
    obtain ⟨comma, _, further, rfl, hcomma, -⟩ := hfurther
    exact Cursor.not_assignment_of_words hc (by rw [hcomma]; exact Kind.noConfusion)

theorem member_complete {m : Member} (h : m.WrittenAs ws) :
    Reads (member .standard) (ws ++ rest) rest (·.bare = m.bare) := by
  refine .bind .get fun c hc => ?_
  cases m with
  | assignment a =>
    obtain ⟨mark, wv, s, rfl, hm, value, hs⟩ := h
    simp only [List.cons_append, List.append_assoc, List.nil_append] at hc ⊢
    have name : c.kind = .identifier := Cursor.current_kind hc
    have second : (c.peek 1).kind = mark.kind := congrArg Word.kind (Cursor.second_word hc)
    rw [if_pos ⟨name, second.trans hm⟩]
    refine .bind .advance fun t ht => ?_
    have name : t.value = a.name := congrArg Word.text ht
    refine .bind (assignmentTail_complete name hm value hs) fun a' ha => .pure ?_
    rw [Member.bare, Member.bare, ha]
  | rule r =>
    have written : r.WrittenAs ws := h
    rw [if_neg (not_assignment_of_rule written hc)]
    refine .bind (rule_complete written) fun r' hr => .pure ?_
    rw [Member.bare, Member.bare, hr]

theorem membersWithin_complete {members : List Member} (h : membersWrittenAs members ws) {n : Nat}
    (steps : ws.length < n) :
    Reads (membersWithin .standard n) ws [] (·.map Member.bare = members.map Member.bare) := by
  induction members generalizing ws n with
  | nil =>
    cases h
    obtain ⟨n, rfl⟩ := Nat.exists_eq_add_one.2 (Nat.zero_lt_of_lt steps)
    refine .bind .get fun c hc => ?_
    rw [if_neg (Cursor.not_hasTokens_of_words hc)]
    exact .pure rfl
  | cons m members ih =>
    obtain ⟨front, back, rfl, first, written⟩ := h
    obtain ⟨v, vs, hfront, hv⟩ := first.first
    rw [List.length_append] at steps
    have length : front.length = vs.length + 1 := by rw [hfront, List.length_cons]
    obtain ⟨n, rfl⟩ := Nat.exists_eq_add_one.2 (Nat.zero_lt_of_lt steps)
    refine .bind .get fun c hc => ?_
    rw [hfront, List.cons_append] at hc
    rw [if_pos (Cursor.hasTokens_of_words hc hv)]
    refine .bind (member_complete first) fun m' hm => ?_
    refine .bind (ih written (by omega)) fun members' hmembers => .pure ?_
    rw [List.map_cons, List.map_cons, hm, hmembers]

/-- **A stylesheet is read from what its members are written with.** -/
theorem sheet_complete {members : List Member} (h : membersWrittenAs members ws) :
    Reads (sheet .standard) ws [] (·.members.map Member.bare = members.map Member.bare) := by
  refine .bind .budget fun n hn => ?_
  refine .bind (membersWithin_complete h (by omega)) fun members' hmembers => ?_
  exact .bind .get fun _ _ => .pure hmembers

end

end Parse

end Typesheet
