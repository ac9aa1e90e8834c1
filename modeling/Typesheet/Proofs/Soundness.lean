import Typesheet.Proofs.Completeness

/-! What is read is written.

What a reader gives is written with the words that it took (`sheet_sound`), so the words
that can be read are those that trees are written with. `Takes` says of a reader at a
place what it gives and which words it takes, with a rule for each step that a reader
begins with. -/
namespace Typesheet

theorem Grammar.kind_of_grouping {k : Kind} (h : Grammar.standard.operand k = some .grouping) :
    k = .openParen := by
  cases k <;> first | rfl | cases h

theorem Grammar.kind_of_item {k : Kind} {form : ItemForm} (h : Grammar.standard.item k = some form) :
    match form with
    | .named => k = .identifier
    | .ifClause => k = .ifWord := by
  cases k <;> cases h <;> rfl

namespace Cursor
variable {c : Cursor}

theorem word_of_kind {k : Kind} (h : c.kind = k) : c.current.word = ⟨k, c.current.value⟩ :=
  congrArg (Word.mk · c.current.value) h

/-- Before the closing token there are words. -/
theorem words_of_kind (h : c.kind ≠ .eof) : c.words = c.current.word :: c.next.words := by
  unfold kind at h
  unfold words current next
  unfold current at h
  cases ha : c.ahead with
  | nil =>
    rw [ha] at h
    exact absurd c.closing_kind h
  | cons t ts => rfl

end Cursor

namespace Parse
variable {α β : Type}

/-! ### What a reader takes -/

/-- From the place `c` the reader takes words off, and stops or gives something that `R`
relates to them and to the place behind them. -/
def Takes (m : Parse α) (c : Cursor) (R : α → Cursor → List Word → Prop) : Prop :=
  ∀ a d, m c = .ok a d → ∃ ws, c.words = ws ++ d.words ∧ R a d ws

namespace Takes
variable {c : Cursor} {R : β → Cursor → List Word → Prop}

theorem bind {m : Parse α} {k : α → Parse β} {S : α → Cursor → List Word → Prop}
    (hm : Takes m c S)
    (hk : ∀ a d ws, c.words = ws ++ d.words → S a d ws →
      Takes (k a) d fun b d' vs => R b d' (ws ++ vs)) : Takes (m >>= k) c R := by
  intro b d h
  obtain ⟨a, c', h, h'⟩ := bind_ok_iff.1 h
  obtain ⟨ws, words, ha⟩ := hm a c' h
  obtain ⟨vs, words', hb⟩ := hk a c' ws words ha b d h'
  exact ⟨ws ++ vs, by rw [words, words', List.append_assoc], hb⟩

theorem mono {m : Parse α} {R S : α → Cursor → List Word → Prop} (h : Takes m c S)
    (imp : ∀ a d ws, S a d ws → R a d ws) : Takes m c R := by
  intro a d hm
  obtain ⟨ws, words, ha⟩ := h a d hm
  exact ⟨ws, words, imp a d ws ha⟩

theorem pure {b : β} (h : R b c []) : Takes (Pure.pure b) c R := by
  rintro _ _ ⟨⟩
  exact ⟨[], rfl, h⟩

theorem refuse (message : String) : Takes (Parse.refuse message) c R := fun _ _ h => nomatch h

theorem raise (e : Error) : Takes (throw e) c R := fun _ _ h => nomatch h

theorem get {k : Cursor → Parse β} (h : Takes (k c) c R) : Takes (MonadState.get >>= k) c R := h

theorem kind {k : Kind → Parse β} (h : Takes (k c.kind) c R) : Takes (Parse.kind >>= k) c R := h

theorem position {k : Position → Parse β} (h : Takes (k c.position) c R) :
    Takes (Parse.position >>= k) c R := h

theorem spanFrom {k : Span → Parse β} {start : Position} (h : ∀ span, Takes (k span) c R) :
    Takes (Parse.spanFrom start >>= k) c R := h _

theorem budget {k : Nat → Parse β} (h : Takes (k (c.words.length + 1)) c R) :
    Takes (Parse.budget >>= k) c R := by
  unfold Cursor.words at h
  rw [List.length_map] at h
  exact h

theorem freshId {k : NodeId → Parse β} (h : ∀ id d, d.words = c.words → d.kind = c.kind →
    Takes (k id) d R) : Takes (Parse.freshId >>= k) c R := by
  intro b d hk
  exact h _ {c with nextId := c.nextId + 1} rfl rfl b d hk

theorem advance {k : Token → Parse β} {kind : Kind} (hc : c.kind = kind) (going : kind ≠ .eof)
    (h : c.words = c.current.word :: c.next.words →
      Takes (k c.current) c.next fun b d ws => R b d (c.current.word :: ws)) :
    Takes (Parse.advance >>= k) c R := by
  intro b d hk
  have words := c.words_of_kind (hc ▸ going)
  obtain ⟨ws, rest, hb⟩ := h words b d hk
  exact ⟨c.current.word :: ws, by rw [words, rest, List.cons_append], hb⟩

theorem expect {k : Token → Parse β} {kind : Kind} (going : kind ≠ .eof)
    (h : ∀ t d, t.kind = kind → c.words = t.word :: d.words →
      Takes (k t) d fun b d' ws => R b d' (t.word :: ws)) :
    Takes (Parse.expect kind >>= k) c R := by
  intro b d hk
  obtain ⟨t, c', ht, hk'⟩ := bind_ok_iff.1 hk
  unfold Parse.expect expectOr at ht
  split at ht
  · rename_i hc
    refine advance hc going (fun words => ?_) b d (bind_ok_iff.2 ⟨t, c', ht, hk'⟩)
    exact h c.current c.next hc words
  · cases ht

end Takes

/-! ### Expressions -/

section
variable {c : Cursor}

/-- Something is an operand at any strength, and it is written with words. -/
def IsOperand (e : Expr) (ws : List Word) : Prop := ws ≠ [] ∧ ∀ floor, e.WrittenAs floor ws

theorem primary_sound : Takes primary c fun e _ ws => IsOperand e ws := by
  refine .get ?_
  simp only []
  split
  · rename_i name
    refine .advance name Kind.noConfusion fun _ => .freshId fun id d _ _ => .pure ?_
    rw [c.word_of_kind name]
    exact ⟨List.cons_ne_nil _ _, fun _ => .reference⟩
  · split
    · rename_i v value
      have going : c.kind ≠ .eof := by
        intro eof
        rw [← Token.literal?_word, c.word_of_kind eof] at value
        cases value
      refine .advance rfl going fun _ => .freshId fun id d _ _ => .pure ?_
      exact ⟨List.cons_ne_nil _ _, fun _ => .literal value⟩
    · exact .raise _
    · exact .refuse _

theorem grouping_sound {inner : Parse Expr} (opening : c.kind = .openParen)
    (h : ∀ d, d.words.length < c.words.length → Takes inner d fun e _ ws => e.WrittenAs .lowest ws) :
    Takes (grouping inner) c fun e _ ws => IsOperand e ws := by
  refine .advance opening Kind.noConfusion fun words => ?_
  refine .bind (h _ (by rw [words]; exact Nat.lt_succ_self _)) fun e d ws _ he => ?_
  refine .expect Kind.noConfusion fun t d' ht _ => .pure ?_
  exact ⟨List.cons_ne_nil _ _, fun _ => .grouping opening ht he⟩

/-- An operation has its left operand, and its right one is as long as can be. -/
theorem operation_sound {left : Expr} {operand : Parse Expr} {op : Operator}
    (hop : c.kind.operator? = some op)
    (h : ∀ d, d.words.length < c.words.length → Takes operand d fun e d ws =>
      e.WrittenAs op.strength ws ∧ d.kind.Halts op.strength) :
    Takes (operation left operand) c fun e d ws => d.kind.Halts op.strength ∧ ws ≠ [] ∧
      ∀ floor wl, op.strength.exceeds floor = true → left.WrittenAs op.floor wl →
        e.WrittenAs floor (wl ++ ws) := by
  have going : c.kind ≠ .eof := by
    intro eof
    rw [eof] at hop
    cases hop
  refine .advance rfl going fun words => ?_
  have sign : c.current.kind.operator? = some op := hop
  rw [sign]
  refine .bind (h _ (by rw [words]; exact Nat.lt_succ_self _)) fun right d ws _ hr => ?_
  refine .freshId fun id d' _ hd => .pure ⟨hd ▸ hr.2, List.cons_ne_nil _ _, ?_⟩
  intro floor wl exceeds written
  rw [List.append_nil]
  exact .operation sign exceeds written hr.1

/-- Before it stops at an operation that is not its own, a reader of operations makes what
was written in front into the left operand of the next. -/
theorem exprWithin_sound (n : Nat) :
    (∀ floor c, c.words.length < n → Takes (exprWithin .standard n floor) c fun e d ws =>
      e.WrittenAs floor ws ∧ d.kind.Halts floor) ∧
    ∀ floor left wl c, c.words.length < n → left.WrittenAs floor wl →
      (∀ op, c.kind.operator? = some op → op.strength.exceeds floor = true →
        left.WrittenAs op.floor wl) →
      Takes (operationsWithin .standard n floor left) c fun e d ws =>
        e.WrittenAs floor (wl ++ ws) ∧ d.kind.Halts floor := by
  induction n with
  | zero =>
    exact ⟨fun _ _ h => absurd h (Nat.not_lt_zero _),
      fun _ _ _ _ h => absurd h (Nat.not_lt_zero _)⟩
  | succ n ih =>
    obtain ⟨ihe, iho⟩ := ih
    have onward : ∀ floor (c : Cursor), c.words.length < n + 1 → ∀ e d ws, c.words = ws ++ d.words →
        IsOperand e ws → Takes (operationsWithin .standard n floor e) d fun e d vs =>
          e.WrittenAs floor (ws ++ vs) ∧ d.kind.Halts floor := by
      intro floor c steps e d ws words operand
      have taken : 0 < ws.length := List.length_pos_iff.2 operand.1
      have length := congrArg List.length words
      rw [List.length_append] at length
      exact iho floor e ws d (by omega) (operand.2 floor) fun op _ _ => operand.2 op.floor
    constructor
    · intro floor c steps
      refine .kind ?_
      split
      · exact .refuse _
      · exact .bind primary_sound (onward floor c steps)
      · rename_i form
        have inner : ∀ d, d.words.length < c.words.length →
            Takes (exprWithin .standard n .lowest) d fun e _ ws => e.WrittenAs .lowest ws :=
          fun d shorter => (ihe .lowest d (by omega)).mono fun _ _ _ h => h.1
        exact .bind (grouping_sound (Grammar.kind_of_grouping form) inner) (onward floor c steps)
    · intro floor left wl c steps written next
      refine .kind ?_
      simp only []
      split
      · rename_i go
        obtain ⟨isOperator, exceeds⟩ := go
        rw [Grammar.isOperator_standard] at isOperator
        obtain ⟨op, hop⟩ := Option.isSome_iff_exists.1 isOperator
        rw [Grammar.strength_standard hop, Option.getD_some] at exceeds ⊢
        refine .bind (operation_sound hop fun d shorter => ihe _ d (by omega)) ?_
        rintro e d ws words ⟨halts, nonempty, operation⟩
        have taken : 0 < ws.length := List.length_pos_iff.2 nonempty
        have length := congrArg List.length words
        rw [List.length_append] at length
        have here := operation floor wl exceeds (next op hop exceeds)
        refine (iho floor e (wl ++ ws) d (by omega) here ?_).mono fun _ _ _ h =>
          List.append_assoc .. ▸ h
        -- The next operator does not exceed this one, so it holds all up to here.
        intro op' hop' _
        have level := halts op' hop'
        rw [← Bool.not_eq_true, Strength.exceeds_iff, op'.level_strength] at level
        refine operation op'.floor wl ?_ (next op hop exceeds)
        rw [Strength.exceeds_iff]
        omega
      · rename_i stop
        refine .pure ⟨by rwa [List.append_nil], fun op hop => ?_⟩
        rw [← Bool.not_eq_true]
        intro exceeds
        refine stop ⟨?_, ?_⟩
        · rw [Grammar.isOperator_standard, hop]
          rfl
        · rw [Grammar.strength_standard hop, Option.getD_some, exceeds]

theorem expr_sound : Takes (expr .standard .lowest) c fun e _ ws => e.WrittenAs .lowest ws :=
  .budget (((exprWithin_sound _).1 _ c (Nat.lt_succ_self _)).mono fun _ _ _ h => h.1)

end

/-! ### Bodies -/

section
variable {c : Cursor}

theorem assignmentTail_sound (name : Token) (kind : name.kind = .identifier) :
    Takes (assignmentTail .standard name) c fun a _ ws =>
      Given .assignment a.name a.value (name.word :: ws) := by
  refine .expect Kind.noConfusion fun m d hm _ => .bind expr_sound fun value d wv _ written => ?_
  refine .expect Kind.noConfusion fun s d hs _ => .freshId fun id d _ _ => .spanFrom fun span => ?_
  refine .pure ⟨m.word, wv, s.word, ?_, hm, written, hs⟩
  rw [Token.word, kind]

theorem namedItem_sound (name : c.kind = .identifier) :
    Takes (namedItem .standard) c fun i _ ws => i.WrittenAs ws := by
  refine .advance name Kind.noConfusion fun _ => .kind ?_
  split
  · exact .bind (assignmentTail_sound _ name) fun a d ws _ given => .pure (by
      rw [List.append_nil]
      exact given)
  · rename_i colon
    refine .advance colon Kind.noConfusion fun _ => .bind expr_sound fun value d wv _ written => ?_
    refine .expect Kind.noConfusion fun s d hs _ => .freshId fun id d _ _ => .spanFrom fun span => ?_
    refine .pure ⟨c.next.current.word, wv, s.word, ?_, colon, written, hs⟩
    rw [c.word_of_kind name]
  · exact .refuse _

theorem elseClause_sound {body : Parse (List Item)}
    (h : ∀ c, Takes body c fun items _ ws => Braced (bodyWrittenAs items) ws) :
    Takes (ifClause.elseClause body) c fun other _ ws =>
      match other with
      | none => ws = []
      | some ⟨_, body, _⟩ => Otherwise (bodyWrittenAs body) ws := by
  refine .kind ?_
  split
  · rename_i word
    refine .advance word Kind.noConfusion fun _ => .freshId fun id d _ _ => ?_
    refine .bind (h d) fun items d ws _ braced => .spanFrom fun span => .pure ?_
    exact ⟨_, _, rfl, word, by rwa [List.append_nil]⟩
  · exact .pure rfl

theorem conditionEnd?_going {opening closing : Kind} (h : conditionEnd? opening = some closing) :
    opening ≠ .eof ∧ closing ≠ .eof := by
  cases opening <;> cases h <;> exact ⟨Kind.noConfusion, Kind.noConfusion⟩

theorem ifClause_sound {body : Parse (List Item)} (word : c.kind = .ifWord)
    (h : ∀ c, Takes body c fun items _ ws => Braced (bodyWrittenAs items) ws) :
    Takes (ifClause .standard body) c fun i _ ws => i.WrittenAs ws := by
  refine .advance word Kind.noConfusion fun _ => .kind ?_
  split
  · exact .refuse _
  · rename_i closing ends
    obtain ⟨opens, closes⟩ := conditionEnd?_going ends
    refine .advance rfl opens fun _ => .bind expr_sound fun condition d wv _ written => ?_
    refine .expect closes fun t d ht _ => .freshId fun id d _ _ => ?_
    refine .bind (h d) fun whenTrue d wb _ braced => ?_
    refine .bind (elseClause_sound h) fun otherwise d wo _ hother => ?_
    refine .spanFrom fun span => .pure ?_
    unfold Item.WrittenAs
    have enclosed : condition.IsCondition (c.next.current.word :: (wv ++ [t.word])) :=
      ⟨_, closing, ends, _, wv, t.word, rfl, rfl, ht, written⟩
    refine ⟨c.current.word, _, wb, wo, ?_, word, enclosed, braced, hother⟩
    simp only [List.cons_append, List.append_assoc, List.nil_append, List.append_nil]

theorem item_sound {body : Parse (List Item)}
    (h : ∀ c, Takes body c fun items _ ws => Braced (bodyWrittenAs items) ws) :
    Takes (item .standard body) c fun i _ ws => i.WrittenAs ws := by
  refine .kind ?_
  split
  · rename_i form
    exact namedItem_sound (Grammar.kind_of_item form)
  · rename_i form
    exact ifClause_sound (Grammar.kind_of_item form) h
  · exact .refuse _

theorem braces_sound {items : Parse (List Item)}
    (h : ∀ c, Takes items c fun items _ ws => bodyWrittenAs items ws) :
    Takes (braces items) c fun items _ ws => Braced (bodyWrittenAs items) ws := by
  refine .expect Kind.noConfusion fun o d ho _ => .bind (h d) fun items d ws _ written => ?_
  exact .expect Kind.noConfusion fun t d ht _ => .pure ⟨_, ws, t.word, rfl, ho, ht, written⟩

theorem itemsWithin_sound (n : Nat) (c : Cursor) :
    Takes (itemsWithin .standard n) c fun items _ ws => bodyWrittenAs items ws := by
  induction n generalizing c with
  | zero => exact .pure rfl
  | succ n ih =>
    refine .kind ?_
    split
    · exact .pure rfl
    · refine .bind (item_sound fun _ => braces_sound ih) fun front d ws _ hfront => ?_
      refine .bind (ih d) fun back d vs _ hback => .pure ⟨ws, vs, ?_, hfront, hback⟩
      rw [List.append_nil]

theorem block_sound :
    Takes (block .standard) c fun items _ ws => Braced (bodyWrittenAs items) ws :=
  .budget (braces_sound (itemsWithin_sound _))

end

/-! ### Members -/

section
variable {c : Cursor}

theorem selector_sound : Takes selector c fun s _ ws => ∃ w, ws = [w] ∧ w.selector? = some s := by
  refine .kind ?_
  split
  case h_5 => exact .refuse _
  all_goals
    rename_i kind
    refine .advance kind Kind.noConfusion fun _ => .pure ⟨_, rfl, ?_⟩
    rw [c.word_of_kind kind]
    rfl

theorem selectorsWithin_sound (n : Nat) (c : Cursor) :
    Takes (selectorsWithin n) c fun selectors _ ws => furtherWrittenAs selectors ws := by
  induction n generalizing c with
  | zero => exact .pure rfl
  | succ n ih =>
    refine .kind ?_
    split
    · rename_i comma
      refine .advance comma Kind.noConfusion fun _ => .bind selector_sound ?_
      rintro front d _ - ⟨w, rfl, hw⟩
      refine .bind (ih d) fun back d ws _ hback => .pure ?_
      rw [List.append_nil, List.singleton_append]
      exact ⟨c.current.word, w, ws, rfl, comma, hw, hback⟩
    · exact .pure rfl

theorem rule_sound : Takes (rule .standard) c fun r _ ws => r.WrittenAs ws := by
  refine .position (.bind selector_sound ?_)
  rintro front d _ - ⟨w, rfl, hw⟩
  refine .budget (.bind (selectorsWithin_sound _ d) fun back d further _ hback => ?_)
  refine .freshId fun id d _ _ => .bind block_sound fun body d wb _ braced => ?_
  refine .spanFrom fun span => .pure ⟨front, back, w, further, wb, rfl, ?_, hw, hback, braced⟩
  simp only [List.append_nil, List.singleton_append]

theorem member_sound : Takes (member .standard) c fun m _ ws => m.WrittenAs ws := by
  refine .get ?_
  split
  · rename_i second
    refine .advance second.1 Kind.noConfusion fun _ => ?_
    refine .bind (assignmentTail_sound _ second.1) fun a d ws _ given => .pure ?_
    rw [List.append_nil]
    exact given
  · refine .bind rule_sound fun r d ws _ written => .pure ?_
    rw [List.append_nil]
    exact written

/-- Each member takes a word, so the budget lasts up to the closing token. -/
theorem membersWithin_sound (n : Nat) (c : Cursor) (steps : c.words.length < n) :
    Takes (membersWithin .standard n) c fun members d ws =>
      membersWrittenAs members ws ∧ d.kind = .eof := by
  induction n generalizing c with
  | zero => exact absurd steps (Nat.not_lt_zero _)
  | succ n ih =>
    refine .get ?_
    split
    · refine .bind member_sound fun front d ws words hfront => ?_
      obtain ⟨w, vs, rfl, -⟩ := hfront.first
      have length := congrArg List.length words
      rw [List.length_append, List.length_cons] at length
      refine .bind (ih d (by omega)) fun back d us _ hback => .pure ⟨⟨_, us, ?_, hfront, hback.1⟩, ?_⟩
      · rw [List.append_nil]
      · exact hback.2
    · rename_i ended
      refine .pure ⟨rfl, ?_⟩
      unfold Cursor.hasTokens at ended
      rwa [decide_eq_true_eq, not_not] at ended

/-- **A stylesheet that is read is written with all the words**, unless one of them looks
like the closing token. -/
theorem sheet_sound {c d : Cursor} {sheet : Sheet} (h : Parse.sheet .standard c = .ok sheet d)
    (going : ∀ w ∈ c.words, w.kind ≠ .eof) : membersWrittenAs sheet.members c.words := by
  have takes : Takes (Parse.sheet .standard) c fun sheet d ws =>
      membersWrittenAs sheet.members ws ∧ d.kind = .eof := by
    refine .budget (.bind (membersWithin_sound _ c (Nat.lt_succ_self _)) ?_)
    rintro members d ws - ⟨written, ended⟩
    refine .get (.pure ⟨?_, ended⟩)
    rw [List.append_nil]
    exact written
  obtain ⟨ws, words, written, ended⟩ := takes sheet d h
  have none : d.words = [] := by
    cases hd : d.words with
    | nil => rfl
    | cons w rest =>
      have kind := d.current_kind hd
      rw [ended] at kind
      refine absurd kind.symm (going w ?_)
      rw [words, hd]
      exact List.mem_append_right _ List.mem_cons_self
  rw [words, none, List.append_nil]
  exact written

end

end Parse

end Typesheet
