import Typesheet.Proofs.Expectation
import Typesheet.Proofs.Soundness

/-! Reading follows what stands out.

A reader goes through the tokens as what stands out allows, and if it stops, then at the
token that cannot stand where it does, with an error about that token. `Parse.Tracks` says
so of a reader at a place: what stands out in front of it, and what behind it. There is a
rule for each step that a reader begins with, and one lemma a reader up to
`Parse.sheet_tracks`.

What a reader leaves out at its end stands out no more, and the next token is told the
same either way, so stacks are compared at the current token only (`Parse.Tracks.swap`). -/
namespace Typesheet

/-- The token that an error of reading names. -/
def Cause.token? : Cause → Option String
  | .unrecognisedToken token => some token
  | .unexpectedToken token => some token
  | .unexpectedTokenDetailed token _ => some token
  | .numberParseError token => some token
  | _ => none

/-- An error about a token. -/
def Error.IsAt (e : Error) (t : Token) : Prop :=
  e.position = t.span.start ∧ e.cause.token? = some t.value

namespace Cursor
variable {c d : Cursor}

/-- The tokens still ahead, and the closing one behind them. -/
def tokens (c : Cursor) : List Token := c.ahead ++ [c.closing]

theorem tokens_eq (c : Cursor) : ∃ rest, c.tokens = c.current :: rest := by
  unfold tokens current
  cases c.ahead with
  | nil => exact ⟨[], rfl⟩
  | cons t ts => exact ⟨_, rfl⟩

theorem current_eq (h : c.tokens = d.tokens) : c.current = d.current := by
  obtain ⟨_, hc⟩ := c.tokens_eq
  obtain ⟨_, hd⟩ := d.tokens_eq
  rw [hc, hd] at h
  exact (List.cons.inj h).1

theorem ahead_of_kind (h : c.kind ≠ .eof) : ∃ t ts, c.ahead = t :: ts := by
  cases ha : c.ahead with
  | nil =>
    unfold kind current at h
    rw [ha] at h
    exact absurd c.closing_kind h
  | cons t ts => exact ⟨t, ts, rfl⟩

theorem next_of_kind (h : c.kind ≠ .eof) :
    c.tokens = c.current :: c.next.tokens ∧ c.next.ahead.length < c.ahead.length := by
  obtain ⟨t, ts, ha⟩ := ahead_of_kind h
  simp only [tokens, current, next, ha]
  exact ⟨rfl, Nat.lt_succ_self _⟩

theorem peek_one (h : c.kind ≠ .eof) : c.peek 1 = c.next.current := by
  obtain ⟨t, ts, ha⟩ := ahead_of_kind h
  simp only [peek, current, next, ha]
  cases ts <;> rfl

theorem words_length (c : Cursor) : c.words.length = c.ahead.length := List.length_map _

/-- Reading went on from one place to another, and what stood out there became this. -/
def Reaches (c d : Cursor) (before after : List Expected) : Prop :=
  ∃ ts, c.tokens = ts ++ d.tokens ∧ Expected.run before ts = some after

namespace Reaches
variable {c' : Cursor} {before mid after other : List Expected}

theorem refl : Reaches c c before before := ⟨[], rfl, rfl⟩

theorem cons (going : c.kind ≠ .eof) (takes : Expected.step before c.current = some mid)
    (h : Reaches c.next d mid after) : Reaches c d before after := by
  obtain ⟨ts, tokens, runs⟩ := h
  refine ⟨c.current :: ts, ?_, ?_⟩
  · rw [(next_of_kind going).1, tokens, List.cons_append]
  · rw [Expected.run_cons takes, runs]

theorem trans (h : Reaches c c' before mid) (h' : Reaches c' d mid after) :
    Reaches c d before after := by
  obtain ⟨ts, tokens, runs⟩ := h
  obtain ⟨us, tokens', runs'⟩ := h'
  refine ⟨ts ++ us, ?_, ?_⟩
  · rw [tokens, tokens', List.append_assoc]
  · rw [Expected.run_append, runs, Option.bind_some, runs']

theorem length_le (h : Reaches c d before after) : d.ahead.length ≤ c.ahead.length := by
  obtain ⟨ts, tokens, -⟩ := h
  have length := congrArg List.length tokens
  simp only [Cursor.tokens, List.length_append, List.length_singleton] at length
  omega

/-- What stands out matters up to the current token only. -/
theorem swap (h : Reaches c d before after)
    (same : Expected.step other c.current = Expected.step before c.current) :
    ∃ after', Reaches c d other after' ∧
      Expected.step after' d.current = Expected.step after d.current := by
  obtain ⟨ts, tokens, runs⟩ := h
  cases ts with
  | nil =>
    cases runs
    exact ⟨other, ⟨[], tokens, rfl⟩, current_eq tokens ▸ same⟩
  | cons t ts =>
    obtain ⟨rest, first⟩ := c.tokens_eq
    obtain rfl : c.current = t := by
      rw [first, List.cons_append] at tokens
      exact (List.cons.inj tokens).1
    refine ⟨after, ⟨c.current :: ts, tokens, ?_⟩, rfl⟩
    rw [Expected.run, same]
    exact runs

end Reaches

end Cursor

namespace Parse
open Expected (step)
variable {α β : Type}

/-! ### Readers seen by what stands out -/

/-- From the place `c` the reader goes where what stands out allows, and stops only at a
token that cannot stand where it does. -/
structure Tracks (m : Parse α) (c : Cursor) (before after : List Expected) : Prop where
  ok : ∀ a d, m c = .ok a d →
    ∃ stack, c.Reaches d before stack ∧ step stack d.current = step after d.current
  stops : ∀ e d, m c = .error e d →
    e.IsAt d.current ∧ ∃ stack, c.Reaches d before stack ∧ step stack d.current = none

namespace Tracks
variable {m : Parse α} {k : α → Parse β} {c : Cursor} {before mid after other : List Expected}

theorem swap (h : Tracks m c before after)
    (same : step other c.current = step before c.current) : Tracks m c other after where
  ok a d hm := by
    obtain ⟨stack, reaches, agrees⟩ := h.ok a d hm
    obtain ⟨stack', reaches', agrees'⟩ := reaches.swap same
    exact ⟨stack', reaches', agrees'.trans agrees⟩
  stops e d hm := by
    obtain ⟨at_, stack, reaches, stuck⟩ := h.stops e d hm
    obtain ⟨stack', reaches', agrees'⟩ := reaches.swap same
    exact ⟨at_, stack', reaches', agrees'.trans stuck⟩

/-- What is left out at the end has not to stand out. -/
theorem ends (h : Tracks m c before mid)
    (same : ∀ a d, m c = .ok a d → step mid d.current = step after d.current) :
    Tracks m c before after where
  ok a d hm := by
    obtain ⟨stack, reaches, agrees⟩ := h.ok a d hm
    exact ⟨stack, reaches, agrees.trans (same a d hm)⟩
  stops := h.stops

theorem bind (hm : Tracks m c before mid)
    (hk : ∀ a d, m c = .ok a d → d.ahead.length ≤ c.ahead.length → Tracks (k a) d mid after) :
    Tracks (m >>= k) c before after where
  ok b d h := by
    obtain ⟨a, c', h, h'⟩ := bind_ok_iff.1 h
    obtain ⟨stack, reaches, agrees⟩ := hm.ok a c' h
    obtain ⟨stack', reaches', agrees'⟩ :=
      ((hk a c' h reaches.length_le).swap agrees).ok b d h'
    exact ⟨stack', reaches.trans reaches', agrees'⟩
  stops e d h := by
    obtain h | ⟨a, c', h, h'⟩ := bind_error_iff.1 h
    · exact hm.stops e d h
    · obtain ⟨stack, reaches, agrees⟩ := hm.ok a c' h
      obtain ⟨isAt, stack', reaches', stuck⟩ :=
        ((hk a c' h reaches.length_le).swap agrees).stops e d h'
      exact ⟨isAt, stack', reaches.trans reaches', stuck⟩

theorem pure {b : β} (same : step before c.current = step after c.current) :
    Tracks (Pure.pure b) c before after where
  ok := by
    rintro _ _ ⟨⟩
    exact ⟨before, .refl, same⟩
  stops _ _ h := nomatch h

theorem raise {e : Error} (isAt : e.IsAt c.current) (stuck : step before c.current = none) :
    Tracks (throw e : Parse β) c before after where
  ok _ _ h := nomatch h
  stops := by
    rintro _ _ ⟨⟩
    exact ⟨isAt, before, .refl, stuck⟩

theorem refuse (message : String) (stuck : step before c.current = none) :
    Tracks (Parse.refuse message : Parse β) c before after where
  ok _ _ h := nomatch h
  stops := by
    rintro _ _ ⟨⟩
    exact ⟨⟨rfl, rfl⟩, before, .refl, stuck⟩

theorem get {k : Cursor → Parse β} (h : Tracks (k c) c before after) :
    Tracks (MonadState.get >>= k) c before after := ⟨h.ok, h.stops⟩

theorem kind {k : Kind → Parse β} (h : Tracks (k c.kind) c before after) :
    Tracks (Parse.kind >>= k) c before after := ⟨h.ok, h.stops⟩

theorem position {k : Position → Parse β} (h : Tracks (k c.position) c before after) :
    Tracks (Parse.position >>= k) c before after := ⟨h.ok, h.stops⟩

theorem spanFrom {k : Span → Parse β} {start : Position}
    (h : ∀ span, Tracks (k span) c before after) :
    Tracks (Parse.spanFrom start >>= k) c before after := ⟨(h _).ok, (h _).stops⟩

theorem budget {k : Nat → Parse β} (h : Tracks (k (c.ahead.length + 1)) c before after) :
    Tracks (Parse.budget >>= k) c before after := ⟨h.ok, h.stops⟩

theorem freshId {k : NodeId → Parse β}
    (h : ∀ id d, d.ahead = c.ahead → Tracks (k id) d before after) :
    Tracks (Parse.freshId >>= k) c before after :=
  have later := h c.nextId {c with nextId := c.nextId + 1} rfl
  ⟨later.ok, later.stops⟩

theorem advance {k : Token → Parse β} (going : c.kind ≠ .eof)
    (takes : step before c.current = some mid)
    (h : c.next.ahead.length < c.ahead.length → Tracks (k c.current) c.next mid after) :
    Tracks (Parse.advance >>= k) c before after where
  ok b d hk := by
    obtain ⟨stack, reaches, agrees⟩ := (h (Cursor.next_of_kind going).2).ok b d hk
    exact ⟨stack, .cons going takes reaches, agrees⟩
  stops e d hk := by
    obtain ⟨isAt, stack, reaches, stuck⟩ := (h (Cursor.next_of_kind going).2).stops e d hk
    exact ⟨isAt, stack, .cons going takes reaches, stuck⟩

theorem expect {k : Token → Parse β} {kind : Kind} (going : kind ≠ .eof)
    (takes : c.kind = kind → step before c.current = some mid)
    (stuck : c.kind ≠ kind → step before c.current = none)
    (h : c.next.ahead.length < c.ahead.length → Tracks (k c.current) c.next mid after) :
    Tracks (Parse.expect kind >>= k) c before after where
  ok b d hk := by
    obtain ⟨t, c', ht, hk'⟩ := bind_ok_iff.1 hk
    unfold Parse.expect expectOr at ht
    split at ht
    · rename_i hc
      exact (advance (hc ▸ going) (takes hc) h).ok b d (bind_ok_iff.2 ⟨t, c', ht, hk'⟩)
    · cases ht
  stops e d hk := by
    unfold Parse.expect expectOr at hk
    obtain ht | ⟨t, c', ht, hk'⟩ := bind_error_iff.1 hk
    · split at ht
      · cases ht
      · rename_i hc
        cases ht
        exact ⟨⟨rfl, rfl⟩, before, .refl, stuck hc⟩
    · split at ht
      · rename_i hc
        exact (advance (hc ▸ going) (takes hc) h).stops e d
          (bind_error_iff.2 (.inr ⟨t, c', ht, hk'⟩))
      · cases ht

theorem mark (m : Mark) {k : Token → Parse β}
    (h : c.next.ahead.length < c.ahead.length → Tracks (k c.current) c.next mid after) :
    Tracks (Parse.expect m.kind >>= k) c (.mark m :: mid) after :=
  expect m.kind_ne_eof Expected.step_mark Expected.step_mark_none h

end Tracks

/-- A reader that took words left fewer tokens ahead. -/
theorem Takes.shorter {m : Parse α} {c d : Cursor} {R : α → Cursor → List Word → Prop} {a : α}
    (h : Takes m c R) (some : ∀ a d ws, R a d ws → ws ≠ []) (hm : m c = .ok a d) :
    d.ahead.length < c.ahead.length := by
  obtain ⟨ws, words, ha⟩ := h a d hm
  have taken := List.length_pos_iff.2 (some a d ws ha)
  have length := congrArg List.length words
  simp only [Cursor.words, List.length_append, List.length_map] at length
  omega

/-! ### Expressions -/

section
variable {c : Cursor} {rest : List Expected}

theorem primary_tracks (form : Grammar.standard.operand c.kind = some .primary) :
    Tracks primary c (.operand :: rest) rest := by
  refine .get ?_
  simp only []
  split
  · rename_i name
    have name : c.kind = .identifier := name
    refine .advance (name ▸ Kind.noConfusion) (Expected.step_begins (if_pos name)) fun _ => ?_
    exact .freshId fun id d _ => .pure rfl
  · rename_i noName
    split
    · rename_i v value
      have going : c.kind ≠ .eof := by
        intro eof
        rw [← Token.literal?_word, c.word_of_kind eof] at value
        cases value
      have takes : Expected.operand.behind? c.current = some [] := by
        rw [Expected.behind?, if_neg noName, value]
      exact .advance going (Expected.step_begins takes) fun _ =>
        .freshId fun id d _ => .pure rfl
    · rename_i cause value
      refine .raise ⟨rfl, ?_⟩ (Expected.step_stuck ?_ rfl)
      · obtain ⟨_, _, ok⟩ | error | ⟨_, ok⟩ | ⟨_, ok⟩ := cases_of_literal? value
        · cases ok
        · cases error
          rfl
        · cases ok
        · cases ok
      · rw [Expected.behind?, if_neg noName, value]
    · rename_i value
      have noGroup : c.current.kind ≠ .openParen := by
        intro paren
        rw [show c.kind = .openParen from paren] at form
        cases form
      refine .refuse _ (Expected.step_stuck ?_ rfl)
      rw [Expected.behind?, if_neg noName, value, if_neg noGroup]

theorem grouping_tracks {inner : Parse Expr} (opening : c.kind = .openParen)
    (h : ∀ d, d.ahead.length < c.ahead.length → ∀ rest,
      Tracks inner d (.operand :: .operations :: rest) rest) :
    Tracks (grouping inner) c (.operand :: rest) rest := by
  have going : c.kind ≠ .eof := opening ▸ Kind.noConfusion
  have takes := Expected.behind?_operand_openParen opening
  refine .advance going (Expected.step_begins takes) fun shorter => ?_
  refine .bind (h _ shorter _) fun e d _ _ => ?_
  exact .mark .closeParen fun _ => .pure rfl

/-- An operator and its right operand leave further operators to come. -/
theorem operation_tracks {left : Expr} {operand : Parse Expr} {op : Operator}
    (hop : c.kind.operator? = some op)
    (h : ∀ d, d.ahead.length < c.ahead.length →
      Tracks operand d (.operand :: .operations :: rest) (.operations :: rest)) :
    Tracks (operation left operand) c (.operations :: rest) (.operations :: rest) := by
  have going : c.kind ≠ .eof := by
    intro eof
    rw [eof] at hop
    cases hop
  have sign : c.current.kind.operator? = some op := hop
  have takes : Expected.operations.behind? c.current =
      some [Expected.operand, .operations] := by
    rw [Expected.behind?, sign]
    rfl
  refine .advance going (Expected.step_begins takes) fun shorter => ?_
  rw [sign]
  refine .bind (h _ shorter) fun right d _ _ => ?_
  exact .freshId fun id d' _ => .pure rfl

/-- Behind a whole expression there is no operator. -/
theorem lowest_tracks {n : Nat} {before : List Expected} (steps : c.ahead.length < n)
    (h : Tracks (exprWithin .standard n .lowest) c before (.operations :: rest)) :
    Tracks (exprWithin .standard n .lowest) c before rest := by
  refine h.ends fun e d hm => Expected.step_omits ?_ rfl
  have steps : c.words.length < n := by rwa [c.words_length]
  obtain ⟨_, _, -, halts⟩ := (exprWithin_sound n).1 .lowest c steps e d hm
  have none : d.current.kind.operator? = none := by
    cases hop : d.kind.operator? with
    | none => exact hop
    | some op =>
      have below := halts op hop
      cases op <;> cases below
  rw [Expected.behind?, none]
  rfl

/-- One step of the budget less lasts for what is ahead behind a token. -/
theorem exprWithin_sound_behind {n : Nat} {d : Cursor} (steps : c.ahead.length < n + 1)
    (shorter : d.words.length < c.words.length) (floor : Strength) :
    Takes (exprWithin .standard n floor) d fun e d ws =>
      e.WrittenAs floor ws ∧ d.kind.Halts floor := by
  rw [c.words_length] at shorter
  exact (exprWithin_sound n).1 floor d (by omega)

/-- An expression is read up to where further operators could follow it. -/
theorem exprWithin_tracks (n : Nat) :
    (∀ floor c rest, c.ahead.length < n → Tracks (exprWithin .standard n floor) c
      (.operand :: .operations :: rest) (.operations :: rest)) ∧
    ∀ floor left c rest, c.ahead.length < n → Tracks (operationsWithin .standard n floor left) c
      (.operations :: rest) (.operations :: rest) := by
  induction n with
  | zero =>
    exact ⟨fun _ _ _ h => absurd h (Nat.not_lt_zero _),
      fun _ _ _ _ h => absurd h (Nat.not_lt_zero _)⟩
  | succ n ih =>
    obtain ⟨ihe, iho⟩ := ih
    constructor
    · intro floor c rest steps
      refine .kind ?_
      split
      · rename_i form
        exact .refuse _ (Expected.step_stuck (Expected.behind?_operand_none form) rfl)
      · rename_i form
        refine .bind (primary_tracks form) fun left d hm _ => iho floor left d rest ?_
        have shorter := primary_sound.shorter (fun _ _ _ h => h.1) hm
        omega
      · rename_i form
        have opening := Grammar.kind_of_grouping form
        refine .bind (grouping_tracks opening fun d shorter rest => ?_) fun left d hm _ =>
          iho floor left d rest ?_
        · exact lowest_tracks (by omega) (ihe .lowest d rest (by omega))
        · have inner : ∀ d, d.words.length < c.words.length →
              Takes (exprWithin .standard n .lowest) d fun e _ ws => e.WrittenAs .lowest ws :=
            fun d shorter => (exprWithin_sound_behind steps shorter .lowest).mono fun _ _ _ h => h.1
          have shorter := (grouping_sound opening inner).shorter (fun _ _ _ h => h.1) hm
          omega
    · intro floor left c rest steps
      refine .kind ?_
      simp only []
      split
      · rename_i go
        obtain ⟨op, hop⟩ := Option.isSome_iff_exists.1 (Grammar.isOperator_standard _ ▸ go.1)
        rw [Grammar.strength_standard hop, Option.getD_some]
        refine .bind (operation_tracks hop fun d shorter => ihe _ d rest (by omega))
          fun e d hm _ => iho floor e d rest ?_
        have right : ∀ d, d.words.length < c.words.length →
            Takes (exprWithin .standard n op.strength) d fun e d ws =>
              e.WrittenAs op.strength ws ∧ d.kind.Halts op.strength :=
          fun d shorter => exprWithin_sound_behind steps shorter op.strength
        have shorter := (operation_sound hop right).shorter (fun _ _ _ h => h.2.1) hm
        omega
      · exact .pure rfl

theorem expr_tracks :
    Tracks (expr .standard .lowest) c (.operand :: .operations :: rest) rest :=
  .budget (lowest_tracks (Nat.lt_succ_self _)
    ((exprWithin_tracks _).1 .lowest c rest (Nat.lt_succ_self _)))

end

/-! ### Bodies -/

section
variable {c : Cursor} {rest : List Expected}

theorem assignmentTail_tracks {before : List Expected} (name : Token)
    (assignment : c.kind = .assignment)
    (takes : step before c.current = some (Expected.expression .semicolon ++ rest)) :
    Tracks (assignmentTail .standard name) c before rest := by
  refine .expect Kind.noConfusion (fun _ => takes) (absurd assignment) fun _ => ?_
  refine .bind expr_tracks fun value d _ _ => .mark .semicolon fun _ => ?_
  exact .freshId fun id d' _ => .spanFrom fun span => .pure rfl

theorem namedItem_tracks (name : c.current.kind = .identifier) :
    Tracks (namedItem .standard) c (.items :: rest) (.items :: rest) := by
  have takes : Expected.items.behind? c.current = some [.given, .items] := by
    rw [Expected.behind?, name]
  have going : c.kind ≠ .eof := fun eof => Kind.noConfusion (name.symm.trans eof)
  refine .advance going (Expected.step_begins takes) fun _ => .kind ?_
  split
  · rename_i assignment
    have given : Expected.given.behind? c.next.current = some (Expected.expression .semicolon) := by
      rw [Expected.behind?, show c.next.current.kind = .assignment from assignment]
    refine .bind (assignmentTail_tracks _ assignment (Expected.step_begins given)) fun a d _ _ => ?_
    exact .pure rfl
  · rename_i colon
    have given : Expected.given.behind? c.next.current = some (Expected.expression .semicolon) := by
      rw [Expected.behind?, show c.next.current.kind = .colon from colon]
    have going : c.next.kind ≠ .eof := colon ▸ Kind.noConfusion
    refine .advance going (Expected.step_begins given) fun _ => ?_
    refine .bind expr_tracks fun value d _ _ => ?_
    refine .mark .semicolon fun _ => .freshId fun id d' _ => .spanFrom fun span => ?_
    exact .pure rfl
  · rename_i noAssignment noColon
    refine .refuse _ (Expected.step_stuck ?_ rfl)
    rw [Expected.behind?]
    split
    · contradiction
    · contradiction
    · rfl

/-- A reader of bodies goes through one wherever fewer tokens are ahead. -/
def TracksBody (body : Parse (List Item)) (c : Cursor) : Prop :=
  ∀ d, d.ahead.length < c.ahead.length → ∀ rest, Tracks body d (Expected.body ++ rest) rest

theorem TracksBody.mono {body : Parse (List Item)} {d : Cursor} (h : TracksBody body c)
    (onward : d.ahead.length ≤ c.ahead.length) : TracksBody body d :=
  fun d' shorter => h d' (Nat.lt_of_lt_of_le shorter onward)

theorem elseClause_tracks {body : Parse (List Item)} (h : TracksBody body c) :
    Tracks (ifClause.elseClause body) c (.otherwise :: rest) rest := by
  refine .kind ?_
  split
  · rename_i word
    have going : c.kind ≠ .eof := word ▸ Kind.noConfusion
    refine .advance going (Expected.step_begins (if_pos word)) fun shorter => ?_
    refine .freshId fun id d ahead => ?_
    refine .bind (h d (ahead ▸ shorter) rest) fun whenFalse d' _ _ => .spanFrom fun span => ?_
    exact .pure rfl
  · rename_i noWord
    exact .pure (Expected.step_omits (if_neg noWord) rfl)

theorem ifClause_tracks {body : Parse (List Item)} (word : c.current.kind = .ifWord)
    (h : TracksBody body c) :
    Tracks (ifClause .standard body) c (.items :: rest) (.items :: rest) := by
  have takes : Expected.items.behind? c.current =
      some (.condition :: Expected.body ++ [.otherwise, .items]) := by
    rw [Expected.behind?, word]
  have going : c.kind ≠ .eof := fun eof => Kind.noConfusion (word.symm.trans eof)
  refine .advance going (Expected.step_begins takes) fun shorter => .kind ?_
  split
  · rename_i noEnd
    exact .refuse _ (Expected.step_stuck (Expected.behind?_condition_none noEnd) rfl)
  · rename_i closing ends
    obtain ⟨m, rfl, begins⟩ := Expected.behind?_condition_some ends
    have opens := (conditionEnd?_going ends).1
    refine .advance opens (Expected.step_begins begins) fun further => ?_
    refine .bind expr_tracks fun condition d _ le => .mark m fun past => ?_
    refine .freshId fun id d' ahead => ?_
    rw [← ahead] at past
    refine .bind (h d' (by omega) _) fun whenTrue d'' _ le' => ?_
    refine .bind (elseClause_tracks (h.mono (by omega))) fun otherwise e _ _ => ?_
    exact .spanFrom fun span => .pure rfl

/-- An item is read where no brace closes the body. -/
theorem item_tracks {body : Parse (List Item)} (inside : c.kind ≠ .closeCurly)
    (h : TracksBody body c) : Tracks (item .standard body) c
      (.items :: .mark .closeCurly :: rest) (.items :: .mark .closeCurly :: rest) := by
  refine .kind ?_
  split
  · rename_i form
    exact namedItem_tracks (Grammar.kind_of_item form)
  · rename_i form
    exact ifClause_tracks (Grammar.kind_of_item form) h
  · rename_i noItem
    refine .refuse _ ?_
    rw [Expected.step_omits (Expected.behind?_items_none noItem) rfl]
    exact Expected.step_mark_none inside

theorem braces_tracks {items : Parse (List Item)}
    (h : ∀ d, d.ahead.length < c.ahead.length → ∀ rest,
      Tracks items d (.items :: .mark .closeCurly :: rest) (.mark .closeCurly :: rest)) :
    Tracks (braces items) c (Expected.body ++ rest) rest := by
  refine .mark .openCurly fun shorter => ?_
  exact .bind (h _ shorter rest) fun body d _ _ => .mark .closeCurly fun _ => .pure rfl

/-- Items are read up to where only a closing brace can come. -/
theorem itemsWithin_tracks (n : Nat) (c : Cursor) (steps : c.ahead.length < n)
    (rest : List Expected) : Tracks (itemsWithin .standard n) c
      (.items :: .mark .closeCurly :: rest) (.mark .closeCurly :: rest) := by
  induction n generalizing c rest with
  | zero => exact absurd steps (Nat.not_lt_zero _)
  | succ n ih =>
    refine .kind ?_
    split
    · rename_i ended
      have noItem : Grammar.standard.item c.kind = none := by
        obtain ended | ended := ended <;> rw [ended] <;> rfl
      exact .pure (Expected.step_omits (Expected.behind?_items_none noItem) rfl)
    · rename_i going
      rw [not_or] at going
      have bodies : TracksBody (braces (itemsWithin .standard n)) c := fun d shorter rest =>
        braces_tracks fun d' shorter' rest => ih d' (by omega) rest
      refine .bind (item_tracks going.1 bodies) fun front d hm _ => ?_
      have shorter : d.ahead.length < c.ahead.length := by
        refine (item_sound fun _ => braces_sound (itemsWithin_sound n)).shorter ?_ hm
        rintro i d ws written rfl
        obtain ⟨_, _, nonempty, -⟩ := written.first
        cases nonempty
      exact .bind (ih d (by omega) rest) fun back d' _ _ => .pure rfl

theorem block_tracks : Tracks (block .standard) c (Expected.body ++ rest) rest :=
  .budget (braces_tracks fun d shorter rest => itemsWithin_tracks _ d (by omega) rest)

end

/-! ### Members -/

section
variable {c : Cursor} {before rest : List Expected}

/-- A selector is taken for what stands out, if that takes it as one. -/
theorem selector_tracks
    (takes : Expected.selector.behind? c.current = some [] →
      ∃ stack, step before c.current = some stack ∧
        step stack c.next.current = step rest c.next.current)
    (stuck : Expected.selector.behind? c.current = none → step before c.current = none) :
    Tracks selector c before rest := by
  refine .kind ?_
  split
  case h_5 =>
    refine .refuse _ (stuck ?_)
    rw [Expected.behind?]
    split <;> first | contradiction | rfl
  all_goals
    rename_i kind
    obtain ⟨stack, here, same⟩ := takes (by
      rw [Expected.behind?, show c.current.kind = _ from kind])
    exact .advance (kind ▸ Kind.noConfusion) here fun _ => .pure same

theorem selectorsWithin_tracks (n : Nat) (c : Cursor) (steps : c.ahead.length < n) :
    Tracks (selectorsWithin n) c (.further :: rest) rest := by
  induction n generalizing c with
  | zero => exact absurd steps (Nat.not_lt_zero _)
  | succ n ih =>
    refine .kind ?_
    split
    · rename_i comma
      have takes : Expected.further.behind? c.current = some [.selector, .further] := if_pos comma
      refine .advance (comma ▸ Kind.noConfusion) (Expected.step_begins takes) fun shorter => ?_
      refine .bind (selector_tracks (fun found => ⟨_, Expected.step_begins found, rfl⟩)
        fun none => Expected.step_stuck none rfl) fun front d _ le => ?_
      exact .bind (ih d (by omega)) fun back d' _ _ => .pure rfl
    · rename_i noComma
      exact .pure (Expected.step_omits (if_neg noComma) rfl)

theorem rule_tracks (going : c.kind ≠ .eof)
    (noAssignment : ¬(c.kind = .identifier ∧ (c.peek 1).kind = .assignment)) :
    Tracks (rule .standard) c [] [] := by
  have first : Tracks selector c [] (.further :: Expected.body ++ []) := by
    refine selector_tracks (fun found => ?_) fun none => Expected.start?_none none going
    obtain ⟨name, start⟩ | start := Expected.start?_of_selector found
    · refine ⟨_, start, Expected.step_named fun assignment => noAssignment ⟨name, ?_⟩⟩
      rw [Cursor.peek_one going, assignment]
    · exact ⟨_, start, by rw [List.append_nil]⟩
  refine .position (.bind first fun front d _ _ => .budget ?_)
  refine .bind (selectorsWithin_tracks _ d (Nat.lt_succ_self _)) fun back d _ _ => ?_
  refine .freshId fun id d _ => .bind block_tracks fun body d _ _ => ?_
  exact .spanFrom fun span => .pure rfl

theorem member_tracks (going : c.kind ≠ .eof) : Tracks (member .standard) c [] [] := by
  refine .get ?_
  split
  · rename_i second
    obtain ⟨name, assignment⟩ := second
    rw [Cursor.peek_one going] at assignment
    have start : step [] c.current = some [.named] := by
      show Expected.start? c.current = _
      rw [Expected.start?, show c.current.kind = _ from name]
    have named : Expected.named.behind? c.next.current = some (Expected.expression .semicolon) := by
      rw [Expected.behind?, assignment]
    refine .advance going start fun _ => ?_
    refine .bind (assignmentTail_tracks _ assignment (Expected.step_begins named)) fun a d _ _ => ?_
    exact .pure rfl
  · rename_i noAssignment
    exact .bind (rule_tracks going noAssignment) fun r d _ _ => .pure rfl

theorem membersWithin_tracks (n : Nat) (c : Cursor) (steps : c.ahead.length < n) :
    Tracks (membersWithin .standard n) c [] [] := by
  induction n generalizing c with
  | zero => exact absurd steps (Nat.not_lt_zero _)
  | succ n ih =>
    refine .get ?_
    split
    · rename_i going
      refine .bind (member_tracks (of_decide_eq_true going)) fun front d hm _ => ?_
      have shorter : d.ahead.length < c.ahead.length := by
        refine member_sound.shorter ?_ hm
        rintro m d ws written rfl
        obtain ⟨_, _, nonempty, -⟩ := written.first
        cases nonempty
      exact .bind (ih d (by omega)) fun back d' _ _ => .pure rfl
    · exact .pure rfl

theorem sheet_tracks (c : Cursor) : Tracks (sheet .standard) c [] [] :=
  .budget (.bind (membersWithin_tracks _ c (Nat.lt_succ_self _)) fun _ _ _ _ =>
    .get (.pure rfl))

/-- Reading ends at a closing token. -/
theorem sheet_ended {d : Cursor} {sheet : Sheet} (h : Parse.sheet .standard c = .ok sheet d) :
    d.kind = .eof := by
  have takes : Takes (Parse.sheet .standard) c fun _ d _ => d.kind = .eof :=
    .budget (.bind (membersWithin_sound _ c (Nat.lt_succ_self _)) fun _ _ _ _ ended =>
      .get (.pure ended.2))
  obtain ⟨_, -, ended⟩ := takes sheet d h
  exact ended

end

end Parse

end Typesheet
