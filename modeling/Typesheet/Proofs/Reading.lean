import Typesheet.Grammar.Sheet
import Typesheet.Proofs.Scanning

/-! How reading goes, and how it stops.

A reader of tokens either gives something and a cursor behind it or stops with an
error. `Parse.bind_ok_iff` and `Parse.bind_error_iff` take a run of a compound
reader apart, and whatever is known of readers is known part by part from them.

The first thing known is that reading stops for reasons of syntax only: at a token
that is out of place, a number out of range, or a character that begins no token
(`Sheet.ofText_error`). -/
namespace Typesheet

/-- The errors of reading a text. -/
def Cause.isSyntax : Cause → Bool
  | .unrecognisedToken _ => true
  | .unexpectedToken _ => true
  | .unexpectedTokenDetailed .. => true
  | .numberParseError _ => true
  | _ => false

theorem Cause.isFault_of_isSyntax {cause : Cause} (h : cause.isSyntax = true) :
    cause.isFault = false := by
  cases cause <;> first | rfl | cases h

namespace Parse
variable {α β : Type}

/-! ### A compound reader taken apart -/

theorem bind_ok_iff {m : Parse α} {k : α → Parse β} {c d : Cursor} {b : β} :
    (m >>= k) c = .ok b d ↔ ∃ a c', m c = .ok a c' ∧ k a c' = .ok b d := by
  show EStateM.bind m k c = _ ↔ _
  unfold EStateM.bind
  cases m c with
  | ok a c' =>
    constructor
    · exact fun h => ⟨a, c', rfl, h⟩
    · rintro ⟨_, _, ⟨⟩, h⟩
      exact h
  | error e c' => simp

theorem bind_error_iff {m : Parse α} {k : α → Parse β} {c d : Cursor} {e : Error} :
    (m >>= k) c = .error e d ↔
      m c = .error e d ∨ ∃ a c', m c = .ok a c' ∧ k a c' = .error e d := by
  show EStateM.bind m k c = _ ↔ _
  unfold EStateM.bind
  cases m c with
  | ok a c' =>
    constructor
    · exact fun h => .inr ⟨a, c', rfl, h⟩
    · rintro (h | ⟨_, _, ⟨⟩, h⟩)
      · cases h
      · exact h
  | error e c' => simp

/-! ### Stopping -/

/-- A reader that stops for reasons of syntax only. -/
def Syntactic (m : Parse α) : Prop := ∀ c d e, m c = .error e d → e.cause.isSyntax = true

namespace Syntactic

theorem bind {m : Parse α} {k : α → Parse β} (hm : Syntactic m) (hk : ∀ a, Syntactic (k a)) :
    Syntactic (m >>= k) := by
  intro c d e h
  obtain h | ⟨a, c', -, h⟩ := bind_error_iff.1 h
  · exact hm c d e h
  · exact hk a c' d e h

theorem pure (a : α) : Syntactic (Pure.pure a : Parse α) := fun _ _ _ h => nomatch h

theorem get : Syntactic (MonadState.get : Parse Cursor) := fun _ _ _ h => nomatch h

theorem raise {e : Error} (h : e.cause.isSyntax = true) : Syntactic (throw e : Parse α) := by
  intro c d e' h'
  cases h'
  exact h

theorem refuse (message : String) : Syntactic (Parse.refuse message : Parse α) := by
  intro c d e h
  cases h
  rfl

theorem advance : Syntactic Parse.advance := fun _ _ _ h => nomatch h

theorem freshId : Syntactic Parse.freshId := fun _ _ _ h => nomatch h

theorem kind : Syntactic Parse.kind := get.bind fun _ => pure _

theorem position : Syntactic Parse.position := get.bind fun _ => pure _

theorem spanFrom (start : Position) : Syntactic (Parse.spanFrom start) := get.bind fun _ => pure _

theorem budget : Syntactic Parse.budget := get.bind fun _ => pure _

theorem expect (k : Kind) : Syntactic (Parse.expect k) := by
  intro c d e h
  unfold Parse.expect expectOr at h
  split at h
  · cases h
  · cases h
    rfl

end Syntactic

/-- What a token for a value comes to: a number in range or the error that it is not, a
boolean, or the colour that the token is. -/
theorem cases_of_literal? {t : Token} {r : Except Cause Literal} (h : t.literal? = some r) :
    (∃ d a, r = .ok (.number d a)) ∨ r = .error (.numberParseError t.value) ∨
      (∃ b, r = .ok (.bool b)) ∨ (t.kind = .color ∧ r = .ok (.color t.value)) := by
  unfold Token.literal? at h
  split at h
  case h_4 hk =>
    cases h
    exact .inr (.inr (.inr ⟨hk, rfl⟩))
  case h_5 | h_6 =>
    cases h
    exact .inr (.inr (.inl ⟨_, rfl⟩))
  case h_7 => cases h
  all_goals
    simp only [] at h
    split at h
    · cases h
      exact .inl ⟨_, _, rfl⟩
    · cases h
      exact .inr (.inl rfl)

theorem primary_syntactic : Syntactic primary := by
  refine .bind .get fun c => ?_
  simp only []
  split
  · exact .bind .advance fun _ => .bind .freshId fun _ => .pure _
  · split
    · exact .bind .advance fun _ => .bind .freshId fun _ => .pure _
    · rename_i h
      refine .raise ?_
      obtain ⟨_, _, ok⟩ | error | ⟨_, ok⟩ | ⟨_, ok⟩ := cases_of_literal? h
      · cases ok
      · cases error
        rfl
      · cases ok
      · cases ok
    · exact .refuse _

theorem grouping_syntactic {inner : Parse Expr} (h : Syntactic inner) :
    Syntactic (grouping inner) :=
  .bind .advance fun _ => .bind h fun _ => .bind (.expect _) fun _ => .pure _

theorem operation_syntactic (left : Expr) {operand : Parse Expr} (h : Syntactic operand) :
    Syntactic (operation left operand) := by
  refine .bind .advance fun sign => ?_
  split
  · exact .raise rfl
  · exact .bind h fun _ => .bind .freshId fun _ => .pure _

theorem exprWithin_syntactic (g : Grammar) (n : Nat) :
    (∀ floor, Syntactic (exprWithin g n floor)) ∧
      ∀ floor left, Syntactic (operationsWithin g n floor left) := by
  induction n with
  | zero => exact ⟨fun _ => .refuse _, fun _ _ => .pure _⟩
  | succ n ih =>
    obtain ⟨ihe, iho⟩ := ih
    constructor
    · intro floor
      refine .bind .kind fun k => ?_
      split
      · exact .refuse _
      · exact .bind primary_syntactic (iho floor)
      · exact .bind (grouping_syntactic (ihe _)) (iho floor)
    · intro floor left
      refine .bind .kind fun k => ?_
      simp only []
      split
      · exact .bind (operation_syntactic left (ihe _)) (iho floor)
      · exact .pure _

theorem expr_syntactic (g : Grammar) (floor : Strength) : Syntactic (expr g floor) :=
  .bind .budget fun n => (exprWithin_syntactic g n).1 floor

theorem assignmentTail_syntactic (g : Grammar) (name : Token) :
    Syntactic (assignmentTail g name) :=
  .bind (.expect _) fun _ => .bind (expr_syntactic g _) fun _ => .bind (.expect _) fun _ =>
    .bind .freshId fun _ => .bind (.spanFrom _) fun _ => .pure _

theorem namedItem_syntactic (g : Grammar) : Syntactic (namedItem g) := by
  refine .bind .advance fun name => .bind .kind fun k => ?_
  split
  · exact .bind (assignmentTail_syntactic g name) fun _ => .pure _
  · exact .bind .advance fun _ => .bind (expr_syntactic g _) fun _ => .bind (.expect _) fun _ =>
      .bind .freshId fun _ => .bind (.spanFrom _) fun _ => .pure _
  · exact .refuse _

theorem ifClause_syntactic (g : Grammar) {body : Parse (List Item)} (h : Syntactic body) :
    Syntactic (ifClause g body) := by
  have otherwise : Syntactic (ifClause.elseClause body) := by
    refine .bind .kind fun k => ?_
    split
    · exact .bind .advance fun _ => .bind .freshId fun _ => .bind h fun _ =>
        .bind (.spanFrom _) fun _ => .pure _
    · exact .pure _
  refine .bind .advance fun start => .bind .kind fun k => ?_
  split
  · exact .refuse _
  · exact .bind .advance fun _ => .bind (expr_syntactic g _) fun _ => .bind (.expect _) fun _ =>
      .bind .freshId fun _ => .bind h fun _ => .bind otherwise fun _ =>
      .bind (.spanFrom _) fun _ => .pure _

theorem item_syntactic (g : Grammar) {body : Parse (List Item)} (h : Syntactic body) :
    Syntactic (item g body) := by
  refine .bind .kind fun k => ?_
  split
  · exact namedItem_syntactic g
  · exact ifClause_syntactic g h
  · exact .refuse _

theorem braces_syntactic {items : Parse (List Item)} (h : Syntactic items) :
    Syntactic (braces items) :=
  .bind (.expect _) fun _ => .bind h fun _ => .bind (.expect _) fun _ => .pure _

theorem itemsWithin_syntactic (g : Grammar) (n : Nat) : Syntactic (itemsWithin g n) := by
  induction n with
  | zero => exact .pure _
  | succ n ih =>
    refine .bind .kind fun k => ?_
    split
    · exact .pure _
    · exact .bind (item_syntactic g (braces_syntactic ih)) fun _ => .bind ih fun _ => .pure _

theorem block_syntactic (g : Grammar) : Syntactic (block g) :=
  .bind .budget fun n => braces_syntactic (itemsWithin_syntactic g n)

theorem selector_syntactic : Syntactic selector := by
  refine .bind .kind fun k => ?_
  split
  case h_5 => exact .refuse _
  all_goals exact .bind .advance fun _ => .pure _

theorem selectorsWithin_syntactic (n : Nat) : Syntactic (selectorsWithin n) := by
  induction n with
  | zero => exact .pure _
  | succ n ih =>
    refine .bind .kind fun k => ?_
    split
    · exact .bind .advance fun _ => .bind selector_syntactic fun _ => .bind ih fun _ => .pure _
    · exact .pure _

theorem rule_syntactic (g : Grammar) : Syntactic (rule g) :=
  .bind .position fun _ => .bind selector_syntactic fun _ => .bind .budget fun n =>
    .bind (selectorsWithin_syntactic n) fun _ => .bind .freshId fun _ =>
    .bind (block_syntactic g) fun _ => .bind (.spanFrom _) fun _ => .pure _

theorem member_syntactic (g : Grammar) : Syntactic (member g) := by
  refine .bind .get fun c => ?_
  split
  · exact .bind .advance fun _ => .bind (assignmentTail_syntactic g _) fun _ => .pure _
  · exact .bind (rule_syntactic g) fun _ => .pure _

theorem membersWithin_syntactic (g : Grammar) (n : Nat) : Syntactic (membersWithin g n) := by
  induction n with
  | zero => exact .pure _
  | succ n ih =>
    refine .bind .get fun c => ?_
    split
    · exact .bind (member_syntactic g) fun _ => .bind ih fun _ => .pure _
    · exact .pure _

theorem sheet_syntactic (g : Grammar) : Syntactic (sheet g) :=
  .bind .budget fun n => .bind (membersWithin_syntactic g n) fun _ => .bind .get fun _ => .pure _

end Parse

namespace Sheet

theorem ofTokens_error {tokens : List Token} {file : String} {e : Error}
    (h : ofTokens tokens file = .error e) : e.cause.isSyntax = true := by
  unfold ofTokens at h
  split at h
  · cases h
  · rename_i hread
    cases h
    exact Parse.sheet_syntactic _ _ _ _ hread

/-- Reading a text stops for reasons of syntax only. -/
theorem ofText_error {text file : String} {e : Error} (h : ofText text file = .error e) :
    e.cause.isSyntax = true := by
  unfold ofText at h
  cases ht : Token.ofText text file with
  | error e' =>
    rw [ht] at h
    cases h
    obtain ⟨c, cause⟩ := Token.scan_error ht
    rw [cause]
    rfl
  | ok tokens =>
    rw [ht] at h
    exact ofTokens_error h

end Sheet

end Typesheet
