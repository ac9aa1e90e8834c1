import Typesheet.Proofs.Abreast
import Typesheet.Proofs.Numbering
import Typesheet.Proofs.Progress
import Typesheet.Proofs.Refusal

/-! Reading comes to an end.

The readers call each other, and each loop is a call of its own, so nothing in how they are
written bounds the calls. `Readers.unrolled` is one level of them, with the deeper calls left
open, and the readers with a budget are as many levels of it. Two lots of readers that do the
same wherever few tokens are ahead do the same, one level further up, wherever one token more
is ahead (`Readers.Agree.unrolled`): each deeper call follows a token that was used up. So as
many levels as there are tokens are enough, whatever a deeper call would do. -/
namespace Typesheet

namespace Parse
open Cursor (Abreast Onward)
variable {α β : Type}

/-! ### Levels of calls -/

/-- The readers that call each other or themselves. -/
structure Readers where
  expr : Strength → Parse Expr
  operations : Strength → Expr → Parse Expr
  items : Parse (List Item)
  selectors : Parse (List Selector)
  members : Parse (List Member)

namespace Readers

/-- One level of the readers, which leave the deeper calls to others. -/
def unrolled (g : Grammar) (r : Readers) : Readers where
  expr floor := do
    match g.operand (← kind) with
    | none => refuse "expected a value or variable"
    | some .primary =>
      let left ← primary
      r.operations floor left
    | some .grouping =>
      let left ← grouping (r.expr .lowest)
      r.operations floor left
  operations floor left := do
    let k ← kind
    let s := (g.strength k).getD .lowest
    if g.isOperator k ∧ s.exceeds floor then
      let left ← operation left (r.expr s)
      r.operations floor left
    else
      return left
  items := do
    let k ← kind
    if k = .closeCurly ∨ k = .eof then
      return []
    else
      let front ← item g (braces r.items)
      let back ← r.items
      return front :: back
  selectors := do
    if (← kind) = .comma then
      let _ ← advance
      let front ← selector
      let back ← r.selectors
      return front :: back
    else
      return []
  members := do
    if (← get).hasTokens then
      let front ← member g
      let back ← r.members
      return front :: back
    else
      return []

/-- So many levels of the readers above others. -/
def opened (g : Grammar) (r : Readers) : Nat → Readers
  | 0 => r
  | n + 1 => (opened g r n).unrolled g

/-- The readers with a budget. -/
def within (g : Grammar) (n : Nat) : Readers :=
  ⟨exprWithin g n, operationsWithin g n, itemsWithin g n, selectorsWithin n, membersWithin g n⟩

/-- A step of the budget is a level of calls. -/
theorem within_succ (g : Grammar) (n : Nat) : within g (n + 1) = (within g n).unrolled g := rfl

/-- What holds of any readers before the first level, and one level further up each time,
holds so many levels up. -/
theorem opened_induction {g : Grammar} {motive : Nat → Readers → Readers → Prop}
    (zero : ∀ r r', motive 0 r r')
    (succ : ∀ n r r', motive n r r' → motive (n + 1) (r.unrolled g) (r'.unrolled g))
    {n n₁ n₂ : Nat} (le₁ : n ≤ n₁) (le₂ : n ≤ n₂) (r r' : Readers) :
    motive n (r.opened g n₁) (r'.opened g n₂) := by
  induction n generalizing n₁ n₂ with
  | zero => exact zero _ _
  | succ n ih =>
    obtain ⟨n₁, rfl⟩ := Nat.exists_eq_add_of_lt le₁
    obtain ⟨n₂, rfl⟩ := Nat.exists_eq_add_of_lt le₂
    exact succ n _ _ (ih (by omega) (by omega))

theorem within_eq_opened (g : Grammar) (n : Nat) : within g n = (within g 0).opened g n := by
  induction n with
  | zero => rfl
  | succ n ih => rw [within_succ, ih, opened]

end Readers

/-- Two readers do the same wherever fewer tokens than a bound are ahead. -/
def Alike (n : Nat) (m m' : Parse α) : Prop :=
  ∀ c d : Cursor, c.Abreast d → c.live.length < n → Together 0 m m' c d

theorem Alike.zero {m m' : Parse α} : Alike 0 m m' :=
  fun _ _ _ few => absurd few (Nat.not_lt_zero _)

theorem Alike.mono {n n' : Nat} {m m' : Parse α} (h : Alike n m m') (le : n' ≤ n) : Alike n' m m' :=
  fun c d abreast few => h c d abreast (Nat.lt_of_lt_of_le few le)

/-- A budget may be taken that is enough for the tokens ahead. -/
theorem Alike.budget {n : Nat} {m : Parse α} {k : Nat → Parse α}
    (enough : ∀ c d : Cursor, c.Abreast d → c.live.length < n →
      Alike (c.live.length + 1) m (k (d.ahead.length + 1))) : Alike n m (Parse.budget >>= k) := by
  intro c d abreast few
  have here := enough c d abreast few c d abreast (Nat.lt_succ_self _)
  exact ⟨here.ok, here.stops⟩

/-! ### Expressions -/

section
variable {c d : Cursor} {n : Nat}

theorem primary_together (abreast : c.Abreast d) : Together 1 primary primary c d := by
  refine .get ?_
  simp only [← abreast.current]
  split
  · rename_i name
    have going : c.kind ≠ .eof := fun eof => Kind.noConfusion (name.symm.trans eof)
    exact .advance going abreast fun c d _ abreast => .freshId abreast fun _ _ _ _ abreast =>
      .pure abreast
  · split
    · rename_i v value
      have going : c.kind ≠ .eof := by
        intro eof
        rw [← Token.literal?_word, c.word_of_kind eof] at value
        cases value
      exact .advance going abreast fun c d _ abreast => .freshId abreast fun _ _ _ _ abreast =>
        .pure abreast
    · exact .raise abreast
    · exact .refuse _ abreast

theorem grouping_together {inner inner' : Parse Expr} (going : c.kind ≠ .eof)
    (abreast : c.Abreast d) (h : Alike c.live.length inner inner') :
    Together 1 (grouping inner) (grouping inner') c d :=
  .advance going abreast fun _ _ shorter abreast => .bind (h _ _ abreast shorter)
    fun _ _ _ _ abreast => .any (.expect Kind.noConfusion abreast fun _ _ _ _ abreast =>
      .pure abreast)

theorem operation_together {left : Expr} {operand operand' : Parse Expr} (going : c.kind ≠ .eof)
    (abreast : c.Abreast d) (h : Alike c.live.length operand operand') :
    Together 1 (operation left operand) (operation left operand') c d := by
  refine .advance going abreast fun c' d' shorter abreast => ?_
  split
  · exact .raise abreast
  · exact .bind (h _ _ abreast shorter) fun _ _ _ _ abreast => .freshId abreast
      fun _ _ _ _ abreast => .pure abreast

/-- A value is read before the operations behind it. -/
theorem Readers.expr_unrolled {r r' : Readers}
    (he : ∀ floor, Alike n (r.expr floor) (r'.expr floor))
    (ho : ∀ floor left, Alike n (r.operations floor left) (r'.operations floor left))
    (floor : Strength) : Alike (n + 1) ((r.unrolled .standard).expr floor)
      ((r'.unrolled .standard).expr floor) := by
  intro c d abreast few
  refine .kind abreast ?_
  split
  · exact .refuse _ abreast
  · exact .any (.bind (primary_together abreast) fun left _ _ shorter abreast =>
      ho floor left _ _ abreast (by omega))
  · rename_i form
    have going : c.kind ≠ .eof := by
      rw [Grammar.kind_of_grouping form]
      exact Kind.noConfusion
    exact .any (.bind (grouping_together going abreast ((he _).mono (by omega)))
      fun left _ _ shorter abreast => ho floor left _ _ abreast (by omega))

/-- An operator is read before its right operand. -/
theorem Readers.operations_unrolled {r r' : Readers}
    (he : ∀ floor, Alike n (r.expr floor) (r'.expr floor))
    (ho : ∀ floor left, Alike n (r.operations floor left) (r'.operations floor left))
    (floor : Strength) (left : Expr) :
    Alike (n + 1) ((r.unrolled .standard).operations floor left)
      ((r'.unrolled .standard).operations floor left) := by
  intro c d abreast few
  refine .kind abreast ?_
  simp only []
  split
  · rename_i go
    have going : c.kind ≠ .eof := by
      intro eof
      rw [eof] at go
      exact Bool.noConfusion go.1
    exact .any (.bind (operation_together going abreast ((he _).mono (by omega)))
      fun left _ _ shorter abreast => ho floor left _ _ abreast (by omega))
  · exact .pure abreast

theorem Readers.opened_exprs {n₁ n₂ : Nat} (le₁ : n ≤ n₁) (le₂ : n ≤ n₂) (r r' : Readers) :
    (∀ floor, Alike n ((r.opened .standard n₁).expr floor) ((r'.opened .standard n₂).expr floor)) ∧
    ∀ floor left, Alike n ((r.opened .standard n₁).operations floor left)
      ((r'.opened .standard n₂).operations floor left) :=
  opened_induction (motive := fun n r r' => (∀ floor, Alike n (r.expr floor) (r'.expr floor)) ∧
    ∀ floor left, Alike n (r.operations floor left) (r'.operations floor left))
    (fun _ _ => ⟨fun _ => Alike.zero, fun _ _ => Alike.zero⟩)
    (fun _ _ _ ⟨he, ho⟩ => ⟨expr_unrolled he ho, operations_unrolled he ho⟩) le₁ le₂ r r'

theorem expr_together (floor : Strength) (abreast : c.Abreast d) :
    Together 0 (expr .standard floor) (expr .standard floor) c d := by
  have alike := (Readers.opened_exprs (Nat.succ_le_succ c.live_length_le)
    (Nat.succ_le_succ abreast.live_length_le) (.within .standard 0) (.within .standard 0)).1
  simp only [← Readers.within_eq_opened] at alike
  exact .budget (alike floor c d abreast (Nat.lt_succ_self _))

end

/-! ### Bodies -/

section
variable {c d : Cursor} {n : Nat}

theorem assignmentTail_together (name : Token) (abreast : c.Abreast d) :
    Together 1 (assignmentTail .standard name) (assignmentTail .standard name) c d :=
  .expect Kind.noConfusion abreast fun _ _ _ _ abreast => .bind (expr_together _ abreast)
    fun _ _ _ _ abreast => .any (.expect Kind.noConfusion abreast fun _ _ _ _ abreast =>
      .freshId abreast fun _ _ _ _ abreast => .spanFrom abreast fun _ => .pure abreast)

theorem namedItem_together (going : c.kind ≠ .eof) (abreast : c.Abreast d) :
    Together 1 (namedItem .standard) (namedItem .standard) c d := by
  refine .advance going abreast fun c d _ abreast => .kind abreast ?_
  split
  · exact .any (.bind (assignmentTail_together _ abreast) fun _ _ _ _ abreast => .pure abreast)
  · rename_i colon
    refine .any (.advance (colon ▸ Kind.noConfusion) abreast fun _ _ _ abreast => ?_)
    exact .bind (expr_together _ abreast) fun _ _ _ _ abreast =>
      .any (.expect Kind.noConfusion abreast fun _ _ _ _ abreast => .freshId abreast
        fun _ _ _ _ abreast => .spanFrom abreast fun _ => .pure abreast)
  · exact .refuse _ abreast

section
variable {body body' : Parse (List Item)}

theorem elseClause_together (abreast : c.Abreast d) (h : Alike c.live.length body body') :
    Together 0 (ifClause.elseClause body) (ifClause.elseClause body') c d := by
  refine .kind abreast ?_
  split
  · rename_i word
    have going : c.kind ≠ .eof := word ▸ Kind.noConfusion
    exact .any (.advance going abreast fun _ _ shorter abreast => .freshId abreast
      fun _ _ _ le abreast => .bind (h _ _ abreast (by omega)) fun _ _ _ _ abreast =>
        .spanFrom abreast fun _ => .pure abreast)
  · exact .pure abreast

theorem ifClause_together (going : c.kind ≠ .eof) (abreast : c.Abreast d)
    (h : Alike c.live.length body body') :
    Together 1 (ifClause .standard body) (ifClause .standard body') c d := by
  refine .advance going abreast fun c' d' first abreast => .kind abreast ?_
  split
  · exact .refuse _ abreast
  · rename_i closing ends
    obtain ⟨opens, closes⟩ := conditionEnd?_going ends
    refine .any (.advance opens abreast fun _ _ second abreast => ?_)
    refine .bind (expr_together _ abreast) fun condition _ _ third abreast => ?_
    refine .any (.expect closes abreast fun _ _ _ fourth abreast => ?_)
    refine .freshId abreast fun id _ _ fifth abreast => ?_
    refine .bind (h _ _ abreast (by omega)) fun whenTrue _ _ sixth abreast => ?_
    exact .bind (elseClause_together abreast (h.mono (by omega))) fun otherwise _ _ _ abreast =>
      .spanFrom abreast fun span => .pure abreast

theorem item_together (abreast : c.Abreast d) (h : Alike c.live.length body body') :
    Together 1 (item .standard body) (item .standard body') c d := by
  refine .kind abreast ?_
  split
  · rename_i form
    have name : c.kind = .identifier := Grammar.kind_of_item form
    exact namedItem_together (name ▸ Kind.noConfusion) abreast
  · rename_i form
    have word : c.kind = .ifWord := Grammar.kind_of_item form
    exact ifClause_together (word ▸ Kind.noConfusion) abreast h
  · exact .refuse _ abreast

end

theorem braces_together {items items' : Parse (List Item)} (abreast : c.Abreast d)
    (h : Alike c.live.length items items') : Together 1 (braces items) (braces items') c d :=
  .expect Kind.noConfusion abreast fun _ _ _ shorter abreast => .bind (h _ _ abreast shorter)
    fun _ _ _ _ abreast => .any (.expect Kind.noConfusion abreast fun _ _ _ _ abreast =>
      .pure abreast)

/-- An item is read before the items behind it. -/
theorem Readers.items_unrolled {r r' : Readers} (h : Alike n r.items r'.items) :
    Alike (n + 1) (r.unrolled .standard).items (r'.unrolled .standard).items := by
  intro c d abreast few
  refine .kind abreast ?_
  split
  · exact .pure abreast
  · refine .any (.bind (item_together abreast fun _ _ abreast shorter => ?_)
      fun front _ _ shorter abreast => .bind (h _ _ abreast (by omega)) fun back _ _ _ abreast =>
        .pure abreast)
    exact (braces_together abreast (h.mono (by omega))).any

theorem Readers.opened_items {n₁ n₂ : Nat} (le₁ : n ≤ n₁) (le₂ : n ≤ n₂) (r r' : Readers) :
    Alike n (r.opened .standard n₁).items (r'.opened .standard n₂).items :=
  opened_induction (motive := fun n r r' => Alike n r.items r'.items) (fun _ _ => Alike.zero)
    (fun _ _ _ => items_unrolled) le₁ le₂ r r'

theorem block_together (abreast : c.Abreast d) :
    Together 1 (block .standard) (block .standard) c d := by
  have alike := Readers.opened_items (Nat.le_succ_of_le c.live_length_le)
    (Nat.le_succ_of_le abreast.live_length_le) (.within .standard 0) (.within .standard 0)
  simp only [← Readers.within_eq_opened] at alike
  exact .budget (braces_together abreast alike)

end

/-! ### Members -/

section
variable {c d : Cursor} {n : Nat}

theorem selector_together (abreast : c.Abreast d) : Together 1 selector selector c d := by
  refine .kind abreast ?_
  split
  case h_5 => exact .refuse _ abreast
  all_goals
    rename_i kind
    exact .advance (kind ▸ Kind.noConfusion) abreast fun _ _ _ abreast => .pure abreast

theorem Readers.selectors_unrolled {r r' : Readers} (h : Alike n r.selectors r'.selectors) :
    Alike (n + 1) (r.unrolled .standard).selectors (r'.unrolled .standard).selectors := by
  intro c d abreast few
  refine .kind abreast ?_
  split
  · rename_i comma
    have going : c.kind ≠ .eof := comma ▸ Kind.noConfusion
    exact .any (.advance going abreast fun _ _ shorter abreast => .any
      (.bind (selector_together abreast) fun front _ _ shorter abreast =>
        .bind (h _ _ abreast (by omega)) fun back _ _ _ abreast => .pure abreast))
  · exact .pure abreast

theorem Readers.opened_selectors {n₁ n₂ : Nat} (le₁ : n ≤ n₁) (le₂ : n ≤ n₂) (r r' : Readers) :
    Alike n (r.opened .standard n₁).selectors (r'.opened .standard n₂).selectors :=
  opened_induction (motive := fun n r r' => Alike n r.selectors r'.selectors)
    (fun _ _ => Alike.zero) (fun _ _ _ => selectors_unrolled) le₁ le₂ r r'

theorem rule_together (abreast : c.Abreast d) :
    Together 1 (rule .standard) (rule .standard) c d := by
  refine .position abreast (.bind (selector_together abreast)
    fun front c d _ abreast => .budget ?_)
  have alike := Readers.opened_selectors (Nat.succ_le_succ c.live_length_le)
    (Nat.succ_le_succ abreast.live_length_le) (.within .standard 0) (.within .standard 0)
  simp only [← Readers.within_eq_opened] at alike
  exact .bind (alike c d abreast (Nat.lt_succ_self _)) fun back _ _ _ abreast =>
    .freshId abreast fun id _ _ _ abreast => .any (.bind (block_together abreast)
      fun body _ _ _ abreast => .spanFrom abreast fun span => .pure abreast)

theorem member_together (going : c.kind ≠ .eof) (abreast : c.Abreast d) :
    Together 1 (member .standard) (member .standard) c d := by
  refine .get ?_
  rw [← abreast.kind, ← abreast.peek_one going]
  split
  · exact .advance going abreast fun _ _ _ abreast =>
      .any (.bind (assignmentTail_together _ abreast) fun _ _ _ _ abreast => .pure abreast)
  · exact .bind (rule_together abreast) fun _ _ _ _ abreast => .pure abreast

/-- A member is read before the members behind it. -/
theorem Readers.members_unrolled {r r' : Readers} (h : Alike n r.members r'.members) :
    Alike (n + 1) (r.unrolled .standard).members (r'.unrolled .standard).members := by
  intro c d abreast few
  refine .get ?_
  unfold Cursor.hasTokens
  rw [← abreast.kind]
  split
  · rename_i going
    exact .any (.bind (member_together (of_decide_eq_true going) abreast)
      fun front _ _ shorter abreast => .bind (h _ _ abreast (by omega)) fun back _ _ _ abreast =>
        .pure abreast)
  · exact .pure abreast

theorem Readers.opened_members {n₁ n₂ : Nat} (le₁ : n ≤ n₁) (le₂ : n ≤ n₂) (r r' : Readers) :
    Alike n (r.opened .standard n₁).members (r'.opened .standard n₂).members :=
  opened_induction (motive := fun n r r' => Alike n r.members r'.members) (fun _ _ => Alike.zero)
    (fun _ _ _ => members_unrolled) le₁ le₂ r r'

theorem sheet_together (abreast : c.Abreast d) :
    Together 0 (sheet .standard) (sheet .standard) c d := by
  have alike := Readers.opened_members (Nat.succ_le_succ c.live_length_le)
    (Nat.succ_le_succ abreast.live_length_le) (.within .standard 0) (.within .standard 0)
  simp only [← Readers.within_eq_opened] at alike
  refine .budget (.bind (alike c d abreast (Nat.lt_succ_self _)) fun members c d _ abreast => ?_)
  refine .get ?_
  unfold Cursor.position
  rw [← abreast.file, ← abreast.current]
  exact .pure abreast

end

/-- From places abreast every part of a stylesheet is read in the same way. -/
theorem Part.together {m : Parse α} (part : Part .standard m) {c d : Cursor}
    (going : c.kind ≠ .eof) (abreast : c.Abreast d) : Together 0 m m c d := by
  have exprs : ∀ floor n, Alike n (Parse.expr .standard floor) (Parse.expr .standard floor) :=
    fun floor _ _ _ abreast _ => expr_together floor abreast
  have blocks : ∀ n, Alike n (Parse.block .standard) (Parse.block .standard) :=
    fun _ _ _ abreast _ => (block_together abreast).any
  cases part with
  | primary => exact (primary_together abreast).any
  | grouping => exact (grouping_together going abreast (exprs _ _)).any
  | operation left s => exact (operation_together going abreast (exprs _ _)).any
  | expr floor => exact expr_together floor abreast
  | assignmentTail name => exact (assignmentTail_together name abreast).any
  | namedItem => exact (namedItem_together going abreast).any
  | ifClause => exact (ifClause_together going abreast (blocks _)).any
  | item => exact (item_together abreast (blocks _)).any
  | block => exact (block_together abreast).any
  | selector => exact (selector_together abreast).any
  | rule => exact (rule_together abreast).any
  | member => exact (member_together going abreast).any

/-! ### The depth of the calls -/

namespace Readers
variable {r r' : Readers} {n n' : Nat}

/-- Two lots of readers do the same wherever fewer tokens than a bound are ahead. -/
structure Agree (n : Nat) (r r' : Readers) : Prop where
  expr : ∀ floor, Alike n (r.expr floor) (r'.expr floor)
  operations : ∀ floor left, Alike n (r.operations floor left) (r'.operations floor left)
  items : Alike n r.items r'.items
  selectors : Alike n r.selectors r'.selectors
  members : Alike n r.members r'.members

/-- Two lots of readers are the same at a place. -/
structure SameAt (c : Cursor) (r r' : Readers) : Prop where
  expr : ∀ floor, r.expr floor c = r'.expr floor c
  operations : ∀ floor left, r.operations floor left c = r'.operations floor left c
  items : r.items c = r'.items c
  selectors : r.selectors c = r'.selectors c
  members : r.members c = r'.members c

theorem SameAt.of_common {c : Cursor} {s : Readers} (h : SameAt c s r) (h' : SameAt c s r') :
    SameAt c r r' where
  expr floor := (h.expr floor).symm.trans (h'.expr floor)
  operations floor left := (h.operations floor left).symm.trans (h'.operations floor left)
  items := h.items.symm.trans h'.items
  selectors := h.selectors.symm.trans h'.selectors
  members := h.members.symm.trans h'.members

theorem Agree.sameAt {c : Cursor} (h : Agree n r r') (few : c.live.length < n) :
    SameAt c r r' where
  expr floor := (h.expr floor c c (.refl c) few).eq
  operations floor left := (h.operations floor left c c (.refl c) few).eq
  items := (h.items c c (.refl c) few).eq
  selectors := (h.selectors c c (.refl c) few).eq
  members := (h.members c c (.refl c) few).eq

/-- A level reads a token before it calls what is open, so it does the same where one token
more is ahead. -/
theorem Agree.unrolled (h : Agree n r r') :
    Agree (n + 1) (r.unrolled .standard) (r'.unrolled .standard) where
  expr := expr_unrolled h.expr h.operations
  operations := operations_unrolled h.expr h.operations
  items := items_unrolled h.items
  selectors := selectors_unrolled h.selectors
  members := members_unrolled h.members

theorem opened_agree {n₁ n₂ : Nat} (le₁ : n ≤ n₁) (le₂ : n ≤ n₂) (r r' : Readers) :
    Agree n (r.opened .standard n₁) (r'.opened .standard n₂) :=
  have exprs := opened_exprs le₁ le₂ r r'
  ⟨exprs.1, exprs.2, opened_items le₁ le₂ r r', opened_selectors le₁ le₂ r r',
    opened_members le₁ le₂ r r'⟩

/-- The readers, with a budget of as many steps as tokens are ahead. -/
def standard : Readers where
  expr := Parse.expr .standard
  operations floor left := do operationsWithin .standard (← budget) floor left
  items := do itemsWithin .standard (← budget)
  selectors := do selectorsWithin (← budget)
  members := do membersWithin .standard (← budget)

/-- The readers are so many levels of calls, whatever is below. -/
theorem opened_standard (n : Nat) (r : Readers) : Agree n (r.opened .standard n) standard := by
  have enough : ∀ c d : Cursor, c.Abreast d → c.live.length < n →
      Agree (c.live.length + 1) (r.opened .standard n) (within .standard (d.ahead.length + 1)) := by
    intro c d abreast few
    rw [within_eq_opened]
    exact opened_agree few (Nat.succ_le_succ abreast.live_length_le) _ _
  exact {
    expr := fun floor => .budget fun c d abreast few => (enough c d abreast few).expr floor
    operations := fun floor left => .budget fun c d abreast few =>
      (enough c d abreast few).operations floor left
    items := .budget fun c d abreast few => (enough c d abreast few).items
    selectors := .budget fun c d abreast few => (enough c d abreast few).selectors
    members := .budget fun c d abreast few => (enough c d abreast few).members }

/-- Readers that are the same at every place are the same. -/
theorem ext_at (h : ∀ c, SameAt c r r') : r = r' := by
  obtain ⟨expr, operations, items, selectors, members⟩ := r
  obtain ⟨expr', operations', items', selectors', members'⟩ := r'
  obtain rfl : expr = expr' := funext fun floor => funext fun c => (h c).expr floor
  obtain rfl : operations = operations' :=
    funext fun floor => funext fun left => funext fun c => (h c).operations floor left
  obtain rfl : items = items' := funext fun c => (h c).items
  obtain rfl : selectors = selectors' := funext fun c => (h c).selectors
  obtain rfl : members = members' := funext fun c => (h c).members
  rfl

theorem opened_of_unrolled {g : Grammar} (h : r.unrolled g = r) (n : Nat) : r.opened g n = r := by
  induction n with
  | zero => rfl
  | succ n ih => rw [opened, ih, h]

/-- No other readers call each other as these do. -/
theorem unrolled_eq_iff : r.unrolled .standard = r ↔ r = standard := by
  constructor
  · intro h
    refine ext_at fun c => ?_
    have agree := opened_standard (c.live.length + 1) r
    rw [opened_of_unrolled h] at agree
    exact agree.sameAt (Nat.lt_succ_self _)
  · rintro rfl
    refine ext_at fun c => ?_
    have above : SameAt c (standard.opened .standard (c.live.length + 1)) _ :=
      (opened_standard c.live.length standard).unrolled.sameAt (Nat.lt_succ_self _)
    exact above.of_common ((opened_standard _ standard).sameAt (Nat.lt_succ_self _))

end Readers

/-- A budget that is taken in front of the brace lasts as well. -/
theorem block_eq : block .standard = braces Readers.standard.items := by
  funext c
  have items := (Readers.opened_standard (c.ahead.length + 1) (.within .standard 0)).items
  rw [← Readers.within_eq_opened] at items
  exact (braces_together (.refl c) (items.mono (Nat.le_succ_of_le c.live_length_le))).eq

/-! ### What comes of reading -/

/-- The place where reading ended. -/
def ended : EStateM.Result Error Cursor α → Cursor
  | .ok _ c => c
  | .error _ c => c

/-- What comes of reading: what was read or the error, the token where reading ended, and the
number of the next node. -/
def outcome : EStateM.Result Error Cursor α → Except Error α × Token × NodeId
  | .ok a c => (.ok a, c.current, c.nextId)
  | .error e c => (.error e, c.current, c.nextId)

namespace Together
variable {i : Nat} {m m' : Parse α} {c d : Cursor}

theorem outcome_eq (h : Together i m m' c d) : outcome (m c) = outcome (m' d) := by
  cases result : m c with
  | ok a c' =>
    obtain ⟨d', other, abreast, -⟩ := h.ok a c' result
    rw [other, outcome, outcome, abreast.current, abreast.nextId]
  | error e c' =>
    obtain ⟨d', other, abreast, -⟩ := h.stops e c' result
    rw [other, outcome, outcome, abreast.current, abreast.nextId]

theorem onward (h : Together i m m' c d) : ∃ k, Onward k c (ended (m c)) := by
  cases result : m c with
  | ok a c' =>
    obtain ⟨_, _, -, k, -, onward, -⟩ := h.ok a c' result
    exact ⟨k, onward⟩
  | error e c' =>
    obtain ⟨_, _, -, k, -, onward, -⟩ := h.stops e c' result
    exact ⟨k, onward⟩

end Together

end Parse

namespace Cursor
variable {front : List Token} {e : Token} {file : String}

/-- What is ahead up to the first closing token does not depend on what is behind that. -/
theorem live_of_tokens {c : Cursor} {more : List Token} (tokens : c.tokens = front ++ e :: more)
    (going : ∀ t ∈ front, t.kind ≠ .eof) (eof : e.kind = .eof) : c.live = front ∧ c.stop = e := by
  have front_pos : ∀ t ∈ front, decide (t.kind ≠ .eof) = true :=
    fun t ht => decide_eq_true (going t ht)
  have e_neg : decide (e.kind ≠ .eof) = false := decide_eq_false (not_not_intro eof)
  have split : c.tokens.takeWhile (·.kind ≠ .eof) = c.live ∧
      (c.tokens.dropWhile (·.kind ≠ .eof)).head? = some c.stop := by
    unfold Cursor.tokens live stop
    induction c.ahead with
    | nil => simp [c.closing_kind]
    | cons t ts ih =>
      by_cases closes : t.kind = .eof
      · simp [closes]
      · simpa [closes] using ih
  rw [tokens, List.takeWhile_append_of_pos front_pos, List.takeWhile_cons, e_neg,
    List.dropWhile_append_of_pos front_pos, List.dropWhile_cons, e_neg] at split
  exact ⟨split.1.symm.trans (List.append_nil front), Option.some.inj split.2.symm⟩

theorem ofTokens_start (tokens : List Token) (file : String) :
    (ofTokens tokens file).file = file ∧ (ofTokens tokens file).readTo = .startOf file := by
  unfold ofTokens
  simp only []
  split
  · exact ⟨rfl, rfl⟩
  · split <;> exact ⟨rfl, rfl⟩

/-- Two lists of tokens that are the same up to the first closing token. -/
theorem ofTokens_abreast (going : ∀ t ∈ front, t.kind ≠ .eof) (eof : e.kind = .eof)
    {tokens tokens' more more' : List Token}
    (here : (ofTokens tokens file).tokens = front ++ e :: more)
    (there : (ofTokens tokens' file).tokens = front ++ e :: more') :
    (ofTokens tokens file).Abreast (ofTokens tokens' file) := by
  obtain ⟨live, stop⟩ := live_of_tokens here going eof
  obtain ⟨live', stop'⟩ := live_of_tokens there going eof
  obtain ⟨named, start⟩ := ofTokens_start tokens file
  obtain ⟨named', start'⟩ := ofTokens_start tokens' file
  exact ⟨named.trans named'.symm, start.trans start'.symm,
    (ofTokens_nextId _ _).trans (ofTokens_nextId _ _).symm, live.trans live'.symm,
    stop.trans stop'.symm⟩

theorem ofTokens_ended (front more : List Token) (e : Token) (file : String) :
    ∃ more', (ofTokens (front ++ e :: more) file).tokens = front ++ e :: more' := by
  obtain ⟨behind, whole⟩ := ofTokens_prefix (front ++ e :: more) file
  exact ⟨more ++ behind, by rw [← whole, List.append_assoc, List.cons_append]⟩

theorem ofTokens_open (going : ∀ t ∈ front, t.kind ≠ .eof) (file : String) :
    (ofTokens front file).tokens = front ++ [(ofTokens front file).closing] := by
  unfold ofTokens
  simp only []
  split
  · rename_i none
    rw [List.getLast?_eq_none_iff.1 none]
    rfl
  · rename_i last ends
    rw [dif_neg (going last (List.mem_of_getLast? ends))]
    rfl

end Cursor

/-! ### Main result -/

open Parse (Part Readers outcome ended)

/-- **Reading comes to an end, at a closing token at the latest.** The readers are so many levels
of calls, whatever a deeper call would do; each of them has gone on by a token when it gives
something; none goes past a closing token, and nothing behind the first closing token
makes a difference. -/
theorem Sheet.read_terminates :
    (∀ (n : Nat) (r : Readers) (c : Cursor), c.live.length < n →
      (r.opened .standard n).SameAt c .standard) ∧
    (∀ {α : Type} {m : Parse α}, Part .standard m → ∀ {c d : Cursor} {a : α},
      m c = .ok a d → d.ahead.length < c.ahead.length) ∧
    (∀ {α : Type} {m : Parse α}, Part .standard m → ∀ {c : Cursor}, c.kind ≠ .eof →
      ∃ k, c.Onward k (ended (m c))) ∧
    (∀ tokens file, ∃ k, (Cursor.ofTokens tokens file).Onward k (ended (Sheet.read tokens file))) ∧
    ∀ front : List Token, (∀ t ∈ front, t.kind ≠ .eof) → ∀ (file : String) (more : List Token),
      (∀ e more', e.kind = .eof → outcome (Sheet.read (front ++ e :: more) file) =
        outcome (Sheet.read (front ++ e :: more') file)) ∧
      outcome (Sheet.read (front ++ (Cursor.ofTokens front file).closing :: more) file) =
        outcome (Sheet.read front file) := by
  refine ⟨fun n r c few => (Readers.opened_standard n r).sameAt few, Part.progress,
    fun part _ going => (part.together going (.refl _)).onward,
    fun tokens file => (Parse.sheet_together (.refl _)).onward, fun front going file more => ?_⟩
  constructor
  · intro e more' eof
    obtain ⟨_, here⟩ := Cursor.ofTokens_ended front more e file
    obtain ⟨_, there⟩ := Cursor.ofTokens_ended front more' e file
    exact (Parse.sheet_together (Cursor.ofTokens_abreast going eof here there)).outcome_eq
  · have eof := (Cursor.ofTokens front file).closing_kind
    obtain ⟨_, here⟩ := Cursor.ofTokens_ended front more (Cursor.ofTokens front file).closing file
    have there := Cursor.ofTokens_open going file
    exact (Parse.sheet_together (Cursor.ofTokens_abreast going eof here there)).outcome_eq

/-- The tokens of `A := 1;`. -/
def assignmentTokens : List Token :=
  let mark (kind : Kind) (text : String) : Token := ⟨kind, text, .nowhere⟩
  [mark .identifier "A", mark .assignment ":=", mark .scalar "1", mark .semicolon ";"]

/-- A closing token among others ends the stylesheet, also in front of a brace. -/
theorem Sheet.read_terminates_interrupted :
    (∃ sheet c, Sheet.read (assignmentTokens ++ [.closing .nowhere]) "sheet" = .ok sheet c) ∧
    ∃ sheet c, Sheet.read (assignmentTokens ++ .closing .nowhere ::
        [⟨.closeCurly, "\x7d", .nowhere⟩]) "sheet" = .ok sheet c ∧
      outcome (Sheet.read (assignmentTokens ++ [.closing .nowhere]) "sheet") =
        outcome (.ok sheet c) := by
  have same := (Sheet.read_terminates.2.2.2.2 assignmentTokens (by decide) "sheet" []).1
    (.closing .nowhere) [⟨.closeCurly, "\x7d", .nowhere⟩] rfl
  exact ⟨⟨_, _, rfl⟩, _, _, rfl, same⟩

end Typesheet
