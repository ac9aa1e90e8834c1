import Typesheet.Proofs.Soundness

/-! Reading makes progress.

A reader that gives something has used up a token, wherever it was started, and a reader of
what may be left out has at least put none back. `Parse.Uses` says how many tokens a reader
uses at least, with a rule for each step that a reader begins with; what two readers use adds
up (`Parse.Uses.bind`). Nothing depends on the tables of the grammar: whatever they say, a
reader asks for a token of some kind before it gives anything. -/
namespace Typesheet.Parse
variable {α β : Type}

/-- From the place `c` the reader uses at least so many tokens, if it does not stop. -/
def Uses (least : Nat) (m : Parse α) (c : Cursor) : Prop :=
  ∀ a d, m c = .ok a d → d.ahead.length + least ≤ c.ahead.length

namespace Uses
variable {i : Nat} {c : Cursor}

theorem any {m : Parse α} (h : Uses i m c) : Uses 0 m c := by
  intro a d hm
  have used := h a d hm
  omega

theorem bind {m : Parse α} {k : α → Parse β} (hm : Uses i m c) (hk : ∀ a d, Uses 0 (k a) d) :
    Uses i (m >>= k) c := by
  intro b d h
  obtain ⟨a, c', h, h'⟩ := bind_ok_iff.1 h
  have first := hm a c' h
  have second := hk a c' b d h'
  omega

theorem pure {b : β} : Uses 0 (Pure.pure b) c := by
  rintro _ _ ⟨⟩
  exact Nat.le_refl _

theorem refuse (message : String) : Uses i (Parse.refuse message : Parse β) c :=
  fun _ _ h => nomatch h

theorem raise (e : Error) : Uses i (throw e : Parse β) c := fun _ _ h => nomatch h

theorem get {k : Cursor → Parse β} (h : Uses i (k c) c) : Uses i (MonadState.get >>= k) c := h

theorem kind {k : Kind → Parse β} (h : Uses i (k c.kind) c) : Uses i (Parse.kind >>= k) c := h

theorem position {k : Position → Parse β} (h : Uses i (k c.position) c) :
    Uses i (Parse.position >>= k) c := h

theorem spanFrom {k : Span → Parse β} {start : Position} (h : ∀ span, Uses i (k span) c) :
    Uses i (Parse.spanFrom start >>= k) c := h _

theorem budget {k : Nat → Parse β} (h : ∀ n, Uses i (k n) c) : Uses i (Parse.budget >>= k) c := h _

theorem freshId {k : NodeId → Parse β} (h : ∀ id d, Uses i (k id) d) :
    Uses i (Parse.freshId >>= k) c := h _ {c with nextId := c.nextId + 1}

/-- The closing token behind the last is not used up, though it is read. -/
theorem advance {k : Token → Parse β} (h : ∀ t d, Uses i (k t) d) :
    Uses i (Parse.advance >>= k) c := by
  intro b d hk
  have later : d.ahead.length + i ≤ c.next.ahead.length := h c.current c.next b d hk
  have onward : c.next.ahead.length ≤ c.ahead.length := by
    unfold Cursor.next
    split
    · exact Nat.le_refl _
    · rename_i ahead
      rw [ahead]
      exact Nat.le_succ _
  omega

theorem take {k : Token → Parse β} (going : c.kind ≠ .eof) (h : Uses 0 (k c.current) c.next) :
    Uses 1 (Parse.advance >>= k) c := by
  intro b d hk
  have later : d.ahead.length ≤ c.next.ahead.length := h b d hk
  have words := congrArg List.length (Cursor.words_of_kind going)
  simp only [Cursor.words, List.length_map, List.length_cons] at words
  omega

theorem expect {k : Token → Parse β} {kind : Kind} (going : kind ≠ .eof)
    (h : ∀ t d, Uses 0 (k t) d) : Uses 1 (Parse.expect kind >>= k) c := by
  intro b d hk
  obtain ⟨t, c', ht, hk'⟩ := bind_ok_iff.1 hk
  unfold Parse.expect expectOr at ht
  split at ht
  · rename_i here
    cases ht
    exact take (k := fun _ => k c.current) (here ▸ going) (h _ _) b d hk'
  · cases ht

end Uses

/-! ### Expressions -/

section
variable {g : Grammar} {c : Cursor}

theorem primary_uses : Uses 1 primary c := by
  refine .get ?_
  simp only []
  split
  · rename_i name
    have going : c.kind ≠ .eof := fun eof => Kind.noConfusion (name.symm.trans eof)
    exact .take going (.freshId fun id d => .pure)
  · split
    · rename_i v value
      have going : c.kind ≠ .eof := by
        intro eof
        rw [← Token.literal?_word, c.word_of_kind eof] at value
        cases value
      exact .take going (.freshId fun id d => .pure)
    · exact .raise _
    · exact .refuse _

/-- Where nothing opens the group, what is in it uses a token. -/
theorem grouping_uses {inner : Parse Expr} (h : ∀ d, Uses 1 inner d) :
    Uses 1 (grouping inner) c :=
  .advance fun _ d => .bind (h d) fun _ _ => .any (.expect Kind.noConfusion fun _ _ => .pure)

theorem operation_uses {left : Expr} {operand : Parse Expr} (h : ∀ d, Uses 0 operand d) :
    Uses 1 (operation left operand) c := by
  cases sign : c.kind.operator? with
  | none =>
    have sign : c.current.kind.operator? = none := sign
    intro e d hm
    unfold operation at hm
    obtain ⟨t, c', ⟨⟩, hm⟩ := bind_ok_iff.1 hm
    rw [sign] at hm
    cases hm
  | some op =>
    have going : c.kind ≠ .eof := by
      intro eof
      rw [eof] at sign
      cases sign
    refine .take going ?_
    rw [show c.current.kind.operator? = some op from sign]
    exact .bind (h _) fun right d => .freshId fun id d => .pure

theorem exprWithin_uses (n : Nat) :
    (∀ floor c, Uses 1 (exprWithin g n floor) c) ∧
    ∀ floor left c, Uses 0 (operationsWithin g n floor left) c := by
  induction n with
  | zero => exact ⟨fun _ _ => .refuse _, fun _ _ _ => .pure⟩
  | succ n ih =>
    obtain ⟨ihe, iho⟩ := ih
    constructor
    · intro floor c
      refine .kind ?_
      split
      · exact .refuse _
      · exact .bind primary_uses fun left d => iho floor left d
      · exact .bind (grouping_uses (ihe _)) fun left d => iho floor left d
    · intro floor left c
      refine .kind ?_
      simp only []
      split
      · exact (Uses.bind (operation_uses fun d => (ihe _ d).any) fun left d => iho floor left d).any
      · exact .pure

theorem expr_uses (floor : Strength) : Uses 1 (expr g floor) c :=
  .budget fun n => (exprWithin_uses n).1 floor c

/-! ### Bodies -/

theorem assignmentTail_uses (name : Token) : Uses 1 (assignmentTail g name) c :=
  .expect Kind.noConfusion fun _ _ => .any (.bind (expr_uses _) fun _ _ =>
    .any (.expect Kind.noConfusion fun _ _ => .freshId fun _ _ => .spanFrom fun _ => .pure))

theorem namedItem_uses : Uses 1 (namedItem g) c := by
  refine .advance fun name d => .kind ?_
  split
  · exact .bind (assignmentTail_uses _) fun a d => .pure
  · rename_i colon
    exact .take (colon ▸ Kind.noConfusion) (.any (.bind (expr_uses _) fun value d =>
      .any (.expect Kind.noConfusion fun t d => .freshId fun id d => .spanFrom fun span => .pure)))
  · exact .refuse _

section
variable {body : Parse (List Item)} (h : ∀ d, Uses 0 body d)
include h

theorem elseClause_uses : Uses 0 (ifClause.elseClause body) c := by
  refine .kind ?_
  split
  · exact .advance fun t d => .freshId fun id d => .bind (h d) fun whenFalse d =>
      .spanFrom fun span => .pure
  · exact .pure

theorem ifClause_uses : Uses 1 (ifClause g body) c := by
  refine .advance fun t d => .kind ?_
  split
  · exact .refuse _
  · rename_i closing ends
    have opens := (conditionEnd?_going ends).1
    have closes := (conditionEnd?_going ends).2
    exact .take opens (.any (.bind (expr_uses _) fun condition d =>
      .any (.expect closes fun t d => .freshId fun id d => .bind (h d) fun whenTrue d =>
        .bind (elseClause_uses h) fun otherwise d => .spanFrom fun span => .pure)))

theorem item_uses : Uses 1 (item g body) c := by
  refine .kind ?_
  split
  · exact namedItem_uses
  · exact ifClause_uses h
  · exact .refuse _

end

theorem braces_uses {items : Parse (List Item)} (h : ∀ d, Uses 0 items d) :
    Uses 1 (braces items) c :=
  .expect Kind.noConfusion fun _ d => .bind (h d) fun _ _ =>
    .any (.expect Kind.noConfusion fun _ _ => .pure)

theorem itemsWithin_uses (n : Nat) (c : Cursor) : Uses 0 (itemsWithin g n) c := by
  induction n generalizing c with
  | zero => exact .pure
  | succ n ih =>
    refine .kind ?_
    split
    · exact .pure
    · exact (Uses.bind (item_uses fun d => (braces_uses ih).any) fun front d =>
        .bind (ih d) fun back d => .pure).any

theorem block_uses : Uses 1 (block g) c := .budget fun n => braces_uses (itemsWithin_uses n)

/-! ### Members -/

theorem selector_uses : Uses 1 selector c := by
  refine .kind ?_
  split
  case h_5 => exact .refuse _
  all_goals
    rename_i kind
    exact .take (kind ▸ Kind.noConfusion) .pure

theorem selectorsWithin_uses (n : Nat) (c : Cursor) : Uses 0 (selectorsWithin n) c := by
  induction n generalizing c with
  | zero => exact .pure
  | succ n ih =>
    refine .kind ?_
    split
    · exact .advance fun t d => (Uses.bind selector_uses fun front d =>
        .bind (ih d) fun back d => .pure).any
    · exact .pure

theorem rule_uses : Uses 1 (rule g) c := by
  refine .position (.bind selector_uses fun front d => .budget fun n => ?_)
  exact .bind (selectorsWithin_uses n d) fun back d => .freshId fun id d =>
    .any (.bind block_uses fun body d => .spanFrom fun span => .pure)

theorem member_uses : Uses 1 (member g) c := by
  refine .get ?_
  split
  · exact .advance fun name d => .bind (assignmentTail_uses _) fun a d => .pure
  · exact .bind rule_uses fun r d => .pure

end

/-! ### The readers of a stylesheet -/

/-- The readers of the parts of a stylesheet, by what they read. -/
inductive Part (g : Grammar) : {α : Type} → Parse α → Prop where
  | primary : Part g primary
  | grouping : Part g (grouping (expr g .lowest))
  | operation (left : Expr) (s : Strength) : Part g (operation left (expr g s))
  | expr (floor : Strength) : Part g (expr g floor)
  | assignmentTail (name : Token) : Part g (assignmentTail g name)
  | namedItem : Part g (namedItem g)
  | ifClause : Part g (ifClause g (block g))
  | item : Part g (item g (block g))
  | block : Part g (block g)
  | selector : Part g selector
  | rule : Part g (rule g)
  | member : Part g (member g)

/-- Whatever is read, a token was used up for it. -/
theorem Part.progress {g : Grammar} {m : Parse α} (part : Part g m) {c d : Cursor} {a : α}
    (h : m c = .ok a d) : d.ahead.length < c.ahead.length := by
  have uses : Uses 1 m c := by
    cases part with
    | primary => exact primary_uses
    | grouping => exact grouping_uses fun d => expr_uses _
    | operation left s => exact operation_uses fun d => (expr_uses _).any
    | expr floor => exact expr_uses floor
    | assignmentTail name => exact assignmentTail_uses name
    | namedItem => exact namedItem_uses
    | ifClause => exact ifClause_uses fun d => block_uses.any
    | item => exact item_uses fun d => block_uses.any
    | block => exact block_uses
    | selector => exact selector_uses
    | rule => exact rule_uses
    | member => exact member_uses
  exact uses a d h

end Typesheet.Parse
