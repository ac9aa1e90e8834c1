import Typesheet.Proofs.Printing
import Typesheet.Proofs.Reading

/-! Names that come from a text.

Every selector, property and colour of a stylesheet that was read is the value of a token,
and so one that can be spelled (`Sheet.spelled_of_ofText`). Readers keep what is known of
the words ahead (`Parse.Keeps`) and hand it on to what they give; of a selector it takes
the word behind it to know that it has no dashes behind a capital.

Flattening makes up numbers and booleans but no names and no colours, so what it gives can
be spelled too (`Sheet.spelled_of_flatten`). -/
namespace Typesheet

/-! ### Trees that can be spelled -/

def Expr.Spelled : Expr → Prop
  | .literal _ v _ => v.Spelled
  | .reference .. => True
  | .operation _ _ left right _ => left.Spelled ∧ right.Spelled

structure Declaration.Spelled (d : Declaration) : Prop where
  property : Lexeme.Spelled .identifier d.property.toList
  value : d.value.Spelled

mutual

def Item.Spelled : Item → Prop
  | .declaration d => d.Spelled
  | .assignment a => a.value.Spelled
  | .ifClause ⟨_, condition, body, otherwise, _⟩ =>
    condition.Spelled ∧ bodySpelled body ∧
      match otherwise with
      | some ⟨_, body, _⟩ => bodySpelled body
      | none => True

def bodySpelled : List Item → Prop
  | [] => True
  | item :: items => item.Spelled ∧ bodySpelled items

end

theorem Item.spelled_ifClause_iff (clause : IfClause Item) :
    (Item.ifClause clause).Spelled ↔
      clause.condition.Spelled ∧ ∀ b, bodySpelled (clause.branch b) := by
  obtain ⟨id, condition, body, otherwise, span⟩ := clause
  unfold Item.Spelled
  cases otherwise with
  | none =>
    constructor
    · rintro ⟨hcondition, hbody, -⟩
      refine ⟨hcondition, ?_⟩
      rintro (_ | _)
      · trivial
      · exact hbody
    · exact fun ⟨hcondition, branches⟩ => ⟨hcondition, branches true, trivial⟩
  | some otherwise =>
    constructor
    · rintro ⟨hcondition, hbody, hother⟩
      refine ⟨hcondition, ?_⟩
      rintro (_ | _)
      · exact hother
      · exact hbody
    · exact fun ⟨hcondition, branches⟩ => ⟨hcondition, branches true, branches false⟩

structure Rule.Spelled (rule : Rule) : Prop where
  nonempty : rule.selectors ≠ []
  selectors : ∀ s ∈ rule.selectors, s.Spelled
  body : bodySpelled rule.body

def Member.Spelled : Member → Prop
  | .assignment a => a.value.Spelled
  | .rule r => r.Spelled

def Sheet.Spelled (sheet : Sheet) : Prop := ∀ m ∈ sheet.members, m.Spelled

/-! ### Cursors before well spelled words -/

namespace Cursor
variable {c : Cursor}

/-- The words ahead are those of a text. -/
def WellSpelled (c : Cursor) : Prop := Typesheet.WellSpelled c.words

theorem WellSpelled.next (h : c.WellSpelled) : c.next.WellSpelled := by
  unfold WellSpelled words at h
  unfold WellSpelled words Cursor.next
  cases ha : c.ahead with
  | nil =>
    rw [ha] at h
    rw [ha]
    exact h
  | cons t ts =>
    rw [ha] at h
    exact h.2.2

/-- The current token is the closing one, or a word; if it is a dashed one, a colon
follows. -/
theorem WellSpelled.current (h : c.WellSpelled) : c.kind = .eof ∨
    c.current.word.Spelled ∧ (c.current.word.Dashed → c.next.kind = .colon) := by
  unfold WellSpelled words at h
  unfold Cursor.kind Cursor.current Cursor.next
  cases ha : c.ahead with
  | nil => exact .inl c.closing_kind
  | cons t ts =>
    rw [ha] at h
    obtain ⟨spelled, colon, -⟩ := h
    refine .inr ⟨spelled, fun dashed => ?_⟩
    have follows := colon dashed
    cases ts with
    | nil => cases follows
    | cons u us => exact Option.some.inj follows

/-- The current token is spelled like its kind, unless it is the closing one. -/
theorem WellSpelled.spelled (h : c.WellSpelled) {k : Kind} (hk : c.kind = k) (going : k ≠ .eof) :
    Lexeme.Spelled k c.current.value.toList := by
  subst hk
  obtain ended | ⟨spelled, -⟩ := h.current
  · exact absurd ended going
  · exact spelled

/-- A dashed token that is not the closing one is followed by a colon. -/
theorem WellSpelled.colon (h : c.WellSpelled) (going : c.kind ≠ .eof)
    (dashed : c.current.word.Dashed) : c.next.kind = .colon := by
  obtain ended | ⟨-, colon⟩ := h.current
  · exact absurd ended going
  · exact colon dashed

end Cursor

namespace Parse
variable {α β : Type}

/-! ### Readers that keep the words well spelled -/

/-- Before the words of a text the reader leaves words of a text, and gives something
in `Q`. -/
def Keeps (m : Parse α) (Q : α → Prop) : Prop :=
  ∀ c a d, c.WellSpelled → m c = .ok a d → d.WellSpelled ∧ Q a

/-- What `Keeps` says, where the current token is of a given kind. What is given may
also depend on what comes next. -/
def KeepsFrom (k : Kind) (m : Parse α) (Q : α → Cursor → Prop) : Prop :=
  ∀ c a d, c.WellSpelled → c.kind = k → m c = .ok a d → d.WellSpelled ∧ Q a d

namespace Keeps
variable {m : Parse α} {k : α → Parse β} {Q : α → Prop} {R : β → Prop}

theorem bind (hm : Keeps m Q) (hk : ∀ a, Q a → Keeps (k a) R) : Keeps (m >>= k) R := by
  intro c b d hc h
  obtain ⟨a, c', h, h'⟩ := bind_ok_iff.1 h
  obtain ⟨hc', ha⟩ := hm c a c' hc h
  exact hk a ha c' b d hc' h'

theorem pure {a : α} (h : Q a) : Keeps (Pure.pure a) Q := by
  intro c _ d hc hok
  cases hok
  exact ⟨hc, h⟩

theorem get : Keeps MonadState.get Cursor.WellSpelled := by
  intro c _ d hc hok
  cases hok
  exact ⟨hc, hc⟩

theorem raise {e : Error} : Keeps (throw e) Q := fun _ _ _ _ hok => nomatch hok

theorem refuse {message : String} : Keeps (Parse.refuse message) Q :=
  fun _ _ _ _ hok => nomatch hok

theorem advance : Keeps Parse.advance fun _ => True := by
  intro c _ d hc hok
  cases hok
  exact ⟨hc.next, trivial⟩

theorem freshId : Keeps Parse.freshId fun _ => True := by
  intro c _ d hc hok
  cases hok
  exact ⟨hc, trivial⟩

theorem kind : Keeps Parse.kind fun _ => True := get.bind fun _ _ => pure trivial

/-- A reader that looks at the current kind first. -/
theorem atKind {m : Kind → Parse α} (h : ∀ k, KeepsFrom k (m k) fun a _ => Q a) :
    Keeps (Parse.kind >>= m) Q := by
  intro c a d hc hok
  obtain ⟨k, c', hkind, hok⟩ := bind_ok_iff.1 hok
  cases hkind
  exact h _ c a d hc rfl hok

theorem spanFrom (start : Position) : Keeps (Parse.spanFrom start) fun _ => True :=
  get.bind fun _ _ => pure trivial

theorem budget : Keeps Parse.budget fun _ => True := get.bind fun _ _ => pure trivial

theorem expect (k : Kind) : Keeps (Parse.expect k) fun _ => True := by
  intro c _ d hc hok
  unfold Parse.expect expectOr at hok
  split at hok
  · exact advance c _ d hc hok
  · cases hok

end Keeps

/-! ### Expressions -/

theorem literal?_spelled {c : Cursor} (hc : c.WellSpelled) {v : Literal}
    (h : c.current.literal? = some (.ok v)) : v.Spelled := by
  obtain ⟨_, _, ok⟩ | error | ⟨_, ok⟩ | ⟨hk, ok⟩ := cases_of_literal? h
  · cases ok
    trivial
  · cases error
  · cases ok
    trivial
  · cases ok
    exact hc.spelled hk Kind.noConfusion

theorem primary_keeps : Keeps primary Expr.Spelled := by
  refine .bind .get fun c hc => ?_
  simp only []
  split
  · exact .bind .advance fun _ _ => .bind .freshId fun _ _ => .pure trivial
  · split
    · rename_i h
      exact .bind .advance fun _ _ => .bind .freshId fun _ _ => .pure (literal?_spelled hc h)
    · exact .raise
    · exact .refuse

theorem grouping_keeps {inner : Parse Expr} (h : Keeps inner Expr.Spelled) :
    Keeps (grouping inner) Expr.Spelled :=
  .bind .advance fun _ _ => .bind h fun _ he => .bind (.expect _) fun _ _ => .pure he

theorem operation_keeps {left : Expr} (hl : left.Spelled) {operand : Parse Expr}
    (h : Keeps operand Expr.Spelled) : Keeps (operation left operand) Expr.Spelled := by
  refine .bind .advance fun sign _ => ?_
  split
  · exact .raise
  · exact .bind h fun _ hr => .bind .freshId fun _ _ => .pure ⟨hl, hr⟩

theorem exprWithin_keeps (g : Grammar) (n : Nat) :
    (∀ floor, Keeps (exprWithin g n floor) Expr.Spelled) ∧
      ∀ floor left, left.Spelled → Keeps (operationsWithin g n floor left) Expr.Spelled := by
  induction n with
  | zero => exact ⟨fun _ => .refuse, fun _ _ hl => .pure hl⟩
  | succ n ih =>
    obtain ⟨ihe, iho⟩ := ih
    constructor
    · intro floor
      refine .bind .kind fun k _ => ?_
      split
      · exact .refuse
      · exact .bind primary_keeps (iho floor)
      · exact .bind (grouping_keeps (ihe _)) (iho floor)
    · intro floor left hl
      refine .bind .kind fun k _ => ?_
      simp only []
      split
      · exact .bind (operation_keeps hl (ihe _)) (iho floor)
      · exact .pure hl

theorem expr_keeps (g : Grammar) (floor : Strength) : Keeps (expr g floor) Expr.Spelled :=
  .bind .budget fun n _ => (exprWithin_keeps g n).1 floor

/-! ### Bodies -/

theorem assignmentTail_keeps (g : Grammar) (name : Token) :
    Keeps (assignmentTail g name) (·.value.Spelled) :=
  .bind (.expect _) fun _ _ => .bind (expr_keeps g _) fun _ he => .bind (.expect _) fun _ _ =>
    .bind .freshId fun _ _ => .bind (.spanFrom _) fun _ _ => .pure he

/-- A property is the value of an identifier. -/
theorem namedItem_keeps (g : Grammar) :
    KeepsFrom .identifier (namedItem g) fun item _ => item.Spelled := by
  intro c item d hc name h
  obtain ⟨t, c', hadvance, h⟩ := bind_ok_iff.1 h
  cases hadvance
  have property : Lexeme.Spelled .identifier c.current.value.toList :=
    hc.spelled name Kind.noConfusion
  refine Keeps.bind .kind (fun k _ => ?_) c.next item d hc.next h
  split
  · exact .bind (assignmentTail_keeps g _) fun _ ha => .pure ha
  · exact .bind .advance fun _ _ => .bind (expr_keeps g _) fun _ he => .bind (.expect _) fun _ _ =>
      .bind .freshId fun _ _ => .bind (.spanFrom _) fun _ _ => .pure ⟨property, he⟩
  · exact .refuse

/-- The body behind an else, if there is one. -/
def elseSpelled : Option (ElseClause Item) → Prop
  | some otherwise => bodySpelled otherwise.body
  | none => True

theorem ifClause_keeps (g : Grammar) {body : Parse (List Item)} (h : Keeps body bodySpelled) :
    Keeps (ifClause g body) Item.Spelled := by
  have otherwise : Keeps (ifClause.elseClause body) elseSpelled := by
    refine .bind .kind fun k _ => ?_
    split
    · exact .bind .advance fun _ _ => .bind .freshId fun _ _ => .bind h fun _ hb =>
        .bind (.spanFrom _) fun _ _ => .pure hb
    · exact .pure trivial
  refine .bind .advance fun start _ => .bind .kind fun k _ => ?_
  split
  · exact .refuse
  · refine .bind .advance fun _ _ => .bind (expr_keeps g _) fun _ he => .bind (.expect _) fun _ _ =>
      .bind .freshId fun _ _ => .bind h fun _ hb => .bind otherwise fun o ho =>
      .bind (.spanFrom _) fun _ _ => .pure ?_
    rw [Item.spelled_ifClause_iff]
    refine ⟨he, ?_⟩
    rintro (_ | _)
    · cases o with
      | none => trivial
      | some _ => exact ho
    · exact hb

theorem named_kind {k : Kind} (h : Grammar.standard.item k = some .named) : k = .identifier := by
  cases k <;> first | rfl | cases h

theorem item_keeps {body : Parse (List Item)} (h : Keeps body bodySpelled) :
    Keeps (item .standard body) Item.Spelled := by
  refine .atKind fun k => ?_
  split
  · rename_i named
    rw [named_kind named]
    exact namedItem_keeps .standard
  · exact fun c a d hc _ => ifClause_keeps .standard h c a d hc
  · exact fun _ _ _ _ _ hok => nomatch hok

theorem braces_keeps {items : Parse (List Item)} (h : Keeps items bodySpelled) :
    Keeps (braces items) bodySpelled :=
  .bind (.expect _) fun _ _ => .bind h fun _ hb => .bind (.expect _) fun _ _ => .pure hb

theorem itemsWithin_keeps (n : Nat) : Keeps (itemsWithin .standard n) bodySpelled := by
  induction n with
  | zero => exact .pure trivial
  | succ n ih =>
    refine .bind .kind fun k _ => ?_
    split
    · exact .pure trivial
    · exact .bind (item_keeps (braces_keeps ih)) fun _ hi => .bind ih fun _ hb => .pure ⟨hi, hb⟩

theorem block_keeps : Keeps (block .standard) bodySpelled :=
  .bind .budget fun n _ => braces_keeps (itemsWithin_keeps n)

/-! ### Rules -/

/-- A name of a class behind its dot, and an id behind its hash. -/
theorem spelled_afterMark {t : Token} {k : Kind} (spelled : Lexeme.Spelled k t.value.toList) :
    (k = .classSelector → (Selector.className (selector.afterMark t)).Spelled) ∧
      (k = .idSelector ∨ k = .color → (Selector.id (selector.afterMark t)).Spelled) := by
  constructor
  · rintro rfl
    obtain ⟨name, text⟩ := Lexeme.className_of_spelled spelled
    have same : (Selector.className (selector.afterMark t)).word = ⟨.classSelector, t.value⟩ := by
      unfold Selector.word Selector.text Selector.kind selector.afterMark
      rw [Word.mk.injEq, ← String.toList_inj]
      simp [text]
    unfold Selector.Spelled
    rw [same]
    refine ⟨spelled, ?_⟩
    show ¬Lexeme.Dashed t.value.toList
    rw [text]
    exact Lexeme.not_dashed (by decide)
  · intro hk
    have hash : k ∈ [Kind.color, Kind.idSelector] := by obtain rfl | rfl := hk <;> decide
    obtain ⟨name, text, nonempty, chars⟩ := Lexeme.hash_of_spelled spelled hash
    have same : (Selector.id (selector.afterMark t)).word = ⟨Lexeme.hashKind name, t.value⟩ := by
      unfold Selector.word Selector.text Selector.kind selector.afterMark
      rw [Word.mk.injEq, ← String.toList_inj]
      simp [text]
    unfold Selector.Spelled
    rw [same]
    constructor
    · show Lexeme.Spelled (Lexeme.hashKind name) t.value.toList
      rw [text]
      exact .hash nonempty chars
    · show ¬Lexeme.Dashed t.value.toList
      rw [text]
      exact Lexeme.not_dashed (by decide)

/-- A selector can be spelled unless a colon follows it. -/
theorem selector_keeps {k : Kind} : KeepsFrom k selector fun s d => d.kind ≠ .colon → s.Spelled := by
  intro c s d hc hk h
  obtain ⟨_, _, hkind, h⟩ := bind_ok_iff.1 h
  cases hkind
  rw [hk] at h
  split at h
  · cases h
    have spelled : Lexeme.Spelled .identifier c.current.value.toList :=
      hc.spelled hk Kind.noConfusion
    refine ⟨hc.next, fun colon => ⟨spelled, fun dashed => colon ?_⟩⟩
    exact hc.colon (by rw [hk]; exact Kind.noConfusion) dashed
  · cases h
    exact ⟨hc.next, fun _ => (spelled_afterMark (hc.spelled hk Kind.noConfusion)).1 rfl⟩
  · cases h
    exact ⟨hc.next, fun _ => (spelled_afterMark (hc.spelled hk Kind.noConfusion)).2 (.inl rfl)⟩
  · cases h
    exact ⟨hc.next, fun _ => (spelled_afterMark (hc.spelled hk Kind.noConfusion)).2 (.inr rfl)⟩
  · cases h

/-- Selectors behind commas, where no colon is next in the end. -/
theorem selectorsWithin_keeps (n : Nat) {c d : Cursor} {selectors : List Selector}
    (hc : c.WellSpelled) (h : selectorsWithin n c = .ok selectors d) :
    d.WellSpelled ∧ (d.kind ≠ .colon → c.kind ≠ .colon ∧ ∀ s ∈ selectors, s.Spelled) := by
  induction n generalizing c selectors with
  | zero =>
    cases h
    exact ⟨hc, fun last => ⟨last, fun _ hs => nomatch hs⟩⟩
  | succ n ih =>
    obtain ⟨_, _, hkind, h⟩ := bind_ok_iff.1 h
    cases hkind
    split at h
    · rename_i comma
      obtain ⟨_, _, hadvance, h⟩ := bind_ok_iff.1 h
      cases hadvance
      obtain ⟨front, c', hfront, h⟩ := bind_ok_iff.1 h
      obtain ⟨back, d', hback, h⟩ := bind_ok_iff.1 h
      cases h
      obtain ⟨hc', first⟩ := selector_keeps _ _ _ hc.next rfl hfront
      obtain ⟨hd, others⟩ := ih hc' hback
      refine ⟨hd, fun last => ?_⟩
      obtain ⟨between, spelled⟩ := others last
      refine ⟨?_, List.forall_mem_cons.2 ⟨first between, spelled⟩⟩
      rw [show c.kind = .comma from comma]
      exact Kind.noConfusion
    · cases h
      exact ⟨hc, fun last => ⟨last, fun _ hs => nomatch hs⟩⟩

/-- A body begins with a brace. -/
theorem block_opens {g : Grammar} {c d : Cursor} {items : List Item}
    (h : block g c = .ok items d) : c.kind = .openCurly := by
  obtain ⟨_, _, hbudget, h⟩ := bind_ok_iff.1 h
  cases hbudget
  obtain ⟨_, _, hopen, -⟩ := bind_ok_iff.1 h
  unfold expect expectOr at hopen
  split at hopen
  · assumption
  · cases hopen

theorem rule_keeps : Keeps (rule .standard) Rule.Spelled := by
  intro c r d hc h
  obtain ⟨_, _, hposition, h⟩ := bind_ok_iff.1 h
  cases hposition
  obtain ⟨front, c₁, hfront, h⟩ := bind_ok_iff.1 h
  obtain ⟨_, _, hbudget, h⟩ := bind_ok_iff.1 h
  cases hbudget
  obtain ⟨back, c₂, hback, h⟩ := bind_ok_iff.1 h
  obtain ⟨_, c₃, hid, h⟩ := bind_ok_iff.1 h
  obtain ⟨body, c₄, hbody, h⟩ := bind_ok_iff.1 h
  obtain ⟨_, _, hspan, h⟩ := bind_ok_iff.1 h
  cases hspan
  cases h
  obtain ⟨hc₁, first⟩ := selector_keeps _ _ _ hc rfl hfront
  obtain ⟨hc₂, others⟩ := selectorsWithin_keeps _ hc₁ hback
  obtain ⟨hc₃, -⟩ := Keeps.freshId _ _ _ hc₂ hid
  obtain ⟨hc₄, items⟩ := block_keeps _ _ _ hc₃ hbody
  have brace := block_opens hbody
  have last : c₂.kind ≠ .colon := by
    cases hid
    rw [show c₂.kind = .openCurly from brace]
    exact Kind.noConfusion
  obtain ⟨between, spelled⟩ := others last
  exact ⟨hc₄, List.cons_ne_nil _ _, List.forall_mem_cons.2 ⟨first between, spelled⟩, items⟩

/-! ### Stylesheets -/

theorem member_keeps : Keeps (member .standard) Member.Spelled := by
  refine .bind .get fun c _ => ?_
  split
  · exact .bind .advance fun _ _ => .bind (assignmentTail_keeps .standard _) fun _ ha => .pure ha
  · exact .bind rule_keeps fun _ hr => .pure hr

theorem membersWithin_keeps (n : Nat) :
    Keeps (membersWithin .standard n) fun members => ∀ m ∈ members, m.Spelled := by
  induction n with
  | zero => exact .pure fun _ hm => nomatch hm
  | succ n ih =>
    refine .bind .get fun c _ => ?_
    split
    · exact .bind member_keeps fun _ hm => .bind ih fun _ hms =>
        .pure (List.forall_mem_cons.2 ⟨hm, hms⟩)
    · exact .pure fun _ hm => nomatch hm

theorem sheet_keeps : Keeps (sheet .standard) Sheet.Spelled :=
  .bind .budget fun n _ => .bind (membersWithin_keeps n) fun _ hm => .bind .get fun _ _ => .pure hm

end Parse

/-- **A stylesheet that was read can be spelled.** -/
theorem Sheet.spelled_of_ofText {text file : String} {sheet : Sheet}
    (h : Sheet.ofText text file = .ok sheet) : sheet.Spelled := by
  obtain ⟨ws, lexes⟩ := Sheet.lexes_of_ofText h
  obtain ⟨c, words, read⟩ := Sheet.ofText_of_lexes lexes file
  have hc : c.WellSpelled := by
    unfold Cursor.WellSpelled
    rw [words]
    exact lexes.wellSpelled
  rw [h] at read
  cases hp : Parse.sheet .standard c with
  | error e d =>
    rw [hp] at read
    cases read
  | ok result d =>
    rw [hp] at read
    cases read
    exact (Parse.sheet_keeps c sheet d hc hp).2

/-! ### Flattening -/

theorem bodySpelled_iff {items : List Item} : bodySpelled items ↔ ∀ item ∈ items, item.Spelled := by
  induction items with
  | nil => simp [bodySpelled]
  | cons item items ih => rw [bodySpelled, ih, List.forall_mem_cons]

/-- All variables stand for values that can be spelled. -/
def ValueScopes.Spelled (s : ValueScopes) : Prop := ∀ name v, s.find? name = some v → v.Spelled

theorem ValueScopes.Spelled.define {f : Frame Literal} {fs : List (Frame Literal)}
    (hs : ValueScopes.Spelled ⟨f :: fs⟩) {v : Literal} (hv : v.Spelled) (name : String) :
    ValueScopes.Spelled ⟨f.define name v :: fs⟩ := by
  have defined : Scopes.define ⟨f :: fs⟩ name v = .ok ⟨f.define name v :: fs⟩ := rfl
  intro other w h
  rw [Scopes.find?_define defined] at h
  split at h
  · cases h
    exact hv
  · exact hs other w h

/-- Operations give numbers. -/
theorem Operator.apply_ok {op : Operator} {l r v : Literal} (h : op.apply l r = .ok v) :
    ∃ d a, v = .number d a := by
  unfold apply at h
  split at h
  · split at h
    · split at h
      · cases h
        exact ⟨_, _, rfl⟩
      · cases h
    · cases h
  · cases h

theorem Expr.value_spelled {s : ValueScopes} (hs : s.Spelled) {e : Expr} (he : e.Spelled)
    {v : Literal} (h : e.value s = .ok v) : v.Spelled := by
  cases e with
  | literal id value span =>
    cases h
    exact he
  | reference id name span =>
    unfold Expr.value at h
    split at h
    · rename_i found
      cases h
      exact hs name v found
    · cases h
  | operation id op left right span =>
    cases Expr.operated (s := s) id op left right span with
    | left _ value =>
      rw [value] at h
      cases h
    | right _ _ value =>
      rw [value] at h
      cases h
    | both _ _ value =>
      rw [value] at h
      split at h
      · rename_i result
        cases h
        obtain ⟨d, a, rfl⟩ := Operator.apply_ok result
        trivial
      · cases h

theorem flattenBody_spelled :
    (∀ (item : Item) (f : Frame Literal) (fs : List (Frame Literal)) (out : List Item)
      (t : ValueScopes), item.Spelled → ValueScopes.Spelled ⟨f :: fs⟩ →
      item.flatten ⟨f :: fs⟩ = .ok out t → bodySpelled out ∧ t.Spelled) ∧
    ∀ (items : List Item) (f : Frame Literal) (fs : List (Frame Literal)) (out : List Item)
      (t : ValueScopes), bodySpelled items → ValueScopes.Spelled ⟨f :: fs⟩ →
      flattenBody items ⟨f :: fs⟩ = .ok out t → bodySpelled out ∧ t.Spelled := by
  apply Item.body_induction
  case declaration =>
    intro d f fs out t hd hs h
    unfold Item.Spelled at hd
    obtain ⟨v, hv, rfl, rfl⟩ := Item.flatten_declaration_ok h
    have folded : (Item.declaration (d.folded v)).Spelled := by
      unfold Item.Spelled
      exact ⟨hd.property, Expr.value_spelled hs hd.value hv⟩
    exact ⟨⟨folded, trivial⟩, hs⟩
  case assignment =>
    intro a f fs out t ha hs h
    unfold Item.Spelled at ha
    obtain ⟨hflatten, rfl⟩ := Item.flatten_assignment_ok h
    obtain ⟨v, hv, rfl⟩ := Assignment.flatten_ok hflatten
    exact ⟨trivial, hs.define (Expr.value_spelled hs ha hv) a.name⟩
  case ifClause =>
    intro clause ih f fs out t hclause hs h
    obtain ⟨b, u, -, hb, rfl⟩ := Item.flatten_ifClause_ok h
    have branch := ((Item.spelled_ifClause_iff clause).1 hclause).2 b
    exact ⟨(ih b .empty (f :: fs) out u branch hs hb).1, hs⟩
  case nil =>
    intro f fs out t _ hs h
    cases h
    exact ⟨trivial, hs⟩
  case cons =>
    intro item items front back f fs out t hitems hs h
    obtain ⟨first, g, rest, hf, hb, rfl⟩ := flattenBody_cons_ok h
    obtain ⟨hfirst, hg⟩ := front f fs first _ hitems.1 hs hf
    obtain ⟨hrest, ht⟩ := back g fs rest t hitems.2 hg hb
    refine ⟨?_, ht⟩
    rw [bodySpelled_iff] at hfirst hrest ⊢
    exact List.forall_mem_append.2 ⟨hfirst, hrest⟩

theorem flattenMembers_spelled {members out : List Member} {f : Frame Literal}
    {fs : List (Frame Literal)} {t : ValueScopes} (hm : ∀ m ∈ members, m.Spelled)
    (hs : ValueScopes.Spelled ⟨f :: fs⟩) (h : flattenMembers members ⟨f :: fs⟩ = .ok out t) :
    ∀ m ∈ out, m.Spelled := by
  induction members generalizing f out with
  | nil =>
    cases h
    exact hm
  | cons member members ih =>
    obtain ⟨first, others⟩ := List.forall_mem_cons.1 hm
    cases member with
    | assignment a =>
      obtain ⟨g, ha, h⟩ := flattenMembers_assignment_ok h
      obtain ⟨v, hv, heq⟩ := Assignment.flatten_ok ha
      cases heq
      exact ih others (hs.define (Expr.value_spelled hs first hv) a.name) h
    | rule r =>
      obtain ⟨body, u, rest, hb, -, hrest, rfl⟩ := flattenMembers_rule_ok h
      have first : r.Spelled := first
      have items := (flattenBody_spelled.2 r.body .empty (f :: fs) body u first.body hs hb).1
      exact List.forall_mem_cons.2
        ⟨⟨first.nonempty, first.selectors, items⟩, ih others hs hrest⟩

theorem Item.spelled_setting {item : Item} {e : Setting} (hi : item.Spelled)
    (h : item.setting? = some e) : e.Spelled := by
  obtain ⟨d, id, v, span, rfl, value⟩ := Item.IsFlat.eq ⟨e, h⟩
  unfold Item.Spelled at hi
  have spelled := hi.value
  rw [value] at spelled
  rw [Item.setting?, value] at h
  cases h
  exact ⟨hi.property, spelled⟩

namespace Sheet

/-- Flattening keeps what can be spelled so. -/
theorem spelled_of_flatten {sheet flat : Sheet} (hs : sheet.Spelled)
    (h : sheet.flatten = .ok flat) : flat.Spelled := by
  obtain ⟨members, t, hm, rfl⟩ := Sheet.flatten_ok h
  have unbound : ValueScopes.Spelled Scopes.empty.push := by
    intro name v found
    rw [Scopes.find?_push] at found
    cases (show Scopes.find? Scopes.empty name = none from rfl).symm.trans found
  exact flattenMembers_spelled hs unbound hm

/-- The stanzas of a stylesheet that can be spelled can be. -/
theorem spelled_stanzas {sheet : Sheet} (hs : sheet.Spelled) : ∀ s ∈ sheet.stanzas, s.Spelled := by
  intro s h
  obtain ⟨r, hr, rfl⟩ := List.mem_map.1 h
  obtain ⟨m, hm, rule⟩ := List.mem_filterMap.1 hr
  cases m with
  | assignment a => cases rule
  | rule r' =>
    cases rule
    have spelled : r.Spelled := hs (.rule r) hm
    refine ⟨spelled.nonempty, spelled.selectors, fun e he => ?_⟩
    obtain ⟨item, hitem, setting⟩ := List.mem_filterMap.1 he
    exact Item.spelled_setting (bodySpelled_iff.1 spelled.body item hitem) setting

end Sheet

end Typesheet
