import Mathlib
import Typesheet.Proofs.Nodes
import Typesheet.Proofs.Reading

/-! The numbers of nodes.

A cursor hands out numbers one after the other, and each reader gives a tree with exactly
the numbers that were handed out on the way, each once (`Parse.Numbers`). When a node gets
its number does not matter for that: a rule and a clause get theirs before their bodies, an
operation, a declaration and an assignment behind their values, and parentheses get none.

Flattening leaves out nodes but neither makes nor renumbers any: what is folded keeps the
number of the expression (`Sheet.flatten_ids_sublist`). -/
namespace Typesheet

/-! ### The numbers in parts of a stylesheet -/

/-- The numbers in an expression. -/
def Expr.ids (e : Expr) : List NodeId := e.nodes.map Node.id

def Assignment.ids (a : Assignment) : List NodeId := a.nodes.map Node.id

def Item.ids (item : Item) : List NodeId := item.nodes.map Node.id

/-- The numbers in a body. -/
def bodyIds (items : List Item) : List NodeId := (bodyNodes items).map Node.id

/-- The numbers in what applies otherwise, if anything does. -/
def elseIds : Option (ElseClause Item) → List NodeId
  | some otherwise => otherwise.id :: bodyIds otherwise.body
  | none => []

def Rule.ids (r : Rule) : List NodeId := r.id :: bodyIds r.body

def Member.ids (m : Member) : List NodeId := m.nodes.map Node.id

/-- The numbers in members. -/
def membersIds (members : List Member) : List NodeId := (members.flatMap Member.nodes).map Node.id

theorem bodyIds_append (items others : List Item) :
    bodyIds (items ++ others) = bodyIds items ++ bodyIds others := by
  unfold bodyIds
  rw [bodyNodes_append, List.map_append]

theorem bodyIds_cons (item : Item) (items : List Item) :
    bodyIds (item :: items) = item.ids ++ bodyIds items := List.map_append

theorem membersIds_cons (m : Member) (members : List Member) :
    membersIds (m :: members) = m.ids ++ membersIds members := by
  unfold membersIds Member.ids
  rw [List.flatMap_cons, List.map_append]

theorem Item.ids_assignment (a : Assignment) : (Item.assignment a).ids = a.ids := by
  unfold Item.ids Item.nodes
  rfl

theorem Item.ids_declaration (d : Declaration) :
    (Item.declaration d).ids = d.id :: d.value.ids := by
  unfold Item.ids Item.nodes
  rfl

theorem Item.ids_ifClause (clause : IfClause Item) :
    (Item.ifClause clause).ids = clause.id :: (clause.condition.ids ++
      (bodyIds clause.body ++ elseIds clause.otherwise)) := by
  obtain ⟨id, condition, body, otherwise, span⟩ := clause
  unfold Item.ids Item.nodes
  rw [List.map_cons, List.map_append, List.map_append]
  cases otherwise <;> rfl

/-- The first number in an expression is its own. -/
theorem Expr.ids_eq_cons (e : Expr) : ∃ more, e.ids = e.id :: more := by
  cases e with
  | literal => exact ⟨[], rfl⟩
  | reference => exact ⟨[], rfl⟩
  | operation id op left right span => exact ⟨(left.nodes ++ right.nodes).map Node.id, rfl⟩

/-! ### Readers and the numbers they hand out -/

namespace Parse
variable {α β : Type}

/-- In what the reader gives there are the numbers `before`, given out by earlier readers,
and those that it takes from the cursor: the next ones, each once. -/
def Numbers (before : List NodeId) (m : Parse α) (ids : α → List NodeId) : Prop :=
  ∀ c a d, m c = .ok a d →
    ∃ n, d.nextId = c.nextId + n ∧ (ids a).Perm (before ++ List.range' c.nextId n)

namespace Numbers
variable {before : List NodeId} {m : Parse α} {k : α → Parse β} {ids : α → List NodeId}
  {ids' : β → List NodeId}

theorem bind (hm : Numbers before m ids) (hk : ∀ a, Numbers (ids a) (k a) ids') :
    Numbers before (m >>= k) ids' := by
  intro c b d h
  obtain ⟨a, c', h, h'⟩ := bind_ok_iff.1 h
  obtain ⟨n, next, given⟩ := hm c a c' h
  obtain ⟨n', next', given'⟩ := hk a c' b d h'
  refine ⟨n + n', by rw [next', next, Nat.add_assoc], given'.trans ?_⟩
  rw [next, ← List.range'_append_1, ← List.append_assoc]
  exact given.append_right _

theorem pure {a : α} (h : (ids a).Perm before) : Numbers before (Pure.pure a) ids := by
  intro c _ d hok
  cases hok
  exact ⟨0, rfl, by simpa using h⟩

/-- A reader that takes no number from the cursor. -/
theorem of_stays (h : ∀ c a d, m c = .ok a d → d.nextId = c.nextId) :
    Numbers before m fun _ => before :=
  fun c a d hok => ⟨0, h c a d hok, by simp⟩

/-- What a reader gives by itself it also gives behind others. -/
theorem behind (h : Numbers [] m ids) : Numbers before m fun a => before ++ ids a := by
  intro c a d hok
  obtain ⟨n, next, given⟩ := h c a d hok
  exact ⟨n, next, given.append_left before⟩

theorem get : Numbers before MonadState.get fun _ => before :=
  of_stays fun _ _ _ h => by cases h; rfl

theorem raise {e : Error} : Numbers before (throw e) ids := fun _ _ _ h => nomatch h

theorem refuse {message : String} : Numbers before (Parse.refuse message) ids :=
  fun _ _ _ h => nomatch h

theorem advance : Numbers before Parse.advance fun _ => before := by
  refine of_stays fun c t d h => ?_
  cases h
  unfold Cursor.next
  split <;> rfl

theorem freshId : Numbers before Parse.freshId fun id => id :: before := by
  intro c id d h
  cases h
  exact ⟨1, rfl, (List.perm_append_singleton _ _).symm⟩

theorem kind : Numbers before Parse.kind fun _ => before := get.bind fun _ => pure (.refl _)

theorem position : Numbers before Parse.position fun _ => before :=
  get.bind fun _ => pure (.refl _)

theorem spanFrom (start : Position) : Numbers before (Parse.spanFrom start) fun _ => before :=
  get.bind fun _ => pure (.refl _)

theorem budget : Numbers before Parse.budget fun _ => before := get.bind fun _ => pure (.refl _)

theorem expect (k : Kind) : Numbers before (Parse.expect k) fun _ => before := by
  intro c t d h
  unfold Parse.expect expectOr at h
  split at h
  · exact advance c t d h
  · cases h

end Numbers

/-! ### Expressions -/

theorem primary_numbers : Numbers [] primary Expr.ids := by
  refine .bind .get fun c => ?_
  simp only []
  split
  · exact .bind .advance fun _ => .bind .freshId fun _ => .pure (.refl _)
  · split
    · exact .bind .advance fun _ => .bind .freshId fun _ => .pure (.refl _)
    · exact .raise
    · exact .refuse

theorem grouping_numbers {inner : Parse Expr} (h : Numbers [] inner Expr.ids) :
    Numbers [] (grouping inner) Expr.ids :=
  .bind .advance fun _ => .bind h fun _ => .bind (.expect _) fun _ => .pure (.refl _)

theorem operation_numbers (left : Expr) {operand : Parse Expr}
    (h : Numbers [] operand Expr.ids) : Numbers left.ids (operation left operand) Expr.ids := by
  refine .bind .advance fun sign => ?_
  split
  · exact .raise
  · refine .bind h.behind fun right => .bind .freshId fun id => .pure ?_
    unfold Expr.ids
    rw [Expr.nodes, List.map_cons, List.map_append]
    exact .refl _

theorem exprWithin_numbers (g : Grammar) (n : Nat) :
    (∀ floor, Numbers [] (exprWithin g n floor) Expr.ids) ∧
      ∀ floor left, Numbers left.ids (operationsWithin g n floor left) Expr.ids := by
  induction n with
  | zero => exact ⟨fun _ => .refuse, fun _ _ => .pure (.refl _)⟩
  | succ n ih =>
    obtain ⟨ihe, iho⟩ := ih
    constructor
    · intro floor
      refine .bind .kind fun k => ?_
      split
      · exact .refuse
      · exact .bind primary_numbers (iho floor)
      · exact .bind (grouping_numbers (ihe _)) (iho floor)
    · intro floor left
      refine .bind .kind fun k => ?_
      simp only []
      split
      · exact .bind (operation_numbers left (ihe _)) (iho floor)
      · exact .pure (.refl _)

theorem expr_numbers (g : Grammar) (floor : Strength) : Numbers [] (expr g floor) Expr.ids :=
  .bind .budget fun n => (exprWithin_numbers g n).1 floor

/-! ### Bodies -/

theorem assignmentTail_numbers (g : Grammar) (name : Token) :
    Numbers [] (assignmentTail g name) Assignment.ids :=
  .bind (.expect _) fun _ => .bind (expr_numbers g _) fun _ => .bind (.expect _) fun _ =>
    .bind .freshId fun _ => .bind (.spanFrom _) fun _ => .pure (.refl _)

theorem namedItem_numbers (g : Grammar) : Numbers [] (namedItem g) Item.ids := by
  refine .bind .advance fun name => .bind .kind fun k => ?_
  split
  · refine .bind (assignmentTail_numbers g name) fun a => .pure ?_
    rw [Item.ids_assignment]
  · refine .bind .advance fun _ => .bind (expr_numbers g _) fun _ => .bind (.expect _) fun _ =>
      .bind .freshId fun _ => .bind (.spanFrom _) fun _ => .pure ?_
    rw [Item.ids_declaration]
  · exact .refuse

/-- A clause and its else-clause get their numbers before their bodies. -/
theorem ifClause_numbers (g : Grammar) {body : Parse (List Item)}
    (h : Numbers [] body bodyIds) : Numbers [] (ifClause g body) Item.ids := by
  have otherwise : Numbers [] (ifClause.elseClause body) elseIds := by
    refine .bind .kind fun k => ?_
    split
    · exact .bind .advance fun _ => .bind .freshId fun _ => .bind h.behind fun _ =>
        .bind (.spanFrom _) fun _ => .pure (.refl _)
    · exact .pure (.refl _)
  refine .bind .advance fun start => .bind .kind fun k => ?_
  split
  · exact .refuse
  · refine .bind .advance fun _ => .bind (expr_numbers g _) fun condition =>
      .bind (.expect _) fun _ => .bind .freshId fun id => .bind h.behind fun whenTrue =>
      .bind otherwise.behind fun o => .bind (.spanFrom _) fun span => .pure ?_
    rw [Item.ids_ifClause, List.cons_append, List.cons_append, List.append_assoc]

theorem item_numbers (g : Grammar) {body : Parse (List Item)} (h : Numbers [] body bodyIds) :
    Numbers [] (item g body) Item.ids := by
  refine .bind .kind fun k => ?_
  split
  · exact namedItem_numbers g
  · exact ifClause_numbers g h
  · exact .refuse

theorem braces_numbers {items : Parse (List Item)} (h : Numbers [] items bodyIds) :
    Numbers [] (braces items) bodyIds :=
  .bind (.expect _) fun _ => .bind h fun _ => .bind (.expect _) fun _ => .pure (.refl _)

theorem itemsWithin_numbers (g : Grammar) (n : Nat) : Numbers [] (itemsWithin g n) bodyIds := by
  induction n with
  | zero => exact .pure (.refl _)
  | succ n ih =>
    refine .bind .kind fun k => ?_
    split
    · exact .pure (.refl _)
    · refine .bind (item_numbers g (braces_numbers ih)) fun front => .bind ih.behind fun back =>
        .pure ?_
      rw [bodyIds_cons]

theorem block_numbers (g : Grammar) : Numbers [] (block g) bodyIds :=
  .bind .budget fun n => braces_numbers (itemsWithin_numbers g n)

/-! ### Members -/

theorem selector_numbers {before : List NodeId} : Numbers before selector fun _ => before := by
  refine .bind .kind fun k => ?_
  split
  case h_5 => exact .refuse
  all_goals exact .bind .advance fun _ => .pure (.refl _)

theorem selectorsWithin_numbers {before : List NodeId} (n : Nat) :
    Numbers before (selectorsWithin n) fun _ => before := by
  induction n with
  | zero => exact .pure (.refl _)
  | succ n ih =>
    refine .bind .kind fun k => ?_
    split
    · exact .bind .advance fun _ => .bind selector_numbers fun _ => .bind ih fun _ =>
        .pure (.refl _)
    · exact .pure (.refl _)

theorem rule_numbers (g : Grammar) : Numbers [] (rule g) Rule.ids :=
  .bind .position fun _ => .bind selector_numbers fun _ => .bind .budget fun n =>
    .bind (selectorsWithin_numbers n) fun _ => .bind .freshId fun _ =>
    .bind (block_numbers g).behind fun _ => .bind (.spanFrom _) fun _ => .pure (.refl _)

theorem member_numbers (g : Grammar) : Numbers [] (member g) Member.ids := by
  refine .bind .get fun c => ?_
  split
  · exact .bind .advance fun _ => .bind (assignmentTail_numbers g _) fun _ => .pure (.refl _)
  · exact .bind (rule_numbers g) fun _ => .pure (.refl _)

theorem membersWithin_numbers (g : Grammar) (n : Nat) :
    Numbers [] (membersWithin g n) membersIds := by
  induction n with
  | zero => exact .pure (.refl _)
  | succ n ih =>
    refine .bind .get fun c => ?_
    split
    · refine .bind (member_numbers g) fun front => .bind ih.behind fun back => .pure ?_
      rw [membersIds_cons]
    · exact .pure (.refl _)

theorem sheet_numbers (g : Grammar) : Numbers [] (sheet g) Sheet.ids :=
  .bind .budget fun n => .bind (membersWithin_numbers g n) fun _ => .bind .get fun _ =>
    .pure (.refl _)

end Parse

/-- Numbers begin with one. -/
theorem Cursor.ofTokens_nextId (tokens : List Token) (file : String) :
    (Cursor.ofTokens tokens file).nextId = 1 := by
  unfold Cursor.ofTokens
  simp only []
  split
  · rfl
  · split <;> rfl

/-! ### Flattening -/

/-- The declarations that a body comes to have numbers of the body, in their order. -/
theorem flattenBody_ids :
    (∀ (item : Item) (f : Frame Literal) (fs : List (Frame Literal)) (out : List Item)
      (t : ValueScopes), item.flatten ⟨f :: fs⟩ = .ok out t → (bodyIds out).Sublist item.ids) ∧
    ∀ (items : List Item) (f : Frame Literal) (fs : List (Frame Literal)) (out : List Item)
      (t : ValueScopes), flattenBody items ⟨f :: fs⟩ = .ok out t →
        (bodyIds out).Sublist (bodyIds items) := by
  apply Item.body_induction
  case declaration =>
    intro d f fs out t h
    obtain ⟨v, -, rfl, -⟩ := Item.flatten_declaration_ok h
    obtain ⟨more, ids⟩ := d.value.ids_eq_cons
    have folded : (Item.declaration (d.folded v)).ids = [d.id, d.value.id] :=
      Item.ids_declaration _
    have none : bodyIds [] = [] := rfl
    rw [bodyIds_cons, none, List.append_nil, folded, Item.ids_declaration, ids]
    exact (List.nil_sublist more).cons_cons _ |>.cons_cons _
  case assignment =>
    intro a f fs out t h
    obtain ⟨-, rfl⟩ := Item.flatten_assignment_ok h
    exact List.nil_sublist _
  case ifClause =>
    intro clause ih f fs out t h
    obtain ⟨b, u, -, hb, -⟩ := Item.flatten_ifClause_ok h
    exact (ih b .empty (f :: fs) out u hb).trans ((clause.branch_nodes_sublist b).map Node.id)
  case nil =>
    intro f fs out t h
    cases h
    exact List.nil_sublist _
  case cons =>
    intro item items front back f fs out t h
    obtain ⟨first, g, rest, hf, hb, rfl⟩ := flattenBody_cons_ok h
    rw [bodyIds_append, bodyIds_cons]
    exact (front f fs first _ hf).append (back g fs rest t hb)

theorem flattenMembers_ids {members out : List Member} {f : Frame Literal}
    {fs : List (Frame Literal)} {t : ValueScopes}
    (h : flattenMembers members ⟨f :: fs⟩ = .ok out t) :
    (membersIds out).Sublist (membersIds members) := by
  induction members generalizing f out with
  | nil =>
    cases h
    exact List.nil_sublist _
  | cons member members ih =>
    rw [membersIds_cons]
    cases member with
    | assignment a =>
      obtain ⟨g, -, h⟩ := flattenMembers_assignment_ok h
      exact (ih h).trans (List.sublist_append_right _ _)
    | rule r =>
      obtain ⟨body, u, rest, hb, -, hrest, rfl⟩ := flattenMembers_rule_ok h
      rw [membersIds_cons]
      have items := flattenBody_ids.2 r.body .empty (f :: fs) body u hb
      exact (items.cons_cons r.id).append (ih hrest)

/-- **Flattening makes no numbers and changes none.** -/
theorem Sheet.flatten_ids_sublist {sheet flat : Sheet} (h : sheet.flatten = .ok flat) :
    flat.ids.Sublist sheet.ids := by
  obtain ⟨members, t, hm, rfl⟩ := Sheet.flatten_ok h
  exact flattenMembers_ids hm

/-! ### Main result -/

/-- In a stylesheet that was read the numbers are those from one up to the next that would be
handed out, each once, and in what it is flattened to there are some of them, each at most
once. -/
theorem Sheet.ids_of_read {tokens : List Token} {file : String} {sheet : Sheet} {c : Cursor}
    (h : Sheet.read tokens file = .ok sheet c) :
    (∃ n d, Parse.freshId c = .ok (n + 1) d ∧ sheet.ids.Perm (List.range' 1 n)) ∧
      ∀ flat, sheet.flatten = .ok flat → flat.ids.Nodup ∧ flat.ids ⊆ sheet.ids := by
  obtain ⟨n, next, given⟩ := Parse.sheet_numbers .standard _ sheet c h
  rw [Cursor.ofTokens_nextId, List.nil_append] at given
  rw [Cursor.ofTokens_nextId, Nat.add_comm] at next
  constructor
  · refine ⟨n, {c with nextId := c.nextId + 1}, ?_, given⟩
    rw [← next]
    rfl
  · intro flat flattened
    have kept := Sheet.flatten_ids_sublist flattened
    exact ⟨kept.nodup (given.nodup_iff.2 List.nodup_range'), kept.subset⟩

/-- A clause with a product of a sum in one branch and nothing in the other, behind an
assignment: `W := 2px; p { if [true] { width: 3 * (W + 1px); } else { } }`. -/
def numberedTokens : List Token :=
  [(.identifier, "W"), (.assignment, ":="), (.pixel, "2px"), (.semicolon, ";"),
    (.identifier, "p"), (.openCurly, "\x7b"),
    (.ifWord, "if"), (.openBracket, "["), (.trueWord, "true"), (.closeBracket, "]"),
    (.openCurly, "\x7b"), (.identifier, "width"), (.colon, ":"), (.scalar, "3"), (.star, "*"),
    (.openParen, "("), (.identifier, "W"), (.plus, "+"), (.pixel, "1px"), (.closeParen, ")"),
    (.semicolon, ";"), (.closeCurly, "\x7d"),
    (.elseWord, "else"), (.openCurly, "\x7b"), (.closeCurly, "\x7d"),
    (.closeCurly, "\x7d")].map fun (kind, value) => ⟨kind, value, ⟨.nowhere, .nowhere⟩⟩

/-- The assignment, the declaration and the operations have numbers behind those of their
values, the rule and the clause in front of those in their bodies. -/
theorem Sheet.ids_of_read_numbered :
    ∃ sheet c flat, Sheet.read numberedTokens "sheet" = .ok sheet c ∧
      sheet.flatten = .ok flat ∧
      sheet.ids = [2, 1, 3, 5, 4, 11, 10, 6, 9, 7, 8, 12] ∧ flat.ids = [3, 11, 10] ∧
      (∃ n d, Parse.freshId c = .ok (n + 1) d ∧ sheet.ids.Perm (List.range' 1 n)) ∧
      flat.ids.Nodup ∧ flat.ids ⊆ sheet.ids := by
  have known : (Sheet.ofTokens numberedTokens "sheet").map
      (fun sheet => (sheet.ids, sheet.flatten.map Sheet.ids)) =
        .ok ([2, 1, 3, 5, 4, 11, 10, 6, 9, 7, 8, 12], .ok [3, 11, 10]) := by cbv
  unfold Sheet.ofTokens at known
  split at known
  · rename_i sheet c read
    obtain ⟨ids, flats⟩ := Prod.mk.inj (Except.ok.inj known)
    cases flattened : sheet.flatten with
    | error e =>
      rw [flattened] at flats
      cases flats
    | ok flat =>
      rw [flattened] at flats
      obtain ⟨numbers, kept⟩ := Sheet.ids_of_read read
      exact ⟨sheet, c, flat, read, flattened, ids, Except.ok.inj flats, numbers,
        kept flat flattened⟩
  · cases known

end Typesheet
