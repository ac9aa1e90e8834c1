import Mathlib.Data.List.Nodup
import Typesheet.Proofs.Bare
import Typesheet.Proofs.Nodes

/-! Visible assignments.

Which assignments are visible from a node is a matter of where both stand: an assignment is
visible from whatever is in an item behind it in its body, and one among the members of the
stylesheet from whatever is in a member behind it (`VisibleIn`, `Sheet.Visible`). The
checker has no such notion, it looks names up in a stack of frames.

In between stand the outlooks: all nodes in the order of the text, each with the assignments
seen from it, collected on the way (`bodyOutlooks`). The frames of the checker bind the names
seen (`TypeScopes.Shows`), so that it reports the references that do not see their name
assigned (`checkBody_undeclared`), and what is seen is what is visible
(`Sheet.seen_iff_visible`). The values assigned make no difference. -/
namespace Typesheet

/-! ### Visibility -/

/-- In a body, an assignment is visible from a node: it is among the items in front of the
item that holds the node, or it is visible in a branch of one of the items. -/
inductive VisibleIn : List Item → Assignment → Node → Prop where
  | inFront {items front back : List Item} {item : Item} {a : Assignment} {n : Node} :
    items = front ++ item :: back → .assignment a ∈ front → n ∈ item.nodes →
    VisibleIn items a n
  | inBranch {items : List Item} {clause : IfClause Item} {b : Bool} {a : Assignment}
    {n : Node} :
    .ifClause clause ∈ items → VisibleIn (clause.branch b) a n → VisibleIn items a n

/-- In a stylesheet, an assignment is visible from a node: it is among the members in front
of the member that holds the node, or it is visible in the body of a rule. -/
inductive Sheet.Visible (sheet : Sheet) (a : Assignment) (n : Node) : Prop where
  | inFront {front back : List Member} {member : Member} :
    sheet.members = front ++ member :: back → .assignment a ∈ front → n ∈ member.nodes →
    Visible sheet a n
  | inRule {rule : Rule} :
    .rule rule ∈ sheet.members → VisibleIn rule.body a n → Visible sheet a n

/-- What is visible among some items is visible among more. -/
theorem VisibleIn.among {items : List Item} {a : Assignment} {n : Node} (h : VisibleIn items a n)
    (before behind : List Item) : VisibleIn (before ++ items ++ behind) a n := by
  cases h with
  | @inFront _ front back item _ _ split assigned held =>
    subst split
    have split : before ++ (front ++ item :: back) ++ behind =
        before ++ front ++ item :: (back ++ behind) := by
      simp only [List.append_assoc, List.cons_append]
    exact .inFront split (List.mem_append_right before assigned) held
  | inBranch clause visible =>
    exact .inBranch (List.mem_append_left _ (List.mem_append_right _ clause)) visible

/-! ### Outlooks -/

/-- A node and the assignments seen from it. -/
structure Outlook where
  node : Node
  seen : List Assignment

/-- The nodes of something, all of which see the same. -/
def outlooksOf (nodes : List Node) (seen : List Assignment) : List Outlook := nodes.map (⟨·, seen⟩)

/-- What an item makes visible behind it. -/
def Item.assigned : Item → List Assignment
  | .assignment a => [a]
  | _ => []

mutual

/-- The outlooks in an item that sees these assignments. -/
def Item.outlooks : Item → List Assignment → List Outlook
  | .declaration d, seen => outlooksOf d.nodes seen
  | .assignment a, seen => outlooksOf a.nodes seen
  | .ifClause ⟨id, condition, body, otherwise, span⟩, seen =>
    outlooksOf (.ifClause ⟨id, condition, body, otherwise, span⟩ :: condition.nodes) seen ++
      (bodyOutlooks body seen ++
        match otherwise with
        | some ⟨id, body, span⟩ =>
          outlooksOf [.elseClause ⟨id, body, span⟩] seen ++ bodyOutlooks body seen
        | none => [])

/-- The outlooks in the items of a body that sees these assignments. -/
def bodyOutlooks : List Item → List Assignment → List Outlook
  | [], _ => []
  | item :: items, seen => item.outlooks seen ++ bodyOutlooks items (seen ++ item.assigned)

end

/-- What a member makes visible behind it. -/
def Member.assigned : Member → List Assignment
  | .assignment a => [a]
  | .rule _ => []

/-- The outlooks in a member that sees these assignments. -/
def Member.outlooks (seen : List Assignment) : Member → List Outlook
  | .assignment a => outlooksOf a.nodes seen
  | .rule r => ⟨.rule r, seen⟩ :: bodyOutlooks r.body seen

/-- The outlooks in members that see these assignments. -/
def membersOutlooks : List Member → List Assignment → List Outlook
  | [], _ => []
  | member :: members, seen =>
    member.outlooks seen ++ membersOutlooks members (seen ++ member.assigned)

/-- The outlooks in a stylesheet. -/
def Sheet.outlooks (sheet : Sheet) : List Outlook := membersOutlooks sheet.members []

theorem Item.outlooks_ifClause (clause : IfClause Item) (seen : List Assignment) :
    (Item.ifClause clause).outlooks seen =
      outlooksOf (.ifClause clause :: clause.condition.nodes) seen ++
        (bodyOutlooks (clause.branch true) seen ++
          (outlooksOf clause.elseNodes seen ++ bodyOutlooks (clause.branch false) seen)) := by
  obtain ⟨id, condition, body, otherwise, span⟩ := clause
  unfold Item.outlooks
  cases otherwise <;> rfl

theorem map_node_outlooksOf (nodes : List Node) (seen : List Assignment) :
    (outlooksOf nodes seen).map Outlook.node = nodes := by
  unfold outlooksOf
  rw [List.map_map]
  exact List.map_id nodes

/-- Every node has one outlook, in the order of the text. -/
theorem bodyOutlooks_nodes :
    (∀ (item : Item) (seen : List Assignment),
      (item.outlooks seen).map Outlook.node = item.nodes) ∧
    ∀ (items : List Item) (seen : List Assignment),
      (bodyOutlooks items seen).map Outlook.node = bodyNodes items := by
  apply Item.body_induction
  case declaration => exact fun d seen => map_node_outlooksOf d.nodes seen
  case assignment => exact fun a seen => map_node_outlooksOf a.nodes seen
  case ifClause =>
    intro clause ih seen
    rw [Item.outlooks_ifClause, Item.nodes_ifClause]
    simp only [List.map_append, map_node_outlooksOf, ih, List.cons_append]
  case nil => exact fun _ => rfl
  case cons =>
    intro item items front back seen
    rw [bodyOutlooks, bodyNodes, List.map_append, front, back]

theorem Member.outlooks_nodes (member : Member) (seen : List Assignment) :
    (member.outlooks seen).map Outlook.node = member.nodes := by
  cases member with
  | assignment a => exact map_node_outlooksOf a.nodes seen
  | rule r => exact congrArg (Node.rule r :: ·) (bodyOutlooks_nodes.2 r.body seen)

theorem membersOutlooks_nodes (members : List Member) (seen : List Assignment) :
    (membersOutlooks members seen).map Outlook.node = members.flatMap Member.nodes := by
  induction members generalizing seen with
  | nil => rfl
  | cons member members ih =>
    rw [membersOutlooks, List.map_append, member.outlooks_nodes, ih, List.flatMap_cons]

theorem Sheet.outlooks_nodes (sheet : Sheet) : sheet.outlooks.map Outlook.node = sheet.nodes :=
  membersOutlooks_nodes sheet.members []

/-! ### What is seen is visible -/

theorem mem_outlooksOf {nodes : List Node} {seen : List Assignment} {o : Outlook} :
    o ∈ outlooksOf nodes seen ↔ o.node ∈ nodes ∧ o.seen = seen := by
  unfold outlooksOf
  rw [List.mem_map]
  constructor
  · rintro ⟨n, hn, rfl⟩
    exact ⟨hn, rfl⟩
  · rintro ⟨hn, rfl⟩
    exact ⟨o.node, hn, rfl⟩

/-- An outlook in a clause is one in a branch, or it sees what the clause sees. -/
theorem Item.mem_outlooks_ifClause {clause : IfClause Item} {seen : List Assignment} {o : Outlook}
    (h : o ∈ (Item.ifClause clause).outlooks seen) :
    o.seen = seen ∨ ∃ b, o ∈ bodyOutlooks (clause.branch b) seen := by
  rw [Item.outlooks_ifClause] at h
  obtain h | h := List.mem_append.1 h
  · exact .inl (mem_outlooksOf.1 h).2
  obtain h | h := List.mem_append.1 h
  · exact .inr ⟨true, h⟩
  obtain h | h := List.mem_append.1 h
  · exact .inl (mem_outlooksOf.1 h).2
  · exact .inr ⟨false, h⟩

theorem Item.mem_assigned {item : Item} {a : Assignment} :
    a ∈ item.assigned ↔ item = .assignment a := by
  cases item with
  | declaration d => exact ⟨fun h => (nomatch h), fun h => (nomatch h)⟩
  | assignment b =>
    exact List.mem_singleton.trans ⟨fun h => h ▸ rfl, fun h => (Item.assignment.inj h).symm⟩
  | ifClause clause => exact ⟨fun h => (nomatch h), fun h => (nomatch h)⟩

/-- What is seen among items was seen in front of them or is visible in them. -/
theorem visible_of_seen {a : Assignment} :
    (∀ (item : Item) (seen : List Assignment), ∀ o ∈ item.outlooks seen, a ∈ o.seen →
      a ∈ seen ∨ VisibleIn [item] a o.node) ∧
    ∀ (items : List Item) (seen : List Assignment), ∀ o ∈ bodyOutlooks items seen, a ∈ o.seen →
      a ∈ seen ∨ VisibleIn items a o.node := by
  apply Item.body_induction
  case declaration =>
    intro d seen o ho ha
    exact .inl ((mem_outlooksOf.1 ho).2 ▸ ha)
  case assignment =>
    intro a seen o ho ha
    exact .inl ((mem_outlooksOf.1 ho).2 ▸ ha)
  case ifClause =>
    intro clause ih seen o ho ha
    obtain same | ⟨b, ho⟩ := Item.mem_outlooks_ifClause ho
    · exact .inl (same ▸ ha)
    · exact (ih b seen o ho ha).imp id (.inBranch List.mem_cons_self)
  case nil => exact fun _ _ ho => nomatch ho
  case cons =>
    intro item items front back seen o ho ha
    obtain ho | ho := List.mem_append.1 ho
    · exact (front seen o ho ha).imp id fun visible => visible.among [] items
    · obtain ha | visible := back _ o ho ha
      · obtain ha | ha := List.mem_append.1 ha
        · exact .inl ha
        · -- the item is the assignment, and the node is in an item behind it
          have held := List.mem_map_of_mem (f := Outlook.node) ho
          rw [bodyOutlooks_nodes.2, bodyNodes_eq_flatMap] at held
          obtain ⟨other, hother, inside⟩ := List.mem_flatMap.1 held
          obtain ⟨before, behind, rfl⟩ := List.append_of_mem hother
          have assigned : Item.assignment a ∈ item :: before :=
            Item.mem_assigned.1 ha ▸ List.mem_cons_self
          exact .inr (.inFront rfl assigned inside)
      · refine .inr ?_
        have among := visible.among [item] []
        rwa [List.append_nil] at among

/-- What was seen in front of items is seen from everywhere in them. -/
theorem seen_subset :
    (∀ (item : Item) (seen : List Assignment), ∀ o ∈ item.outlooks seen, seen ⊆ o.seen) ∧
    ∀ (items : List Item) (seen : List Assignment), ∀ o ∈ bodyOutlooks items seen,
      seen ⊆ o.seen := by
  apply Item.body_induction
  case declaration => exact fun d seen o ho => (mem_outlooksOf.1 ho).2 ▸ List.Subset.refl _
  case assignment => exact fun a seen o ho => (mem_outlooksOf.1 ho).2 ▸ List.Subset.refl _
  case ifClause =>
    intro clause ih seen o ho
    obtain same | ⟨b, ho⟩ := Item.mem_outlooks_ifClause ho
    · exact same ▸ List.Subset.refl _
    · exact ih b seen o ho
  case nil => exact fun _ _ ho => nomatch ho
  case cons =>
    intro item items front back seen o ho
    obtain ho | ho := List.mem_append.1 ho
    · exact front seen o ho
    · exact fun _ ha => back _ o ho (List.mem_append_left _ ha)

theorem bodyOutlooks_append (items others : List Item) (seen : List Assignment) :
    bodyOutlooks (items ++ others) seen =
      bodyOutlooks items seen ++ bodyOutlooks others (seen ++ items.flatMap Item.assigned) := by
  induction items generalizing seen with
  | nil =>
    rw [List.flatMap_nil, List.append_nil]
    rfl
  | cons item items ih =>
    rw [List.cons_append, bodyOutlooks, bodyOutlooks, ih, List.flatMap_cons, List.append_assoc,
      List.append_assoc]

theorem IfClause.branch_outlooks_subset (clause : IfClause Item) (b : Bool)
    (seen : List Assignment) :
    bodyOutlooks (clause.branch b) seen ⊆ (Item.ifClause clause).outlooks seen := by
  intro o ho
  rw [Item.outlooks_ifClause]
  cases b with
  | true => exact List.mem_append_right _ (List.mem_append_left _ ho)
  | false =>
    exact List.mem_append_right _ (List.mem_append_right _ (List.mem_append_right _ ho))

/-- What is visible among items is seen from the node. -/
theorem VisibleIn.seen {items : List Item} {a : Assignment} {n : Node} (h : VisibleIn items a n)
    (seen : List Assignment) : ∃ o ∈ bodyOutlooks items seen, o.node = n ∧ a ∈ o.seen := by
  induction h generalizing seen with
  | @inFront items front back item a n split assigned held =>
    subst split
    rw [← bodyOutlooks_nodes.1 item (seen ++ front.flatMap Item.assigned)] at held
    obtain ⟨o, ho, rfl⟩ := List.mem_map.1 held
    refine ⟨o, ?_, rfl, ?_⟩
    · rw [bodyOutlooks_append]
      exact List.mem_append_right _ (List.mem_append_left _ ho)
    · refine seen_subset.1 item _ o ho (List.mem_append_right _ ?_)
      exact List.mem_flatMap.2 ⟨_, assigned, Item.mem_assigned.2 rfl⟩
  | @inBranch items clause b a n held visible ih =>
    obtain ⟨front, back, rfl⟩ := List.append_of_mem held
    obtain ⟨o, ho, node, ha⟩ := ih (seen ++ front.flatMap Item.assigned)
    refine ⟨o, ?_, node, ha⟩
    rw [bodyOutlooks_append]
    exact List.mem_append_right _
      (List.mem_append_left _ (clause.branch_outlooks_subset b _ ho))

theorem Member.mem_assigned {member : Member} {a : Assignment} :
    a ∈ member.assigned ↔ member = .assignment a := by
  cases member with
  | assignment b =>
    exact List.mem_singleton.trans ⟨fun h => h ▸ rfl, fun h => (Member.assignment.inj h).symm⟩
  | rule r => exact ⟨fun h => (nomatch h), fun h => (nomatch h)⟩

theorem membersOutlooks_append (members others : List Member) (seen : List Assignment) :
    membersOutlooks (members ++ others) seen = membersOutlooks members seen ++
      membersOutlooks others (seen ++ members.flatMap Member.assigned) := by
  induction members generalizing seen with
  | nil =>
    rw [List.flatMap_nil, List.append_nil]
    rfl
  | cons member members ih =>
    rw [List.cons_append, membersOutlooks, membersOutlooks, ih, List.flatMap_cons,
      List.append_assoc, List.append_assoc]

/-- An outlook among members is one in a member, which sees what the members in front of it
assign. -/
theorem mem_membersOutlooks {members : List Member} {o : Outlook}
    (h : o ∈ membersOutlooks members []) : ∃ front member back,
      members = front ++ member :: back ∧
        o ∈ member.outlooks (front.flatMap Member.assigned) := by
  suffices general : ∀ seen, o ∈ membersOutlooks members seen → ∃ front member back,
      members = front ++ member :: back ∧
        o ∈ member.outlooks (seen ++ front.flatMap Member.assigned) from general [] h
  clear h
  induction members with
  | nil => exact fun _ ho => nomatch ho
  | cons member members ih =>
    intro seen ho
    obtain ho | ho := List.mem_append.1 ho
    · refine ⟨[], member, members, rfl, ?_⟩
      rwa [List.flatMap_nil, List.append_nil]
    · obtain ⟨front, other, back, rfl, inside⟩ := ih _ ho
      refine ⟨member :: front, other, back, rfl, ?_⟩
      rwa [List.flatMap_cons, ← List.append_assoc]

theorem Member.seen_subset {member : Member} {seen : List Assignment} {o : Outlook}
    (h : o ∈ member.outlooks seen) : seen ⊆ o.seen := by
  cases member with
  | assignment a => exact (mem_outlooksOf.1 h).2 ▸ List.Subset.refl _
  | rule r =>
    obtain rfl | h := List.mem_cons.1 h
    · exact List.Subset.refl _
    · exact Typesheet.seen_subset.2 r.body seen o h

namespace Sheet
variable {sheet : Sheet}

theorem mem_outlooks_of_split {front back : List Member} {member : Member}
    (split : sheet.members = front ++ member :: back) :
    member.outlooks (front.flatMap Member.assigned) ⊆ sheet.outlooks := by
  intro o ho
  rw [outlooks, split, membersOutlooks_append]
  exact List.mem_append_right _ (List.mem_append_left _ ho)

theorem visible_of_seen {o : Outlook} {a : Assignment} (ho : o ∈ sheet.outlooks)
    (ha : a ∈ o.seen) : sheet.Visible a o.node := by
  obtain ⟨front, member, back, split, inside⟩ := mem_membersOutlooks ho
  have held : o.node ∈ member.nodes :=
    member.outlooks_nodes _ ▸ List.mem_map_of_mem (f := Outlook.node) inside
  have inFront : a ∈ front.flatMap Member.assigned → sheet.Visible a o.node := by
    intro ha
    obtain ⟨other, hother, assigns⟩ := List.mem_flatMap.1 ha
    exact .inFront split (Member.mem_assigned.1 assigns ▸ hother) held
  cases member with
  | assignment b => exact inFront ((mem_outlooksOf.1 inside).2 ▸ ha)
  | rule r =>
    obtain rfl | inside := List.mem_cons.1 inside
    · exact inFront ha
    · obtain ha | visible := Typesheet.visible_of_seen.2 r.body _ o inside ha
      · exact inFront ha
      · refine .inRule ?_ visible
        rw [split]
        exact List.mem_append_right _ List.mem_cons_self

theorem Visible.seen {a : Assignment} {n : Node} (h : sheet.Visible a n) :
    ∃ o ∈ sheet.outlooks, o.node = n ∧ a ∈ o.seen := by
  cases h with
  | @inFront front back member split assigned held =>
    rw [← member.outlooks_nodes (front.flatMap Member.assigned)] at held
    obtain ⟨o, ho, rfl⟩ := List.mem_map.1 held
    refine ⟨o, mem_outlooks_of_split split ho, rfl, Member.seen_subset ho ?_⟩
    exact List.mem_flatMap.2 ⟨_, assigned, Member.mem_assigned.2 rfl⟩
  | @inRule rule held visible =>
    obtain ⟨front, back, split⟩ := List.append_of_mem held
    obtain ⟨o, ho, node, ha⟩ := visible.seen (front.flatMap Member.assigned)
    exact ⟨o, mem_outlooks_of_split split (List.mem_cons_of_mem _ ho), node, ha⟩

/-- Where numbers are distinct, a number belongs to one outlook. -/
theorem outlook_unique (distinct : sheet.ids.Nodup) {o p : Outlook} (ho : o ∈ sheet.outlooks)
    (hp : p ∈ sheet.outlooks) (same : o.node.id = p.node.id) : o = p := by
  rw [ids, ← outlooks_nodes, List.map_map] at distinct
  exact List.inj_on_of_nodup_map distinct ho hp same

/-- **What is seen from a node is what is visible from it.** -/
theorem seen_iff_visible (distinct : sheet.ids.Nodup) {o : Outlook} (ho : o ∈ sheet.outlooks)
    {a : Assignment} : a ∈ o.seen ↔ sheet.Visible a o.node := by
  refine ⟨visible_of_seen ho, fun visible => ?_⟩
  obtain ⟨p, hp, node, ha⟩ := visible.seen
  have same := outlook_unique distinct hp ho (congrArg Node.id node)
  exact same ▸ ha

end Sheet

/-! ### What is seen is defined -/

/-- The names that the frames bind are those of the assignments seen. -/
structure TypeScopes.Shows (s : TypeScopes) (seen : List Assignment) : Prop where
  defined : ∀ name, s.isDefined name = seen.any (·.name == name)
  opened : s.frames ≠ []

namespace TypeScopes.Shows
variable {s : TypeScopes} {seen : List Assignment}

theorem push (h : s.Shows seen) : Shows s.push seen := ⟨h.defined, List.cons_ne_nil _ _⟩

theorem define (h : s.Shows seen) (a : Assignment) (τ : ValueType) :
    ∃ t, s.define a.name τ = .ok t ∧ TypeScopes.Shows t (seen ++ [a]) := by
  obtain ⟨frames⟩ := s
  cases frames with
  | nil => exact absurd rfl h.opened
  | cons f fs =>
    have bound : Scopes.define ⟨f :: fs⟩ a.name τ = .ok ⟨f.define a.name τ :: fs⟩ := rfl
    refine ⟨_, bound, fun name => ?_, List.cons_ne_nil _ _⟩
    rw [List.any_append, ← h.defined, Scopes.isDefined, Scopes.find?_define bound]
    by_cases same : name = a.name
    · simp [same]
    · simp [same, Ne.symm same, Scopes.isDefined]

end TypeScopes.Shows

/-- The finding says that a variable is used where it has not been assigned. -/
def Diagnostic.isUndeclared (d : Diagnostic) : Bool :=
  match d.error.cause with
  | .variableNotDeclared _ => true
  | _ => false

/-- What is to be reported of a reference that does not see its name assigned. -/
def Outlook.undeclared? (o : Outlook) : Option Diagnostic :=
  match o.node with
  | .expr (.reference id name span) =>
    if o.seen.any (·.name == name) then none else some ⟨id, ⟨.variableNotDeclared name, span.start⟩⟩
  | _ => none

/-- The check reports the undeclared variables in some outlooks, and some assignments are
seen behind it. -/
def Check.Oversees (c : Check) (outlooks : List Assignment → List Outlook)
    (assigned : List Assignment) : Prop :=
  ∀ s seen, TypeScopes.Shows s seen →
    (c s).2.filter Diagnostic.isUndeclared = (outlooks seen).filterMap Outlook.undeclared? ∧
      (c s).1.Shows (seen ++ assigned)

theorem Expr.undeclared_findings {s : TypeScopes} {seen : List Assignment} (h : s.Shows seen)
    (e : Expr) : (e.findings s).filter Diagnostic.isUndeclared =
      (outlooksOf e.nodes seen).filterMap Outlook.undeclared? := by
  induction e with
  | literal => rfl
  | reference id name span =>
    unfold Expr.findings Expr.nodes outlooksOf
    rw [h.defined, List.map_singleton]
    cases hidden : seen.any (·.name == name) with
    | true => simp [Outlook.undeclared?, hidden]
    | false => simp [Outlook.undeclared?, hidden, Diagnostic.isUndeclared]
  | operation id op left right span ihl ihr =>
    have own : (((op.complaint (left.type s) (right.type s)).map fun cause =>
        (⟨id, ⟨cause, span.start⟩⟩ : Diagnostic)).toList).filter Diagnostic.isUndeclared = [] := by
      cases complaint : op.complaint (left.type s) (right.type s) with
      | none => rfl
      | some cause => obtain ⟨_, rfl⟩ | rfl | rfl := Operator.complaint_cause complaint <;> rfl
    unfold Expr.findings Expr.nodes outlooksOf
    rw [List.filter_append, own, List.nil_append, List.filter_append, ihl, ihr,
      List.map_cons, List.filterMap_cons_none rfl, List.map_append, List.filterMap_append]
    rfl

theorem Declaration.undeclared_findings {s : TypeScopes} {seen : List Assignment}
    (h : s.Shows seen) (d : Declaration) : (d.findings s).filter Diagnostic.isUndeclared =
      (outlooksOf d.nodes seen).filterMap Outlook.undeclared? := by
  have value := Expr.undeclared_findings h d.value
  unfold Declaration.findings Declaration.nodes outlooksOf
  rw [List.filter_append, value, List.map_cons, List.filterMap_cons_none rfl]
  refine List.append_left_eq_self.2 ?_
  split
  · rfl
  · split <;> rfl

theorem conditionFindings_undeclared {s : TypeScopes} {seen : List Assignment} (h : s.Shows seen)
    (clause : IfClause Item) :
    (conditionFindings clause.id clause.condition clause.span s).filter Diagnostic.isUndeclared =
      (outlooksOf (.ifClause clause :: clause.condition.nodes) seen).filterMap
        Outlook.undeclared? := by
  have value := Expr.undeclared_findings h clause.condition
  unfold conditionFindings outlooksOf
  rw [List.filter_append, value, List.map_cons, List.filterMap_cons_none rfl]
  refine List.append_left_eq_self.2 ?_
  split <;> rfl

theorem Assignment.check_oversees (a : Assignment) :
    Check.Oversees a.check (outlooksOf a.nodes) [a] := by
  intro s seen h
  obtain ⟨t, bound, shows⟩ := h.define a (a.value.type s)
  have value := Expr.undeclared_findings h a.value
  unfold Assignment.check Assignment.nodes outlooksOf
  rw [bound]
  exact ⟨value, shows⟩

/-- **In a body, the checker reports the references that do not see their name assigned.** -/
theorem checkBody_undeclared :
    (∀ item : Item, Check.Oversees item.check item.outlooks item.assigned) ∧
    ∀ items : List Item,
      Check.Oversees (checkBody items) (bodyOutlooks items) (items.flatMap Item.assigned) := by
  apply Item.body_induction
  case declaration =>
    intro d s seen h
    exact ⟨Declaration.undeclared_findings h d, (List.append_nil seen).symm ▸ h⟩
  case assignment => exact Assignment.check_oversees
  case ifClause =>
    intro clause ih s seen h
    have elseNodes : (outlooksOf clause.elseNodes seen).filterMap Outlook.undeclared? = [] := by
      unfold IfClause.elseNodes
      cases clause.otherwise <;> rfl
    rw [Item.check_ifClause, Item.outlooks_ifClause]
    refine ⟨?_, (List.append_nil seen).symm ▸ h⟩
    rw [List.filter_append, List.filter_append, conditionFindings_undeclared h,
      (ih true _ _ h.push).1, (ih false _ _ h.push).1, List.filterMap_append,
      List.filterMap_append, List.filterMap_append, elseNodes, List.nil_append]
  case nil =>
    intro s seen h
    rw [List.flatMap_nil, List.append_nil]
    exact ⟨rfl, h⟩
  case cons =>
    intro item items front back s seen h
    obtain ⟨first, shows⟩ := front s seen h
    obtain ⟨rest, shows⟩ := back _ _ shows
    rw [checkBody_cons, bodyOutlooks, List.filter_append, List.filterMap_append, first, rest,
      List.flatMap_cons, ← List.append_assoc]
    exact ⟨rfl, shows⟩

theorem Member.check_oversees (member : Member) :
    Check.Oversees member.check member.outlooks member.assigned := by
  cases member with
  | assignment a => exact a.check_oversees
  | rule r =>
    intro s seen h
    rw [Member.check, r.check_eq]
    exact ⟨(checkBody_undeclared.2 r.body _ _ h.push).1, (List.append_nil seen).symm ▸ h⟩

theorem checkMembers_undeclared (members : List Member) :
    Check.Oversees (checkMembers members) (membersOutlooks members)
      (members.flatMap Member.assigned) := by
  induction members with
  | nil =>
    intro s seen h
    rw [List.flatMap_nil, List.append_nil]
    exact ⟨rfl, h⟩
  | cons member members ih =>
    intro s seen h
    obtain ⟨first, shows⟩ := member.check_oversees s seen h
    obtain ⟨rest, shows⟩ := ih _ _ shows
    rw [checkMembers_cons, membersOutlooks, List.filter_append, List.filterMap_append, first,
      rest, List.flatMap_cons, ← List.append_assoc]
    exact ⟨rfl, shows⟩

/-- The checker reports the references that do not see their name assigned. -/
theorem Sheet.undeclared_findings (sheet : Sheet) :
    sheet.findings.filter Diagnostic.isUndeclared =
      sheet.outlooks.filterMap Outlook.undeclared? := by
  have outermost : TypeScopes.Shows Scopes.empty.push [] := ⟨fun _ => rfl, List.cons_ne_nil _ _⟩
  rw [findings_eq, (checkMembers_undeclared sheet.members _ _ outermost).1]
  rfl

/-! ### Not from its own value -/

theorem VisibleIn.not_own {items : List Item} {a : Assignment} {n : Node} (h : VisibleIn items a n)
    (distinct : (bodyNodes items).Nodup) : n ∉ a.value.nodes := by
  induction h with
  | @inFront items front back item a n split assigned held =>
    subst split
    rw [bodyNodes_append] at distinct
    intro own
    have front : n ∈ bodyNodes front :=
      (Item.nodes_sublist assigned).subset (List.mem_cons_of_mem _ own)
    exact List.disjoint_of_nodup_append distinct front (List.mem_append_left _ held)
  | @inBranch items clause b a n held visible ih =>
    exact ih (distinct.sublist ((clause.branch_nodes_sublist b).trans (Item.nodes_sublist held)))

theorem Sheet.Visible.not_own {sheet : Sheet} {a : Assignment} {n : Node} (h : sheet.Visible a n)
    (distinct : sheet.nodes.Nodup) : n ∉ a.value.nodes := by
  cases h with
  | @inFront front back member split assigned held =>
    rw [nodes, split, List.flatMap_append] at distinct
    intro own
    have front : n ∈ front.flatMap Member.nodes :=
      List.mem_flatMap.2 ⟨_, assigned, List.mem_cons_of_mem _ own⟩
    exact List.disjoint_of_nodup_append distinct front (List.mem_append_left _ held)
  | @inRule rule held visible =>
    have rule : (Member.nodes (.rule rule)).Nodup :=
      distinct.sublist (Member.nodes_sublist held)
    exact visible.not_own (List.nodup_cons.1 rule).2

/-! ### Main result -/

theorem Outlook.undeclared?_eq_some_iff {o : Outlook} {d : Diagnostic} :
    o.undeclared? = some d ↔ ∃ id name span, o.node = .expr (.reference id name span) ∧
      (∀ a ∈ o.seen, a.name ≠ name) ∧ d = ⟨id, ⟨.variableNotDeclared name, span.start⟩⟩ := by
  obtain ⟨node, seen⟩ := o
  unfold undeclared?
  split
  · rename_i id name span node
    cases node
    by_cases assigned : seen.any (·.name == name) = true
    · rw [if_pos assigned]
      constructor
      · exact fun h => nomatch h
      · rintro ⟨_, _, _, ⟨⟩, unassigned, -⟩
        obtain ⟨a, ha, same⟩ := List.any_eq_true.1 assigned
        exact absurd (beq_iff_eq.1 same) (unassigned a ha)
    · rw [if_neg assigned]
      have unassigned : ∀ a ∈ seen, a.name ≠ name := fun a ha same =>
        assigned (List.any_eq_true.2 ⟨a, ha, beq_iff_eq.2 same⟩)
      constructor
      · exact fun h => ⟨id, name, span, rfl, unassigned, (Option.some.inj h).symm⟩
      · rintro ⟨_, _, _, ⟨⟩, -, rfl⟩
        rfl
  · rename_i other
    constructor
    · exact fun h => nomatch h
    · rintro ⟨id, name, span, node, -⟩
      exact absurd node (other id name span)

/-- **A reference is reported as undeclared just when no assignment to its name is visible
from it.** Whether the value assigned is any good makes no difference, and no assignment is
visible from its own value. -/
theorem undeclared_iff {sheet : Sheet} (distinct : sheet.ids.Nodup) {id : NodeId} {name : String}
    {span : Span} (held : .expr (.reference id name span) ∈ sheet.nodes) :
    ((∃ d ∈ sheet.findings, d.node = id ∧
        ∃ missing, d.error.cause = .variableNotDeclared missing) ↔
      ∀ a, sheet.Visible a (.expr (.reference id name span)) → a.name ≠ name) ∧
    ∀ a, sheet.Visible a (.expr (.reference id name span)) →
      .expr (.reference id name span) ∉ a.value.nodes := by
  refine ⟨?_, fun a visible => visible.not_own distinct.of_map⟩
  rw [← sheet.outlooks_nodes] at held
  obtain ⟨⟨_, seen⟩, ho, rfl⟩ := List.mem_map.1 held
  simp only [← Sheet.seen_iff_visible distinct ho]
  constructor
  · rintro ⟨d, hd, own, missing, cause⟩
    have undeclared : d ∈ sheet.findings.filter Diagnostic.isUndeclared := by
      refine List.mem_filter.2 ⟨hd, ?_⟩
      rw [Diagnostic.isUndeclared, cause]
    rw [sheet.undeclared_findings] at undeclared
    obtain ⟨p, hp, report⟩ := List.mem_filterMap.1 undeclared
    obtain ⟨_, _, _, node, unassigned, rfl⟩ := Outlook.undeclared?_eq_some_iff.1 report
    have same := Sheet.outlook_unique distinct hp ho ((congrArg Node.id node).trans own)
    subst same
    cases node
    exact unassigned
  · intro unassigned
    have report : Outlook.undeclared? ⟨.expr (.reference id name span), seen⟩ =
        some ⟨id, ⟨.variableNotDeclared name, span.start⟩⟩ :=
      Outlook.undeclared?_eq_some_iff.2 ⟨id, name, span, rfl, unassigned, rfl⟩
    have found := List.mem_filterMap.2 ⟨_, ho, report⟩
    rw [← sheet.undeclared_findings] at found
    exact ⟨_, (List.mem_filter.1 found).1, rfl, name, rfl⟩

/-- A width in one branch that the other branch asks for, and a height computed from itself
and that width. -/
def branchesApart : Sheet :=
  ⟨[.rule ⟨1, [.tag "p"],
    [.ifClause ⟨2, .literal 3 (.bool true) .nowhere,
        [.assignment ⟨4, "Width", .literal 5 (.number .pixel 1) .nowhere, .nowhere⟩],
        some ⟨6, [.declaration ⟨7, "width", .reference 8 "Width" .nowhere, .nowhere⟩], .nowhere⟩,
        .nowhere⟩,
      .assignment ⟨9, "Height", .operation 10 .add (.reference 11 "Height" .nowhere)
        (.reference 12 "Width" .nowhere) .nowhere, .nowhere⟩,
      .declaration ⟨13, "height", .reference 14 "Height" .nowhere, .nowhere⟩], .nowhere⟩], .nowhere⟩

/-- The width is not visible in the other branch. The height is, behind its assignment, though
its value is in error. -/
theorem undeclared_iff_apart :
    branchesApart.ids.Nodup ∧
    (∀ a, branchesApart.Visible a (.expr (.reference 8 "Width" .nowhere)) → a.name ≠ "Width") ∧
    (∀ a, branchesApart.Visible a (.expr (.reference 11 "Height" .nowhere)) →
      a.name ≠ "Height") ∧
    ¬∃ d ∈ branchesApart.findings, d.node = 14 ∧
      ∃ missing, d.error.cause = .variableNotDeclared missing := by
  have distinct : branchesApart.ids.Nodup := by decide
  have reported : branchesApart.findings = [⟨8, ⟨.variableNotDeclared "Width", .nowhere⟩⟩,
      ⟨11, ⟨.variableNotDeclared "Height", .nowhere⟩⟩,
      ⟨12, ⟨.variableNotDeclared "Width", .nowhere⟩⟩] := by decide +kernel
  have width : .expr (.reference 8 "Width" .nowhere) ∈ branchesApart.nodes :=
    List.mem_of_getElem? (show branchesApart.nodes[7]? = _ from rfl)
  have height : .expr (.reference 11 "Height" .nowhere) ∈ branchesApart.nodes :=
    List.mem_of_getElem? (show branchesApart.nodes[10]? = _ from rfl)
  have behind : .expr (.reference 14 "Height" .nowhere) ∈ branchesApart.nodes :=
    List.mem_of_getElem? (show branchesApart.nodes[13]? = _ from rfl)
  refine ⟨distinct, (undeclared_iff distinct width).1.1 ?_,
    (undeclared_iff distinct height).1.1 ?_, fun found => ?_⟩
  · rw [reported]
    exact ⟨_, List.mem_cons_self, rfl, _, rfl⟩
  · rw [reported]
    exact ⟨_, List.mem_cons_of_mem _ List.mem_cons_self, rfl, _, rfl⟩
  · refine (undeclared_iff distinct behind).1.1 found ⟨9, "Height", .operation 10 .add
      (.reference 11 "Height" .nowhere) (.reference 12 "Width" .nowhere) .nowhere, .nowhere⟩ ?_ rfl
    refine .inRule List.mem_cons_self (@VisibleIn.inFront _ [_, _] _ _ _ _ rfl ?_ ?_)
    · exact List.mem_cons_of_mem _ List.mem_cons_self
    · exact List.mem_cons_of_mem _ List.mem_cons_self

end Typesheet
