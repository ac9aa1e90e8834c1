import Typesheet.Proofs.Scoping

/-! The nodes of a stylesheet.

Whatever has a number is a node: rules, their items, else-clauses, and the expressions with
all their operands. `Sheet.nodes` lists them in the order of the text, each in front of the
nodes in it.

The same list seen node by node: a node has other nodes immediately in it
(`Node.children`), and the list is each node in front of those of its children
(`Node.nodes_eq`). -/
namespace Typesheet

/-- A part of a stylesheet that has a number. -/
inductive Node where
  | expr (e : Expr)
  | declaration (declaration : Declaration)
  | assignment (assignment : Assignment)
  | ifClause (clause : IfClause Item)
  | elseClause (clause : ElseClause Item)
  | rule (rule : Rule)

/-- The number of a node. -/
def Node.id : Node → NodeId
  | expr e => e.id
  | declaration d => d.id
  | assignment a => a.id
  | ifClause clause => clause.id
  | elseClause clause => clause.id
  | rule r => r.id

/-- An expression and its operands. -/
def Expr.nodes : Expr → List Node
  | literal id value span => [.expr (.literal id value span)]
  | reference id name span => [.expr (.reference id name span)]
  | operation id op left right span =>
    .expr (.operation id op left right span) :: (left.nodes ++ right.nodes)

def Declaration.nodes (d : Declaration) : List Node := .declaration d :: d.value.nodes

def Assignment.nodes (a : Assignment) : List Node := .assignment a :: a.value.nodes

mutual

/-- The nodes of an item. -/
def Item.nodes : Item → List Node
  | .declaration d => d.nodes
  | .assignment a => a.nodes
  | .ifClause ⟨id, condition, body, otherwise, span⟩ =>
    .ifClause ⟨id, condition, body, otherwise, span⟩ ::
      (condition.nodes ++ (bodyNodes body ++
        match otherwise with
        | some ⟨id, body, span⟩ => .elseClause ⟨id, body, span⟩ :: bodyNodes body
        | none => []))

/-- The nodes of a body. -/
def bodyNodes : List Item → List Node
  | [] => []
  | item :: items => item.nodes ++ bodyNodes items

end

/-- The nodes of a member. -/
def Member.nodes : Member → List Node
  | .assignment a => a.nodes
  | .rule r => .rule r :: bodyNodes r.body

namespace Sheet

/-- The nodes of a stylesheet. -/
def nodes (sheet : Sheet) : List Node := sheet.members.flatMap Member.nodes

/-- The numbers in a stylesheet. -/
def ids (sheet : Sheet) : List NodeId := sheet.nodes.map Node.id

end Sheet

/-- The node of what applies otherwise, if anything does. -/
def IfClause.elseNodes (clause : IfClause Item) : List Node :=
  (clause.otherwise.map Node.elseClause).toList

theorem Item.nodes_ifClause (clause : IfClause Item) :
    (Item.ifClause clause).nodes = .ifClause clause :: (clause.condition.nodes ++
      (bodyNodes (clause.branch true) ++
        (clause.elseNodes ++ bodyNodes (clause.branch false)))) := by
  obtain ⟨id, condition, body, otherwise, span⟩ := clause
  unfold Item.nodes
  cases otherwise <;> rfl

theorem bodyNodes_eq_flatMap (items : List Item) : bodyNodes items = items.flatMap Item.nodes := by
  induction items with
  | nil => rfl
  | cons item items ih => rw [bodyNodes, ih, List.flatMap_cons]

theorem bodyNodes_append (items others : List Item) :
    bodyNodes (items ++ others) = bodyNodes items ++ bodyNodes others := by
  simp only [bodyNodes_eq_flatMap, List.flatMap_append]

theorem Item.nodes_sublist {item : Item} {items : List Item} (h : item ∈ items) :
    item.nodes.Sublist (bodyNodes items) := by
  rw [bodyNodes_eq_flatMap]
  exact List.sublist_flatten_of_mem (List.mem_map_of_mem h)

theorem Member.nodes_sublist {member : Member} {sheet : Sheet} (h : member ∈ sheet.members) :
    member.nodes.Sublist sheet.nodes :=
  List.sublist_flatten_of_mem (List.mem_map_of_mem h)

/-- The nodes of a branch are nodes of the clause. -/
theorem IfClause.branch_nodes_sublist (clause : IfClause Item) (b : Bool) :
    (bodyNodes (clause.branch b)).Sublist (Item.ifClause clause).nodes := by
  rw [Item.nodes_ifClause]
  refine .cons _ (.trans ?_ (List.sublist_append_right _ _))
  cases b with
  | true => exact List.sublist_append_left _ _
  | false =>
    exact .trans (List.sublist_append_right _ _) (List.sublist_append_right _ _)

/-! ### Nodes in nodes -/

/-- The operands of an operation. -/
def Expr.operands : Expr → List Expr
  | operation _ _ left right _ => [left, right]
  | _ => []

/-- The node that an item is. -/
def Item.node : Item → Node
  | declaration d => .declaration d
  | assignment a => .assignment a
  | ifClause clause => .ifClause clause

/-- The node that a member is. -/
def Member.node : Member → Node
  | assignment a => .assignment a
  | rule r => .rule r

namespace Node

/-- The text that a node was read from. -/
def span : Node → Span
  | expr e => e.span
  | declaration d => d.span
  | assignment a => a.span
  | ifClause clause => clause.span
  | elseClause clause => clause.span
  | rule r => r.span

/-- The nodes immediately in a node, in the order of the text. -/
def children : Node → List Node
  | expr e => e.operands.map expr
  | declaration d => [.expr d.value]
  | assignment a => [.expr a.value]
  | ifClause clause =>
    .expr clause.condition :: (clause.body.map Item.node ++ clause.elseNodes)
  | elseClause clause => clause.body.map Item.node
  | rule r => r.body.map Item.node

/-- A node and all nodes in it. -/
def nodes : Node → List Node
  | expr e => e.nodes
  | declaration d => d.nodes
  | assignment a => a.nodes
  | ifClause clause => (Item.ifClause clause).nodes
  | elseClause clause => .elseClause clause :: bodyNodes clause.body
  | rule r => .rule r :: bodyNodes r.body

end Node

theorem Item.nodes_node (item : Item) : item.node.nodes = item.nodes := by
  cases item with
  | declaration d => rfl
  | assignment a => rfl
  | ifClause clause => rfl

theorem Member.nodes_node (member : Member) : member.node.nodes = member.nodes := by
  cases member with
  | assignment a => rfl
  | rule r => rfl

theorem Member.node_ne_expr (member : Member) (e : Expr) : member.node ≠ .expr e := by
  cases member with
  | assignment a => exact Node.noConfusion
  | rule r => exact Node.noConfusion

theorem bodyNodes_eq_flatMap_node (items : List Item) :
    bodyNodes items = (items.map Item.node).flatMap Node.nodes := by
  rw [bodyNodes_eq_flatMap, List.flatMap_map]
  simp only [Item.nodes_node]

/-- A node stands in front of the nodes of its children. -/
theorem Node.nodes_eq (n : Node) : n.nodes = n :: n.children.flatMap Node.nodes := by
  cases n with
  | expr e =>
    cases e with
    | literal => rfl
    | reference => rfl
    | operation id op left right span =>
      show _ :: (left.nodes ++ right.nodes) = _ :: (left.nodes ++ (right.nodes ++ []))
      rw [List.append_nil]
  | declaration d => exact congrArg (_ :: ·) (List.append_nil _).symm
  | assignment a => exact congrArg (_ :: ·) (List.append_nil _).symm
  | ifClause clause =>
    rw [nodes, Item.nodes_ifClause, children, List.flatMap_cons, List.flatMap_append,
      ← bodyNodes_eq_flatMap_node]
    obtain ⟨id, condition, body, otherwise, span⟩ := clause
    cases otherwise with
    | none => rfl
    | some other =>
      show _ = _ :: (condition.nodes ++ (bodyNodes body ++ (Node.nodes (.elseClause other) ++ [])))
      rw [List.append_nil]
      rfl
  | elseClause clause => rw [nodes, children, bodyNodes_eq_flatMap_node]
  | rule r => rw [nodes, children, bodyNodes_eq_flatMap_node]

theorem Node.mem_nodes (n : Node) : n ∈ n.nodes := by
  rw [n.nodes_eq]
  exact List.mem_cons_self

/-- The nodes of a stylesheet are those of its members. -/
theorem Sheet.nodes_eq_flatMap_node (sheet : Sheet) :
    sheet.nodes = (sheet.members.map Member.node).flatMap Node.nodes := by
  rw [nodes, List.flatMap_map]
  simp only [Member.nodes_node]

end Typesheet
