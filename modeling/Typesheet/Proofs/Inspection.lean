import Mathlib.Data.List.Flatten
import Mathlib.Data.List.Nodup
import Typesheet.Proofs.Nesting
import Typesheet.Proofs.Numbering
import Typesheet.Proofs.Visits

/-! What the checker reports of a node.

The checker comes by every place of a stylesheet (`Site`) once, each time in scopes of its own
(`Inspection`), and what it finds in all is what it finds there, one place after the other
(`Check.Inspects`). At one place it goes from the node to what is in it, and reports each node
at most once. So the places that it reports are some of those where nodes start, in the order
of the nodes (`Sheet.places_sublist`).

For a stylesheet that is read from a text the numbers of nodes are distinct and the nodes are
listed in the order in which they start, hence so are the reports (`Sheet.findings_of_ofText`).
And what is reported of the nodes at a place was found there (`Sheet.findings_inspected`). -/
namespace Typesheet

/-! ### Places -/

/-- The place of the checker that a node is, if it is one. -/
def Node.site? : Node → Option Site
  | declaration d => some (.declaration d)
  | assignment a => some (.assignment a)
  | ifClause clause => some (.condition clause)
  | _ => none

/-- The nodes that are looked at in a place: those of the expression, behind the node itself
where that one can be reported too. -/
def Site.nodes : Site → List Node
  | declaration d => d.nodes
  | assignment a => a.value.nodes
  | condition clause => .ifClause clause :: clause.condition.nodes

theorem Site.value_nodes_sublist (site : Site) : site.value.nodes.Sublist site.nodes := by
  cases site with
  | declaration d => exact List.sublist_cons_self _ _
  | assignment a => exact .refl _
  | condition clause => exact List.sublist_cons_self _ _

theorem Expr.sites_nodes (e : Expr) : e.nodes.filterMap Node.site? = [] := by
  induction e with
  | literal => rfl
  | reference => rfl
  | operation id op left right span ihl ihr =>
    rw [nodes, List.filterMap_cons_none rfl, List.filterMap_append, ihl, ihr, List.append_nil]

theorem Declaration.sites_nodes (d : Declaration) :
    d.nodes.filterMap Node.site? = [.declaration d] := by
  rw [nodes, List.filterMap_cons_some (f := Node.site?) rfl, Expr.sites_nodes]

theorem Assignment.sites_nodes (a : Assignment) :
    a.nodes.filterMap Node.site? = [.assignment a] := by
  rw [nodes, List.filterMap_cons_some (f := Node.site?) rfl, Expr.sites_nodes]

theorem Item.sites_ifClause (clause : IfClause Item) :
    (Item.ifClause clause).nodes.filterMap Node.site? =
      .condition clause :: ((bodyNodes (clause.branch true)).filterMap Node.site? ++
        (bodyNodes (clause.branch false)).filterMap Node.site?) := by
  have elseNodes : clause.elseNodes.filterMap Node.site? = [] := by
    unfold IfClause.elseNodes
    cases clause.otherwise <;> rfl
  rw [nodes_ifClause, List.filterMap_cons_some (f := Node.site?) rfl]
  simp only [List.filterMap_append, Expr.sites_nodes, elseNodes, List.nil_append]

/-- The nodes that are looked at are among those of a body, in their order. -/
theorem bodySites_nodes :
    (∀ item : Item, ((item.nodes.filterMap Node.site?).flatMap Site.nodes).Sublist item.nodes) ∧
    ∀ items : List Item,
      (((bodyNodes items).filterMap Node.site?).flatMap Site.nodes).Sublist (bodyNodes items) := by
  apply Item.body_induction
  case declaration =>
    intro d
    rw [Item.nodes, d.sites_nodes, List.flatMap_singleton]
    exact .refl _
  case assignment =>
    intro a
    rw [Item.nodes, a.sites_nodes, List.flatMap_singleton]
    exact List.sublist_cons_self _ _
  case ifClause =>
    intro clause ih
    rw [Item.sites_ifClause, Item.nodes_ifClause, List.flatMap_cons, List.flatMap_append]
    have branches := (ih true).append ((ih false).trans (List.sublist_append_right
      clause.elseNodes _))
    exact ((List.Sublist.refl clause.condition.nodes).append branches).cons_cons _
  case nil => exact .slnil
  case cons =>
    intro item items front back
    rw [bodyNodes, List.filterMap_append, List.flatMap_append]
    exact front.append back

namespace Sheet

/-- The nodes in the members of a stylesheet, without the members themselves. -/
def inner (sheet : Sheet) : List Node :=
  sheet.members.flatMap fun member => member.node.children.flatMap Node.nodes

theorem inner_sublist (sheet : Sheet) : sheet.inner.Sublist sheet.nodes := by
  refine List.Sublist.flatMap_right _ fun member _ => ?_
  rw [← member.nodes_node, Node.nodes_eq]
  exact List.sublist_cons_self _ _

theorem sites_nodes (sheet : Sheet) :
    ((sheet.nodes.filterMap Node.site?).flatMap Site.nodes).Sublist sheet.inner := by
  rw [nodes, List.filterMap_flatMap, List.flatMap_assoc]
  refine List.Sublist.flatMap_right _ fun member _ => ?_
  cases member with
  | assignment a =>
    rw [Member.nodes, a.sites_nodes, List.flatMap_singleton]
    exact List.sublist_append_left _ _
  | rule r =>
    rw [Member.nodes, List.filterMap_cons_none rfl]
    exact bodyNodes_eq_flatMap_node r.body ▸ bodySites_nodes.2 r.body

theorem site_nodes_subset {sheet : Sheet} {site : Site}
    (h : site ∈ sheet.nodes.filterMap Node.site?) : site.nodes ⊆ sheet.nodes :=
  fun _ hn => (sheet.sites_nodes.trans sheet.inner_sublist).subset
    (List.mem_flatMap.2 ⟨site, h, hn⟩)

end Sheet

/-! ### What is found in a place -/

/-- The number and the start of a node. -/
def Node.place (n : Node) : NodeId × Position := (n.id, n.span.start)

/-- The number of the node that is reported, and the place where it is reported. -/
def Diagnostic.place (d : Diagnostic) : NodeId × Position := (d.node, d.error.position)

theorem Expr.findings_places (s : TypeScopes) (e : Expr) :
    ((e.findings s).map Diagnostic.place).Sublist (e.nodes.map Node.place) := by
  induction e with
  | literal => exact List.nil_sublist _
  | reference id name span =>
    unfold findings
    split
    · exact List.nil_sublist _
    · exact .refl _
  | operation id op left right span ihl ihr =>
    have operands : (((left.findings s) ++ (right.findings s)).map Diagnostic.place).Sublist
        ((left.nodes ++ right.nodes).map Node.place) := by
      rw [List.map_append, List.map_append]
      exact ihl.append ihr
    rw [findings, nodes]
    cases op.complaint (left.type s) (right.type s) with
    | none => exact operands.cons _
    | some cause => exact operands.cons_cons _

/-- What is found in a place is what is found in the expression there, perhaps behind a finding
about the place itself. -/
theorem Site.findings_split (s : TypeScopes) (site : Site) :
    site.findings s = site.value.findings s ∨
      ∃ n cause, site.nodes = n :: site.value.nodes ∧ (∀ e, n ≠ .expr e) ∧
        site.findings s = ⟨n.id, ⟨cause, n.span.start⟩⟩ :: site.value.findings s := by
  cases site with
  | declaration d =>
    have own : ∃ own, d.findings s = own ++ d.value.findings s ∧
        (own = [] ∨ ∃ cause, own = [⟨d.id, ⟨cause, d.span.start⟩⟩]) := by
      refine ⟨_, rfl, ?_⟩
      split
      · exact .inl rfl
      · split
        · exact .inl rfl
        · exact .inr ⟨_, rfl⟩
    obtain ⟨own, found, rfl | ⟨cause, rfl⟩⟩ := own
    · exact .inl found
    · exact .inr ⟨.declaration d, cause, rfl, nofun, found⟩
  | assignment a => exact .inl rfl
  | condition clause =>
    have own : ∃ own, (Site.condition clause).findings s = own ++ clause.condition.findings s ∧
        (own = [] ∨ ∃ cause, own = [⟨clause.id, ⟨cause, clause.span.start⟩⟩]) := by
      refine ⟨_, rfl, ?_⟩
      split
      · exact .inl rfl
      · exact .inr ⟨_, rfl⟩
    obtain ⟨own, found, rfl | ⟨cause, rfl⟩⟩ := own
    · exact .inl found
    · exact .inr ⟨.ifClause clause, cause, rfl, nofun, found⟩

/-- In a place the checker reports nodes in their order, each at most once and at its start. -/
theorem Site.findings_places (s : TypeScopes) (site : Site) :
    ((site.findings s).map Diagnostic.place).Sublist (site.nodes.map Node.place) := by
  have value := Expr.findings_places s site.value
  obtain found | ⟨n, cause, nodes, -, found⟩ := site.findings_split s
  · rw [found]
    exact value.trans (site.value_nodes_sublist.map Node.place)
  · rw [found, nodes]
    exact value.cons_cons _

/-! ### The checker comes by every place -/

/-- A place that the checker comes to, in the scopes that are in force. -/
structure Inspection where
  scopes : TypeScopes
  site : Site

namespace Inspection

/-- What the checker finds at the place. -/
def findings (i : Inspection) : List Diagnostic := i.site.findings i.scopes

theorem findings_places {inspections : List Inspection} :
    ((inspections.flatMap findings).map Diagnostic.place).Sublist
      (((inspections.map site).flatMap Site.nodes).map Node.place) := by
  rw [List.map_flatMap, List.flatMap_map, List.map_flatMap]
  exact List.Sublist.flatMap_right _ fun i _ => i.site.findings_places i.scopes

/-- What is found at the place is about a node that is looked at there. -/
theorem node_mem {i : Inspection} {d : Diagnostic} (hd : d ∈ i.findings) :
    d.node ∈ i.site.nodes.map Node.id := by
  have place := (i.site.findings_places i.scopes).subset (List.mem_map_of_mem hd)
  obtain ⟨n, hn, place⟩ := List.mem_map.1 place
  exact List.mem_map.2 ⟨n, hn, (Prod.mk.inj place).1⟩

end Inspection

/-- The check comes by the places among some nodes, in order, and reports what it finds there. -/
def Check.Inspects (c : Check) (nodes : List Node) : Prop :=
  ∀ f fs, ∃ inspections : List Inspection,
    inspections.map Inspection.site = nodes.filterMap Node.site? ∧
      (c ⟨f :: fs⟩).2 = inspections.flatMap Inspection.findings

namespace Check.Inspects
variable {c d : Check} {nodes others : List Node}

theorem sequence (hc : Inspects c nodes) (tidy : Local c) (hd : Inspects d others) :
    Inspects (Check.sequence c d) (nodes ++ others) := by
  intro f fs
  obtain ⟨g, hg⟩ := tidy f fs
  obtain ⟨front, sites, found⟩ := hc f fs
  obtain ⟨back, sites', found'⟩ := hd g fs
  refine ⟨front ++ back, ?_, ?_⟩
  · rw [List.map_append, sites, sites', List.filterMap_append]
  · show (c ⟨f :: fs⟩).2 ++ (d (c ⟨f :: fs⟩).1).2 = _
    rw [hg, found, found', List.flatMap_append]

/-- One place, with what is found in it. -/
theorem one {site : Site} (sites : nodes.filterMap Node.site? = [site])
    (found : ∀ f fs, (c ⟨f :: fs⟩).2 = site.findings ⟨f :: fs⟩) : Inspects c nodes := by
  refine fun f fs => ⟨[⟨⟨f :: fs⟩, site⟩], sites.symm, ?_⟩
  rw [found, List.flatMap_singleton]
  rfl

end Check.Inspects

theorem Assignment.check_inspects (a : Assignment) : Check.Inspects a.check a.nodes :=
  .one a.sites_nodes fun f fs => by rw [a.check_eq]; rfl

/-- **The checker comes by every place in a body.** -/
theorem checkBody_inspects : (∀ item : Item, Check.Inspects item.check item.nodes) ∧
    ∀ items, Check.Inspects (checkBody items) (bodyNodes items) := by
  apply Item.body_induction
  case declaration => exact fun d => .one d.sites_nodes fun _ _ => rfl
  case assignment => exact Assignment.check_inspects
  case ifClause =>
    intro clause ih f fs
    obtain ⟨front, sites, found⟩ := ih true .empty (f :: fs)
    obtain ⟨back, sites', found'⟩ := ih false .empty (f :: fs)
    refine ⟨⟨⟨f :: fs⟩, .condition clause⟩ :: (front ++ back), ?_, ?_⟩
    · rw [List.map_cons, List.map_append, sites, sites', Item.sites_ifClause]
    · rw [Item.check_ifClause, List.flatMap_cons, List.flatMap_append, ← found, ← found']
      rfl
  case nil => exact fun _ _ => ⟨[], rfl, rfl⟩
  case cons =>
    intro item items front back
    exact front.sequence (checkBody_local.1 item) back

theorem Member.check_inspects (member : Member) : Check.Inspects member.check member.nodes := by
  cases member with
  | assignment a => exact a.check_inspects
  | rule r =>
    intro f fs
    obtain ⟨inspections, sites, found⟩ := checkBody_inspects.2 r.body .empty (f :: fs)
    refine ⟨inspections, sites, ?_⟩
    rw [Member.check, r.check_eq, ← found]
    rfl

theorem checkMembers_inspects (members : List Member) :
    Check.Inspects (checkMembers members) (members.flatMap Member.nodes) := by
  induction members with
  | nil => exact fun _ _ => ⟨[], rfl, rfl⟩
  | cons member members ih => exact member.check_inspects.sequence member.check_local ih

namespace Sheet

/-- What the checker finds in a stylesheet is what it finds in the places of it. -/
theorem exists_inspections (sheet : Sheet) : ∃ inspections : List Inspection,
    inspections.map Inspection.site = sheet.nodes.filterMap Node.site? ∧
      sheet.findings = inspections.flatMap Inspection.findings := by
  rw [findings_eq]
  exact checkMembers_inspects sheet.members .empty []

/-- **The checker reports nodes in the order of the text**, each at most once and at its
start. -/
theorem places_sublist (sheet : Sheet) :
    (sheet.findings.map Diagnostic.place).Sublist (sheet.inner.map Node.place) := by
  obtain ⟨inspections, sites, found⟩ := sheet.exists_inspections
  rw [found]
  refine Inspection.findings_places.trans ?_
  rw [sites]
  exact sheet.sites_nodes.map Node.place

/-- What is reported is a node in a member, at its start. -/
theorem node_of_finding {sheet : Sheet} {d : Diagnostic} (hd : d ∈ sheet.findings) :
    ∃ n ∈ sheet.inner, n.id = d.node ∧ n.span.start = d.error.position := by
  have place := sheet.places_sublist.subset (List.mem_map_of_mem hd)
  obtain ⟨n, hn, place⟩ := List.mem_map.1 place
  exact ⟨n, hn, Prod.mk.inj place⟩

/-- Where numbers are distinct, a number belongs to one node. -/
theorem node_unique {sheet : Sheet} (distinct : sheet.ids.Nodup) {m n : Node}
    (hm : m ∈ sheet.nodes) (hn : n ∈ sheet.nodes) (same : m.id = n.id) : m = n :=
  List.inj_on_of_nodup_map distinct hm hn same

/-- What the checker finds at the nodes that it looks at in a place, it finds in that place. -/
theorem findings_inspected (sheet : Sheet) (distinct : sheet.ids.Nodup) :
    ∃ inspections : List Inspection,
      inspections.map Inspection.site = sheet.nodes.filterMap Node.site? ∧
        ∀ i ∈ inspections, ∀ d,
          d ∈ i.findings ↔ d ∈ sheet.findings ∧ d.node ∈ i.site.nodes.map Node.id := by
  obtain ⟨inspections, sites, found⟩ := sheet.exists_inspections
  have apart : (inspections.flatMap fun i => i.site.nodes.map Node.id).Nodup := by
    have nodes := (sheet.sites_nodes.trans sheet.inner_sublist).map Node.id
    rw [← sites, List.flatMap_map, List.map_flatMap] at nodes
    exact nodes.nodup distinct
  have apart := (List.nodup_flatMap.1 apart).2
  refine ⟨inspections, sites, fun i hi d => ⟨fun hd => ⟨?_, Inspection.node_mem hd⟩, ?_⟩⟩
  · rw [found]
    exact List.mem_flatMap.2 ⟨i, hi, hd⟩
  · rintro ⟨hd, node⟩
    rw [found] at hd
    obtain ⟨j, hj, hd⟩ := List.mem_flatMap.1 hd
    by_cases same : i = j
    · exact same ▸ hd
    · have symmetric : Std.Symm (Function.onFun List.Disjoint fun i : Inspection =>
          i.site.nodes.map Node.id) := ⟨fun _ _ h => List.Disjoint.symm h⟩
      have disjoint := apart.forall hi hj same
      exact absurd (Inspection.node_mem hd) (disjoint node)

/-! ### Stylesheets that are read -/

variable {text file : String} {sheet : Sheet}

/-- The numbers in a stylesheet that is read are distinct. -/
theorem ids_nodup_of_ofText (h : ofText text file = .ok sheet) : sheet.ids.Nodup := by
  obtain ⟨front, d, -, -, read⟩ := read_of_ofText h
  obtain ⟨n, -, given⟩ := Parse.sheet_numbers .standard _ sheet d read
  rw [List.nil_append] at given
  exact given.nodup_iff.2 List.nodup_range'

/-- In a stylesheet that is read from a text the checker reports each node at most once, where
the node starts, and the reports stand in the order of the text. -/
theorem findings_of_ofText (h : ofText text file = .ok sheet) :
    (sheet.findings.map Diagnostic.node).Nodup ∧
    (∀ d ∈ sheet.findings, d.node ∈ sheet.ids ∧ d.error.position ≠ .nowhere ∧
      ∀ n ∈ sheet.nodes, n.id = d.node → d.error.position = n.span.start) ∧
    sheet.findings.Pairwise fun d e => d.error.position.offset ≤ e.error.position.offset := by
  have distinct := ids_nodup_of_ofText h
  obtain ⟨front, -, tiles, lie, -⟩ := lieIn_of_ofText h
  have order := tiles.inOrder
  have inside := sheet.inner_sublist
  have places := sheet.places_sublist
  refine ⟨?_, fun d hd => ?_, ?_⟩
  · have ids := (places.trans (inside.map Node.place)).map Prod.fst
    rw [List.map_map, List.map_map] at ids
    exact ids.nodup distinct
  · obtain ⟨n, hn, id, start⟩ := node_of_finding hd
    refine ⟨List.mem_map.2 ⟨n, inside.subset hn, id⟩, ?_, fun m hm same => ?_⟩
    · obtain ⟨member, hmember, hn⟩ := List.mem_flatMap.1 hn
      have notExpr : ∀ n ∈ sheet.members.map Member.node, ∀ e, n ≠ .expr e :=
        List.forall_mem_map.2 fun member _ => member.node_ne_expr
      have behind := lie.start_lt order notExpr _ (List.mem_map_of_mem hmember) n hn
      intro nowhere
      rw [← start] at nowhere
      rw [nowhere] at behind
      exact absurd behind (Nat.not_lt_zero _)
    · rw [node_unique distinct hm (inside.subset hn) (same.trans id.symm)]
      exact start.symm
  · have sorted := lie.sorted order
    rw [← nodes_eq_flatMap_node] at sorted
    have offsets := (places.trans (inside.map Node.place)).map fun place => place.2.offset
    rw [List.map_map, List.map_map] at offsets
    exact List.pairwise_map.1 ((List.pairwise_map.2 sorted).sublist offsets)

/-- A finding in each kind of place, two of them where the same text starts. -/
def misusedText : String :=
  "A := Nope * #fff000; p \x7b if [1px + 1] \x7b width: true; \x7d else \x7b color: Gone; \x7d \x7d"

/-- The product is reported in front of its left operand, and both at offset 5. -/
theorem findings_of_ofText_misused : ∃ sheet, ofText misusedText "sheet" = .ok sheet ∧
    (sheet.findings.map fun d => (d.node, d.error.position.offset)) =
      [(3, 5), (1, 5), (8, 29), (11, 40), (13, 69)] ∧
    sheet.ids = [4, 3, 1, 2, 5, 9, 8, 6, 7, 11, 10, 12, 14, 13] ∧
    (sheet.findings.map Diagnostic.node).Nodup ∧
    (∀ d ∈ sheet.findings, d.node ∈ sheet.ids ∧ d.error.position ≠ .nowhere ∧
      ∀ n ∈ sheet.nodes, n.id = d.node → d.error.position = n.span.start) ∧
    sheet.findings.Pairwise fun d e => d.error.position.offset ≤ e.error.position.offset := by
  have known : (ofText misusedText "sheet").map (fun sheet =>
      (sheet.findings.map fun d => (d.node, d.error.position.offset), sheet.ids)) =
        .ok ([(3, 5), (1, 5), (8, 29), (11, 40), (13, 69)],
          [4, 3, 1, 2, 5, 9, 8, 6, 7, 11, 10, 12, 14, 13]) := by cbv
  cases read : ofText misusedText "sheet" with
  | error e =>
    rw [read] at known
    cases known
  | ok sheet =>
    rw [read] at known
    obtain ⟨found, ids⟩ := Prod.mk.inj (Except.ok.inj known)
    exact ⟨sheet, rfl, found, ids, findings_of_ofText read⟩

end Sheet

end Typesheet
