import Typesheet.Proofs.Checked
import Typesheet.Proofs.Inspection

/-! Whether one mistake is reported once.

An operation that the checker reports has no number for its type, and neither has an
expression with such an operation in it (`Expr.not_refused_of_number`). Mostly the type is
undefined then, and a place that asks for another type keeps silent.

But the type of a sum of two colours is a colour, and so is that of a product of a scalar and
a colour. Only an operation that is the whole value can have such a type, because around it
the operands do not combine any more. So these are just the places where two findings come of
one mistake (`Sheet.cascade_iff`). -/
namespace Typesheet

/-! ### Operations that are refused -/

theorem ValueType.text_injective : Function.Injective ValueType.text := by
  have all : ∀ t ∈ ValueType.all, ∀ u ∈ ValueType.all, t.text = u.text → t = u := by decide
  exact fun t u => all t t.mem_all u u.mem_all

namespace Operator
variable {op : Operator} {t u : ValueType}

/-- An operation whose type is a number has numbers for operands, and they combine. -/
theorem resultType_number {d : Dimension} (h : op.resultType t u = .number d) :
    (∃ e, t = .number e) ∧ (∃ e, u = .number e) ∧ op.complaint t u = none := by
  have numbers : (∃ e, t = .number e) ∧ ∃ e, u = .number e := by
    unfold resultType at h
    split at h
    · exact ⟨⟨_, rfl⟩, _, h⟩
    · exact ⟨⟨_, h⟩, _, rfl⟩
    · cases h
    · split at h
      · rename_i same
        exact ⟨⟨_, h⟩, _, same ▸ h⟩
      · cases h
  obtain ⟨⟨e, rfl⟩, f, rfl⟩ := numbers
  refine ⟨⟨e, rfl⟩, ⟨f, rfl⟩, ?_⟩
  cases op <;> cases e <;> cases f <;> cases h <;> rfl

/-- An operation whose type is a colour or a boolean is refused. -/
theorem complaint_of_nonNumeric (h : isNonNumeric (op.resultType t u) = true) :
    (op.complaint t u).isSome = true := by
  have operand : isNonNumeric t = true ∨ isNonNumeric u = true := by
    unfold resultType at h
    split at h
    · exact .inr h
    · exact .inl h
    · cases h
    · split at h
      · exact .inl h
      · cases h
  unfold complaint
  split
  · rfl
  · rename_i left
    rw [if_pos (operand.resolve_left left)]
    rfl

end Operator

namespace Expr
variable {s : TypeScopes} {e o : Expr}

def isOperation : Expr → Bool
  | operation .. => true
  | _ => false

/-- An operation whose operands break a rule. -/
def Refused (s : TypeScopes) : Expr → Prop
  | operation _ op left right _ => (op.complaint (left.type s) (right.type s)).isSome = true
  | _ => False

/-- Only in an operation there is one that is refused. -/
theorem isOperation_of_refused (ho : .expr o ∈ e.nodes) (h : o.Refused s) :
    e.isOperation = true := by
  cases e with
  | literal =>
    cases List.mem_singleton.1 ho
    exact h.elim
  | reference =>
    cases List.mem_singleton.1 ho
    exact h.elim
  | operation => rfl

/-- **In an expression whose type is a number no operation is refused.** -/
theorem not_refused_of_number {d : Dimension} (h : e.type s = .number d) :
    ∀ o, .expr o ∈ e.nodes → ¬o.Refused s := by
  induction e generalizing d with
  | literal => exact fun o ho refused => nomatch isOperation_of_refused ho refused
  | reference => exact fun o ho refused => nomatch isOperation_of_refused ho refused
  | operation id op left right span ihl ihr =>
    obtain ⟨⟨dl, hl⟩, ⟨dr, hr⟩, silent⟩ := Operator.resultType_number h
    intro o ho
    rw [nodes, List.mem_cons, List.mem_append] at ho
    obtain ho | ho | ho := ho
    · cases ho
      show ¬(op.complaint (left.type s) (right.type s)).isSome = true
      rw [silent]
      exact Bool.noConfusion
    · exact ihl hl o ho
    · exact ihr hr o ho

/-- In a value whose type is defined an operation is refused just when the value is an
operation, and a colour or boolean by its type. -/
theorem exists_refused_iff (defined : e.type s ≠ .undefined) :
    (∃ o, .expr o ∈ e.nodes ∧ o.Refused s) ↔
      e.isOperation = true ∧ Operator.isNonNumeric (e.type s) = true := by
  constructor
  · rintro ⟨o, ho, refused⟩
    refine ⟨isOperation_of_refused ho refused, ?_⟩
    cases type : e.type s with
    | color => rfl
    | number d => exact absurd refused (not_refused_of_number type o ho)
    | bool => rfl
    | undefined => exact absurd type defined
  · rintro ⟨operation, nonNumeric⟩
    cases e with
    | literal => cases operation
    | reference => cases operation
    | operation id op left right span =>
      exact ⟨_, List.mem_cons_self, Operator.complaint_of_nonNumeric nonNumeric⟩

/-! ### Findings about operations -/

/-- A finding in an expression is about a variable or about an operation that is refused. -/
theorem mem_findings {x : Diagnostic} (hx : x ∈ e.findings s) :
    ∃ o, .expr o ∈ e.nodes ∧ x.node = o.id ∧
      ((∃ name, x.error.cause = .variableNotDeclared name) ∧ o.isOperation = false ∨
        x.error.cause.isOperandComplaint = true ∧ o.Refused s) := by
  induction e with
  | literal => cases hx
  | reference id name span =>
    unfold findings at hx
    split at hx
    · cases hx
    · cases List.mem_singleton.1 hx
      exact ⟨_, List.mem_cons_self, rfl, .inl ⟨⟨name, rfl⟩, rfl⟩⟩
  | operation id op left right span ihl ihr =>
    rw [findings, List.mem_append, List.mem_append] at hx
    obtain hx | hx | hx := hx
    · obtain ⟨cause, complaint, rfl⟩ := Option.map_eq_some_iff.1 (Option.mem_toList.1 hx)
      exact ⟨_, List.mem_cons_self, rfl, .inr ⟨Operator.isOperandComplaint complaint,
        Option.isSome_of_mem complaint⟩⟩
    · obtain ⟨o, ho, about⟩ := ihl hx
      exact ⟨o, List.mem_cons_of_mem _ (List.mem_append_left _ ho), about⟩
    · obtain ⟨o, ho, about⟩ := ihr hx
      exact ⟨o, List.mem_cons_of_mem _ (List.mem_append_right _ ho), about⟩

/-- No finding in an expression is about what the expression is used for. -/
theorem not_mem_findings {x : Diagnostic}
    (cause : (∃ property expected received,
      x.error.cause = .propertyTypeMismatch property expected received) ∨
        ∃ received, x.error.cause = .conditionNotBoolean received) : x ∉ e.findings s := by
  intro hx
  obtain ⟨o, -, -, ⟨⟨name, about⟩, -⟩ | ⟨about, -⟩⟩ := mem_findings hx
  · rw [about] at cause
    obtain ⟨_, _, _, ⟨⟩⟩ | ⟨_, ⟨⟩⟩ := cause
  · obtain ⟨_, _, _, cause⟩ | ⟨_, cause⟩ := cause
    all_goals
      rw [cause] at about
      cases about

/-- An operation that is refused is reported. -/
theorem finding_of_refused (ho : .expr o ∈ e.nodes) (h : o.Refused s) :
    ∃ x ∈ e.findings s, x.node = o.id := by
  induction e with
  | literal => nomatch isOperation_of_refused ho h
  | reference => nomatch isOperation_of_refused ho h
  | operation id op left right span ihl ihr =>
    rw [nodes, List.mem_cons, List.mem_append] at ho
    obtain ho | ho | ho := ho
    · cases ho
      obtain ⟨cause, complaint⟩ := Option.isSome_iff_exists.1 h
      refine ⟨⟨id, ⟨cause, span.start⟩⟩, List.mem_append_left _ ?_, rfl⟩
      rw [complaint]
      exact List.mem_singleton_self _
    · obtain ⟨x, hx, node⟩ := ihl ho
      exact ⟨x, List.mem_append_right _ (List.mem_append_left _ hx), node⟩
    · obtain ⟨x, hx, node⟩ := ihr ho
      exact ⟨x, List.mem_append_right _ (List.mem_append_right _ hx), node⟩

end Expr

/-! ### Findings in places -/

/-- A finding in a place is one in the expression there, or it is about the place itself. -/
theorem Site.mem_findings {site : Site} {s : TypeScopes} {x : Diagnostic}
    (hx : x ∈ site.findings s) : x ∈ site.value.findings s ∨
      ∃ n ∈ site.nodes, (∀ e, n ≠ .expr e) ∧ x.node = n.id := by
  obtain found | ⟨n, cause, nodes, notExpr, found⟩ := site.findings_split s
  · exact .inl (found ▸ hx)
  · rw [found, List.mem_cons] at hx
    obtain rfl | hx := hx
    · exact .inr ⟨n, nodes ▸ List.mem_cons_self, notExpr, rfl⟩
    · exact .inl hx

/-- A mismatch is reported of a type that is defined, in its words. -/
theorem Declaration.mismatch_received {d : Declaration} {s : TypeScopes} {x : Diagnostic}
    {property expected received : String} (hx : x ∈ d.findings s)
    (cause : x.error.cause = .propertyTypeMismatch property expected received) :
    d.value.type s ≠ .undefined ∧ received = (d.value.type s).text := by
  obtain hx | hx := List.mem_append.1 hx
  · split at hx
    · cases hx
    · split at hx
      · cases hx
      · rename_i unsuited
        cases List.mem_singleton.1 hx
        cases cause
        exact ⟨fun undefined => unsuited (.inl undefined), rfl⟩
  · exact absurd hx (Expr.not_mem_findings (.inl ⟨_, _, _, cause⟩))

/-- A condition that is no boolean is reported of a type that is defined, in its words. -/
theorem conditionFindings_received {id : NodeId} {e : Expr} {span : Span} {s : TypeScopes}
    {x : Diagnostic} {received : String} (hx : x ∈ conditionFindings id e span s)
    (cause : x.error.cause = .conditionNotBoolean received) :
    e.type s ≠ .undefined ∧ received = (e.type s).text := by
  obtain hx | hx := List.mem_append.1 hx
  · split at hx
    · cases hx
    · rename_i unsuited
      cases List.mem_singleton.1 hx
      cases cause
      exact ⟨fun undefined => unsuited (.inr undefined), rfl⟩
  · exact absurd hx (Expr.not_mem_findings (.inr ⟨_, cause⟩))

/-- When a place is reported of its type in words, an operation in it is refused too just
when it is an operation and the words are those of a colour or boolean. -/
theorem Expr.refused_and_iff {e : Expr} {s : TypeScopes} {reported : String → Prop}
    (received : ∀ r, reported r → e.type s ≠ .undefined ∧ r = (e.type s).text) :
    (∃ o, .expr o ∈ e.nodes ∧ o.Refused s) ∧ (∃ r, reported r) ↔
      e.isOperation = true ∧ ∃ t, Operator.isNonNumeric t = true ∧ reported t.text := by
  constructor
  · rintro ⟨refused, r, hr⟩
    obtain ⟨defined, rfl⟩ := received r hr
    obtain ⟨operation, nonNumeric⟩ := (exists_refused_iff defined).1 refused
    exact ⟨operation, _, nonNumeric, hr⟩
  · rintro ⟨operation, t, nonNumeric, hr⟩
    obtain ⟨defined, text⟩ := received _ hr
    cases ValueType.text_injective text
    exact ⟨(exists_refused_iff defined).2 ⟨operation, nonNumeric⟩, _, hr⟩

/-! ### Main result -/

namespace Sheet

/-- The checker reports an operation in the expression. -/
def ReportsOperation (sheet : Sheet) (e : Expr) : Prop :=
  ∃ o, .expr o ∈ e.nodes ∧ o.isOperation = true ∧ ∃ x ∈ sheet.findings, x.node = o.id

/-- The checker reports that the value of the declaration does not suit its property. -/
def ReportsValue (sheet : Sheet) (d : Declaration) (received : String) : Prop :=
  ∃ x ∈ sheet.findings, x.node = d.id ∧
    ∃ property expected, x.error.cause = .propertyTypeMismatch property expected received

/-- The checker reports that the condition of the clause is no boolean. -/
def ReportsCondition (sheet : Sheet) (clause : IfClause Item) (received : String) : Prop :=
  ∃ x ∈ sheet.findings, x.node = clause.id ∧ x.error.cause = .conditionNotBoolean received

/-- The operations that are reported in a place are those that the checker refuses there. -/
theorem reportsOperation_iff {sheet : Sheet} (distinct : sheet.ids.Nodup) {i : Inspection}
    (among : i.site ∈ sheet.nodes.filterMap Node.site?)
    (inspected : ∀ d, d ∈ i.findings ↔ d ∈ sheet.findings ∧ d.node ∈ i.site.nodes.map Node.id) :
    sheet.ReportsOperation i.site.value ↔
      ∃ o, .expr o ∈ i.site.value.nodes ∧ o.Refused i.scopes := by
  have known := site_nodes_subset among
  have inValue := i.site.value_nodes_sublist.subset
  constructor
  · rintro ⟨o, ho, operation, x, hx, node⟩
    have hx : x ∈ i.findings :=
      (inspected x).2 ⟨hx, List.mem_map.2 ⟨.expr o, inValue ho, node.symm⟩⟩
    obtain hx | ⟨n, hn, notExpr, own⟩ := Site.mem_findings hx
    · obtain ⟨p, hp, about, ⟨-, other⟩ | ⟨-, refused⟩⟩ := Expr.mem_findings hx
      all_goals
        have same := node_unique distinct (known (inValue hp)) (known (inValue ho))
          (about.symm.trans node)
        cases same
      · rw [operation] at other
        cases other
      · exact ⟨o, ho, refused⟩
    · have same := node_unique distinct (known hn) (known (inValue ho)) (own.symm.trans node)
      exact absurd same (notExpr o)
  · rintro ⟨o, ho, refused⟩
    obtain ⟨x, hx, node⟩ := Expr.finding_of_refused ho refused
    have hx : x ∈ i.findings := i.site.value_findings_subset i.scopes hx
    exact ⟨o, ho, Expr.isOperation_of_refused (Node.mem_nodes (.expr o)) refused, x,
      ((inspected x).1 hx).1, node⟩

/-- Of a declaration both an operation in the value and the value itself are reported just
when the value is an operation and is reported for being a colour or a boolean. It is the same
with the condition of a clause. -/
theorem cascade_iff (sheet : Sheet) (distinct : sheet.ids.Nodup) :
    (∀ d, .declaration d ∈ sheet.nodes →
      (sheet.ReportsOperation d.value ∧ (∃ received, sheet.ReportsValue d received) ↔
        d.value.isOperation = true ∧
          ∃ t, Operator.isNonNumeric t = true ∧ sheet.ReportsValue d t.text)) ∧
    ∀ clause, .ifClause clause ∈ sheet.nodes →
      (sheet.ReportsOperation clause.condition ∧
          (∃ received, sheet.ReportsCondition clause received) ↔
        clause.condition.isOperation = true ∧
          ∃ t, Operator.isNonNumeric t = true ∧ sheet.ReportsCondition clause t.text) := by
  obtain ⟨inspections, sites, inspected⟩ := sheet.findings_inspected distinct
  have inspection : ∀ site ∈ sheet.nodes.filterMap Node.site?, ∃ s, ⟨s, site⟩ ∈ inspections := by
    intro site hsite
    rw [← sites] at hsite
    obtain ⟨⟨s, _⟩, hi, rfl⟩ := List.mem_map.1 hsite
    exact ⟨s, hi⟩
  constructor
  · intro d hd
    have among := List.mem_filterMap.2 ⟨_, hd, show Node.site? _ = some (.declaration d) from rfl⟩
    obtain ⟨s, hi⟩ := inspection _ among
    have here := inspected _ hi
    rw [show d.value = (Site.declaration d).value from rfl,
      reportsOperation_iff distinct among here]
    refine Expr.refused_and_iff fun r ⟨x, hx, node, property, expected, cause⟩ => ?_
    have hx := (here x).2 ⟨hx, List.mem_map.2 ⟨.declaration d, List.mem_cons_self, node.symm⟩⟩
    exact Declaration.mismatch_received hx cause
  · intro clause hclause
    have among := List.mem_filterMap.2
      ⟨_, hclause, show Node.site? _ = some (.condition clause) from rfl⟩
    obtain ⟨s, hi⟩ := inspection _ among
    have here := inspected _ hi
    rw [show clause.condition = (Site.condition clause).value from rfl,
      reportsOperation_iff distinct among here]
    refine Expr.refused_and_iff fun r ⟨x, hx, node, cause⟩ => ?_
    have hx := (here x).2 ⟨hx, List.mem_map.2 ⟨.ifClause clause, List.mem_cons_self, node.symm⟩⟩
    exact conditionFindings_received hx cause

/-- A width that is the sum of two colours: `p { width: #ff0000 + #ff0000; }`. -/
def colouredSumText : String := "p \x7b width: #ff0000 + #ff0000; \x7d"

def colouredWidth : Declaration :=
  let place (start stop : Nat) : Span := ⟨⟨start, "sheet"⟩, ⟨stop, "sheet"⟩⟩
  let red (id start : Nat) : Expr := .literal id (.color "#ff0000") (place start (start + 7))
  ⟨5, "width", .operation 4 .add (red 2 11) (red 3 21) (place 11 28), place 4 29⟩

def colouredSum : Sheet :=
  let whole : Span := ⟨⟨0, "sheet"⟩, ⟨31, "sheet"⟩⟩
  ⟨[.rule ⟨1, [.tag "p"], [.declaration colouredWidth], whole⟩], whole⟩

/-- The sum is reported for its operands, and again for being a colour. -/
theorem findings_colouredSum : ofText colouredSumText "sheet" = .ok colouredSum ∧
    ¬(colouredSum.ids.Nodup → ∀ d, .declaration d ∈ colouredSum.nodes →
      colouredSum.ReportsOperation d.value → ∀ received, ¬colouredSum.ReportsValue d received) := by
  have ids : colouredSum.ids = [1, 5, 4, 2, 3] := by cbv
  have found : colouredSum.findings =
      [⟨5, ⟨.propertyTypeMismatch "width" "a PIXEL or PERCENTAGE" "COLOR", ⟨4, "sheet"⟩⟩⟩,
        ⟨4, ⟨.nonNumericOperand "COLOR", ⟨11, "sheet"⟩⟩⟩] := by cbv
  have operation : colouredSum.ReportsOperation colouredWidth.value :=
    ⟨colouredWidth.value, List.mem_cons_self, rfl, _,
      found ▸ List.mem_cons_of_mem _ List.mem_cons_self, rfl⟩
  have value : colouredSum.ReportsValue colouredWidth "COLOR" :=
    ⟨_, found ▸ List.mem_cons_self, rfl, "width", "a PIXEL or PERCENTAGE", rfl⟩
  have declared : .declaration colouredWidth ∈ colouredSum.nodes :=
    List.mem_cons_of_mem _ List.mem_cons_self
  exact ⟨by cbv, fun once => once (ids ▸ by decide) _ declared operation _ value⟩

/-- A condition that is a sum of colours, a width that is a product of a scalar and a colour,
and a sum that has no type. -/
def colouredText : String :=
  "p \x7b if [#fff000 + #fff000] \x7b width: 2 * #ff0000; margin: Gone + #ff0000; \x7d \x7d"

/-- The condition and the width are reported twice, the margin is not. -/
theorem cascade_iff_coloured : ∃ sheet, ofText colouredText "sheet" = .ok sheet ∧
    sheet.ids.Nodup ∧
    (sheet.findings.map fun d => (d.node, d.error.cause)) =
      [(5, .conditionNotBoolean "COLOR"), (4, .nonNumericOperand "COLOR"),
        (9, .propertyTypeMismatch "width" "a PIXEL or PERCENTAGE" "COLOR"),
        (8, .nonNumericOperand "COLOR"),
        (12, .nonNumericOperand "COLOR"), (10, .variableNotDeclared "Gone")] ∧
    (∀ d, .declaration d ∈ sheet.nodes →
      (sheet.ReportsOperation d.value ∧ (∃ received, sheet.ReportsValue d received) ↔
        d.value.isOperation = true ∧
          ∃ t, Operator.isNonNumeric t = true ∧ sheet.ReportsValue d t.text)) ∧
    ∀ clause, .ifClause clause ∈ sheet.nodes →
      (sheet.ReportsOperation clause.condition ∧
          (∃ received, sheet.ReportsCondition clause received) ↔
        clause.condition.isOperation = true ∧
          ∃ t, Operator.isNonNumeric t = true ∧ sheet.ReportsCondition clause t.text) := by
  have known : (ofText colouredText "sheet").map (fun sheet =>
      (sheet.ids, sheet.findings.map fun d => (d.node, d.error.cause))) =
        .ok ([1, 5, 4, 2, 3, 9, 8, 6, 7, 13, 12, 10, 11],
          [(5, .conditionNotBoolean "COLOR"), (4, .nonNumericOperand "COLOR"),
            (9, .propertyTypeMismatch "width" "a PIXEL or PERCENTAGE" "COLOR"),
            (8, .nonNumericOperand "COLOR"),
            (12, .nonNumericOperand "COLOR"), (10, .variableNotDeclared "Gone")]) := by cbv
  cases read : ofText colouredText "sheet" with
  | error e =>
    rw [read] at known
    cases known
  | ok sheet =>
    rw [read] at known
    obtain ⟨ids, found⟩ := Prod.mk.inj (Except.ok.inj known)
    have distinct : sheet.ids.Nodup := ids ▸ by decide
    exact ⟨sheet, rfl, distinct, found, cascade_iff sheet distinct⟩

end Sheet

end Typesheet
