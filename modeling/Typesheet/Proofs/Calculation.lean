import Typesheet.Proofs.Scoping

/-! What becomes of an expression when it is checked and when it is evaluated.

Evaluating an expression performs calculations, each an operation on two values
(`Expr.calculations`). The rule for operands is written down three times, for
values, for types and for complaints; `Operator.Judged` says that the three agree.
From this follows what the checker is worth for an expression, in scopes that hold
the types of the values: an expression with a value has the type of that value and
nothing wrong in it (`Expr.value_ok`), a name without a value is reported
(`Expr.value_error`), and operands that do not combine are reported at the very
operation (`Expr.calculation_found`). -/
namespace Typesheet

/-! ### The rule for operands, three times -/

/-- The verdicts on an operation agree: either its operands do not combine, then
there is a complaint and a fault and no type, or they do, then the result has the
inferred type unless it is out of range. -/
inductive Operator.Judged (op : Operator) (l r : Literal) : Prop
  | refused {cause : Cause} (complaint : op.complaint l.type r.type = some cause)
      (apply : op.apply l r = .error (op.mismatch l.type r.type))
  | overflow {d e : Dimension} {a b : Amount} (left : l = .number d a) (right : r = .number e b)
      (outside : op.exact a.toInt b.toInt < Amount.least ∨
        Amount.greatest < op.exact a.toInt b.toInt)
      (complaint : op.complaint l.type r.type = none)
      (apply : op.apply l r = .error (.arithmeticOverflow op.symbol))
  | result {v : Literal} {d e : Dimension} {a b c : Amount} (left : l = .number d a)
      (right : r = .number e b) (inside : c.toInt = op.exact a.toInt b.toInt)
      (complaint : op.complaint l.type r.type = none)
      (type : op.resultType l.type r.type = v.type) (apply : op.apply l r = .ok v)

namespace Operator

/-- Dimensions that combine are complained about by nobody. -/
theorem complaint_number {op : Operator} {d e dimension : Dimension}
    (h : op.dimension? d e = some dimension) :
    op.complaint (.number d) (.number e) = none ∧
      op.resultType (.number d) (.number e) = .number dimension := by
  cases op <;> cases d <;> cases e <;> cases h <;> exact ⟨rfl, rfl⟩

/-- Dimensions that do not combine are complained about. -/
theorem complaint_number_isSome {op : Operator} {d e : Dimension} (h : op.dimension? d e = none) :
    ∃ cause, op.complaint (.number d) (.number e) = some cause := by
  cases op <;> cases d <;> cases e <;> cases h <;> exact ⟨_, rfl⟩

theorem apply_number (op : Operator) (d e : Dimension) (a b : Amount) :
    op.apply (.number d a) (.number e b) =
      match op.dimension? d e with
      | some dimension =>
        match Amount.ofInt? (op.exact a.toInt b.toInt) with
        | some amount => .ok (.number dimension amount)
        | none => .error (.arithmeticOverflow op.symbol)
      | none => .error (op.mismatch (.number d) (.number e)) := rfl

theorem judged_number (op : Operator) (d e : Dimension) (a b : Amount) :
    op.Judged (.number d a) (.number e b) := by
  have apply := op.apply_number d e a b
  cases hd : op.dimension? d e with
  | none =>
    rw [hd] at apply
    obtain ⟨cause, complaint⟩ := complaint_number_isSome hd
    exact .refused complaint apply
  | some dimension =>
    rw [hd] at apply
    obtain ⟨complaint, type⟩ := complaint_number hd
    cases ha : Amount.ofInt? (op.exact a.toInt b.toInt) with
    | none =>
      rw [ha] at apply
      exact .overflow rfl rfl (Amount.ofInt?_eq_none_iff.1 ha) complaint apply
    | some amount =>
      rw [ha] at apply
      exact .result (v := .number dimension amount) rfl rfl (Amount.ofInt?_eq_some_iff.1 ha)
        complaint type apply

theorem judged (op : Operator) (l r : Literal) : op.Judged l r := by
  cases l with
  | color text => exact .refused rfl rfl
  | bool value => exact .refused rfl rfl
  | number d a =>
    cases r with
    | color text => exact .refused rfl rfl
    | bool value => exact .refused rfl rfl
    | number e b => exact judged_number op d e a b

/-- What a complaint can be. -/
theorem complaint_cause {op : Operator} {t u : ValueType} {cause : Cause}
    (h : op.complaint t u = some cause) :
    (∃ operand, cause = .nonNumericOperand operand) ∨
      cause = .operandTypeMismatch op.symbol t.text u.text ∨
      cause = .missingScalarOperand t.text u.text := by
  unfold complaint at h
  split at h
  · cases h
    exact .inl ⟨_, rfl⟩
  · split at h
    · cases h
      exact .inl ⟨_, rfl⟩
    · split at h
      · cases h
      · split at h
        · split at h
          · cases h
            exact .inr (.inr rfl)
          · cases h
        · split at h
          · cases h
            exact .inr (.inl rfl)
          · cases h

end Operator

/-! ### Calculations -/

/-- An operation that has come to be performed, with the values of its operands. -/
structure Calculation where
  node : NodeId
  operator : Operator
  left : Literal
  right : Literal
  span : Span
deriving DecidableEq, Repr

namespace Calculation

def result (c : Calculation) : Except Cause Literal := c.operator.apply c.left c.right

/-- What the checker says about operands of these types. -/
def complaint (c : Calculation) : Option Cause := c.operator.complaint c.left.type c.right.type

/-- The calculation has no result, and this is the error. -/
def Fails (c : Calculation) (e : Error) : Prop :=
  c.result = .error e.cause ∧ e.position = c.span.start

/-- The operands are numbers whose exact result is no amount. -/
def Overflows (c : Calculation) : Prop :=
  ∃ d a e b, c.left = .number d a ∧ c.right = .number e b ∧
    (c.operator.exact a.toInt b.toInt < Amount.least ∨
      Amount.greatest < c.operator.exact a.toInt b.toInt)

theorem complaint_of_mismatch {c : Calculation} {message : String}
    (h : c.result = .error (.internalConsistencyFault message)) :
    ∃ cause, c.complaint = some cause := by
  cases c.operator.judged c.left c.right with
  | refused complaint => exact ⟨_, complaint⟩
  | overflow _ _ _ _ apply => cases h.symm.trans apply
  | result _ _ _ _ _ apply => cases h.symm.trans apply

theorem overflows_of_result {c : Calculation} {operator : String}
    (h : c.result = .error (.arithmeticOverflow operator)) :
    c.Overflows ∧ operator = c.operator.symbol := by
  cases c.operator.judged c.left c.right with
  | refused _ apply => cases h.symm.trans apply
  | overflow left right outside _ apply =>
    cases h.symm.trans apply
    exact ⟨⟨_, _, _, _, left, right, outside⟩, rfl⟩
  | result _ _ _ _ _ apply => cases h.symm.trans apply

/-- An exact result out of range is an error, unless the operands are one already. -/
theorem result_of_overflows {c : Calculation} (h : c.Overflows) :
    c.result = .error (.arithmeticOverflow c.operator.symbol) ∨
      ∃ cause, c.complaint = some cause := by
  obtain ⟨d, a, e, b, left, right, outside⟩ := h
  cases c.operator.judged c.left c.right with
  | refused complaint => exact .inr ⟨_, complaint⟩
  | overflow _ _ _ _ apply => exact .inl apply
  | @result v d' e' a' b' n hl hr inside =>
    cases left.symm.trans hl
    cases right.symm.trans hr
    have low := Amount.least_le_toInt n
    have high := Amount.toInt_le_greatest n
    omega

end Calculation

namespace Expr

/-- The calculations that evaluation performs, in order: those of the left operand,
those of the right one if the left has a value, then the operation's own. -/
def calculations (s : ValueScopes) : Expr → List Calculation
  | literal .. => []
  | reference .. => []
  | operation id op left right span =>
    left.calculations s ++
      match left.value s with
      | .error _ => []
      | .ok l =>
        right.calculations s ++
          match right.value s with
          | .error _ => []
          | .ok r => [⟨id, op, l, r, span⟩]

variable {s : ValueScopes}

theorem type_reference (id : NodeId) (name : String) (span : Span) :
    (reference id name span).type s.types =
      ((s.find? name).map Literal.type).getD .undefined := by
  rw [← Scopes.find?_map]
  rfl

theorem isDefined_types (name : String) : Scopes.isDefined s.types name = s.isDefined name := by
  unfold Scopes.isDefined ValueScopes.types
  rw [Scopes.find?_map, Option.isSome_map]

/-- How far the evaluation of an operation gets. -/
inductive Operated (s : ValueScopes) (id : NodeId) (op : Operator) (left right : Expr)
    (span : Span) : Prop
  | left {e : Error} (hl : left.value s = .error e)
      (value : (operation id op left right span).value s = .error e)
      (calculations : (operation id op left right span).calculations s = left.calculations s)
  | right {l : Literal} {e : Error} (hl : left.value s = .ok l) (hr : right.value s = .error e)
      (value : (operation id op left right span).value s = .error e)
      (calculations : (operation id op left right span).calculations s =
        left.calculations s ++ right.calculations s)
  | both {l r : Literal} (hl : left.value s = .ok l) (hr : right.value s = .ok r)
      (value : (operation id op left right span).value s =
        match op.apply l r with
        | .ok v => .ok v
        | .error cause => .error ⟨cause, span.start⟩)
      (calculations : (operation id op left right span).calculations s =
        left.calculations s ++ (right.calculations s ++ [⟨id, op, l, r, span⟩]))

theorem operated (id : NodeId) (op : Operator) (left right : Expr) (span : Span) :
    Operated s id op left right span := by
  cases hl : left.value s with
  | error e =>
    refine .left hl ?_ ?_
    · rw [value, hl]
      rfl
    · rw [calculations, hl, List.append_nil]
  | ok l =>
    cases hr : right.value s with
    | error e =>
      refine .right hl hr ?_ ?_
      · rw [value, hl, hr]
        rfl
      · simp only [calculations, hl, hr, List.append_nil]
    | ok r =>
      refine .both hl hr ?_ ?_
      · rw [value, hl, hr]
        rfl
      · rw [calculations, hl, hr]

/-- An expression with a value has the type of its value, and nothing is wrong in it. -/
theorem value_ok {e : Expr} {v : Literal} (h : e.value s = .ok v) :
    e.type s.types = v.type ∧ e.findings s.types = [] := by
  induction e generalizing v with
  | literal id value span =>
    cases h
    exact ⟨rfl, rfl⟩
  | reference id name span =>
    rw [value] at h
    rw [type_reference, findings, isDefined_types, Scopes.isDefined]
    cases hf : s.find? name with
    | none =>
      rw [hf] at h
      cases h
    | some w =>
      rw [hf] at h
      cases h
      exact ⟨rfl, rfl⟩
  | operation id op left right span ihl ihr =>
    cases operated (s := s) id op left right span with
    | left _ value => cases h.symm.trans value
    | right _ _ value => cases h.symm.trans value
    | @both l r hl hr value =>
      obtain ⟨typel, foundl⟩ := ihl hl
      obtain ⟨typer, foundr⟩ := ihr hr
      rw [type, findings, typel, typer, foundl, foundr]
      rw [value] at h
      cases op.judged l r with
      | refused _ apply =>
        rw [apply] at h
        cases h
      | overflow _ _ _ _ apply =>
        rw [apply] at h
        cases h
      | result _ _ _ complaint type apply =>
        rw [apply] at h
        cases h
        exact ⟨type, by rw [complaint]; rfl⟩

/-- An expression without a value has an unknown name, which is reported as the
error, or a calculation without a result. -/
theorem value_error {e : Expr} {error : Error} (h : e.value s = .error error) :
    (∃ c ∈ e.calculations s, c.Fails error) ∨
      ∃ d ∈ e.findings s.types, d.error = error ∧
        ∃ name, error.cause = .variableNotDeclared name := by
  induction e with
  | literal id value span => cases h
  | reference id name span =>
    rw [value] at h
    rw [findings, isDefined_types, Scopes.isDefined]
    cases hf : s.find? name with
    | some w =>
      rw [hf] at h
      cases h
    | none =>
      rw [hf] at h
      cases h
      exact .inr ⟨_, List.mem_singleton_self _, rfl, name, rfl⟩
  | operation id op left right span ihl ihr =>
    have found : ∀ d, d ∈ left.findings s.types ∨ d ∈ right.findings s.types →
        d ∈ (operation id op left right span).findings s.types := fun d hd =>
      List.mem_append_right _ (List.mem_append.2 hd)
    cases operated (s := s) id op left right span with
    | left hl value calculations =>
      cases h.symm.trans value
      rw [calculations]
      exact (ihl hl).imp_right fun ⟨d, hd, hname⟩ => ⟨d, found d (.inl hd), hname⟩
    | right hl hr value calculations =>
      cases h.symm.trans value
      rw [calculations]
      refine (ihr hr).imp ?_ fun ⟨d, hd, hname⟩ => ⟨d, found d (.inr hd), hname⟩
      exact fun ⟨c, hc, fails⟩ => ⟨c, List.mem_append_right _ hc, fails⟩
    | @both l r hl hr value calculations =>
      rw [value] at h
      rw [calculations]
      cases ha : op.apply l r with
      | ok v =>
        rw [ha] at h
        cases h
      | error cause =>
        rw [ha] at h
        cases h
        exact .inl ⟨⟨id, op, l, r, span⟩, by simp, ha, rfl⟩

/-- A calculation without a result ends the evaluation. -/
theorem value_of_fails {e : Expr} {c : Calculation} {error : Error}
    (hc : c ∈ e.calculations s) (h : c.Fails error) : e.value s = .error error := by
  induction e with
  | literal id value span => cases hc
  | reference id name span => cases hc
  | operation id op left right span ihl ihr =>
    cases operated (s := s) id op left right span with
    | left hl value calculations =>
      rw [calculations] at hc
      rw [value, ← hl, ihl hc]
    | right hl hr value calculations =>
      rw [calculations, List.mem_append] at hc
      obtain hc | hc := hc
      · cases hl.symm.trans (ihl hc)
      · rw [value, ← hr, ihr hc]
    | @both l r hl hr value calculations =>
      rw [calculations, List.mem_append, List.mem_append, List.mem_singleton] at hc
      obtain hc | hc | rfl := hc
      · cases hl.symm.trans (ihl hc)
      · cases hr.symm.trans (ihr hc)
      · obtain ⟨result, position⟩ := h
        have apply : op.apply l r = .error error.cause := result
        rw [value, apply]
        obtain ⟨cause, place⟩ := error
        cases position
        rfl

/-- The checker complains about a calculation whenever its operands do not combine. -/
theorem calculation_found {e : Expr} {c : Calculation} {cause : Cause}
    (hc : c ∈ e.calculations s) (h : c.complaint = some cause) :
    ⟨c.node, ⟨cause, c.span.start⟩⟩ ∈ e.findings s.types := by
  induction e with
  | literal id value span => cases hc
  | reference id name span => cases hc
  | operation id op left right span ihl ihr =>
    rw [findings, List.mem_append, List.mem_append]
    cases operated (s := s) id op left right span with
    | left hl value calculations =>
      rw [calculations] at hc
      exact .inr (.inl (ihl hc))
    | right hl hr value calculations =>
      rw [calculations, List.mem_append] at hc
      exact .inr (hc.imp ihl ihr)
    | @both l r hl hr value calculations =>
      rw [calculations, List.mem_append, List.mem_append, List.mem_singleton] at hc
      obtain hc | hc | rfl := hc
      · exact .inr (.inl (ihl hc))
      · exact .inr (.inr (ihr hc))
      · have complaint : op.complaint l.type r.type = some cause := h
        rw [(value_ok hl).1, (value_ok hr).1, complaint]
        exact .inl (List.mem_singleton_self _)

end Expr

end Typesheet
