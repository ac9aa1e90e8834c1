import Typesheet.Proofs.Visits

/-! What a checked stylesheet can still run into.

Whatever stops flattening was foretold by the checker, at the same place
(`Visit.foretold`): unknown names and conditions that are no booleans in the very
words, operands that do not combine by a complaint about the operation. The only
exception is a result out of range, since the checker knows no amounts. So a
stylesheet without findings is flattened or overflows (`flatten_error_found`). -/
namespace Typesheet

/-- The complaints about the operands of an operation. -/
def Cause.isOperandComplaint : Cause → Bool
  | .nonNumericOperand _ => true
  | .operandTypeMismatch .. => true
  | .missingScalarOperand .. => true
  | _ => false

theorem Operator.isOperandComplaint {op : Operator} {t u : ValueType} {cause : Cause}
    (h : op.complaint t u = some cause) : cause.isOperandComplaint = true := by
  obtain ⟨_, rfl⟩ | rfl | rfl := Operator.complaint_cause h <;> rfl

/-- A finding says that an error is going to happen: it is at the place of the error,
and it is the error itself or, for a fault of arithmetic, the complaint about the
operation at fault, which is one of `performed`. -/
def Diagnostic.Foretells (d : Diagnostic) (performed : List Calculation) (e : Error) : Prop :=
  d.error.position = e.position ∧
    match e.cause with
    | .variableNotDeclared _ => d.error = e
    | .conditionNotBoolean _ => d.error = e
    | .internalConsistencyFault _ =>
      d.error.cause.isOperandComplaint = true ∧
        ∃ c ∈ performed, c.Fails e ∧ d.node = c.node ∧ c.complaint = some d.error.cause
    | _ => False

/-- A finding that foretells an error among some calculations does so among more. -/
theorem Diagnostic.Foretells.mono {d : Diagnostic} {few many : List Calculation} {e : Error}
    (h : d.Foretells few e) (subset : few ⊆ many) : d.Foretells many e := by
  obtain ⟨position, account⟩ := h
  refine ⟨position, ?_⟩
  split at account
  · exact account
  · exact account
  · obtain ⟨complaint, c, hc, fails⟩ := account
    exact ⟨complaint, c, subset hc, fails⟩
  · exact account

/-- A calculation without a result is out of range or complained about. -/
theorem Expr.calculation_foretold {s : ValueScopes} {expr : Expr} {c : Calculation} {e : Error}
    (hc : c ∈ expr.calculations s) (h : c.Fails e) :
    (∃ op, e.cause = .arithmeticOverflow op) ∨
      ∃ d ∈ expr.findings s.types, d.Foretells (expr.calculations s) e := by
  obtain ⟨result, position⟩ := h
  obtain overflow | mismatch := Operator.apply_error result
  · exact .inl ⟨_, overflow⟩
  · rw [mismatch] at result
    obtain ⟨cause, complaint⟩ := Calculation.complaint_of_mismatch result
    refine .inr ⟨_, Expr.calculation_found hc complaint, position.symm, ?_⟩
    rw [mismatch]
    exact ⟨Operator.isOperandComplaint complaint, c, hc, ⟨mismatch ▸ result, position⟩, rfl,
      complaint⟩

/-- The error of an expression is out of range or found in the expression. -/
theorem Expr.error_foretold {s : ValueScopes} {expr : Expr} {e : Error}
    (h : expr.value s = .error e) :
    (∃ op, e.cause = .arithmeticOverflow op) ∨
      ∃ d ∈ expr.findings s.types, d.Foretells (expr.calculations s) e := by
  obtain ⟨c, hc, fails⟩ | ⟨d, hd, rfl, name, cause⟩ := Expr.value_error h
  · exact calculation_foretold hc fails
  · refine .inr ⟨d, hd, rfl, ?_⟩
    rw [cause]

/-- **The error of a visit is out of range or found at the place.** -/
theorem Visit.foretold {v : Visit} {e : Error} (h : v.error? = some e) :
    (∃ op, e.cause = .arithmeticOverflow op) ∨
      ∃ d ∈ v.findings, d.Foretells v.calculations e := by
  obtain ⟨s, site⟩ := v
  cases hv : site.value.value s with
  | error e' =>
    rw [error?_of_error hv] at h
    cases h
    refine (Expr.error_foretold hv).imp_right ?_
    exact fun ⟨d, hd, foretells⟩ => ⟨d, site.value_findings_subset _ hd, foretells⟩
  | ok value =>
    rw [error?_of_value hv] at h
    cases site with
    | declaration d => cases h
    | assignment a => cases h
    | condition clause =>
      -- The value is of another type than the condition's, which the checker knows.
      have type : clause.condition.type s.types = value.type := (Expr.value_ok hv).1
      have own : ∀ other : Literal, value = other → other.type ≠ .bool →
          some (⟨.conditionNotBoolean other.type.text, clause.span.start⟩ : Error) = some e →
          ∃ d ∈ Visit.findings ⟨s, .condition clause⟩,
            d.Foretells (Visit.calculations ⟨s, .condition clause⟩) e := by
        rintro other rfl hne he
        cases he
        refine ⟨⟨clause.id, _⟩, List.mem_append_left _ ?_, rfl, rfl⟩
        have defined : value.type ≠ .undefined := by cases value <;> exact ValueType.noConfusion
        simp only [type]
        rw [if_neg (not_or.2 ⟨hne, defined⟩)]
        exact List.mem_singleton_self _
      cases value with
      | color text => exact .inr (own _ rfl ValueType.noConfusion h)
      | number d a => exact .inr (own _ rfl ValueType.noConfusion h)
      | bool b => cases h

/-- The error of flattening is out of range or found by the checker. -/
theorem Sheet.error_foretold {sheet : Sheet} {e : Error} (h : sheet.flatten = .error e) :
    (∃ op, e.cause = .arithmeticOverflow op) ∨
      ∃ d ∈ sheet.findings, d.Foretells sheet.calculations e := by
  obtain ⟨v, hv, stops⟩ := Sheet.flatten_error_iff.1 h
  refine (Visit.foretold stops).imp_right ?_
  rintro ⟨d, hd, foretells⟩
  exact ⟨d, visit_found hv hd, foretells.mono fun _ hc => List.mem_flatMap_of_mem hv hc⟩

/-- What stops flattening, other than a result out of range, has a finding at its place
that foretells it. So a stylesheet without findings is flattened or overflows, and
scopes never run out. -/
theorem flatten_error_found (sheet : Sheet) :
    (∀ e, sheet.flatten = .error e → (∀ op, e.cause ≠ .arithmeticOverflow op) →
      ∃ d ∈ sheet.findings, d.Foretells sheet.calculations e) ∧
    (sheet.findings = [] → (∃ flat, sheet.flatten = .ok flat) ∨
      ∃ op place, sheet.flatten = .error ⟨.arithmeticOverflow op, place⟩) ∧
    ∀ place, sheet.flatten ≠ .error ⟨.scopeUnderflow, place⟩ := by
  refine ⟨?_, ?_, ?_⟩
  · intro e h inRange
    obtain ⟨op, overflow⟩ | found := Sheet.error_foretold h
    · exact absurd overflow (inRange op)
    · exact found
  · intro none
    cases h : sheet.flatten with
    | ok flat => exact .inl ⟨flat, rfl⟩
    | error e =>
      obtain ⟨op, overflow⟩ | ⟨d, hd, -⟩ := Sheet.error_foretold h
      · obtain ⟨cause, place⟩ := e
        cases overflow
        exact .inr ⟨op, place, rfl⟩
      · rw [none] at hd
        cases hd
  · intro place h
    obtain ⟨op, overflow⟩ | ⟨d, -, -, account⟩ := Sheet.error_foretold h
    · cases overflow
    · exact account

/-- A rule that adds a scalar to a length, at node 3. -/
def mixedSum : Sheet :=
  let place (start stop : Nat) : Span := ⟨⟨start, "mixed"⟩, ⟨stop, "mixed"⟩⟩
  let sum : Expr := .operation 3 .add (.literal 1 (.number .pixel 1) (place 11 14))
    (.literal 2 (.number .scalar 2) (place 17 18)) (place 11 18)
  ⟨[.rule ⟨5, [.tag "p"], [.declaration ⟨4, "width", sum, place 4 19⟩], place 0 21⟩], place 0 21⟩

theorem flatten_error_found_mixedSum :
    ∃ d ∈ mixedSum.findings, d.Foretells mixedSum.calculations
      ⟨.internalConsistencyFault "cannot apply `+` to PIXEL and SCALAR", ⟨11, "mixed"⟩⟩ :=
  (flatten_error_found mixedSum).1 _ (by rfl) (fun _ => Cause.noConfusion)

end Typesheet
