import Mathlib
import Typesheet.Command.Run
import Typesheet.Proofs.Checked
import Typesheet.Proofs.Flat
import Typesheet.Proofs.Reading

/-! Faults.

A fault is meant to be an error that no stylesheet raises once it passed the checker.
Reading raises none, nor does the checker (`Sheet.not_isFault_of_findings`), and a
flattened stylesheet always has CSS. What remains is arithmetic: a calculation whose
result is out of range passes the checker and is a fault all the same, and it is the
only one (`compile_fault_iff`). -/
namespace Typesheet

/-! ### The checker raises no fault -/

theorem Operator.not_isFault_of_complaint {op : Operator} {t u : ValueType} {cause : Cause}
    (h : op.complaint t u = some cause) : cause.isFault = false := by
  obtain ⟨_, rfl⟩ | rfl | rfl := Operator.complaint_cause h <;> rfl

theorem Expr.not_isFault_of_findings {s : TypeScopes} {e : Expr} :
    ∀ d ∈ e.findings s, d.error.cause.isFault = false := by
  induction e with
  | literal id v span => exact fun _ hd => nomatch hd
  | reference id name span =>
    intro d hd
    unfold findings at hd
    split at hd
    · cases hd
    · cases List.mem_singleton.1 hd
      rfl
  | operation id op left right span ihl ihr =>
    intro d hd
    rw [findings, List.mem_append, List.mem_append] at hd
    obtain hd | hd | hd := hd
    · obtain ⟨cause, complaint, rfl⟩ := Option.map_eq_some_iff.1 (Option.mem_toList.1 hd)
      exact Operator.not_isFault_of_complaint complaint
    · exact ihl d hd
    · exact ihr d hd

theorem Declaration.not_isFault_of_findings {s : TypeScopes} {decl : Declaration} :
    ∀ d ∈ decl.findings s, d.error.cause.isFault = false := by
  intro d hd
  obtain hd | hd := List.mem_append.1 hd
  · split at hd
    · cases hd
    · split at hd
      · cases hd
      · cases List.mem_singleton.1 hd
        rfl
  · exact Expr.not_isFault_of_findings d hd

theorem not_isFault_of_conditionFindings {id : NodeId} {condition : Expr} {span : Span}
    {s : TypeScopes} :
    ∀ d ∈ conditionFindings id condition span s, d.error.cause.isFault = false := by
  intro d hd
  obtain hd | hd := List.mem_append.1 hd
  · split at hd
    · cases hd
    · cases List.mem_singleton.1 hd
      rfl
  · exact Expr.not_isFault_of_findings d hd

theorem not_isFault_of_checkBody :
    (∀ (item : Item) (f : Frame ValueType) (fs : List (Frame ValueType)),
      ∀ d ∈ (item.check ⟨f :: fs⟩).2, d.error.cause.isFault = false) ∧
    ∀ (items : List Item) (f : Frame ValueType) (fs : List (Frame ValueType)),
      ∀ d ∈ (checkBody items ⟨f :: fs⟩).2, d.error.cause.isFault = false := by
  apply Item.body_induction
  case declaration => exact fun decl f fs => decl.not_isFault_of_findings
  case assignment => exact fun a f fs => Expr.not_isFault_of_findings
  case ifClause =>
    intro clause ih f fs d hd
    rw [Item.check_ifClause, List.mem_append, List.mem_append] at hd
    obtain hd | hd | hd := hd
    · exact not_isFault_of_conditionFindings d hd
    · exact ih true .empty (f :: fs) d hd
    · exact ih false .empty (f :: fs) d hd
  case nil => exact fun _ _ _ hd => nomatch hd
  case cons =>
    intro item items front back f fs d hd
    rw [checkBody_cons, List.mem_append] at hd
    obtain hd | hd := hd
    · exact front f fs d hd
    · obtain ⟨g, hg⟩ := checkBody_local.1 item f fs
      rw [hg] at hd
      exact back g fs d hd

theorem not_isFault_of_checkMembers {members : List Member} {f : Frame ValueType}
    {fs : List (Frame ValueType)} :
    ∀ d ∈ (checkMembers members ⟨f :: fs⟩).2, d.error.cause.isFault = false := by
  induction members generalizing f with
  | nil => exact fun _ hd => nomatch hd
  | cons member members ih =>
    intro d hd
    rw [checkMembers_cons, List.mem_append] at hd
    cases member with
    | assignment a => exact hd.elim (Expr.not_isFault_of_findings d) (ih d)
    | rule r =>
      rw [Member.check, r.check_eq] at hd
      exact hd.elim (not_isFault_of_checkBody.2 r.body .empty (f :: fs) d) (ih d)

theorem Sheet.not_isFault_of_findings {sheet : Sheet} :
    ∀ d ∈ sheet.findings, d.error.cause.isFault = false := by
  rw [findings_eq]
  exact not_isFault_of_checkMembers

/-! ### Results out of range -/

/-- Flattening stops at a result out of range just when a calculation that it performs
has none. -/
theorem Sheet.flatten_overflow_iff {sheet : Sheet} {op : String} {place : Position} :
    sheet.flatten = .error ⟨.arithmeticOverflow op, place⟩ ↔
      ∃ c ∈ sheet.calculations, c.Fails ⟨.arithmeticOverflow op, place⟩ := by
  rw [Sheet.flatten_error_iff]
  constructor
  · rintro ⟨⟨s, site⟩, hv, stops⟩
    cases h : site.value.value s with
    | error e =>
      rw [Visit.error?_of_error h] at stops
      cases stops
      obtain ⟨c, hc, fails⟩ | ⟨d, _, _, name, cause⟩ := Expr.value_error h
      · exact ⟨c, List.mem_flatMap_of_mem hv hc, fails⟩
      · cases cause
    | ok v =>
      rw [Visit.error?_of_value h] at stops
      cases site with
      | declaration d => cases stops
      | assignment a => cases stops
      | condition clause => cases v <;> cases stops
  · rintro ⟨c, hc, fails⟩
    obtain ⟨v, hv, hc⟩ := List.mem_flatMap.1 hc
    exact ⟨v, hv, Visit.error?_of_error (Expr.value_of_fails hc fails)⟩

/-- What flattening gives has CSS, that of its stanzas. -/
theorem Sheet.compile_of_flatten {sheet flat : Sheet} (h : sheet.flatten = .ok flat) :
    sheet.compile = .ok (String.join (flat.stanzas.map Stanza.css)) := by
  unfold Sheet.compile
  rw [h]
  exact Sheet.css_of_isFlat (Sheet.isFlat_of_flatten h)

theorem Sheet.compile_of_flatten_error {sheet : Sheet} {e : Error}
    (h : sheet.flatten = .error e) : sheet.compile = .error e := by
  unfold Sheet.compile
  rw [h]
  rfl

section
variable {sheet : Sheet} (checked : sheet.findings = [])
include checked

/-- In a checked stylesheet, operands out of range are what makes a calculation fail. -/
theorem Calculation.fails_of_overflows {c : Calculation} (hc : c ∈ sheet.calculations)
    (h : c.Overflows) : c.Fails ⟨.arithmeticOverflow c.operator.symbol, c.span.start⟩ := by
  refine ⟨?_, rfl⟩
  obtain result | ⟨cause, complaint⟩ := Calculation.result_of_overflows h
  · exact result
  · obtain ⟨v, hv, hc⟩ := List.mem_flatMap.1 hc
    have found := Sheet.visit_found hv
      (v.site.value_findings_subset _ (Expr.calculation_found hc complaint))
    rw [checked] at found
    cases found

/-- A checked stylesheet is flattened, and has CSS, unless a calculation overflows. -/
theorem Sheet.compile_of_checked :
    (∃ flat css, sheet.flatten = .ok flat ∧ flat.css = .ok css ∧ sheet.compile = .ok css) ∨
      ∃ c ∈ sheet.calculations, c.Overflows := by
  cases h : sheet.flatten with
  | ok flat =>
    have css := Sheet.css_of_isFlat (Sheet.isFlat_of_flatten h)
    exact .inl ⟨flat, _, rfl, css, Sheet.compile_of_flatten h⟩
  | error e =>
    obtain ⟨op, overflow⟩ | ⟨d, hd, _⟩ := Sheet.error_foretold h
    · obtain ⟨cause, place⟩ := e
      cases overflow
      obtain ⟨c, hc, result, _⟩ := Sheet.flatten_overflow_iff.1 h
      exact .inr ⟨c, hc, (Calculation.overflows_of_result result).1⟩
    · rw [checked] at hd
      cases hd

theorem Sheet.compile_of_overflows {c : Calculation} (hc : c ∈ sheet.calculations)
    (h : c.Overflows) :
    sheet.compile = .error ⟨.arithmeticOverflow c.operator.symbol, c.span.start⟩ :=
  Sheet.compile_of_flatten_error
    (Sheet.flatten_overflow_iff.2 ⟨c, hc, Calculation.fails_of_overflows checked hc h⟩)

end

/-! ### Compiling a text -/

theorem checkText_ok {text file : String} {sheet : Sheet} (h : checkText text file = .ok sheet) :
    Sheet.ofText text file = .ok sheet ∧ sheet.findings = [] := by
  unfold checkText at h
  split at h
  · cases h
  · split at h
    · cases h
      exact ⟨by assumption, by assumption⟩
    · cases h

/-- Reading and checking raise no fault. -/
theorem not_isFault_of_checkText {text file : String} {f : Failure}
    (h : checkText text file = .error f) : ∀ e ∈ f.errors, e.cause.isFault = false := by
  unfold checkText at h
  split at h
  · rename_i hread
    cases h
    intro e he
    cases List.mem_singleton.1 he
    exact Cause.isFault_of_isSyntax (Sheet.ofText_error hread)
  · split at h
    · cases h
    · cases h
      intro e he
      obtain ⟨d, hd, rfl⟩ := List.mem_map.1 he
      exact Sheet.not_isFault_of_findings d hd

theorem compile_of_checkText {text file : String} {sheet : Sheet}
    (h : checkText text file = .ok sheet) :
    compile text file =
      match sheet.compile with
      | .ok css => .ok css
      | .error e => .error (.error e) := by
  unfold compile
  rw [h]
  rfl

theorem compile_of_checkText_error {text file : String} {f : Failure}
    (h : checkText text file = .error f) : compile text file = .error f := by
  unfold compile
  rw [h]
  rfl

/-- What compiling a text has done when there is CSS. -/
theorem compile_ok_iff {text file css : String} : compile text file = .ok css ↔
    ∃ sheet flat, Sheet.ofText text file = .ok sheet ∧ sheet.findings = [] ∧
      sheet.flatten = .ok flat ∧ css = String.join (flat.stanzas.map Stanza.css) := by
  constructor
  · intro h
    cases hc : checkText text file with
    | error f =>
      rw [compile_of_checkText_error hc] at h
      cases h
    | ok sheet =>
      rw [compile_of_checkText hc] at h
      obtain ⟨read, checked⟩ := checkText_ok hc
      cases hf : sheet.flatten with
      | error e =>
        rw [Sheet.compile_of_flatten_error hf] at h
        cases h
      | ok flat =>
        rw [Sheet.compile_of_flatten hf] at h
        cases h
        exact ⟨sheet, flat, read, checked, hf, rfl⟩
  · rintro ⟨sheet, flat, read, checked, hf, rfl⟩
    have checkedText : checkText text file = .ok sheet := by
      unfold checkText
      simp only [read, checked]
    rw [compile_of_checkText checkedText, Sheet.compile_of_flatten hf]

theorem Command.reportAll_fault {source : String} {e : Error} (h : e.cause.isFault = true) :
    reportAll source (.error e) = "internal compiler error, please report this input\n" ++
      e.excerpt source ++ "\n" ++ e.text ++ "\n" := by
  have join : String.join [report source e] = report source e := by
    rw [String.join_cons, String.join_nil, String.append_empty]
  show String.join [report source e] ++ e.text ++ "\n" = _
  rw [join, report, if_pos h]

/-- Compiling a text ends in a fault just when the text passes the checker and a
calculation has a result out of range; the fault is about that calculation, and it is
printed as an error of the compiler. Any other text that passes is flattened and
has CSS. -/
theorem compile_fault_iff (text file : String) :
    ((∃ f, compile text file = .error f ∧ ∃ e ∈ f.errors, e.cause.isFault = true) ↔
      ∃ sheet, checkText text file = .ok sheet ∧ ∃ c ∈ sheet.calculations, c.Overflows) ∧
    ∀ sheet, checkText text file = .ok sheet →
      ((∀ c ∈ sheet.calculations, ¬ c.Overflows) → ∃ flat css,
        sheet.flatten = .ok flat ∧ flat.css = .ok css ∧ compile text file = .ok css) ∧
      ∀ c ∈ sheet.calculations, c.Overflows →
        let e : Error := ⟨.arithmeticOverflow c.operator.symbol, c.span.start⟩
        compile text file = .error (.error e) ∧
          ∀ {m : Type → Type} [Monad m] (disk : Command.Disk m) (r : Command.Request),
            r.check = false → Command.respond disk r text file =
              pure (.failure ("internal compiler error, please report this input\n" ++
                e.excerpt text ++ "\n" ++ e.text ++ "\n")) := by
  have overflow : ∀ sheet, checkText text file = .ok sheet → ∀ c ∈ sheet.calculations,
      c.Overflows → compile text file =
        .error (.error ⟨.arithmeticOverflow c.operator.symbol, c.span.start⟩) := by
    intro sheet h c hc overflows
    rw [compile_of_checkText h,
      Sheet.compile_of_overflows (checkText_ok h).2 hc overflows]
  refine ⟨⟨?_, ?_⟩, ?_⟩
  · rintro ⟨f, h, e, he, fault⟩
    cases hc : checkText text file with
    | error g =>
      cases (compile_of_checkText_error hc).symm.trans h
      cases (not_isFault_of_checkText hc e he).symm.trans fault
    | ok sheet =>
      obtain ⟨flat, css, -, -, compiled⟩ | overflows :=
        Sheet.compile_of_checked (checkText_ok hc).2
      · rw [compile_of_checkText hc, compiled] at h
        cases h
      · exact ⟨sheet, rfl, overflows⟩
  · rintro ⟨sheet, h, c, hc, overflows⟩
    exact ⟨_, overflow sheet h c hc overflows, _, List.mem_singleton_self _, rfl⟩
  · intro sheet h
    constructor
    · intro inRange
      obtain ⟨flat, css, flattened, written, compiled⟩ | ⟨c, hc, overflows⟩ :=
        Sheet.compile_of_checked (checkText_ok h).2
      · refine ⟨flat, css, flattened, written, ?_⟩
        rw [compile_of_checkText h, compiled]
      · exact absurd overflows (inRange c hc)
    · intro c hc overflows e
      refine ⟨overflow sheet h c hc overflows, ?_⟩
      intro m _ disk r full
      unfold Command.respond
      rw [full, overflow sheet h c hc overflows, ← Command.reportAll_fault rfl]
      rfl

/-- The text of a stylesheet that adds one to the greatest amount. -/
def overflowText : String := "A := 9223372036854775807 + 1;"

/-- A text passes the checker and compiling it is a fault. -/
theorem compile_fault_overflowText :
    (checkText overflowText "sheet").toBool = true ∧
      compile overflowText "sheet" = .error (.error ⟨.arithmeticOverflow "+", ⟨5, "sheet"⟩⟩) ∧
      (Cause.arithmeticOverflow "+").isFault = true := by
  refine ⟨by cbv, by cbv, rfl⟩

theorem compile_fault_iff_overflowText :
    ∃ sheet, checkText overflowText "sheet" = .ok sheet ∧ ∃ c ∈ sheet.calculations, c.Overflows :=
  (compile_fault_iff overflowText "sheet").1.1
    ⟨_, show compile overflowText "sheet" = .error (.error ⟨.arithmeticOverflow "+", ⟨5, "sheet"⟩⟩)
      by cbv, _, List.mem_singleton_self _, rfl⟩

end Typesheet
