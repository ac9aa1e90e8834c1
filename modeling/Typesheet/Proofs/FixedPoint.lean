import Typesheet.Proofs.Faults
import Typesheet.Proofs.Pruning
import Typesheet.Proofs.Roundtrip
import Typesheet.Proofs.Spelling

/-! Compiling CSS that was compiled.

What was compiled is read as the stanzas it was printed from (`Sheet.ofText_stanzas`), which
flatten to themselves, suit their properties as before, and are printed as before: CSS
compiles to itself, unless there is a negative number in it (`compile_css_iff`).
Expressions can come to one, but no stylesheet can spell it. -/
namespace Typesheet

/-! ### CSS of stanzas as a stylesheet -/

section
variable {stanzas : List Stanza} (spelled : ∀ s ∈ stanzas, s.Spelled) (file : String)
include spelled

/-- Stanzas that suit their properties and have no negative numbers compile to themselves. -/
theorem compile_stanzas (suits : ∀ s ∈ stanzas, ∀ e ∈ s.settings, e.Suits)
    (signs : ∀ s ∈ stanzas, ∀ e ∈ s.settings, e.value.isNegative = false) :
    compile (String.join (stanzas.map Stanza.css)) file =
      .ok (String.join (stanzas.map Stanza.css)) := by
  obtain ⟨sheet, read, bare⟩ := Sheet.ofText_stanzas spelled file signs
  obtain ⟨flat, same⟩ := Sheet.isFlat_of_bare bare
  have checked : sheet.findings = [] := by
    rw [Sheet.findings_of_isFlat flat, same]
    exact suits
  exact compile_ok_iff.2 ⟨sheet, sheet, read, checked, Sheet.flatten_of_isFlat flat, by rw [same]⟩

/-- The first negative number in stanzas stops the reading of their CSS. -/
theorem compile_stanzas_negative
    (negative : ∃ s ∈ stanzas, ∃ e ∈ s.settings, e.value.isNegative = true) :
    ∃ place, compile (String.join (stanzas.map Stanza.css)) file =
      .error (.error ⟨.unexpectedTokenDetailed "-" "expected a value or variable", place⟩) := by
  obtain ⟨above, s, before, e, first⟩ := exists_firstNegative negative
  refine ⟨⟨Text.byteLength (cssBefore above s before e).toList, file⟩,
    compile_of_checkText_error ?_⟩
  unfold checkText
  rw [Sheet.ofText_stanzas_negative spelled file first]

end

/-! ### Main result -/

/-- CSS compiles to itself just when no value in it is a negative number. Such a number
comes of an expression and is printed with a sign, which is out of place there when the
CSS is read. -/
theorem compile_css_iff {text file css : String} (h : compile text file = .ok css)
    (other : String) : ∃ sheet flat,
      Sheet.ofText text file = .ok sheet ∧ sheet.flatten = .ok flat ∧ flat.css = .ok css ∧
      (compile css other = .ok css ↔
        ∀ s ∈ flat.stanzas, ∀ e ∈ s.settings, e.value.isNegative = false) ∧
      ((∃ s ∈ flat.stanzas, ∃ e ∈ s.settings, e.value.isNegative = true) → ∃ place,
        compile css other =
          .error (.error ⟨.unexpectedTokenDetailed "-" "expected a value or variable", place⟩)) := by
  obtain ⟨sheet, flat, read, checked, flattened, rfl⟩ := compile_ok_iff.1 h
  have isFlat := Sheet.isFlat_of_flatten flattened
  have spelled : ∀ s ∈ flat.stanzas, s.Spelled :=
    Sheet.spelled_stanzas (Sheet.spelled_of_flatten (Sheet.spelled_of_ofText read) flattened)
  have suits : ∀ s ∈ flat.stanzas, ∀ e ∈ s.settings, e.Suits :=
    (Sheet.findings_of_isFlat isFlat).1 (Sheet.checked_of_flatten flattened checked)
  refine ⟨sheet, flat, read, flattened, Sheet.css_of_isFlat isFlat, ?_, ?_⟩
  · refine ⟨fun same s hs e he => ?_, compile_stanzas spelled other suits⟩
    rw [Bool.eq_false_iff]
    intro sign
    obtain ⟨place, stopped⟩ := compile_stanzas_negative spelled other ⟨s, hs, e, he, sign⟩
    cases stopped.symm.trans same
  · exact compile_stanzas_negative spelled other

/-- A margin that is the difference of two lengths. -/
def marginText : String := "p \x7b margin: 0px - 5px; \x7d"

def marginCss : String := "p \x7b\n  margin: -5px;\n\x7d\n\n"

theorem compile_marginText : compile marginText "sheet" = .ok marginCss := by cbv

theorem compile_marginCss : compile marginCss "sheet" = .error (.error
    ⟨.unexpectedTokenDetailed "-" "expected a value or variable", ⟨14, "sheet"⟩⟩) := by cbv

/-- CSS that was compiled need not be a stylesheet that compiles. -/
theorem compile_css_not_fixed :
    ¬∀ text file css, compile text file = .ok css → compile css file = .ok css := by
  intro fixed
  cases compile_marginCss.symm.trans (fixed marginText "sheet" marginCss compile_marginText)

/-- What stands in the way is a negative value. -/
theorem compile_css_iff_marginText :
    compile marginText "sheet" = .ok marginCss ∧ ∃ flat : Sheet, flat.css = .ok marginCss ∧
      ∃ s ∈ flat.stanzas, ∃ e ∈ s.settings, e.value.isNegative = true := by
  obtain ⟨sheet, flat, -, -, written, same, -⟩ := compile_css_iff compile_marginText "sheet"
  refine ⟨compile_marginText, flat, written, ?_⟩
  by_contra none
  have fixed : compile marginCss "sheet" = .ok marginCss := by
    refine same.2 fun s hs e he => ?_
    rw [Bool.eq_false_iff]
    exact fun sign => none ⟨s, hs, e, he, sign⟩
  cases compile_marginCss.symm.trans fixed

end Typesheet
