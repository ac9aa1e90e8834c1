import Typesheet.Proofs.Bare
import Typesheet.Proofs.Faults
import Typesheet.Proofs.Seam
import Typesheet.Proofs.Soundness
import Typesheet.Proofs.Weakening

/-! Stylesheets one below the other.

Two texts that compile also compile one below the other, to the CSS of both
(`compile_append`), whatever variables they share. The words of the first end with a
mark that closes a member, so that the words of the second follow them; members behind
members are read as such; and what the first members leave in scope is nothing that the
second ones refer to before they assign to it. -/
namespace Typesheet

/-! ### Words one behind the other -/

theorem Braced.last {P : List Word → Prop} {ws : List Word} (h : Braced P ws) :
    ∃ w, ws.getLast? = some w ∧ w.kind ∈ closers := by
  obtain ⟨o, inner, c, rfl, -, hc, -⟩ := h
  exact ⟨c, List.getLast?_concat (l := o :: inner), by rw [hc]; decide⟩

theorem Given.last {mark : Kind} {name : String} {value : Expr} {ws : List Word}
    (h : Given mark name value ws) : ∃ w, ws.getLast? = some w ∧ w.kind ∈ closers := by
  obtain ⟨m, wv, s, rfl, -, -, hs⟩ := h
  exact ⟨s, List.getLast?_concat (l := ⟨.identifier, name⟩ :: m :: wv), by rw [hs]; decide⟩

theorem Member.WrittenAs.last {m : Member} {ws : List Word} (h : m.WrittenAs ws) :
    ∃ w, ws.getLast? = some w ∧ w.kind ∈ closers := by
  cases m with
  | assignment a => exact Given.last h
  | rule r =>
    obtain ⟨s, selectors, w, further, wb, -, rfl, -, -, hbody⟩ := h
    obtain ⟨c, hc, closer⟩ := Braced.last hbody
    refine ⟨c, ?_, closer⟩
    rw [List.getLast?_cons, List.getLast?_append, hc]
    rfl

/-- The last word of members closes the last of them. -/
theorem membersWrittenAs_last {members : List Member} {ws : List Word}
    (h : membersWrittenAs members ws) : ∀ w, ws.getLast? = some w → w.kind ∈ closers := by
  induction members generalizing ws with
  | nil =>
    cases h
    exact fun _ h => nomatch h
  | cons m members ih =>
    obtain ⟨front, back, rfl, first, rest⟩ := h
    intro w hw
    rw [List.getLast?_append] at hw
    cases hb : back.getLast? with
    | none =>
      obtain ⟨v, hv, closer⟩ := first.last
      rw [hb, hv] at hw
      cases hw
      exact closer
    | some v =>
      rw [hb] at hw
      cases hw
      exact ih rest w hb

/-! ### Texts by what they are written with -/

namespace Sheet

/-- What is read from a text is written with its words. -/
theorem written_of_ofText {text file : String} {sheet : Sheet}
    (h : ofText text file = .ok sheet) :
    ∃ ws, Lexes text.toList ws ∧ membersWrittenAs sheet.members ws := by
  obtain ⟨ws, lexes⟩ := lexes_of_ofText h
  obtain ⟨c, words, read⟩ := ofText_of_lexes lexes file
  rw [read] at h
  cases hp : Parse.sheet .standard c with
  | error e d =>
    rw [hp] at h
    cases h
  | ok sheet' d =>
    rw [hp] at h
    cases h
    have going : ∀ w ∈ c.words, w.kind ≠ .eof := fun w hw =>
      (lexes.wellSpelled.spelled w (words ▸ hw)).kind_ne_eof
    exact ⟨ws, lexes, words ▸ Parse.sheet_sound hp going⟩

/-- What is written with the words of a text is read from it. -/
theorem ofText_of_written {text : String} {ws : List Word} {members : List Member}
    (lexes : Lexes text.toList ws) (h : membersWrittenAs members ws) (file : String) :
    ∃ sheet, ofText text file = .ok sheet ∧
      sheet.members.map Member.bare = members.map Member.bare := by
  obtain ⟨c, words, read⟩ := ofText_of_lexes lexes file
  obtain ⟨sheet, d, hp, -, -, same⟩ := Parse.sheet_complete h c words
  exact ⟨sheet, by rw [read, hp], same⟩

end Sheet

/-! ### Stylesheets that differ in numbers and places -/

/-- Whether anything is wrong does not depend on numbers and places. -/
theorem Sheet.findings_of_bare {members others : List Member} {span : Span}
    (same : members.map Member.bare = others.map Member.bare) :
    Sheet.findings ⟨members, span⟩ = [] ↔ Sheet.findings ⟨others, span⟩ = [] := by
  have bare : Sheet.bare ⟨members, span⟩ = Sheet.bare ⟨others, span⟩ :=
    congrArg (Sheet.mk · .nowhere) same
  rw [← List.map_eq_nil_iff (f := Diagnostic.bare), ← Sheet.findings_bare, bare,
    Sheet.findings_bare, List.map_eq_nil_iff]

/-- Neither do the rules that members come to. -/
theorem evaluateMembers_of_bare {members others out : List Member} {env : Environment}
    (same : members.map Member.bare = others.map Member.bare)
    (h : evaluateMembers others env = .ok out) : ∃ out', evaluateMembers members env = .ok out' ∧
      out'.map Member.bare = out.map Member.bare := by
  have bare := evaluateMembers_bare members env
  rw [same, evaluateMembers_bare, h] at bare
  cases hm : evaluateMembers members env with
  | error e =>
    rw [hm] at bare
    cases bare
  | ok out' =>
    rw [hm] at bare
    exact ⟨out', rfl, (Except.ok.inj bare).symm⟩

/-- Neither does what is going to be CSS. -/
theorem Sheet.stanzas_of_bare {members others : List Member} {span : Span}
    (same : members.map Member.bare = others.map Member.bare) :
    stanzas ⟨members, span⟩ = stanzas ⟨others, span⟩ := by
  have bare : Sheet.bare ⟨members, span⟩ = Sheet.bare ⟨others, span⟩ :=
    congrArg (Sheet.mk · .nowhere) same
  rw [← Sheet.stanzas_bare, bare, Sheet.stanzas_bare]

/-! ### Members behind members -/

theorem Sheet.findings_append {first second : Sheet} (h : first.findings = [])
    (h' : second.findings = []) (span : Span) :
    Sheet.findings ⟨first.members ++ second.members, span⟩ = [] := by
  rw [Sheet.findings_eq] at h h' ⊢
  obtain ⟨g, hg⟩ := checkMembers_local first.members .empty []
  have scopes : (checkMembers first.members Scopes.empty.push).1 = ⟨[g]⟩ := hg
  have within : TypeScopes.Within Scopes.empty.push ⟨[g]⟩ :=
    ⟨fun _ _ h => (nomatch h), List.cons_ne_nil _ _⟩
  show (checkMembers (first.members ++ second.members) Scopes.empty.push).2 = []
  rw [checkMembers_append, scopes]
  exact List.append_eq_nil_iff.2 ⟨h, (checkMembers_weakens second.members _ _ within h').1⟩

theorem evaluateMembers_behind {members others out back : List Member}
    (h : evaluateMembers members ∅ = .ok out) (h' : evaluateMembers others ∅ = .ok back) :
    evaluateMembers (members ++ others) ∅ = .ok (out ++ back) := by
  obtain ⟨env, behind⟩ := exists_environmentBehind h
  have within := evaluateMembers_within (.empty env) h'
  exact evaluateMembers_append_iff.2 ⟨out, env, back, h, behind, within, rfl⟩

theorem Sheet.stanzas_append (members others : List Member) (span : Span) :
    stanzas ⟨members ++ others, span⟩ =
      stanzas ⟨members, span⟩ ++ stanzas ⟨others, span⟩ := by
  unfold stanzas rules
  rw [List.filterMap_append, List.map_append]

/-- What a stylesheet is flattened to are the rules that its members come to. -/
theorem Sheet.evaluateMembers_of_flatten {sheet flat : Sheet} (h : sheet.flatten = .ok flat) :
    evaluateMembers sheet.members ∅ = .ok flat.members := by
  rw [sheet.flatten_eq_map] at h
  cases hm : evaluateMembers sheet.members ∅ with
  | error e =>
    rw [hm] at h
    cases h
  | ok members =>
    rw [hm] at h
    cases h
    rfl

/-! ### Main result -/

/-- Two texts that compile, with a line break between them, compile to the CSS of the one
and then that of the other. -/
theorem compile_append {a b file ca cb : String} (ha : compile a file = .ok ca)
    (hb : compile b file = .ok cb) : compile (a ++ "\n" ++ b) file = .ok (ca ++ cb) := by
  obtain ⟨first, flatA, readA, checkedA, flattenedA, rfl⟩ := compile_ok_iff.1 ha
  obtain ⟨second, flatB, readB, checkedB, flattenedB, rfl⟩ := compile_ok_iff.1 hb
  -- The text is written with the members of both.
  obtain ⟨ws, lexesA, writtenA⟩ := Sheet.written_of_ofText readA
  obtain ⟨vs, lexesB, writtenB⟩ := Sheet.written_of_ofText readB
  have lexes : Lexes (a ++ "\n" ++ b).toList (ws ++ vs) := by
    have text : (a ++ "\n" ++ b).toList = a.toList ++ '\n' :: b.toList := by simp
    rw [text]
    exact lexes_seam lexesA (membersWrittenAs_last writtenA) lexesB
  obtain ⟨sheet, read, same⟩ :=
    Sheet.ofText_of_written lexes (membersWrittenAs_append writtenA writtenB) file
  -- Nothing is wrong with them.
  have checked : sheet.findings = [] :=
    (Sheet.findings_of_bare same).2 (Sheet.findings_append checkedA checkedB sheet.span)
  -- They come to the rules of both.
  have evaluated := evaluateMembers_behind (Sheet.evaluateMembers_of_flatten flattenedA)
    (Sheet.evaluateMembers_of_flatten flattenedB)
  obtain ⟨rules, comeTo, sameRules⟩ := evaluateMembers_of_bare same evaluated
  have flattened : sheet.flatten = .ok {sheet with members := rules} := by
    rw [sheet.flatten_eq_map, comeTo]
    rfl
  have stanzas : Sheet.stanzas {sheet with members := rules} = flatA.stanzas ++ flatB.stanzas :=
    (Sheet.stanzas_of_bare sameRules).trans (Sheet.stanzas_append _ _ _)
  refine compile_ok_iff.2 ⟨sheet, _, read, checked, flattened, ?_⟩
  rw [stanzas, List.map_append, String.join_append]

/-- A theme of its own, and a width. -/
def wideText : String := "Width := 2px;\np \x7b width: Width * 2; \x7d"

/-- Another theme, which gives the same name to a colour. -/
def darkText : String := "Width := #000000;\n.dark \x7b color: Width; \x7d"

/-- The second text sees nothing of the width in the first. -/
theorem compile_append_wideDark :
    compile wideText "sheet" = .ok "p \x7b\n  width: 4px;\n\x7d\n\n" ∧
    compile darkText "sheet" = .ok ".dark \x7b\n  color: #000000;\n\x7d\n\n" ∧
    compile (wideText ++ "\n" ++ darkText) "sheet" = .ok
      ("p \x7b\n  width: 4px;\n\x7d\n\n" ++ ".dark \x7b\n  color: #000000;\n\x7d\n\n") := by
  have wide : compile wideText "sheet" = .ok "p \x7b\n  width: 4px;\n\x7d\n\n" := by cbv
  have dark : compile darkText "sheet" = .ok ".dark \x7b\n  color: #000000;\n\x7d\n\n" := by cbv
  exact ⟨wide, dark, compile_append wide dark⟩

end Typesheet
