import Typesheet.Css
import Typesheet.Proofs.Visits

/-! Flattened stylesheets.

A stylesheet is flat when it consists of rules with declarations of known values
(`Sheet.IsFlat`). What counts of a flat stylesheet is its stanzas, the selectors and
settings that are going to be CSS: they determine the CSS (`Sheet.css_of_isFlat`), and
together with the requirements of the properties what the checker has to say
(`Sheet.findings_of_isFlat`).

Flattening leaves the declarations it comes by, each with its value
(`flattenBody_ok`), so what it gives is flat (`Sheet.isFlat_of_flatten`), and a flat
stylesheet flattens to itself (`Sheet.flatten_of_isFlat`). -/
namespace Typesheet

/-! ### Stanzas -/

/-- A property and its value. -/
structure Setting where
  property : String
  value : Literal
deriving DecidableEq, Repr

/-- Selectors and the settings for what they select. -/
structure Stanza where
  selectors : List Selector
  settings : List Setting
deriving DecidableEq, Repr

def Setting.css (e : Setting) : String := "  " ++ e.property ++ ": " ++ e.value.text ++ ";\n"

def Stanza.css (s : Stanza) : String :=
  ", ".intercalate (s.selectors.map Selector.text) ++ " \x7b\n" ++
    String.join (s.settings.map Setting.css) ++ "\x7d\n\n"

/-- The setting that a declaration of a known value is. -/
def Item.setting? : Item → Option Setting
  | .declaration d => d.value.asLiteral?.map (⟨d.property, ·⟩)
  | _ => none

def Rule.stanza (rule : Rule) : Stanza := ⟨rule.selectors, rule.body.filterMap Item.setting?⟩

def Sheet.stanzas (sheet : Sheet) : List Stanza := sheet.rules.map Rule.stanza

/-- A declaration of a known value. -/
def Item.IsFlat (item : Item) : Prop := ∃ e, item.setting? = some e

/-- A rule with declarations of known values. -/
def Member.IsFlat : Member → Prop
  | .rule r => ∀ item ∈ r.body, item.IsFlat
  | .assignment _ => False

/-- Rules with declarations of known values. -/
def Sheet.IsFlat (sheet : Sheet) : Prop := ∀ member ∈ sheet.members, member.IsFlat

theorem Item.IsFlat.eq {item : Item} (h : item.IsFlat) :
    ∃ d id v span, item = .declaration d ∧ d.value = .literal id v span := by
  obtain ⟨e, h⟩ := h
  cases item with
  | declaration d =>
    obtain ⟨_, property, value, _⟩ := d
    cases value with
    | literal id v span => exact ⟨_, id, v, span, rfl, rfl⟩
    | reference id name span => cases h
    | operation id op left right span => cases h
  | assignment a => cases h
  | ifClause clause => cases h

theorem Item.isFlat_folded (d : Declaration) (v : Literal) :
    (Item.declaration (d.folded v)).IsFlat := ⟨_, rfl⟩

/-! ### The CSS of stanzas -/

theorem cssBody_of_isFlat {items : List Item} (h : ∀ item ∈ items, item.IsFlat) :
    cssBody items = .ok (String.join ((items.filterMap Item.setting?).map Setting.css)) := by
  induction items with
  | nil => rfl
  | cons item items ih =>
    have back := ih fun other hother => h other (List.mem_cons_of_mem _ hother)
    obtain ⟨d, id, v, span, rfl, value⟩ := (h item List.mem_cons_self).eq
    have setting : (Item.declaration d).setting? = some ⟨d.property, v⟩ := by
      rw [Item.setting?, value]
      rfl
    have front : (Item.declaration d).css = .ok (Setting.css ⟨d.property, v⟩) := by
      rw [Item.css, Declaration.css, value]
      rfl
    rw [List.filterMap_cons_some setting, List.map_cons, String.join_cons, cssBody, front, back]
    rfl

theorem Rule.css_of_isFlat {rule : Rule} (h : ∀ item ∈ rule.body, item.IsFlat) :
    rule.css = .ok rule.stanza.css := by
  rw [Rule.css, cssBody_of_isFlat h]
  rfl

theorem cssMembers_of_isFlat {members : List Member} (h : ∀ m ∈ members, m.IsFlat) (span : Span) :
    cssMembers members = .ok (String.join ((Sheet.stanzas ⟨members, span⟩).map Stanza.css)) := by
  induction members with
  | nil => rfl
  | cons member members ih =>
    have back := ih fun other hother => h other (List.mem_cons_of_mem _ hother)
    cases member with
    | assignment a => exact absurd (h _ List.mem_cons_self) id
    | rule r =>
      have front := Rule.css_of_isFlat (h (.rule r) List.mem_cons_self)
      rw [cssMembers, Member.css, front, back]
      show Except.ok (r.stanza.css ++ _) = _
      rw [← String.join_cons]
      rfl

namespace Sheet

/-- A flat stylesheet has CSS, that of its stanzas. -/
theorem css_of_isFlat {sheet : Sheet} (h : sheet.IsFlat) :
    sheet.css = .ok (String.join (sheet.stanzas.map Stanza.css)) :=
  cssMembers_of_isFlat h sheet.span

end Sheet

/-! ### What flattening gives -/

/-- The declaration that a visit leaves behind, with its value. -/
def Visit.outcome? : Visit → Option Item
  | ⟨s, .declaration d⟩ =>
    match d.value.value s with
    | .ok v => some (.declaration (d.folded v))
    | .error _ => none
  | _ => none

theorem Visit.isFlat_of_outcome {v : Visit} {item : Item} (h : v.outcome? = some item) :
    item.IsFlat := by
  obtain ⟨s, site⟩ := v
  cases site with
  | declaration d =>
    cases hv : d.value.value s with
    | ok value =>
      simp only [outcome?, hv] at h
      cases h
      exact Item.isFlat_folded d value
    | error e =>
      simp only [outcome?, hv] at h
      cases h
  | assignment a => cases h
  | condition clause => cases h

/-- A body comes to the declarations that flattening comes by, in order. -/
theorem flattenBody_ok :
    (∀ (item : Item) (f : Frame Literal) (fs : List (Frame Literal)) (out : List Item)
      (t : ValueScopes), item.flatten ⟨f :: fs⟩ = .ok out t →
      out = (item.visits ⟨f :: fs⟩).filterMap Visit.outcome?) ∧
    ∀ (items : List Item) (f : Frame Literal) (fs : List (Frame Literal)) (out : List Item)
      (t : ValueScopes), flattenBody items ⟨f :: fs⟩ = .ok out t →
      out = (bodyVisits items ⟨f :: fs⟩).filterMap Visit.outcome? := by
  apply Item.body_induction
  case declaration =>
    intro d f fs out t h
    obtain ⟨v, hv, rfl, -⟩ := Item.flatten_declaration_ok h
    have outcome : Visit.outcome? ⟨⟨f :: fs⟩, .declaration d⟩ =
        some (.declaration (d.folded v)) := by
      simp only [Visit.outcome?, hv]
    rw [Item.visits, List.filterMap_cons_some outcome]
    rfl
  case assignment =>
    intro a f fs out t h
    exact (Item.flatten_assignment_ok h).2
  case ifClause =>
    intro clause ih f fs out t h
    obtain ⟨b, u, hv, hb, -⟩ := Item.flatten_ifClause_ok h
    rw [Item.visits_ifClause, hv]
    exact ih b .empty (f :: fs) out u hb
  case nil =>
    intro f fs out t h
    cases h
    rfl
  case cons =>
    intro item items front back f fs out t h
    obtain ⟨first, g, rest, hf, hb, rfl⟩ := flattenBody_cons_ok h
    rw [bodyVisits, hf, List.filterMap_append, ← front f fs first _ hf, ← back g fs rest t hb]

theorem isFlat_of_flattenBody {items out : List Item} {f : Frame Literal}
    {fs : List (Frame Literal)} {t : ValueScopes} (h : flattenBody items ⟨f :: fs⟩ = .ok out t) :
    ∀ item ∈ out, item.IsFlat := by
  intro item hitem
  rw [flattenBody_ok.2 items f fs out t h] at hitem
  obtain ⟨v, -, outcome⟩ := List.mem_filterMap.1 hitem
  exact Visit.isFlat_of_outcome outcome

theorem isFlat_of_flattenMembers {members out : List Member} {f : Frame Literal}
    {fs : List (Frame Literal)} {t : ValueScopes} (h : flattenMembers members ⟨f :: fs⟩ = .ok out t) :
    ∀ m ∈ out, m.IsFlat := by
  induction members generalizing f out with
  | nil =>
    cases h
    exact fun _ hm => nomatch hm
  | cons member members ih =>
    cases member with
    | assignment a =>
      obtain ⟨g, -, h⟩ := flattenMembers_assignment_ok h
      exact ih h
    | rule r =>
      obtain ⟨body, u, rest, hb, -, hm, rfl⟩ := flattenMembers_rule_ok h
      exact List.forall_mem_cons.2 ⟨isFlat_of_flattenBody hb, ih hm⟩

/-- **What flattening gives is flat.** -/
theorem Sheet.isFlat_of_flatten {sheet flat : Sheet} (h : sheet.flatten = .ok flat) :
    flat.IsFlat := by
  obtain ⟨members, t, hm, rfl⟩ := Sheet.flatten_ok h
  exact isFlat_of_flattenMembers hm

/-! ### What becomes of a flat stylesheet -/

/-- The value will do for the property. -/
def Setting.Suits (e : Setting) : Prop :=
  ∀ requirement, Requirement.ofProperty? e.property = some requirement →
    requirement.accepts e.value.type = true

theorem flattenBody_of_isFlat {items : List Item} (h : ∀ item ∈ items, item.IsFlat)
    (s : ValueScopes) : flattenBody items s = .ok items s := by
  induction items with
  | nil => rfl
  | cons item items ih =>
    have back := ih fun other hother => h other (List.mem_cons_of_mem _ hother)
    obtain ⟨d, id, v, span, rfl, value⟩ := (h item List.mem_cons_self).eq
    have front : (Item.declaration d).flatten s = .ok [.declaration d] s := by
      obtain ⟨_, property, _, _⟩ := d
      cases value
      exact Item.flatten_declaration _ s
    show ((Item.declaration d).flatten >>= fun front => flattenBody items >>= fun back =>
      pure (front ++ back)) s = _
    rw [Flattening.bind_ok front, Flattening.bind_ok back]
    rfl

theorem flattenMembers_of_isFlat {members : List Member} (h : ∀ m ∈ members, m.IsFlat)
    (s : ValueScopes) : flattenMembers members s = .ok members s := by
  induction members with
  | nil => rfl
  | cons member members ih =>
    have back := ih fun other hother => h other (List.mem_cons_of_mem _ hother)
    cases member with
    | assignment a => exact absurd (h _ List.mem_cons_self) id
    | rule r =>
      have front : r.flatten s = .ok r s := by
        rw [r.flatten_eq, flattenBody_of_isFlat (h (.rule r) List.mem_cons_self)]
      show (r.flatten >>= fun front => flattenMembers members >>= fun back =>
        pure (.rule front :: back)) s = _
      rw [Flattening.bind_ok front, Flattening.bind_ok back]
      rfl

theorem checkBody_of_isFlat {items : List Item} (h : ∀ item ∈ items, item.IsFlat)
    (s : TypeScopes) :
    (checkBody items s).1 = s ∧
      ((checkBody items s).2 = [] ↔ ∀ e ∈ items.filterMap Item.setting?, e.Suits) := by
  induction items with
  | nil => exact ⟨rfl, by simp [checkBody, Check.report]⟩
  | cons item items ih =>
    obtain ⟨scopes, back⟩ := ih fun other hother => h other (List.mem_cons_of_mem _ hother)
    obtain ⟨d, id, v, span, rfl, value⟩ := (h item List.mem_cons_self).eq
    have setting : (Item.declaration d).setting? = some ⟨d.property, v⟩ := by
      rw [Item.setting?, value]
      rfl
    have front : d.findings s = [] ↔ Setting.Suits ⟨d.property, v⟩ := by
      have defined : v.type ≠ .undefined := by cases v <;> exact ValueType.noConfusion
      unfold Declaration.findings Setting.Suits
      rw [value]
      cases Requirement.ofProperty? d.property with
      | none => simp [Expr.findings]
      | some requirement => simp [Expr.findings, Expr.type, defined]
    rw [checkBody_cons, List.filterMap_cons_some setting]
    show (checkBody items s).1 = s ∧
      (d.findings s ++ (checkBody items s).2 = [] ↔ _)
    rw [List.append_eq_nil_iff, front, back, List.forall_mem_cons]
    exact ⟨scopes, Iff.rfl⟩

theorem checkMembers_of_isFlat {members : List Member} (h : ∀ m ∈ members, m.IsFlat)
    (s : TypeScopes) (span : Span) :
    (checkMembers members s).2 = [] ↔
      ∀ stanza ∈ Sheet.stanzas ⟨members, span⟩, ∀ e ∈ stanza.settings, e.Suits := by
  induction members with
  | nil => simp [checkMembers, Check.report, Sheet.stanzas, Sheet.rules]
  | cons member members ih =>
    have back := ih fun other hother => h other (List.mem_cons_of_mem _ hother)
    cases member with
    | assignment a => exact absurd (h _ List.mem_cons_self) id
    | rule r =>
      have front := (checkBody_of_isFlat (h (.rule r) List.mem_cons_self) s.push).2
      rw [checkMembers_cons, Member.check, r.check_eq]
      show (checkBody r.body s.push).2 ++ (checkMembers members s).2 = [] ↔
        ∀ stanza ∈ r.stanza :: Sheet.stanzas ⟨members, span⟩, _
      rw [List.append_eq_nil_iff, front, back, List.forall_mem_cons]
      rfl

/-- A finding says that the value of a declaration, which is known, is not of a type
that suits the property. -/
def Declaration.IsMismatch (decl : Declaration) (d : Diagnostic) : Prop :=
  ∃ id v span requirement, decl.value = .literal id v span ∧
    Requirement.ofProperty? decl.property = some requirement ∧
    requirement.accepts v.type = false ∧
    d = ⟨decl.id, ⟨.propertyTypeMismatch decl.property requirement.describe v.type.text,
      decl.span.start⟩⟩

theorem Declaration.mismatch_of_literal {decl : Declaration} {s : TypeScopes} {id : NodeId}
    {v : Literal} {span : Span} (value : decl.value = .literal id v span) :
    ∀ d ∈ decl.findings s, decl.IsMismatch d := by
  intro d hd
  unfold Declaration.findings at hd
  rw [value, Expr.findings, List.append_nil] at hd
  split at hd
  · cases hd
  · rename_i requirement asked
    split at hd
    · cases hd
    · rename_i unsuited
      cases List.mem_singleton.1 hd
      have refused : requirement.accepts v.type = false :=
        Bool.eq_false_iff.2 fun accepts => unsuited (.inr accepts)
      exact ⟨id, v, span, requirement, value, asked, refused, rfl⟩

theorem mismatch_of_checkBody {items : List Item} (h : ∀ item ∈ items, item.IsFlat)
    (s : TypeScopes) :
    ∀ d ∈ (checkBody items s).2, ∃ decl, .declaration decl ∈ items ∧ decl.IsMismatch d := by
  induction items with
  | nil => exact fun _ hd => nomatch hd
  | cons item items ih =>
    intro d hd
    obtain ⟨decl, id, v, span, rfl, value⟩ := (h item List.mem_cons_self).eq
    rw [checkBody_cons, List.mem_append] at hd
    obtain hd | hd := hd
    · exact ⟨decl, List.mem_cons_self, Declaration.mismatch_of_literal value d hd⟩
    · obtain ⟨other, hother, mismatch⟩ :=
        ih (fun other hother => h other (List.mem_cons_of_mem _ hother)) d hd
      exact ⟨other, List.mem_cons_of_mem _ hother, mismatch⟩

theorem mismatch_of_checkMembers {members : List Member} (h : ∀ m ∈ members, m.IsFlat)
    (s : TypeScopes) :
    ∀ d ∈ (checkMembers members s).2, ∃ rule decl, .rule rule ∈ members ∧
      .declaration decl ∈ rule.body ∧ decl.IsMismatch d := by
  induction members with
  | nil => exact fun _ hd => nomatch hd
  | cons member members ih =>
    intro d hd
    cases member with
    | assignment a => exact absurd (h _ List.mem_cons_self) id
    | rule r =>
      rw [checkMembers_cons, Member.check, r.check_eq, List.mem_append] at hd
      obtain hd | hd := hd
      · obtain ⟨decl, hdecl, mismatch⟩ :=
          mismatch_of_checkBody (h (.rule r) List.mem_cons_self) s.push d hd
        exact ⟨r, decl, List.mem_cons_self, hdecl, mismatch⟩
      · obtain ⟨rule, decl, hrule, hdecl, mismatch⟩ :=
          ih (fun other hother => h other (List.mem_cons_of_mem _ hother)) d hd
        exact ⟨rule, decl, List.mem_cons_of_mem _ hrule, hdecl, mismatch⟩

namespace Sheet

/-- A flat stylesheet flattens to itself. -/
theorem flatten_of_isFlat {sheet : Sheet} (h : sheet.IsFlat) : sheet.flatten = .ok sheet := by
  rw [flatten_eq, flattenMembers_of_isFlat h]

/-- The checker finds nothing in a flat stylesheet just when all its settings suit. -/
theorem findings_of_isFlat {sheet : Sheet} (h : sheet.IsFlat) :
    sheet.findings = [] ↔ ∀ stanza ∈ sheet.stanzas, ∀ e ∈ stanza.settings, e.Suits := by
  rw [findings_eq]
  exact checkMembers_of_isFlat h _ sheet.span

/-- All that the checker finds in a flat stylesheet is values that do not suit. -/
theorem mismatch_of_isFlat {sheet : Sheet} (h : sheet.IsFlat) {d : Diagnostic}
    (hd : d ∈ sheet.findings) : ∃ rule decl, .rule rule ∈ sheet.members ∧
      .declaration decl ∈ rule.body ∧ decl.IsMismatch d := by
  rw [findings_eq] at hd
  exact mismatch_of_checkMembers h _ d hd

end Sheet

end Typesheet
