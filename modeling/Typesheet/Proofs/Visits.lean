import Typesheet.Proofs.Calculation

/-! Where flattening comes by.

Flattening walks through a stylesheet and stops at the first place that has no
value. A `Visit` is a place it comes to, with the scopes in force there, and
`Sheet.visits` lists them in order: one branch of each clause, and nothing behind
the place where flattening stops.

Two things are known of the visits. Flattening ends in an error just when a visit
does, and in the same (`Sheet.flatten_error_iff`). And the checker comes by every
visit too, in scopes that hold the types of the values (`Sheet.visit_found`),
although it also goes where flattening does not. -/
namespace Typesheet

/-! ### Visits -/

/-- A place of a stylesheet that asks for the value of an expression. -/
inductive Site where
  | declaration (declaration : Declaration)
  | assignment (assignment : Assignment)
  | condition (clause : IfClause Item)

namespace Site

/-- The expression whose value is asked for. -/
def value : Site → Expr
  | declaration d => d.value
  | assignment a => a.value
  | condition clause => clause.condition

/-- What the checker finds at the place itself, branches aside. -/
def findings (s : TypeScopes) : Site → List Diagnostic
  | declaration d => d.findings s
  | assignment a => a.value.findings s
  | condition clause => conditionFindings clause.id clause.condition clause.span s

/-- The error of a value that the place cannot do with. -/
def refusal? : Site → Literal → Option Error
  | condition _, .bool _ => none
  | condition clause, other => some ⟨.conditionNotBoolean other.type.text, clause.span.start⟩
  | _, _ => none

theorem value_findings_subset (s : TypeScopes) (site : Site) :
    site.value.findings s ⊆ site.findings s := by
  cases site with
  | declaration d => exact List.subset_append_right _ _
  | assignment a => exact List.Subset.refl _
  | condition clause => exact List.subset_append_right _ _

end Site

/-- A place that flattening comes to, in the scopes that are in force. -/
structure Visit where
  scopes : ValueScopes
  site : Site

namespace Visit

/-- What stops flattening at the place, if anything does. -/
def error? (v : Visit) : Option Error :=
  match v.site.value.value v.scopes with
  | .error e => some e
  | .ok value => v.site.refusal? value

/-- What the checker finds at the place, in the types of the values. -/
def findings (v : Visit) : List Diagnostic := v.site.findings v.scopes.types

/-- The calculations performed at the place. -/
def calculations (v : Visit) : List Calculation := v.site.value.calculations v.scopes

theorem error?_of_error {v : Visit} {e : Error} (h : v.site.value.value v.scopes = .error e) :
    v.error? = some e := by
  rw [error?, h]

theorem error?_of_value {v : Visit} {value : Literal}
    (h : v.site.value.value v.scopes = .ok value) : v.error? = v.site.refusal? value := by
  rw [error?, h]

end Visit

mutual

/-- The places flattening comes to in an item. -/
def Item.visits : Item → ValueScopes → List Visit
  | .declaration d, s => [⟨s, .declaration d⟩]
  | .assignment a, s => [⟨s, .assignment a⟩]
  | .ifClause ⟨id, condition, body, otherwise, span⟩, s =>
    ⟨s, .condition ⟨id, condition, body, otherwise, span⟩⟩ ::
      match condition.value s with
      | .ok (.bool true) => bodyVisits body s.push
      | .ok (.bool false) =>
        match otherwise with
        | some ⟨_, body, _⟩ => bodyVisits body s.push
        | none => []
      | _ => []

/-- The places flattening comes to in the items of a body. -/
def bodyVisits : List Item → ValueScopes → List Visit
  | [], _ => []
  | item :: items, s =>
    item.visits s ++
      match item.flatten s with
      | .ok _ s => bodyVisits items s
      | .error _ _ => []

end

theorem Item.visits_ifClause (clause : IfClause Item) (s : ValueScopes) :
    (Item.ifClause clause).visits s =
      ⟨s, .condition clause⟩ ::
        match clause.condition.value s with
        | .ok (.bool b) => bodyVisits (clause.branch b) s.push
        | _ => [] := by
  obtain ⟨id, condition, body, otherwise, span⟩ := clause
  unfold Item.visits
  congr 1
  cases condition.value s with
  | error e => rfl
  | ok v =>
    cases v with
    | color text => rfl
    | number d a => rfl
    | bool b =>
      cases b with
      | true => rfl
      | false => cases otherwise <;> rfl

/-- The places flattening comes to in the members of a stylesheet. -/
def membersVisits : List Member → ValueScopes → List Visit
  | [], _ => []
  | .assignment a :: members, s =>
    ⟨s, .assignment a⟩ ::
      match a.flatten s with
      | .ok _ s => membersVisits members s
      | .error _ _ => []
  | .rule r :: members, s =>
    bodyVisits r.body s.push ++
      match r.flatten s with
      | .ok _ s => membersVisits members s
      | .error _ _ => []

namespace Sheet

/-- The places flattening comes to, in order. -/
def visits (sheet : Sheet) : List Visit := membersVisits sheet.members Scopes.empty.push

/-- The calculations flattening performs, in order. -/
def calculations (sheet : Sheet) : List Calculation := sheet.visits.flatMap Visit.calculations

end Sheet

/-! ### The error of flattening is the error of a visit -/

namespace Flattening
variable {α β : Type}

/-- The error a step ends in, if it does. -/
def error? (m : Flattening α) (s : ValueScopes) : Option Error :=
  match m s with
  | .ok _ _ => none
  | .error e _ => some e

theorem error?_ok {m : Flattening α} {s t : ValueScopes} {a : α} (h : m s = .ok a t) :
    m.error? s = none := by
  rw [error?, h]

theorem error?_error {m : Flattening α} {s t : ValueScopes} {e : Error} (h : m s = .error e t) :
    m.error? s = some e := by
  rw [error?, h]

/-- A step followed by another has the error of the first, else of the second. -/
theorem error?_bind (m : Flattening α) (k : α → Flattening β) (s : ValueScopes) :
    (m >>= k).error? s =
      match m s with
      | .ok a t => (k a).error? t
      | .error e _ => some e := by
  unfold error?
  cases h : m s with
  | ok a t => rw [bind_ok h]
  | error e t => rw [bind_error h]

theorem error?_map (m : Flattening α) (g : α → β) (s : ValueScopes) :
    (m >>= fun a => pure (g a)).error? s = m.error? s := by
  rw [error?_bind, error?]
  cases m s <;> rfl

/-- A scope of its own makes no errors and hides none. -/
theorem error?_inScope {m : Flattening α} (hm : Local m) (s : ValueScopes) :
    (inScope m).error? s = m.error? s.push := by
  rw [error?, hm.inScope_eq, error?]
  cases m s.push <;> rfl

end Flattening

open Flattening (error?_bind error?_map error?_inScope error?_ok error?_error)

theorem exists_cons_iff {v : Visit} {vs : List Visit} {e : Error} :
    (∃ w ∈ v :: vs, w.error? = some e) ↔ v.error? = some e ∨ ∃ w ∈ vs, w.error? = some e := by
  simp

theorem exists_singleton_iff {v : Visit} {e : Error} :
    (∃ w ∈ [v], w.error? = some e) ↔ v.error? = some e := by
  simp

theorem exists_append_iff {vs ws : List Visit} {e : Error} :
    (∃ v ∈ vs ++ ws, v.error? = some e) ↔
      (∃ v ∈ vs, v.error? = some e) ∨ ∃ v ∈ ws, v.error? = some e := by
  simp only [List.mem_append, or_and_right, exists_or]

theorem Assignment.flatten_error_iff (a : Assignment) (f : Frame Literal)
    (fs : List (Frame Literal)) (e : Error) :
    a.flatten.error? ⟨f :: fs⟩ = some e ↔
      Visit.error? ⟨⟨f :: fs⟩, .assignment a⟩ = some e := by
  have flat := a.flatten_eq f fs
  cases h : a.value.value ⟨f :: fs⟩ with
  | error e =>
    rw [h] at flat
    rw [error?_error flat, Visit.error?_of_error h]
  | ok v =>
    rw [h] at flat
    rw [error?_ok flat, Visit.error?_of_value h]
    exact Iff.rfl

theorem flattenBody_error_iff :
    (∀ (item : Item) (f : Frame Literal) (fs : List (Frame Literal)) (e : Error),
      item.flatten.error? ⟨f :: fs⟩ = some e ↔
        ∃ v ∈ item.visits ⟨f :: fs⟩, v.error? = some e) ∧
    ∀ (items : List Item) (f : Frame Literal) (fs : List (Frame Literal)) (e : Error),
      (flattenBody items).error? ⟨f :: fs⟩ = some e ↔
        ∃ v ∈ bodyVisits items ⟨f :: fs⟩, v.error? = some e := by
  apply Item.body_induction
  case declaration =>
    intro d f fs e
    have flat := Item.flatten_declaration d ⟨f :: fs⟩
    rw [Item.visits, exists_singleton_iff]
    cases h : d.value.value ⟨f :: fs⟩ with
    | error e =>
      rw [h] at flat
      rw [error?_error flat, Visit.error?_of_error h]
    | ok v =>
      rw [h] at flat
      rw [error?_ok flat, Visit.error?_of_value h]
      exact Iff.rfl
  case assignment =>
    intro a f fs e
    rw [Item.visits, exists_singleton_iff, ← a.flatten_error_iff]
    show (a.flatten >>= fun _ => pure []).error? _ = _ ↔ _
    rw [error?_map]
  case ifClause =>
    intro clause ih f fs e
    have flat := Item.flatten_ifClause clause ⟨f :: fs⟩
    rw [Item.visits_ifClause]
    cases h : clause.condition.value ⟨f :: fs⟩ with
    | error e =>
      rw [h] at flat
      rw [error?_error flat, exists_singleton_iff, Visit.error?_of_error h]
    | ok v =>
      rw [h] at flat
      cases v with
      | color text =>
        rw [error?_error flat, exists_singleton_iff, Visit.error?_of_value h]
        exact Iff.rfl
      | number d a =>
        rw [error?_error flat, exists_singleton_iff, Visit.error?_of_value h]
        exact Iff.rfl
      | bool b =>
        have branch := error?_inScope (flattenBody_local.2 (clause.branch b)) ⟨f :: fs⟩
        have condition : Visit.error? ⟨⟨f :: fs⟩, .condition clause⟩ = none := by
          rw [Visit.error?_of_value h]
          rfl
        rw [Flattening.error?, flat]
        show (Flattening.inScope (flattenBody (clause.branch b))).error? ⟨f :: fs⟩ = some e ↔ _
        rw [branch, show Scopes.push ⟨f :: fs⟩ = ⟨.empty :: f :: fs⟩ from rfl, ih b .empty (f :: fs)]
        simp [condition]
  case nil => exact fun _ _ _ => ⟨fun h => (nomatch h), fun ⟨_, h, _⟩ => (nomatch h)⟩
  case cons =>
    intro item items front back f fs e
    show (item.flatten >>= fun out => flattenBody items >>= fun rest =>
      pure (out ++ rest)).error? _ = _ ↔ _
    rw [error?_bind, bodyVisits, exists_append_iff, ← front]
    obtain ⟨g, ⟨out, h⟩ | ⟨e', h, -⟩⟩ := flattenBody_local.1 item f fs
    · simp only [error?_ok h, h, error?_map, back g fs, reduceCtorEq, false_or]
    · simp [error?_error h, h]

theorem flattenMembers_error_iff (members : List Member) (f : Frame Literal)
    (fs : List (Frame Literal)) (e : Error) :
    (flattenMembers members).error? ⟨f :: fs⟩ = some e ↔
      ∃ v ∈ membersVisits members ⟨f :: fs⟩, v.error? = some e := by
  induction members generalizing f with
  | nil => exact ⟨fun h => (nomatch h), fun ⟨_, h, _⟩ => (nomatch h)⟩
  | cons member members ih =>
    cases member with
    | assignment a =>
      show (a.flatten >>= fun _ => flattenMembers members).error? _ = _ ↔ _
      rw [error?_bind, membersVisits, exists_cons_iff, ← a.flatten_error_iff]
      obtain ⟨g, ⟨_, h⟩ | ⟨e', h, -⟩⟩ := a.flatten_local f fs
      · simp only [error?_ok h, h, ih, reduceCtorEq, false_or]
      · simp [error?_error h, h]
    | rule r =>
      show (r.flatten >>= fun front => flattenMembers members >>= fun back =>
        pure (.rule front :: back)).error? _ = _ ↔ _
      have front : r.flatten.error? ⟨f :: fs⟩ = some e ↔
          ∃ v ∈ bodyVisits r.body (Scopes.push ⟨f :: fs⟩), v.error? = some e := by
        show (Flattening.inScope (flattenBody r.body) >>= fun body =>
          pure {r with body}).error? _ = _ ↔ _
        rw [error?_map, error?_inScope (flattenBody_local.2 r.body)]
        exact flattenBody_error_iff.2 r.body .empty (f :: fs) e
      rw [error?_bind, membersVisits, exists_append_iff, ← front]
      obtain ⟨g, ⟨out, h⟩ | ⟨e', h, -⟩⟩ := r.flatten_local f fs
      · simp only [error?_ok h, h, error?_map, ih, reduceCtorEq, false_or]
      · simp [error?_error h, h]

/-- Flattening ends in an error just when a visit does, and in the same. -/
theorem Sheet.flatten_error_iff {sheet : Sheet} {e : Error} :
    sheet.flatten = .error e ↔ ∃ v ∈ sheet.visits, v.error? = some e := by
  have first := flattenMembers_error_iff sheet.members .empty [] e
  have first : (flattenMembers sheet.members).error? Scopes.empty.push = some e ↔
      ∃ v ∈ sheet.visits, v.error? = some e := first
  rw [flatten_eq, ← first, Flattening.error?]
  cases flattenMembers sheet.members Scopes.empty.push with
  | ok members s => simp
  | error e s => simp

/-! ### The checker comes by every visit -/

theorem Assignment.check_eq (a : Assignment) (f : Frame ValueType) (fs : List (Frame ValueType)) :
    a.check ⟨f :: fs⟩ =
      (⟨f.define a.name (a.value.type ⟨f :: fs⟩) :: fs⟩, a.value.findings ⟨f :: fs⟩) := rfl

theorem checkBody_cons (item : Item) (items : List Item) (s : TypeScopes) :
    checkBody (item :: items) s =
      ((checkBody items (item.check s).1).1,
        (item.check s).2 ++ (checkBody items (item.check s).1).2) := rfl

theorem checkMembers_cons (member : Member) (members : List Member) (s : TypeScopes) :
    checkMembers (member :: members) s =
      ((checkMembers members (member.check s).1).1,
        (member.check s).2 ++ (checkMembers members (member.check s).1).2) := rfl

/-- Once an assignment is flattened, the two passes see the same variables again. -/
theorem Assignment.check_of_flatten {a : Assignment} {f : Frame Literal}
    {fs : List (Frame Literal)} {t : ValueScopes} (h : a.flatten ⟨f :: fs⟩ = .ok () t) :
    (a.check (ValueScopes.types ⟨f :: fs⟩)).1 = t.types := by
  obtain ⟨v, hv, rfl⟩ := Assignment.flatten_ok h
  have type := (Expr.value_ok hv).1
  show (a.check ⟨f.map Literal.type :: fs.map (Frame.map Literal.type)⟩).1 =
    ⟨(f.define a.name v).map Literal.type :: fs.map (Frame.map Literal.type)⟩
  rw [a.check_eq, Frame.map_define, ← type]
  rfl

/-- Once an item is flattened, the two passes see the same variables again: the
checker's scopes are the types of the values, whatever it met in other branches. -/
theorem check_of_flattenBody :
    (∀ (item : Item) (f : Frame Literal) (fs : List (Frame Literal)) (out : List Item)
      (t : ValueScopes), item.flatten ⟨f :: fs⟩ = .ok out t →
      (item.check (ValueScopes.types ⟨f :: fs⟩)).1 = t.types) ∧
    ∀ (items : List Item) (f : Frame Literal) (fs : List (Frame Literal)) (out : List Item)
      (t : ValueScopes), flattenBody items ⟨f :: fs⟩ = .ok out t →
      (checkBody items (ValueScopes.types ⟨f :: fs⟩)).1 = t.types := by
  apply Item.body_induction
  case declaration =>
    intro d f fs out t h
    obtain ⟨v, -, -, rfl⟩ := Item.flatten_declaration_ok h
    rfl
  case assignment =>
    intro a f fs out t h
    exact Assignment.check_of_flatten (Item.flatten_assignment_ok h).1
  case ifClause =>
    intro clause ih f fs out t h
    obtain ⟨b, u, -, -, rfl⟩ := Item.flatten_ifClause_ok h
    rw [Item.check_ifClause]
  case nil =>
    intro f fs out t h
    cases h
    rfl
  case cons =>
    intro item items front back f fs out t h
    obtain ⟨first, g, rest, hf, hb, -⟩ := flattenBody_cons_ok h
    rw [checkBody_cons, front f fs first _ hf]
    exact back g fs rest t hb

theorem visit_found_body :
    (∀ (item : Item) (f : Frame Literal) (fs : List (Frame Literal)),
      ∀ v ∈ item.visits ⟨f :: fs⟩,
        v.findings ⊆ (item.check (ValueScopes.types ⟨f :: fs⟩)).2) ∧
    ∀ (items : List Item) (f : Frame Literal) (fs : List (Frame Literal)),
      ∀ v ∈ bodyVisits items ⟨f :: fs⟩,
        v.findings ⊆ (checkBody items (ValueScopes.types ⟨f :: fs⟩)).2 := by
  apply Item.body_induction
  case declaration =>
    intro d f fs v hv
    cases List.mem_singleton.1 hv
    exact List.Subset.refl _
  case assignment =>
    intro a f fs v hv
    cases List.mem_singleton.1 hv
    exact List.Subset.refl _
  case ifClause =>
    intro clause ih f fs v hv
    rw [Item.check_ifClause]
    rw [Item.visits_ifClause, List.mem_cons] at hv
    obtain rfl | hv := hv
    · exact List.subset_append_left _ _
    · refine List.subset_append_of_subset_right _ ?_
      split at hv
      · rename_i b _
        have found := ih b .empty (f :: fs) v hv
        -- Which of the two branches it is decides where its findings are put.
        cases b with
        | true => exact List.subset_append_of_subset_left _ found
        | false => exact List.subset_append_of_subset_right _ found
      · cases hv
  case nil => exact fun _ _ _ hv => nomatch hv
  case cons =>
    intro item items front back f fs v hv
    rw [checkBody_cons]
    rw [bodyVisits, List.mem_append] at hv
    obtain hv | hv := hv
    · exact List.subset_append_of_subset_left _ (front f fs v hv)
    · refine List.subset_append_of_subset_right _ ?_
      obtain ⟨g, ⟨out, h⟩ | ⟨e, h, -⟩⟩ := flattenBody_local.1 item f fs
      · rw [h] at hv
        rw [check_of_flattenBody.1 item f fs out _ h]
        exact back g fs v hv
      · rw [h] at hv
        cases hv

theorem visit_found_members (members : List Member) (f : Frame Literal)
    (fs : List (Frame Literal)) :
    ∀ v ∈ membersVisits members ⟨f :: fs⟩,
      v.findings ⊆ (checkMembers members (ValueScopes.types ⟨f :: fs⟩)).2 := by
  induction members generalizing f with
  | nil => exact fun _ hv => nomatch hv
  | cons member members ih =>
    intro v hv
    rw [checkMembers_cons]
    cases member with
    | assignment a =>
      rw [membersVisits, List.mem_cons] at hv
      obtain rfl | hv := hv
      · exact List.subset_append_of_subset_left _ (List.Subset.refl _)
      · refine List.subset_append_of_subset_right _ ?_
        obtain ⟨g, ⟨_, h⟩ | ⟨e, h, -⟩⟩ := a.flatten_local f fs
        · rw [h] at hv
          rw [show (Member.check (.assignment a) _).1 = _ from Assignment.check_of_flatten h]
          exact ih g v hv
        · rw [h] at hv
          cases hv
    | rule r =>
      rw [Member.check, r.check_eq]
      rw [membersVisits, List.mem_append] at hv
      obtain hv | hv := hv
      · exact List.subset_append_of_subset_left _
          (visit_found_body.2 r.body .empty (f :: fs) v hv)
      · refine List.subset_append_of_subset_right _ ?_
        rw [r.flatten_eq] at hv
        split at hv
        · rename_i body t h
          split at h
          · cases h
            exact ih f v hv
          · cases h
        · cases hv

/-- Whatever is found at a visit is found by the checker. -/
theorem Sheet.visit_found {sheet : Sheet} {v : Visit} (h : v ∈ sheet.visits) :
    v.findings ⊆ sheet.findings := by
  rw [sheet.findings_eq]
  exact visit_found_members sheet.members .empty [] v h

end Typesheet
