import Typesheet.Proofs.Flat

/-! Stylesheets without the branches that do not apply.

Flattening goes through one branch of each clause. `Sheet.prune` empties the others,
which makes no difference to flattening (`Sheet.flatten_prune`) but leaves the checker
to go where flattening goes. Of a pruned stylesheet and of what it flattens to the
checker says the same: both times it is what it finds at the visits of flattening
(`Sheet.findings_prune`, `Sheet.findings_of_flatten`). -/
namespace Typesheet

/-! ### Pruning -/

/-- A clause with a body for one of its branches and an empty one for the other. -/
def IfClause.withBranch (clause : IfClause Item) (b : Bool) (body : List Item) : IfClause Item :=
  {clause with
    body := if b then body else []
    otherwise := clause.otherwise.map fun o => {o with body := if b then [] else body}}

mutual

/-- An item whose clauses have only the branches that flattening takes. -/
def Item.prune : Item → ValueScopes → Item
  | .declaration d, _ => .declaration d
  | .assignment a, _ => .assignment a
  | .ifClause ⟨id, condition, body, otherwise, span⟩, s =>
    match condition.value s with
    | .ok (.bool true) =>
      .ifClause (IfClause.withBranch ⟨id, condition, body, otherwise, span⟩ true
        (pruneBody body s.push))
    | .ok (.bool false) =>
      match otherwise with
      | some ⟨elseId, elseBody, elseSpan⟩ =>
        .ifClause (IfClause.withBranch
          ⟨id, condition, body, some ⟨elseId, elseBody, elseSpan⟩, span⟩ false
          (pruneBody elseBody s.push))
      | none => .ifClause ⟨id, condition, [], none, span⟩
    | _ => .ifClause ⟨id, condition, body, otherwise, span⟩

/-- The items of a body with only the branches that flattening takes. -/
def pruneBody : List Item → ValueScopes → List Item
  | [], _ => []
  | item :: items, s =>
    item.prune s ::
      match item.flatten s with
      | .ok _ s => pruneBody items s
      | .error _ _ => items

end

/-- The members with only the branches that flattening takes. -/
def pruneMembers : List Member → ValueScopes → List Member
  | [], _ => []
  | .assignment a :: members, s =>
    .assignment a ::
      match a.flatten s with
      | .ok _ s => pruneMembers members s
      | .error _ _ => members
  | .rule r :: members, s =>
    .rule {r with body := pruneBody r.body s.push} ::
      match r.flatten s with
      | .ok _ s => pruneMembers members s
      | .error _ _ => members

/-- The stylesheet with the body of every branch emptied that flattening does not
take. -/
def Sheet.prune (sheet : Sheet) : Sheet :=
  {sheet with members := pruneMembers sheet.members Scopes.empty.push}

theorem IfClause.branch_withBranch (clause : IfClause Item) (b : Bool) (s : ValueScopes) :
    (clause.withBranch b (pruneBody (clause.branch b) s)).branch b =
      pruneBody (clause.branch b) s := by
  obtain ⟨id, condition, body, otherwise, span⟩ := clause
  cases b with
  | true => rfl
  | false => cases otherwise <;> rfl

theorem IfClause.branch_withBranch_not (clause : IfClause Item) (b : Bool) (body : List Item) :
    (clause.withBranch b body).branch (!b) = [] := by
  obtain ⟨id, condition, _, otherwise, span⟩ := clause
  cases b with
  | true => cases otherwise <;> rfl
  | false => rfl

theorem Item.prune_ifClause {clause : IfClause Item} {s : ValueScopes} {b : Bool}
    (h : clause.condition.value s = .ok (.bool b)) :
    (Item.ifClause clause).prune s =
      .ifClause (clause.withBranch b (pruneBody (clause.branch b) s.push)) := by
  obtain ⟨id, condition, body, otherwise, span⟩ := clause
  have h : condition.value s = .ok (.bool b) := h
  unfold Item.prune
  rw [h]
  cases b with
  | true => rfl
  | false => cases otherwise <;> rfl

theorem Item.prune_ifClause_of_not_bool {clause : IfClause Item} {s : ValueScopes}
    (h : ∀ b, clause.condition.value s ≠ .ok (.bool b)) :
    (Item.ifClause clause).prune s = .ifClause clause := by
  obtain ⟨id, condition, body, otherwise, span⟩ := clause
  unfold Item.prune
  split
  · exact absurd (by assumption) (h true)
  · exact absurd (by assumption) (h false)
  · rfl

/-! ### Flattening a pruned stylesheet -/

theorem flattenBody_prune :
    (∀ (item : Item) (f : Frame Literal) (fs : List (Frame Literal)),
      (item.prune ⟨f :: fs⟩).flatten ⟨f :: fs⟩ = item.flatten ⟨f :: fs⟩) ∧
    ∀ (items : List Item) (f : Frame Literal) (fs : List (Frame Literal)),
      flattenBody (pruneBody items ⟨f :: fs⟩) ⟨f :: fs⟩ = flattenBody items ⟨f :: fs⟩ := by
  apply Item.body_induction
  case declaration => exact fun _ _ _ => rfl
  case assignment => exact fun _ _ _ => rfl
  case ifClause =>
    intro clause ih f fs
    by_cases h : ∃ b, clause.condition.value ⟨f :: fs⟩ = .ok (.bool b)
    · obtain ⟨b, h⟩ := h
      have pruned : (clause.withBranch b
          (pruneBody (clause.branch b) (Scopes.push ⟨f :: fs⟩))).condition.value ⟨f :: fs⟩ =
            .ok (.bool b) := h
      rw [Item.prune_ifClause h, Item.flatten_ifClause, Item.flatten_ifClause, pruned, h]
      simp only [IfClause.branch_withBranch, (flattenBody_local.2 _).inScope_eq]
      rw [show Scopes.push ⟨f :: fs⟩ = ⟨.empty :: f :: fs⟩ from rfl, ih b .empty (f :: fs)]
    · rw [Item.prune_ifClause_of_not_bool fun b hb => h ⟨b, hb⟩]
  case nil => exact fun _ _ => rfl
  case cons =>
    intro item items front back f fs
    show ((item.prune ⟨f :: fs⟩).flatten >>= fun out => flattenBody _ >>= fun rest =>
      pure (out ++ rest)) _ = (item.flatten >>= fun out => flattenBody items >>= fun rest =>
      pure (out ++ rest)) _
    obtain ⟨g, ⟨out, h⟩ | ⟨e, h, -⟩⟩ := flattenBody_local.1 item f fs
    · rw [Flattening.bind_ok ((front f fs).trans h), Flattening.bind_ok h, h]
      cases hb : flattenBody items ⟨g :: fs⟩ with
      | ok rest t => rw [Flattening.bind_ok ((back g fs).trans hb), Flattening.bind_ok hb]
      | error e t => rw [Flattening.bind_error ((back g fs).trans hb), Flattening.bind_error hb]
    · rw [Flattening.bind_error ((front f fs).trans h), Flattening.bind_error h]

/-- A rule flattens to the same with its body pruned. -/
theorem Rule.flatten_prune (rule : Rule) (s : ValueScopes) :
    Rule.flatten {rule with body := pruneBody rule.body s.push} s = rule.flatten s := by
  have body : flattenBody (pruneBody rule.body s.push) s.push = flattenBody rule.body s.push :=
    flattenBody_prune.2 rule.body .empty s.frames
  rw [Rule.flatten_eq, Rule.flatten_eq]
  simp only [body]

theorem flattenMembers_prune (members : List Member) (f : Frame Literal)
    (fs : List (Frame Literal)) :
    flattenMembers (pruneMembers members ⟨f :: fs⟩) ⟨f :: fs⟩ =
      flattenMembers members ⟨f :: fs⟩ := by
  induction members generalizing f with
  | nil => rfl
  | cons member members ih =>
    cases member with
    | assignment a =>
      show (a.flatten >>= fun _ => flattenMembers _) _ =
        (a.flatten >>= fun _ => flattenMembers members) _
      obtain ⟨g, ⟨_, h⟩ | ⟨e, h, -⟩⟩ := a.flatten_local f fs
      · rw [Flattening.bind_ok h, Flattening.bind_ok h, h]
        exact ih g
      · rw [Flattening.bind_error h, Flattening.bind_error h]
    | rule r =>
      show (Rule.flatten _ >>= fun front => flattenMembers _ >>= fun back =>
        pure (.rule front :: back)) _ = (r.flatten >>= fun front => flattenMembers members >>=
        fun back => pure (.rule front :: back)) _
      have front := r.flatten_prune ⟨f :: fs⟩
      obtain ⟨g, ⟨out, h⟩ | ⟨e, h, -⟩⟩ := r.flatten_local f fs
      · rw [Flattening.bind_ok (front.trans h), Flattening.bind_ok h, h]
        cases hb : flattenMembers members ⟨g :: fs⟩ with
        | ok rest t => rw [Flattening.bind_ok ((ih g).trans hb), Flattening.bind_ok hb]
        | error e t => rw [Flattening.bind_error ((ih g).trans hb), Flattening.bind_error hb]
      · rw [Flattening.bind_error (front.trans h), Flattening.bind_error h]

/-- Pruning makes no difference to flattening. -/
theorem Sheet.flatten_prune (sheet : Sheet) : sheet.prune.flatten = sheet.flatten := by
  have members : flattenMembers (pruneMembers sheet.members Scopes.empty.push) Scopes.empty.push =
      flattenMembers sheet.members Scopes.empty.push := flattenMembers_prune sheet.members .empty []
  rw [flatten_eq, flatten_eq]
  simp only [prune, members]

/-! ### Checking a pruned stylesheet -/

/-- A condition with a value is a boolean, or it is the error. -/
theorem Visit.bool_of_error?_none {s : ValueScopes} {clause : IfClause Item}
    (h : Visit.error? ⟨s, .condition clause⟩ = none) :
    ∃ b, clause.condition.value s = .ok (.bool b) := by
  cases hv : clause.condition.value s with
  | error e => cases (error?_of_error (v := ⟨s, .condition clause⟩) hv).symm.trans h
  | ok v =>
    rw [error?_of_value (v := ⟨s, .condition clause⟩) hv] at h
    cases v with
    | color text => cases h
    | number d a => cases h
    | bool b => exact ⟨b, rfl⟩

/-- No visit of a body that is flattened has an error. -/
theorem error?_of_flattenBody {items out : List Item} {f : Frame Literal}
    {fs : List (Frame Literal)} {t : ValueScopes} (h : flattenBody items ⟨f :: fs⟩ = .ok out t) :
    ∀ v ∈ bodyVisits items ⟨f :: fs⟩, v.error? = none := by
  intro v hv
  cases he : v.error? with
  | none => rfl
  | some e =>
    have stops := (flattenBody_error_iff.2 items f fs e).2 ⟨v, hv, he⟩
    rw [Flattening.error?_ok h] at stops
    cases stops

theorem checkBody_prune :
    (∀ (item : Item) (f : Frame Literal) (fs : List (Frame Literal)) (out : List Item)
      (t : ValueScopes), item.flatten ⟨f :: fs⟩ = .ok out t →
      (item.prune ⟨f :: fs⟩).check (ValueScopes.types ⟨f :: fs⟩) =
        (t.types, (item.visits ⟨f :: fs⟩).flatMap Visit.findings)) ∧
    ∀ (items : List Item) (f : Frame Literal) (fs : List (Frame Literal)) (out : List Item)
      (t : ValueScopes), flattenBody items ⟨f :: fs⟩ = .ok out t →
      checkBody (pruneBody items ⟨f :: fs⟩) (ValueScopes.types ⟨f :: fs⟩) =
        (t.types, (bodyVisits items ⟨f :: fs⟩).flatMap Visit.findings) := by
  apply Item.body_induction
  case declaration =>
    intro d f fs out t h
    exact Prod.ext (check_of_flattenBody.1 _ f fs out t h) (List.append_nil _).symm
  case assignment =>
    intro a f fs out t h
    exact Prod.ext (check_of_flattenBody.1 _ f fs out t h) (List.append_nil _).symm
  case ifClause =>
    intro clause ih f fs out t h
    obtain ⟨b, u, hv, hb, rfl⟩ := Item.flatten_ifClause_ok h
    have taken := congrArg Prod.snd (ih b .empty (f :: fs) out u hb)
    have other := clause.branch_withBranch_not b
      (pruneBody (clause.branch b) (Scopes.push ⟨f :: fs⟩))
    rw [Item.prune_ifClause hv, Item.check_ifClause, Item.visits_ifClause, hv]
    refine Prod.ext rfl ?_
    -- The branch that is not taken is empty, so nothing is found in it.
    cases b with
    | true =>
      rw [IfClause.branch_withBranch, show IfClause.branch _ false = [] from other]
      show _ ++ (_ ++ []) = _ ++ _
      rw [List.append_nil]
      exact congrArg (_ ++ ·) taken
    | false =>
      rw [IfClause.branch_withBranch, show IfClause.branch _ true = [] from other]
      exact congrArg (_ ++ ·) taken
  case nil =>
    intro f fs out t h
    cases h
    rfl
  case cons =>
    intro item items front back f fs out t h
    obtain ⟨first, g, rest, hf, hb, -⟩ := flattenBody_cons_ok h
    rw [pruneBody, bodyVisits, checkBody_cons, front f fs first _ hf, hf]
    simp only [back g fs rest t hb, List.flatMap_append]

theorem checkMembers_prune {members out : List Member} {f : Frame Literal}
    {fs : List (Frame Literal)} {t : ValueScopes}
    (h : flattenMembers members ⟨f :: fs⟩ = .ok out t) :
    (checkMembers (pruneMembers members ⟨f :: fs⟩) (ValueScopes.types ⟨f :: fs⟩)).2 =
      (membersVisits members ⟨f :: fs⟩).flatMap Visit.findings := by
  induction members generalizing f out with
  | nil => rfl
  | cons member members ih =>
    cases member with
    | assignment a =>
      obtain ⟨g, ha, h⟩ := flattenMembers_assignment_ok h
      rw [pruneMembers, membersVisits, checkMembers_cons, ha,
        show (Member.check (.assignment a) _).1 = _ from Assignment.check_of_flatten ha, ih h]
      rfl
    | rule r =>
      obtain ⟨body, u, rest, hb, hr, hm, -⟩ := flattenMembers_rule_ok h
      have first := congrArg Prod.snd (checkBody_prune.2 r.body .empty (f :: fs) body u hb)
      rw [pruneMembers, membersVisits, checkMembers_cons, hr, Member.check, Rule.check_eq]
      show (checkBody (pruneBody r.body _) _).2 ++ _ = _
      rw [ih hm, List.flatMap_append]
      exact congrArg (· ++ _) first

/-- **In a pruned stylesheet the checker finds what it finds at the visits of
flattening.** -/
theorem Sheet.findings_prune {sheet flat : Sheet} (h : sheet.flatten = .ok flat) :
    sheet.prune.findings = sheet.visits.flatMap Visit.findings := by
  obtain ⟨members, t, hm, rfl⟩ := Sheet.flatten_ok h
  rw [findings_eq]
  exact checkMembers_prune hm

/-! ### Checking a flattened stylesheet -/

theorem Declaration.findings_folded {d : Declaration} {s : ValueScopes} {v : Literal}
    (h : d.value.value s = .ok v) (t : TypeScopes) :
    (d.folded v).findings t = d.findings s.types := by
  obtain ⟨type, found⟩ := Expr.value_ok h
  unfold findings
  rw [type, found]
  rfl

/-- What flattening leaves of visits without errors is found to be wrong where the
visits are, whatever is in scope. -/
theorem checkBody_outcomes {vs : List Visit} (h : ∀ v ∈ vs, v.error? = none) (t : TypeScopes) :
    checkBody (vs.filterMap Visit.outcome?) t = (t, vs.flatMap Visit.findings) := by
  induction vs with
  | nil => rfl
  | cons v vs ih =>
    have back := ih fun w hw => h w (List.mem_cons_of_mem _ hw)
    have stops := h v List.mem_cons_self
    obtain ⟨s, site⟩ := v
    rw [List.flatMap_cons]
    cases site with
    | declaration d =>
      cases hv : d.value.value s with
      | error e => cases (Visit.error?_of_error (v := ⟨s, .declaration d⟩) hv).symm.trans stops
      | ok value =>
        have outcome : Visit.outcome? ⟨s, .declaration d⟩ =
            some (.declaration (d.folded value)) := by
          simp only [Visit.outcome?, hv]
        rw [List.filterMap_cons_some outcome, checkBody_cons]
        show ((checkBody _ t).1, (d.folded value).findings t ++ (checkBody _ t).2) = _
        rw [back, Declaration.findings_folded hv]
        rfl
    | assignment a =>
      cases hv : a.value.value s with
      | error e => cases (Visit.error?_of_error (v := ⟨s, .assignment a⟩) hv).symm.trans stops
      | ok value =>
        rw [List.filterMap_cons_none rfl, back,
          show Visit.findings ⟨s, .assignment a⟩ = [] from (Expr.value_ok hv).2]
        rfl
    | condition clause =>
      obtain ⟨b, hv⟩ := Visit.bool_of_error?_none stops
      obtain ⟨type, found⟩ := Expr.value_ok hv
      have none : Visit.findings ⟨s, .condition clause⟩ = [] := by
        show conditionFindings _ _ _ _ = []
        unfold conditionFindings
        rw [type, found]
        rfl
      rw [List.filterMap_cons_none rfl, back, none]
      rfl

theorem checkMembers_of_flatten {members out : List Member} {f : Frame Literal}
    {fs : List (Frame Literal)} {t : ValueScopes}
    (h : flattenMembers members ⟨f :: fs⟩ = .ok out t) (s : TypeScopes) :
    (checkMembers out s).2 = (membersVisits members ⟨f :: fs⟩).flatMap Visit.findings := by
  induction members generalizing f out with
  | nil =>
    cases h
    rfl
  | cons member members ih =>
    cases member with
    | assignment a =>
      obtain ⟨g, ha, h⟩ := flattenMembers_assignment_ok h
      obtain ⟨v, hv, -⟩ := Assignment.flatten_ok ha
      rw [membersVisits, ha, List.flatMap_cons, ih h,
        show Visit.findings ⟨⟨f :: fs⟩, .assignment a⟩ = [] from (Expr.value_ok hv).2]
      rfl
    | rule r =>
      obtain ⟨body, u, rest, hb, hr, hm, rfl⟩ := flattenMembers_rule_ok h
      have first : checkBody body s.push =
          (s.push, (bodyVisits r.body (Scopes.push ⟨f :: fs⟩)).flatMap Visit.findings) := by
        rw [flattenBody_ok.2 r.body .empty (f :: fs) body u hb]
        exact checkBody_outcomes (error?_of_flattenBody hb) s.push
      rw [membersVisits, hr, checkMembers_cons, Member.check, Rule.check_eq, first]
      show _ ++ (checkMembers rest s).2 = _
      rw [ih hm, List.flatMap_append]

/-- **In a flattened stylesheet the checker finds what it finds at the visits of
flattening.** -/
theorem Sheet.findings_of_flatten {sheet flat : Sheet} (h : sheet.flatten = .ok flat) :
    flat.findings = sheet.visits.flatMap Visit.findings := by
  obtain ⟨members, t, hm, rfl⟩ := Sheet.flatten_ok h
  rw [findings_eq]
  exact checkMembers_of_flatten hm _

/-- What a stylesheet flattens to passes the checker if the stylesheet does. -/
theorem Sheet.checked_of_flatten {sheet flat : Sheet} (h : sheet.flatten = .ok flat)
    (checked : sheet.findings = []) : flat.findings = [] := by
  rw [Sheet.findings_of_flatten h, List.flatMap_eq_nil_iff]
  intro v hv
  have found := Sheet.visit_found hv
  rw [checked] at found
  exact List.subset_nil.1 found

/-! ### Main result -/

/-- The checker says the same of a stylesheet without the branches that do not apply
and of what the stylesheet flattens to: that properties do not suit the types of their
values. If it finds nothing in the stylesheet as it is, it finds nothing there. -/
theorem findings_of_pruned {sheet flat : Sheet} (h : sheet.flatten = .ok flat) :
    sheet.prune.findings = flat.findings ∧
      (∀ d ∈ flat.findings, ∃ rule decl, .rule rule ∈ flat.members ∧
        .declaration decl ∈ rule.body ∧ decl.IsMismatch d) ∧
      (sheet.findings = [] → flat.findings = []) := by
  refine ⟨?_, ?_, ?_⟩
  · rw [Sheet.findings_prune h, Sheet.findings_of_flatten h]
  · exact fun d hd => Sheet.mismatch_of_isFlat (Sheet.isFlat_of_flatten h) hd
  · exact Sheet.checked_of_flatten h

/-- A width that suits nobody where a condition is true, and an unknown one where it is
false. -/
def twoWidths : Sheet :=
  let place (start stop : Nat) : Span := ⟨⟨start, "widths"⟩, ⟨stop, "widths"⟩⟩
  let holds : Declaration :=
    ⟨4, "width", .literal 3 (.number .scalar 1) (place 27 28), place 20 29⟩
  let fails : Declaration := ⟨7, "width", .reference 6 "Ghost" (place 47 52), place 40 53⟩
  let clause : IfClause Item := ⟨2, .literal 1 (.bool true) (place 8 12), [.declaration holds],
    some ⟨5, [.declaration fails], place 32 55⟩, place 4 55⟩
  ⟨[.rule ⟨8, [.tag "p"], [.ifClause clause], place 0 57⟩], place 0 57⟩

/-- What `twoWidths` flattens to. -/
def oneWidth : Sheet :=
  let place (start stop : Nat) : Span := ⟨⟨start, "widths"⟩, ⟨stop, "widths"⟩⟩
  let holds : Declaration :=
    ⟨4, "width", .literal 3 (.number .scalar 1) (place 27 28), place 20 29⟩
  ⟨[.rule ⟨8, [.tag "p"], [.declaration holds], place 0 57⟩], place 0 57⟩

theorem findings_of_pruned_twoWidths :
    twoWidths.flatten = .ok oneWidth ∧ twoWidths.prune.findings = oneWidth.findings :=
  ⟨rfl, (findings_of_pruned (show twoWidths.flatten = .ok oneWidth from rfl)).1⟩

end Typesheet
