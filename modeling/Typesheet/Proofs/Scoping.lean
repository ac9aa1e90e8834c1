import Typesheet.Flatten
import Typesheet.Typing

/-! Both passes leave the scopes as they found them.

Checking and flattening work on a stack of frames, and each touches the innermost
frame only (`checkBody_local`, `flattenBody_local`): a body binds names in the frame that
was opened for it, and what it opens it closes again, also after an error. So a
body in a scope of its own has no effect but its result (`Check.Local.inScope_eq`,
`Flattening.Local.inScope_eq`), and no pass ever runs out of frames.

The frames of the two passes are compared through `Scopes.map`: a checker whose
scopes are the types of a flattening's values sees what the flattening sees. -/
namespace Typesheet

/-! ### Steps that can fail -/

/-- Two steps succeed if both do. -/
theorem bind_eq_ok_iff {ε α β : Type} {x : Except ε α} {k : α → Except ε β} {b : β} :
    (x >>= k) = .ok b ↔ ∃ a, x = .ok a ∧ k a = .ok b := by
  cases x with
  | error e => exact ⟨fun h => (nomatch h), fun ⟨_, h, _⟩ => (nomatch h)⟩
  | ok a =>
    refine ⟨fun h => ⟨a, rfl, h⟩, ?_⟩
    rintro ⟨_, ⟨⟩, h⟩
    exact h

/-! ### Scopes seen through a function -/

namespace Frame
variable {α β : Type}

/-- The same names, each with its value seen through `g`. -/
def map (g : α → β) (f : Frame α) : Frame β := ⟨f.bindings.map fun (n, v) => (n, g v)⟩

theorem find?_map (g : α → β) (f : Frame α) (name : String) :
    (f.map g).find? name = (f.find? name).map g := by
  obtain ⟨bindings⟩ := f
  unfold map find?
  induction bindings with
  | nil => rfl
  | cons binding bindings ih =>
    obtain ⟨n, v⟩ := binding
    rw [List.map_cons, List.lookup_cons, List.lookup_cons]
    cases name == n
    · exact ih
    · rfl

theorem map_put (g : α → β) (name : String) (value : α) (bindings : List (String × α)) :
    (put name value bindings).map (fun (n, v) => (n, g v)) =
      put name (g value) (bindings.map fun (n, v) => (n, g v)) := by
  induction bindings with
  | nil => rfl
  | cons binding bindings ih =>
    obtain ⟨n, v⟩ := binding
    by_cases h : n = name
    · simp [put, h]
    · simp [put, h, ih]

theorem map_define (g : α → β) (f : Frame α) (name : String) (value : α) :
    (f.define name value).map g = (f.map g).define name (g value) :=
  congrArg Frame.mk (map_put g name value f.bindings)

end Frame

namespace Scopes
variable {α β : Type}

/-- The same frames, each value seen through `g`. -/
def map (g : α → β) (s : Scopes α) : Scopes β := ⟨s.frames.map (Frame.map g)⟩

theorem find?_map (g : α → β) (s : Scopes α) (name : String) :
    (s.map g).find? name = (s.find? name).map g := by
  obtain ⟨frames⟩ := s
  unfold map find?
  induction frames with
  | nil => rfl
  | cons f fs ih =>
    simp only [List.map_cons, List.findSome?_cons, Frame.find?_map]
    cases f.find? name
    · exact ih
    · rfl

end Scopes

/-- The types of the values in scope. -/
def ValueScopes.types (s : ValueScopes) : TypeScopes := s.map Literal.type

/-! ### The branches of a clause -/

/-- The body that applies by the value of the condition, empty where there is no
else-clause. -/
def IfClause.branch (clause : IfClause Item) : Bool → List Item
  | true => clause.body
  | false => (clause.otherwise.map (·.body)).getD []

/-- Induction over items and bodies: a clause is known once both its branches are. -/
theorem Item.body_induction {P : Item → Prop} {Q : List Item → Prop}
    (declaration : ∀ d, P (.declaration d)) (assignment : ∀ a, P (.assignment a))
    (ifClause : ∀ clause : IfClause Item, (∀ b, Q (clause.branch b)) → P (.ifClause clause))
    (nil : Q []) (cons : ∀ item items, P item → Q items → Q (item :: items)) :
    (∀ item, P item) ∧ ∀ items, Q items := by
  have clauses : ∀ (id : NodeId) (condition : Expr) (body : List Item)
      (otherwise : Option (ElseClause Item)) (span : Span), Q body →
      (∀ other, otherwise = some other → Q other.body) →
        P (.ifClause ⟨id, condition, body, otherwise, span⟩) := by
    intro id condition body otherwise span hbody hother
    apply ifClause
    rintro (_ | _)
    · cases otherwise with
      | none => exact nil
      | some other => exact hother other rfl
    · exact hbody
  constructor
  · refine Item.flatten.induct P Q declaration assignment ?_ nil cons
    refine fun id condition body otherwise span hbody hother => clauses _ _ _ _ _ hbody ?_
    rintro _ rfl
    exact hother
  · refine flattenBody.induct P Q declaration assignment ?_ nil cons
    refine fun id condition body otherwise span hbody hother => clauses _ _ _ _ _ hbody ?_
    rintro _ rfl
    exact hother

/-! ### Checking -/

namespace Check

/-- A check that changes the innermost frame only. -/
def Local (c : Check) : Prop := ∀ f fs, ∃ g, (c ⟨f :: fs⟩).1 = ⟨g :: fs⟩

namespace Local

theorem report (found : TypeScopes → List Diagnostic) : Local (Check.report found) :=
  fun f _ => ⟨f, rfl⟩

theorem sequence {c d : Check} (hc : Local c) (hd : Local d) : Local (Check.sequence c d) := by
  intro f fs
  obtain ⟨g, hg⟩ := hc f fs
  obtain ⟨k, hk⟩ := hd g fs
  refine ⟨k, ?_⟩
  show (d (c ⟨f :: fs⟩).1).1 = _
  rw [hg, hk]

/-- A body in a scope of its own leaves nothing behind but what was found in it. -/
theorem inScope_eq {c : Check} (hc : Local c) (s : TypeScopes) :
    Check.inScope c s = (s, (c s.push).2) := by
  obtain ⟨g, hg⟩ := hc .empty s.frames
  have hpop : (c s.push).1.pop = .ok (g, s) := by
    show (c ⟨.empty :: s.frames⟩).1.pop = _
    rw [hg]
    rfl
  simp only [Check.inScope, hpop]

theorem inScope {c : Check} (hc : Local c) : Local (Check.inScope c) :=
  fun f _ => ⟨f, by rw [hc.inScope_eq]⟩

end Local

end Check

theorem Assignment.check_local (a : Assignment) : Check.Local a.check :=
  fun f _ => ⟨f.define a.name (a.value.type _), rfl⟩

theorem checkBody_local : (∀ item : Item, Check.Local item.check) ∧
    ∀ items, Check.Local (checkBody items) := by
  apply Item.body_induction
  case declaration => exact fun d => .report d.findings
  case assignment => exact Assignment.check_local
  case ifClause =>
    rintro ⟨id, condition, body, otherwise, span⟩ ih
    unfold Item.check
    refine .sequence (.report _) (.sequence (.inScope (ih true)) ?_)
    cases otherwise with
    | none => exact .report _
    | some _ => exact .inScope (ih false)
  case nil => exact .report _
  case cons => exact fun _ _ front back => .sequence front back

theorem Item.check_ifClause (clause : IfClause Item) (s : TypeScopes) :
    (Item.ifClause clause).check s =
      (s, conditionFindings clause.id clause.condition clause.span s ++
        ((checkBody (clause.branch true) s.push).2 ++
          (checkBody (clause.branch false) s.push).2)) := by
  obtain ⟨id, condition, body, otherwise, span⟩ := clause
  have hbody := (checkBody_local.2 body).inScope_eq s
  cases otherwise with
  | none =>
    simp only [Item.check, Check.sequence, Check.report, hbody]
    rfl
  | some otherwise =>
    have hother := (checkBody_local.2 otherwise.body).inScope_eq s
    simp only [Item.check, Check.sequence, Check.report, hbody, hother]
    rfl

theorem Rule.check_eq (rule : Rule) (s : TypeScopes) :
    rule.check s = (s, (checkBody rule.body s.push).2) :=
  (checkBody_local.2 rule.body).inScope_eq s

theorem Member.check_local (member : Member) : Check.Local member.check := by
  cases member with
  | assignment a => exact a.check_local
  | rule r => exact .inScope (checkBody_local.2 r.body)

theorem checkMembers_local (members : List Member) : Check.Local (checkMembers members) := by
  induction members with
  | nil => exact .report _
  | cons member members ih => exact .sequence member.check_local ih

theorem Sheet.findings_eq (sheet : Sheet) :
    sheet.findings = (checkMembers sheet.members Scopes.empty.push).2 := by
  unfold Sheet.findings Checker.check Checker.fresh
  rw [(checkMembers_local sheet.members).inScope_eq]
  rfl

/-! ### Flattening -/

namespace Flattening
variable {α β : Type}

/-- A step that changes the innermost frame only, and never asks for a frame that
is not there. -/
def Local (m : Flattening α) : Prop :=
  ∀ f fs, ∃ g, (∃ a, m ⟨f :: fs⟩ = .ok a ⟨g :: fs⟩) ∨
    ∃ e, m ⟨f :: fs⟩ = .error e ⟨g :: fs⟩ ∧ e.cause ≠ .scopeUnderflow

theorem bind_ok {m : Flattening α} {k : α → Flattening β} {s t : ValueScopes} {a : α}
    (h : m s = .ok a t) : (m >>= k) s = k a t := by
  show EStateM.bind m k s = _
  simp only [EStateM.bind, h]

theorem bind_error {m : Flattening α} {k : α → Flattening β} {s t : ValueScopes} {e : Error}
    (h : m s = .error e t) : (m >>= k) s = .error e t := by
  show EStateM.bind m k s = _
  simp only [EStateM.bind, h]

theorem value_ok {e : Expr} {s : ValueScopes} {v : Literal} (h : e.value s = .ok v) :
    value e s = .ok v s := by
  simp only [value, h]

theorem value_error {e : Expr} {s : ValueScopes} {error : Error} (h : e.value s = .error error) :
    value e s = .error error s := by
  simp only [value, h]

namespace Local

theorem pure (a : α) : Local (Pure.pure a : Flattening α) := fun f _ => ⟨f, .inl ⟨a, rfl⟩⟩

theorem bind {m : Flattening α} {k : α → Flattening β} (hm : Local m) (hk : ∀ a, Local (k a)) :
    Local (m >>= k) := by
  intro f fs
  obtain ⟨g, ⟨a, h⟩ | ⟨e, h, he⟩⟩ := hm f fs
  · rw [bind_ok h]
    exact hk a g fs
  · exact ⟨g, .inr ⟨e, bind_error h, he⟩⟩

/-- A body in a scope of its own leaves nothing behind but its result. -/
theorem inScope_eq {m : Flattening α} (hm : Local m) (s : ValueScopes) :
    Flattening.inScope m s =
      match m s.push with
      | .ok a _ => .ok a s
      | .error e _ => .error e s := by
  obtain ⟨g, ⟨a, h⟩ | ⟨e, h, _⟩⟩ := hm .empty s.frames
  · have h : m s.push = .ok a ⟨g :: s.frames⟩ := h
    simp only [Flattening.inScope, h]
    rfl
  · have h : m s.push = .error e ⟨g :: s.frames⟩ := h
    simp only [Flattening.inScope, h]
    rfl

theorem inScope {m : Flattening α} (hm : Local m) : Local (Flattening.inScope m) := by
  intro f fs
  rw [hm.inScope_eq]
  obtain ⟨g, ⟨a, h⟩ | ⟨e, h, he⟩⟩ := hm .empty (f :: fs)
  · exact ⟨f, .inl ⟨a, by rw [show m (Scopes.push ⟨f :: fs⟩) = _ from h]⟩⟩
  · exact ⟨f, .inr ⟨e, by rw [show m (Scopes.push ⟨f :: fs⟩) = _ from h], he⟩⟩

end Local

end Flattening

open Flattening (bind_ok bind_error value_ok value_error)

/-- The error of an operation is one of arithmetic. -/
theorem Operator.apply_error {op : Operator} {l r : Literal} {cause : Cause}
    (h : op.apply l r = .error cause) :
    cause = .arithmeticOverflow op.symbol ∨ cause = op.mismatch l.type r.type := by
  unfold Operator.apply at h
  split at h
  · split at h
    · split at h
      · cases h
      · cases h
        exact .inl rfl
    · cases h
      exact .inr rfl
  · cases h
    exact .inr rfl

theorem Expr.value_ne_underflow {s : ValueScopes} {e : Expr} {error : Error}
    (h : e.value s = .error error) : error.cause ≠ .scopeUnderflow := by
  induction e with
  | literal => cases h
  | reference id name span =>
    unfold Expr.value at h
    split at h
    · cases h
    · cases h
      exact Cause.noConfusion
  | operation id op left right span ihl ihr =>
    unfold Expr.value at h
    cases hl : left.value s with
    | error e =>
      rw [hl] at h
      cases h
      exact ihl hl
    | ok l =>
      cases hr : right.value s with
      | error e =>
        rw [hl, hr] at h
        cases h
        exact ihr hr
      | ok r =>
        simp only [hl, hr, bind, Except.bind] at h
        split at h
        · cases h
        · rename_i cause hop
          cases h
          obtain rfl | rfl := Operator.apply_error hop <;> exact Cause.noConfusion

/-- A declaration with its value known, under the number and span it had. -/
def Declaration.folded (d : Declaration) (v : Literal) : Declaration :=
  {d with value := .literal d.value.id v d.value.span}

theorem Item.flatten_declaration (d : Declaration) (s : ValueScopes) :
    (Item.declaration d).flatten s =
      match d.value.value s with
      | .ok v => .ok [.declaration (d.folded v)] s
      | .error e => .error e s := by
  unfold Item.flatten
  cases h : d.value.value s with
  | ok v => exact bind_ok (bind_ok (value_ok h))
  | error e => exact bind_error (bind_error (value_error h))

theorem Assignment.flatten_eq (a : Assignment) (f : Frame Literal) (fs : List (Frame Literal)) :
    a.flatten ⟨f :: fs⟩ =
      match a.value.value ⟨f :: fs⟩ with
      | .ok v => .ok () ⟨f.define a.name v :: fs⟩
      | .error e => .error e ⟨f :: fs⟩ := by
  unfold Assignment.flatten
  cases h : a.value.value ⟨f :: fs⟩ with
  | ok v =>
    rw [bind_ok (value_ok h)]
    rfl
  | error e => exact bind_error (value_error h)

theorem Assignment.flatten_local (a : Assignment) : Flattening.Local a.flatten := by
  intro f fs
  rw [a.flatten_eq]
  cases h : a.value.value ⟨f :: fs⟩ with
  | ok v => exact ⟨f.define a.name v, .inl ⟨(), rfl⟩⟩
  | error e => exact ⟨f, .inr ⟨e, rfl, Expr.value_ne_underflow h⟩⟩

/-- A clause comes to what the branch comes to that its condition selects. -/
theorem Item.flatten_ifClause (clause : IfClause Item) (s : ValueScopes) :
    (Item.ifClause clause).flatten s =
      match clause.condition.value s with
      | .ok (.bool b) => Flattening.inScope (flattenBody (clause.branch b)) s
      | .ok other => .error ⟨.conditionNotBoolean other.type.text, clause.span.start⟩ s
      | .error e => .error e s := by
  obtain ⟨id, condition, body, otherwise, span⟩ := clause
  unfold Item.flatten
  have holds : Flattening.holds condition span s =
      match condition.value s with
      | .ok (.bool b) => .ok b s
      | .ok other => .error ⟨.conditionNotBoolean other.type.text, span.start⟩ s
      | .error e => .error e s := by
    unfold Flattening.holds
    cases h : condition.value s with
    | error e => exact bind_error (value_error h)
    | ok v =>
      rw [bind_ok (value_ok h)]
      cases v <;> rfl
  cases h : condition.value s with
  | error e => exact bind_error (by rw [holds, h])
  | ok v =>
    rw [h] at holds
    cases v with
    | color text => exact bind_error holds
    | number d a => exact bind_error holds
    | bool b =>
      rw [bind_ok holds]
      cases b with
      | true => rfl
      | false => cases otherwise <;> rfl

theorem flattenBody_local : (∀ item : Item, Flattening.Local item.flatten) ∧
    ∀ items, Flattening.Local (flattenBody items) := by
  apply Item.body_induction
  case declaration =>
    intro d f fs
    rw [Item.flatten_declaration]
    cases h : d.value.value ⟨f :: fs⟩ with
    | ok v => exact ⟨f, .inl ⟨_, rfl⟩⟩
    | error e => exact ⟨f, .inr ⟨e, rfl, Expr.value_ne_underflow h⟩⟩
  case assignment => exact fun a => a.flatten_local.bind fun _ => .pure []
  case ifClause =>
    intro clause ih f fs
    rw [Item.flatten_ifClause]
    cases h : clause.condition.value ⟨f :: fs⟩ with
    | error e => exact ⟨f, .inr ⟨e, rfl, Expr.value_ne_underflow h⟩⟩
    | ok v =>
      cases v with
      | color text => exact ⟨f, .inr ⟨_, rfl, Cause.noConfusion⟩⟩
      | number d a => exact ⟨f, .inr ⟨_, rfl, Cause.noConfusion⟩⟩
      | bool b => exact (ih b).inScope f fs
  case nil => exact .pure []
  case cons => exact fun _ _ front back => front.bind fun _ => back.bind fun _ => .pure _

theorem Rule.flatten_eq (rule : Rule) (s : ValueScopes) :
    rule.flatten s =
      match flattenBody rule.body s.push with
      | .ok body _ => .ok {rule with body} s
      | .error e _ => .error e s := by
  have h := (flattenBody_local.2 rule.body).inScope_eq s
  unfold Rule.flatten
  cases hb : flattenBody rule.body s.push with
  | ok body t => exact bind_ok (by rw [h, hb])
  | error e t => exact bind_error (by rw [h, hb])

theorem Rule.flatten_local (rule : Rule) : Flattening.Local rule.flatten :=
  (flattenBody_local.2 rule.body).inScope.bind fun _ => .pure _

theorem flattenMembers_local (members : List Member) :
    Flattening.Local (flattenMembers members) := by
  induction members with
  | nil => exact .pure []
  | cons member members ih =>
    cases member with
    | assignment a => exact a.flatten_local.bind fun _ => ih
    | rule r => exact r.flatten_local.bind fun _ => ih.bind fun _ => .pure _

theorem Sheet.flatten_eq (sheet : Sheet) :
    sheet.flatten =
      match flattenMembers sheet.members Scopes.empty.push with
      | .ok members _ => .ok {sheet with members}
      | .error e _ => .error e := by
  have h := (flattenMembers_local sheet.members).inScope_eq Scopes.empty
  unfold Sheet.flatten Sheet.flattenIn
  cases hm : flattenMembers sheet.members Scopes.empty.push with
  | ok members t =>
    rw [hm] at h
    rw [bind_ok h]
    rfl
  | error e t =>
    rw [hm] at h
    rw [bind_error h]

/-! ### What a flattening that succeeds has done -/

section
variable {f : Frame Literal} {fs : List (Frame Literal)} {s t : ValueScopes}

theorem Item.flatten_declaration_ok {d : Declaration} {out : List Item}
    (h : (Item.declaration d).flatten s = .ok out t) :
    ∃ v, d.value.value s = .ok v ∧ out = [.declaration (d.folded v)] ∧ t = s := by
  rw [Item.flatten_declaration] at h
  cases hv : d.value.value s with
  | error e =>
    rw [hv] at h
    cases h
  | ok v =>
    rw [hv] at h
    cases h
    exact ⟨v, rfl, rfl, rfl⟩

theorem Assignment.flatten_ok {a : Assignment} (h : a.flatten ⟨f :: fs⟩ = .ok () t) :
    ∃ v, a.value.value ⟨f :: fs⟩ = .ok v ∧ t = ⟨f.define a.name v :: fs⟩ := by
  rw [a.flatten_eq] at h
  cases hv : a.value.value ⟨f :: fs⟩ with
  | error e =>
    rw [hv] at h
    cases h
  | ok v =>
    rw [hv] at h
    cases h
    exact ⟨v, rfl, rfl⟩

theorem Item.flatten_assignment_ok {a : Assignment} {out : List Item}
    (h : (Item.assignment a).flatten s = .ok out t) : a.flatten s = .ok () t ∧ out = [] := by
  have h : (a.flatten >>= fun _ => pure []) s = .ok out t := h
  cases ha : a.flatten s with
  | error e u =>
    rw [bind_error ha] at h
    cases h
  | ok _ u =>
    rw [bind_ok ha] at h
    cases h
    exact ⟨rfl, rfl⟩

theorem Item.flatten_ifClause_ok {clause : IfClause Item} {out : List Item}
    (h : (Item.ifClause clause).flatten s = .ok out t) :
    ∃ b u, clause.condition.value s = .ok (.bool b) ∧
      flattenBody (clause.branch b) s.push = .ok out u ∧ t = s := by
  rw [Item.flatten_ifClause] at h
  cases hv : clause.condition.value s with
  | error e =>
    rw [hv] at h
    cases h
  | ok v =>
    rw [hv] at h
    cases v with
    | color text => cases h
    | number d a => cases h
    | bool b =>
      simp only [(flattenBody_local.2 _).inScope_eq] at h
      cases hb : flattenBody (clause.branch b) s.push with
      | error e u =>
        rw [hb] at h
        cases h
      | ok body u =>
        rw [hb] at h
        cases h
        exact ⟨b, u, rfl, hb, rfl⟩

theorem flattenBody_cons_ok {item : Item} {items out : List Item}
    (h : flattenBody (item :: items) ⟨f :: fs⟩ = .ok out t) :
    ∃ first g rest, item.flatten ⟨f :: fs⟩ = .ok first ⟨g :: fs⟩ ∧
      flattenBody items ⟨g :: fs⟩ = .ok rest t ∧ out = first ++ rest := by
  have h : (item.flatten >>= fun first => flattenBody items >>= fun rest =>
    pure (first ++ rest)) ⟨f :: fs⟩ = .ok out t := h
  obtain ⟨g, ⟨first, hf⟩ | ⟨e, hf, -⟩⟩ := flattenBody_local.1 item f fs
  · rw [bind_ok hf] at h
    cases hb : flattenBody items ⟨g :: fs⟩ with
    | error e u =>
      rw [bind_error hb] at h
      cases h
    | ok rest u =>
      rw [bind_ok hb] at h
      cases h
      exact ⟨first, g, rest, hf, hb, rfl⟩
  · rw [bind_error hf] at h
    cases h

theorem Rule.flatten_ok {rule out : Rule} (h : rule.flatten s = .ok out t) :
    ∃ body u, flattenBody rule.body s.push = .ok body u ∧ out = {rule with body} ∧ t = s := by
  rw [rule.flatten_eq] at h
  cases hb : flattenBody rule.body s.push with
  | error e u =>
    rw [hb] at h
    cases h
  | ok body u =>
    rw [hb] at h
    cases h
    exact ⟨body, u, rfl, rfl, rfl⟩

theorem flattenMembers_assignment_ok {a : Assignment} {members out : List Member}
    (h : flattenMembers (.assignment a :: members) ⟨f :: fs⟩ = .ok out t) :
    ∃ g, a.flatten ⟨f :: fs⟩ = .ok () ⟨g :: fs⟩ ∧
      flattenMembers members ⟨g :: fs⟩ = .ok out t := by
  have h : (a.flatten >>= fun _ => flattenMembers members) ⟨f :: fs⟩ = .ok out t := h
  obtain ⟨g, ⟨_, ha⟩ | ⟨e, ha, -⟩⟩ := a.flatten_local f fs
  · rw [bind_ok ha] at h
    exact ⟨g, ha, h⟩
  · rw [bind_error ha] at h
    cases h

theorem flattenMembers_rule_ok {rule : Rule} {members out : List Member}
    (h : flattenMembers (.rule rule :: members) s = .ok out t) :
    ∃ body u rest, flattenBody rule.body s.push = .ok body u ∧
      rule.flatten s = .ok {rule with body} s ∧
      flattenMembers members s = .ok rest t ∧ out = .rule {rule with body} :: rest := by
  have run : (rule.flatten >>= fun front => flattenMembers members >>= fun back =>
    pure (.rule front :: back)) s = .ok out t := h
  cases hr : rule.flatten s with
  | error e u =>
    rw [bind_error hr] at run
    cases run
  | ok front u =>
    rw [bind_ok hr] at run
    obtain ⟨body, w, hb, rfl, rfl⟩ := Rule.flatten_ok hr
    cases hm : flattenMembers members u with
    | error e v =>
      rw [bind_error hm] at run
      cases run
    | ok rest v =>
      rw [bind_ok hm] at run
      cases run
      exact ⟨body, w, rest, hb, rfl, rfl, rfl⟩

theorem Sheet.flatten_ok {sheet flat : Sheet} (h : sheet.flatten = .ok flat) :
    ∃ members t, flattenMembers sheet.members Scopes.empty.push = .ok members t ∧
      flat = {sheet with members} := by
  rw [sheet.flatten_eq] at h
  cases hm : flattenMembers sheet.members Scopes.empty.push with
  | error e t =>
    rw [hm] at h
    cases h
  | ok members t =>
    rw [hm] at h
    cases h
    exact ⟨members, t, rfl, rfl⟩

end

end Typesheet
