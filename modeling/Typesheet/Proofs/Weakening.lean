import Typesheet.Proofs.Environment
import Typesheet.Proofs.Visits

/-! More in scope.

A stylesheet in which nothing is wrong refers to no variable that it does not assign
first, so what other variables are in scope around it makes no difference: nothing is
wrong in it there either (`checkMembers_within`), and it comes to the same rules
(`evaluateMembers_within`). -/
namespace Typesheet

/-! ### Checking with more in scope -/

/-- What stands for something in the first scopes stands for the same in the others, and
there a body is open. -/
structure TypeScopes.Within (s t : TypeScopes) : Prop where
  find : ∀ name τ, s.find? name = some τ → t.find? name = some τ
  opened : t.frames ≠ []

namespace TypeScopes.Within
variable {s t : TypeScopes}

theorem push (h : s.Within t) : Within s.push t.push := ⟨h.find, List.cons_ne_nil _ _⟩

theorem define {s' : TypeScopes} (h : s.Within t) (name : String) (τ : ValueType)
    (hs : s.define name τ = .ok s') : ∃ t', t.define name τ = .ok t' ∧ s'.Within t' := by
  obtain ⟨frames⟩ := t
  cases frames with
  | nil => exact absurd rfl h.opened
  | cons f fs =>
    have ht : Scopes.define ⟨f :: fs⟩ name τ = .ok ⟨f.define name τ :: fs⟩ := rfl
    refine ⟨_, ht, ⟨fun other σ hother => ?_, List.cons_ne_nil _ _⟩⟩
    rw [Scopes.find?_define hs] at hother
    rw [Scopes.find?_define ht]
    by_cases same : other = name
    · rwa [if_pos same] at hother ⊢
    · rw [if_neg same] at hother ⊢
      exact h.find other σ hother

/-- Where nothing is wrong with an expression, its variables are in scope. -/
theorem expr (h : s.Within t) {e : Expr} (checked : e.findings s = []) :
    e.findings t = [] ∧ e.type t = e.type s := by
  induction e with
  | literal => exact ⟨rfl, rfl⟩
  | reference id name span =>
    have found : ∃ τ, s.find? name = some τ := by
      rw [Expr.findings] at checked
      split at checked
      · rename_i defined
        exact Option.isSome_iff_exists.1 defined
      · cases checked
    obtain ⟨τ, hs⟩ := found
    have ht := h.find name τ hs
    constructor
    · rw [Expr.findings, Scopes.isDefined, ht]
      rfl
    · rw [Expr.type, Expr.type, hs, ht]
  | operation id op left right span ihl ihr =>
    simp only [Expr.findings, List.append_eq_nil_iff] at checked
    obtain ⟨own, hl, hr⟩ := checked
    obtain ⟨hl, typeLeft⟩ := ihl hl
    obtain ⟨hr, typeRight⟩ := ihr hr
    constructor
    · simp only [Expr.findings, typeLeft, typeRight, own, hl, hr, List.append_nil]
    · rw [Expr.type, Expr.type, typeLeft, typeRight]

theorem declaration (h : s.Within t) {d : Declaration} (checked : d.findings s = []) :
    d.findings t = [] := by
  unfold Declaration.findings at checked ⊢
  obtain ⟨own, value⟩ := List.append_eq_nil_iff.1 checked
  obtain ⟨value, type⟩ := h.expr value
  simp only [type, own, value, List.append_nil]

theorem condition (h : s.Within t) {id : NodeId} {e : Expr} {span : Span}
    (checked : conditionFindings id e span s = []) : conditionFindings id e span t = [] := by
  unfold conditionFindings at checked ⊢
  obtain ⟨own, value⟩ := List.append_eq_nil_iff.1 checked
  obtain ⟨value, type⟩ := h.expr value
  simp only [type, own, value, List.append_nil]

end TypeScopes.Within

namespace Check

/-- Where the check finds nothing wrong, it finds nothing wrong with more in scope, and there
is more in scope behind it. -/
def Weakens (c : Check) : Prop := ∀ s t : TypeScopes, s.Within t → (c s).2 = [] →
  (c t).2 = [] ∧ (c s).1.Within (c t).1

namespace Weakens

theorem report {found : TypeScopes → List Diagnostic}
    (h : ∀ s t : TypeScopes, s.Within t → found s = [] → found t = []) :
    Weakens (Check.report found) := fun s t within checked => ⟨h s t within checked, within⟩

theorem sequence {c d : Check} (hc : Weakens c) (hd : Weakens d) :
    Weakens (Check.sequence c d) := by
  intro s t within checked
  obtain ⟨first, second⟩ := List.append_eq_nil_iff.1 checked
  obtain ⟨first, within⟩ := hc s t within first
  obtain ⟨second, within⟩ := hd _ _ within second
  exact ⟨List.append_eq_nil_iff.2 ⟨first, second⟩, within⟩

theorem inScope {c : Check} (hc : Weakens c) (only : Local c) : Weakens (Check.inScope c) := by
  intro s t within checked
  rw [only.inScope_eq] at checked
  rw [only.inScope_eq, only.inScope_eq]
  exact ⟨(hc s.push t.push within.push checked).1, within⟩

end Weakens

end Check

open Check (Weakens)

theorem Assignment.check_weakens (a : Assignment) : Weakens a.check := by
  intro s t within checked
  unfold Assignment.check at checked ⊢
  cases hs : s.define a.name (a.value.type s) with
  | error e =>
    simp [hs] at checked
  | ok s' =>
    simp only [hs] at checked
    obtain ⟨value, type⟩ := within.expr checked
    obtain ⟨t', ht, within⟩ := within.define _ _ hs
    simp only [type, ht]
    exact ⟨value, within⟩

theorem checkBody_weakens : (∀ item : Item, Weakens item.check) ∧
    ∀ items, Weakens (checkBody items) := by
  apply Item.body_induction
  case declaration => exact fun d => .report fun _ _ within => within.declaration
  case assignment => exact Assignment.check_weakens
  case ifClause =>
    rintro ⟨id, condition, body, otherwise, span⟩ ih
    unfold Item.check
    refine .sequence (.report fun _ _ within => within.condition) ?_
    refine .sequence (.inScope (ih true) (checkBody_local.2 _)) ?_
    cases otherwise with
    | none => exact .report fun _ _ _ _ => rfl
    | some _ => exact .inScope (ih false) (checkBody_local.2 _)
  case nil => exact .report fun _ _ _ _ => rfl
  case cons => exact fun _ _ front back => .sequence front back

/-- **Members in which nothing is wrong are as good where more is in scope.** -/
theorem checkMembers_weakens (members : List Member) : Weakens (checkMembers members) := by
  induction members with
  | nil => exact .report fun _ _ _ _ => rfl
  | cons member members ih =>
    refine .sequence ?_ ih
    cases member with
    | assignment a => exact a.check_weakens
    | rule r => exact .inScope (checkBody_weakens.2 r.body) (checkBody_local.2 _)

theorem checkMembers_append (members others : List Member) (s : TypeScopes) :
    checkMembers (members ++ others) s =
      ((checkMembers others (checkMembers members s).1).1,
        (checkMembers members s).2 ++ (checkMembers others (checkMembers members s).1).2) := by
  induction members generalizing s with
  | nil => rfl
  | cons member members ih =>
    rw [List.cons_append, checkMembers_cons, checkMembers_cons, ih, List.append_assoc]

/-! ### Evaluating with more in scope -/

/-- A clause comes to what one of its branches comes to, and leaves the environment as it was. -/
theorem Item.evaluate_ifClause_ok_iff {clause : IfClause Item} {env env' : Environment}
    {out : List Item} : (Item.ifClause clause).evaluate env = .ok (out, env') ↔
      ∃ b, clause.condition.valueIn env = .ok (.bool b) ∧
        evaluateBody (clause.branch b) env = .ok out ∧ env' = env := by
  rw [Item.evaluate_ifClause]
  constructor
  · intro h
    split at h
    · rename_i b hv
      cases hbody : evaluateBody (clause.branch b) env with
      | error e =>
        rw [hbody] at h
        cases h
      | ok body =>
        rw [hbody] at h
        cases h
        exact ⟨b, hv, hbody, rfl⟩
    · cases h
    · cases h
  · rintro ⟨b, hv, hbody, rfl⟩
    simp only [hv, hbody]
    rfl

/-- What stands for something in the first environment stands for the same in the other. -/
def Environment.Within (env more : Environment) : Prop :=
  ∀ name v, env.lookup name = some v → more.lookup name = some v

namespace Environment.Within
variable {env more : Environment}

theorem empty (env : Environment) : Within ∅ env := by
  intro name v h
  cases h

theorem insert (h : env.Within more) (name : String) (v : Literal) :
    Within (env.insert name v) (more.insert name v) := by
  intro other w hother
  by_cases same : other = name
  · subst same
    rw [Finmap.lookup_insert] at hother ⊢
    exact hother
  · rw [Finmap.lookup_insert_of_ne _ same] at hother ⊢
    exact h other w hother

theorem value (h : env.Within more) {e : Expr} {v : Literal} (hv : e.valueIn env = .ok v) :
    e.valueIn more = .ok v := by
  induction e generalizing v with
  | literal => exact hv
  | reference id name span =>
    rw [Expr.valueIn] at hv ⊢
    cases found : env.lookup name with
    | none => simp [found] at hv
    | some w =>
      rw [found] at hv
      rw [h name w found]
      exact hv
  | operation id op left right span ihl ihr =>
    rw [Expr.valueIn] at hv ⊢
    obtain ⟨l, hl, hv⟩ := bind_eq_ok_iff.1 hv
    obtain ⟨r, hr, hv⟩ := bind_eq_ok_iff.1 hv
    rw [ihl hl, ihr hr]
    exact hv

end Environment.Within

theorem evaluateBody_within :
    (∀ (item : Item) (env more : Environment), env.Within more → ∀ out env',
      item.evaluate env = .ok (out, env') →
        ∃ more', item.evaluate more = .ok (out, more') ∧ env'.Within more') ∧
    ∀ (items : List Item) (env more : Environment), env.Within more → ∀ out,
      evaluateBody items env = .ok out → evaluateBody items more = .ok out := by
  apply Item.body_induction
  case declaration =>
    intro d env more within out env' h
    rw [Item.evaluate] at h ⊢
    obtain ⟨v, hv, h⟩ := bind_eq_ok_iff.1 h
    cases h
    exact ⟨more, bind_eq_ok_iff.2 ⟨v, within.value hv, rfl⟩, within⟩
  case assignment =>
    intro a env more within out env' h
    rw [Item.evaluate] at h ⊢
    obtain ⟨v, hv, h⟩ := bind_eq_ok_iff.1 h
    cases h
    exact ⟨_, bind_eq_ok_iff.2 ⟨v, within.value hv, rfl⟩, within.insert a.name v⟩
  case ifClause =>
    intro clause ih env more within out env' h
    obtain ⟨b, hv, hbody, rfl⟩ := Item.evaluate_ifClause_ok_iff.1 h
    have branch := ih b env' more within out hbody
    exact ⟨more, Item.evaluate_ifClause_ok_iff.2 ⟨b, within.value hv, branch, rfl⟩, within⟩
  case nil => exact fun _ _ _ _ h => h
  case cons =>
    intro item items front back env more within out h
    rw [evaluateBody] at h ⊢
    obtain ⟨⟨first, env'⟩, hfirst, h⟩ := bind_eq_ok_iff.1 h
    obtain ⟨rest, hrest, h⟩ := bind_eq_ok_iff.1 h
    obtain ⟨more', hmore, within⟩ := front env more within first env' hfirst
    exact bind_eq_ok_iff.2 ⟨_, hmore, bind_eq_ok_iff.2 ⟨rest, back _ _ within rest hrest, h⟩⟩

/-- **Members that come to rules come to the same rules where more is in scope.** -/
theorem evaluateMembers_within {members : List Member} {env more : Environment}
    (within : env.Within more) {out : List Member} (h : evaluateMembers members env = .ok out) :
    evaluateMembers members more = .ok out := by
  induction members generalizing env more out with
  | nil => exact h
  | cons member members ih =>
    cases member with
    | assignment a =>
      rw [evaluateMembers] at h ⊢
      obtain ⟨v, hv, h⟩ := bind_eq_ok_iff.1 h
      exact bind_eq_ok_iff.2 ⟨v, within.value hv, ih (within.insert a.name v) h⟩
    | rule r =>
      rw [evaluateMembers] at h ⊢
      obtain ⟨body, hbody, h⟩ := bind_eq_ok_iff.1 h
      obtain ⟨back, hback, h⟩ := bind_eq_ok_iff.1 h
      refine bind_eq_ok_iff.2 ⟨body, evaluateBody_within.2 _ env more within body hbody, ?_⟩
      exact bind_eq_ok_iff.2 ⟨back, ih within hback, h⟩

/-! ### Evaluating members behind others -/

/-- What members leave in scope behind them. Rules leave nothing. -/
def environmentBehind : List Member → Environment → Except Error Environment
  | [], env => return env
  | .assignment a :: members, env => do
    let v ← a.value.valueIn env
    environmentBehind members (env.insert a.name v)
  | .rule _ :: members, env => environmentBehind members env

/-- Members behind others are evaluated in what those leave in scope. -/
theorem evaluateMembers_append_iff {members others out : List Member} {env : Environment} :
    evaluateMembers (members ++ others) env = .ok out ↔ ∃ front env' back,
      evaluateMembers members env = .ok front ∧ environmentBehind members env = .ok env' ∧
      evaluateMembers others env' = .ok back ∧ out = front ++ back := by
  induction members generalizing env out with
  | nil =>
    constructor
    · exact fun h => ⟨[], env, out, rfl, rfl, h, rfl⟩
    · rintro ⟨_, _, back, ⟨⟩, ⟨⟩, h, rfl⟩
      exact h
  | cons member members ih =>
    cases member with
    | assignment a =>
      rw [List.cons_append, evaluateMembers, evaluateMembers, environmentBehind]
      constructor
      · intro h
        obtain ⟨v, hv, h⟩ := bind_eq_ok_iff.1 h
        obtain ⟨front, env', back, hfront, henv, hback, rfl⟩ := ih.1 h
        exact ⟨front, env', back, bind_eq_ok_iff.2 ⟨v, hv, hfront⟩, bind_eq_ok_iff.2 ⟨v, hv, henv⟩,
          hback, rfl⟩
      · rintro ⟨front, env', back, hfront, henv, hback, rfl⟩
        obtain ⟨v, hv, hfront⟩ := bind_eq_ok_iff.1 hfront
        obtain ⟨w, hw, henv⟩ := bind_eq_ok_iff.1 henv
        cases hv.symm.trans hw
        exact bind_eq_ok_iff.2 ⟨v, hv, ih.2 ⟨front, env', back, hfront, henv, hback, rfl⟩⟩
    | rule r =>
      rw [List.cons_append, evaluateMembers, evaluateMembers, environmentBehind]
      constructor
      · intro h
        obtain ⟨body, hbody, h⟩ := bind_eq_ok_iff.1 h
        obtain ⟨rest, hrest, h⟩ := bind_eq_ok_iff.1 h
        cases h
        obtain ⟨front, env', back, hfront, henv, hback, rfl⟩ := ih.1 hrest
        refine ⟨.rule {r with body} :: front, env', back, ?_, henv, hback, rfl⟩
        exact bind_eq_ok_iff.2 ⟨body, hbody, bind_eq_ok_iff.2 ⟨front, hfront, rfl⟩⟩
      · rintro ⟨_, env', back, whole, henv, hback, rfl⟩
        obtain ⟨body, hbody, whole⟩ := bind_eq_ok_iff.1 whole
        obtain ⟨front, hfront, ⟨⟩⟩ := bind_eq_ok_iff.1 whole
        have rest := ih.2 ⟨front, env', back, hfront, henv, hback, rfl⟩
        exact bind_eq_ok_iff.2 ⟨body, hbody, bind_eq_ok_iff.2 ⟨_, rest, rfl⟩⟩

/-- Members that are evaluated to rules leave something in scope. -/
theorem exists_environmentBehind {members out : List Member} {env : Environment}
    (h : evaluateMembers members env = .ok out) :
    ∃ env', environmentBehind members env = .ok env' := by
  rw [← List.append_nil members] at h
  obtain ⟨_, env', _, _, behind, _⟩ := evaluateMembers_append_iff.1 h
  exact ⟨env', behind⟩

end Typesheet
