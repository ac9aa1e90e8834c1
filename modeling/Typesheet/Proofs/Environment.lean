import Mathlib.Data.Finmap
import Typesheet.Proofs.Scoping

/-! Flattening by lexical scope.

What variables stand for can be said without scopes. Here a stylesheet is evaluated in an
environment, one finite map from names to values: an assignment updates the map for the
items behind it, a body starts from the map in force where it stands, and behind the body
that map is in force again. A body gives back its declarations only, so nothing that is
assigned in it can be seen outside.

Flattening follows this evaluation step by step (`evaluateBody_followed`), since the
innermost frames of its scopes come to the same map (`ValueScopes.Means`): both give the
same stylesheet or stop at the same error (`flatten_eq_evaluate`). -/
namespace Typesheet

/-! ### Evaluation -/

/-- What each variable stands for. -/
abbrev Environment := Finmap fun _ : String => Literal

/-- The value of an expression in an environment. -/
def Expr.valueIn (env : Environment) : Expr → Except Error Literal
  | literal _ value _ => .ok value
  | reference _ name span =>
    match env.lookup name with
    | some value => .ok value
    | none => .error ⟨.variableNotDeclared name, span.start⟩
  | operation _ op left right span => do
    let l ← left.valueIn env
    let r ← right.valueIn env
    match op.apply l r with
    | .ok value => .ok value
    | .error cause => .error ⟨cause, span.start⟩

mutual

/-- The declarations that an item comes to, and the environment behind it. -/
def Item.evaluate : Item → Environment → Except Error (List Item × Environment)
  | .declaration d, env => do
    let v ← d.value.valueIn env
    return ([.declaration {d with value := .literal d.value.id v d.value.span}], env)
  | .assignment a, env => do
    let v ← a.value.valueIn env
    return ([], env.insert a.name v)
  | .ifClause ⟨_, condition, body, otherwise, span⟩, env => do
    match ← condition.valueIn env with
    | .bool true => return (← evaluateBody body env, env)
    | .bool false =>
      match otherwise with
      | some ⟨_, body, _⟩ => return (← evaluateBody body env, env)
      | none => return ([], env)
    | other => throw ⟨.conditionNotBoolean other.type.text, span.start⟩

/-- The declarations that the items of a body come to. -/
def evaluateBody : List Item → Environment → Except Error (List Item)
  | [], _ => return []
  | item :: items, env => do
    let (front, env) ← item.evaluate env
    let back ← evaluateBody items env
    return front ++ back

end

/-- The rules that members come to. -/
def evaluateMembers : List Member → Environment → Except Error (List Member)
  | [], _ => return []
  | .assignment a :: members, env => do
    let v ← a.value.valueIn env
    evaluateMembers members (env.insert a.name v)
  | .rule rule :: members, env => do
    let body ← evaluateBody rule.body env
    let back ← evaluateMembers members env
    return .rule {rule with body} :: back

/-- A stylesheet starts where no variable stands for anything. -/
def Sheet.evaluate (sheet : Sheet) : Except Error Sheet := do
  let members ← evaluateMembers sheet.members ∅
  return {sheet with members}

theorem Item.evaluate_ifClause (clause : IfClause Item) (env : Environment) :
    (Item.ifClause clause).evaluate env =
      match clause.condition.valueIn env with
      | .ok (.bool b) => (evaluateBody (clause.branch b) env).map (·, env)
      | .ok other => .error ⟨.conditionNotBoolean other.type.text, clause.span.start⟩
      | .error e => .error e := by
  obtain ⟨id, condition, body, otherwise, span⟩ := clause
  unfold Item.evaluate
  cases condition.valueIn env with
  | error e => rfl
  | ok v =>
    cases v with
    | color text => rfl
    | number d a => rfl
    | bool b =>
      cases b with
      | true => rfl
      | false =>
        cases otherwise with
        | none => simp only [IfClause.branch, Option.map_none, Option.getD_none, evaluateBody]; rfl
        | some _ => rfl

/-! ### Scopes as an environment -/

/-- The names stand for the same in the scopes and in the environment. -/
def ValueScopes.Means (s : ValueScopes) (env : Environment) : Prop :=
  ∀ name, s.find? name = env.lookup name

namespace ValueScopes.Means
variable {env : Environment}

theorem empty : Means Scopes.empty ∅ := fun _ => rfl

/-- A body starts from what is in force around it. -/
theorem push {s : ValueScopes} (h : s.Means env) : Means s.push env := h

/-- An assignment updates the environment. -/
theorem define {f : Frame Literal} {fs : List (Frame Literal)} (h : Means ⟨f :: fs⟩ env)
    (name : String) (v : Literal) : Means ⟨f.define name v :: fs⟩ (env.insert name v) := by
  intro other
  have defined : Scopes.define ⟨f :: fs⟩ name v = .ok ⟨f.define name v :: fs⟩ := rfl
  rw [Scopes.find?_define defined]
  by_cases same : other = name
  · subst same
    rw [if_pos rfl, Finmap.lookup_insert]
  · rw [if_neg same, Finmap.lookup_insert_of_ne _ same, h]

theorem value_eq {s : ValueScopes} (h : s.Means env) (e : Expr) : e.value s = e.valueIn env := by
  induction e with
  | literal => rfl
  | reference id name span =>
    unfold Expr.value Expr.valueIn
    exact h name ▸ rfl
  | operation id op left right span ihl ihr =>
    unfold Expr.value Expr.valueIn
    exact ihl ▸ ihr ▸ rfl

end ValueScopes.Means

/-! ### Flattening follows evaluation -/

namespace Flattening
variable {α β : Type}

/-- The step gives what the evaluation gives or stops at its error, and closes the scopes
that it opened. -/
def Gives (m : Flattening α) (run : Environment → Except Error α) : Prop :=
  ∀ f fs env, ValueScopes.Means ⟨f :: fs⟩ env → ∃ g,
    (∃ a, run env = .ok a ∧ m ⟨f :: fs⟩ = .ok a ⟨g :: fs⟩) ∨
      ∃ e, run env = .error e ∧ m ⟨f :: fs⟩ = .error e ⟨g :: fs⟩

/-- Besides, the scopes behind the step mean the environment behind the evaluation. -/
def Follows (m : Flattening α) (run : Environment → Except Error (α × Environment)) : Prop :=
  ∀ f fs env, ValueScopes.Means ⟨f :: fs⟩ env → ∃ g,
    (∃ a env', run env = .ok (a, env') ∧ m ⟨f :: fs⟩ = .ok a ⟨g :: fs⟩ ∧
      ValueScopes.Means ⟨g :: fs⟩ env') ∨
      ∃ e, run env = .error e ∧ m ⟨f :: fs⟩ = .error e ⟨g :: fs⟩

theorem Gives.pure (a : α) : Gives (Pure.pure a) fun _ => Pure.pure a :=
  fun f _ _ _ => ⟨f, .inl ⟨a, rfl, rfl⟩⟩

theorem Gives.map {m : Flattening α} {run : Environment → Except Error α} (h : Gives m run)
    (g : α → β) : Gives (m >>= fun a => Pure.pure (g a)) fun env => do return g (← run env) := by
  intro f fs env means
  obtain ⟨k, ⟨a, hr, hm⟩ | ⟨e, hr, hm⟩⟩ := h f fs env means
  · exact ⟨k, .inl ⟨g a, by simp only [hr]; rfl, bind_ok hm⟩⟩
  · exact ⟨k, .inr ⟨e, by simp only [hr]; rfl, bind_error hm⟩⟩

theorem Gives.congr {m : Flattening α} {run other : Environment → Except Error α} (h : Gives m run)
    (same : ∀ env, run env = other env) : Gives m other := funext same ▸ h

/-- What is done behind a step is done in its environment. -/
theorem Follows.gives {m : Flattening α} {run : Environment → Except Error (α × Environment)}
    {k : α → Flattening β} {onward : α → Environment → Except Error β} (hm : Follows m run)
    (hk : ∀ a, Gives (k a) (onward a)) :
    Gives (m >>= k) (fun env => do
      let (a, env) ← run env
      onward a env) := by
  intro f fs env means
  obtain ⟨g, h⟩ := hm f fs env means
  obtain ⟨a, env', hr, hm, means⟩ | ⟨e, hr, hm⟩ := h
  · obtain ⟨j, h⟩ := hk a g fs env' means
    refine ⟨j, ?_⟩
    rw [bind_ok hm]
    simp only [hr]
    exact h
  · exact ⟨g, .inr ⟨e, by simp only [hr]; rfl, bind_error hm⟩⟩

/-- A body in a scope of its own leaves the environment as it was. -/
theorem Gives.inScope {m : Flattening α} {run : Environment → Except Error α} (h : Gives m run)
    (hm : Local m) : Follows (inScope m) fun env => do return (← run env, env) := by
  intro f fs env means
  obtain ⟨g, ⟨a, hr, inner⟩ | ⟨e, hr, inner⟩⟩ := h .empty (f :: fs) env means.push
  · refine ⟨f, .inl ⟨a, env, by simp only [hr]; rfl, ?_, means⟩⟩
    rw [hm.inScope_eq, show m (Scopes.push ⟨f :: fs⟩) = _ from inner]
  · refine ⟨f, .inr ⟨e, by simp only [hr]; rfl, ?_⟩⟩
    rw [hm.inScope_eq, show m (Scopes.push ⟨f :: fs⟩) = _ from inner]

end Flattening

open Flattening (Gives Follows bind_ok bind_error)

theorem Assignment.flatten_follows (a : Assignment) :
    Follows a.flatten fun env => do return ((), env.insert a.name (← a.value.valueIn env)) := by
  intro f fs env means
  rw [a.flatten_eq, means.value_eq]
  cases h : a.value.valueIn env with
  | ok v =>
    exact ⟨f.define a.name v, .inl ⟨(), _, by simp only [h]; rfl, rfl, means.define a.name v⟩⟩
  | error e => exact ⟨f, .inr ⟨e, by simp only [h]; rfl, rfl⟩⟩

/-- **Items and bodies are flattened as they are evaluated.** -/
theorem evaluateBody_followed :
    (∀ item : Item, Follows item.flatten item.evaluate) ∧
      ∀ items, Gives (flattenBody items) (evaluateBody items) := by
  apply Item.body_induction
  case declaration =>
    intro d f fs env means
    rw [Item.flatten_declaration, Item.evaluate, means.value_eq]
    cases d.value.valueIn env with
    | ok v => exact ⟨f, .inl ⟨_, env, rfl, rfl, means⟩⟩
    | error e => exact ⟨f, .inr ⟨e, rfl, rfl⟩⟩
  case assignment =>
    intro a f fs env means
    have flat := a.flatten_eq f fs
    rw [means.value_eq] at flat
    rw [Item.evaluate]
    cases h : a.value.valueIn env with
    | ok v =>
      rw [h] at flat
      exact ⟨f.define a.name v, .inl ⟨[], _, rfl, bind_ok flat, means.define a.name v⟩⟩
    | error e =>
      rw [h] at flat
      exact ⟨f, .inr ⟨e, rfl, bind_error flat⟩⟩
  case ifClause =>
    intro clause ih f fs env means
    rw [Item.flatten_ifClause, Item.evaluate_ifClause, means.value_eq]
    cases clause.condition.valueIn env with
    | error e => exact ⟨f, .inr ⟨e, rfl, rfl⟩⟩
    | ok v =>
      cases v with
      | color text => exact ⟨f, .inr ⟨_, rfl, rfl⟩⟩
      | number d a => exact ⟨f, .inr ⟨_, rfl, rfl⟩⟩
      | bool b => exact (ih b).inScope (flattenBody_local.2 _) f fs env means
  case nil => exact .pure []
  case cons =>
    intro item items front back
    exact front.gives fun out => back.map (out ++ ·)

/-- A rule is a body in a scope of its own. -/
theorem Rule.flatten_follows (rule : Rule) : Follows rule.flatten fun env => do
    return ({rule with body := ← evaluateBody rule.body env}, env) := by
  intro f fs env means
  obtain ⟨g, ⟨body, hr, hm⟩ | ⟨e, hr, hm⟩⟩ :=
    evaluateBody_followed.2 rule.body .empty (f :: fs) env means.push
  · refine ⟨f, .inl ⟨{rule with body}, env, by simp only [hr]; rfl, ?_, means⟩⟩
    rw [rule.flatten_eq, show flattenBody rule.body (Scopes.push ⟨f :: fs⟩) = _ from hm]
  · refine ⟨f, .inr ⟨e, by simp only [hr]; rfl, ?_⟩⟩
    rw [rule.flatten_eq, show flattenBody rule.body (Scopes.push ⟨f :: fs⟩) = _ from hm]

theorem evaluateMembers_followed (members : List Member) :
    Gives (flattenMembers members) (evaluateMembers members) := by
  induction members with
  | nil => exact .pure []
  | cons member members ih =>
    cases member with
    | assignment a =>
      refine (a.flatten_follows.gives fun _ => ih).congr fun env => ?_
      rw [evaluateMembers]
      cases a.value.valueIn env <;> rfl
    | rule r =>
      refine (r.flatten_follows.gives fun front => ih.map (.rule front :: ·)).congr fun env => ?_
      rw [evaluateMembers]
      cases evaluateBody r.body env <;> rfl

/-- A stylesheet is flattened to what its members come to where nothing is assigned. -/
theorem Sheet.flatten_eq_map (sheet : Sheet) : sheet.flatten =
    (evaluateMembers sheet.members ∅).map fun members => {sheet with members} := by
  obtain ⟨g, ⟨members, hr, hm⟩ | ⟨e, hr, hm⟩⟩ :=
    evaluateMembers_followed sheet.members .empty [] ∅ ValueScopes.Means.empty.push
  · rw [Sheet.flatten_eq, show flattenMembers sheet.members Scopes.empty.push = _ from hm, hr]
    rfl
  · rw [Sheet.flatten_eq, show flattenMembers sheet.members Scopes.empty.push = _ from hm, hr]
    rfl

/-- Flattening a stylesheet is evaluating it by lexical scope: the same stylesheet comes of
it, or the same error at the same place. -/
theorem flatten_eq_evaluate (sheet : Sheet) : sheet.flatten = sheet.evaluate := by
  rw [sheet.flatten_eq_map, Sheet.evaluate]
  cases evaluateMembers sheet.members ∅ <;> rfl

end Typesheet
