import Typesheet.Proofs.Flat
import Typesheet.Proofs.Isolation

/-! What is resolved, and what is left over.

Flattening resolves a rule to those of its declarations that no untaken branch holds, in
source order. To say which those are, all declarations of a rule are listed with the
environments they stand in (`bodyPlaced`), each with a mark that tells whether it applies,
that is, whether every branch around it is the one that the condition selects. What
flattening gives is the marked part of the list, rule by rule (`Sheet.ResolvesTo`).

CSS has no notion of resolving anything, it only refuses what it cannot write. What it
refuses are the leftovers of a stylesheet, in document order (`Sheet.leftovers`):
nothing is left over in a flat stylesheet, any other stops at the first one.
`flatten_resolves` puts the two together. -/
namespace Typesheet

/-! ### Declarations in place -/

/-- A declaration in the environment where it stands. It applies unless a branch around it
is not taken. -/
structure Placed where
  declaration : Declaration
  environment : Environment
  applies : Bool

/-- A place inside a branch, which is taken or not. -/
def Placed.inBranch (taken : Bool) (p : Placed) : Placed :=
  {p with applies := taken && p.applies}

/-- The condition selects this branch. One without a boolean value selects none. -/
def Expr.selects (condition : Expr) (env : Environment) (branch : Bool) : Bool :=
  match condition.valueIn env with
  | .ok (.bool value) => value == branch
  | _ => false

/-- The environment for what stands behind an item: an assignment updates it. -/
def Item.environmentBehind : Item → Environment → Environment
  | .assignment a, env =>
    match a.value.valueIn env with
    | .ok v => env.insert a.name v
    | .error _ => env
  | _, env => env

mutual

/-- The declarations of an item, in source order and in place. -/
def Item.placed : Item → Environment → List Placed
  | .declaration d, env => [⟨d, env, true⟩]
  | .assignment _, _ => []
  | .ifClause ⟨_, condition, body, otherwise, _⟩, env =>
    (bodyPlaced body env).map (.inBranch (condition.selects env true)) ++
      match otherwise with
      | some ⟨_, body, _⟩ =>
        (bodyPlaced body env).map (.inBranch (condition.selects env false))
      | none => []

/-- The declarations of a body, in source order and in place. -/
def bodyPlaced : List Item → Environment → List Placed
  | [], _ => []
  | item :: items, env => item.placed env ++ bodyPlaced items (item.environmentBehind env)

end

mutual

/-- The declarations of an item in source order, whether they apply or not. -/
def Item.declarations : Item → List Declaration
  | .declaration d => [d]
  | .assignment _ => []
  | .ifClause ⟨_, _, body, otherwise, _⟩ =>
    bodyDeclarations body ++
      match otherwise with
      | some ⟨_, body, _⟩ => bodyDeclarations body
      | none => []

/-- The declarations of a body in source order, whether they apply or not. -/
def bodyDeclarations : List Item → List Declaration
  | [] => []
  | item :: items => item.declarations ++ bodyDeclarations items

end

theorem Item.placed_ifClause (clause : IfClause Item) (env : Environment) :
    (Item.ifClause clause).placed env =
      (bodyPlaced (clause.branch true) env).map
          (.inBranch (clause.condition.selects env true)) ++
        (bodyPlaced (clause.branch false) env).map
          (.inBranch (clause.condition.selects env false)) := by
  obtain ⟨id, condition, body, otherwise, span⟩ := clause
  unfold Item.placed
  cases otherwise <;> rfl

theorem Item.declarations_ifClause (clause : IfClause Item) :
    (Item.ifClause clause).declarations =
      bodyDeclarations (clause.branch true) ++ bodyDeclarations (clause.branch false) := by
  obtain ⟨id, condition, body, otherwise, span⟩ := clause
  unfold Item.declarations
  cases otherwise <;> rfl

theorem Placed.map_inBranch_declaration (taken : Bool) (places : List Placed) :
    (places.map (.inBranch taken)).map Placed.declaration = places.map Placed.declaration :=
  List.map_map

/-- In a branch that is taken the same declarations apply, in one that is not, none. -/
theorem Placed.filter_inBranch (taken : Bool) (places : List Placed) :
    (places.map (.inBranch taken)).filter Placed.applies =
      if taken then places.filter Placed.applies else [] := by
  cases taken with
  | true => exact congrArg _ (List.map_id _)
  | false =>
    refine List.filter_eq_nil_iff.2 fun p hp => ?_
    obtain ⟨q, -, rfl⟩ := List.mem_map.1 hp
    exact Bool.false_ne_true

/-- Every declaration is in one place, in source order. -/
theorem bodyPlaced_declarations :
    (∀ (item : Item) (env : Environment),
      (item.placed env).map Placed.declaration = item.declarations) ∧
    ∀ (items : List Item) (env : Environment),
      (bodyPlaced items env).map Placed.declaration = bodyDeclarations items := by
  apply Item.body_induction
  case declaration => exact fun _ _ => rfl
  case assignment => exact fun _ _ => rfl
  case ifClause =>
    intro clause ih env
    rw [Item.placed_ifClause, Item.declarations_ifClause, List.map_append,
      Placed.map_inBranch_declaration, Placed.map_inBranch_declaration, ih, ih]
  case nil => exact fun _ => rfl
  case cons =>
    intro item items front back env
    rw [bodyPlaced, bodyDeclarations, List.map_append, front, back]

/-! ### What bodies resolve to -/

/-- The item is the declaration with the value that it has in its place, under the number
and span of the expression. -/
def Placed.Becomes (p : Placed) (item : Item) : Prop :=
  ∃ v, p.declaration.value.valueIn p.environment = .ok v ∧
    item = .declaration (p.declaration.folded v)

/-- The declarations that apply, with their values. -/
def Resolves (places : List Placed) (out : List Item) : Prop :=
  List.Forall₂ Placed.Becomes (places.filter Placed.applies) out

theorem Resolves.append {front back : List Placed} {first rest : List Item}
    (hf : Resolves front first) (hb : Resolves back rest) :
    Resolves (front ++ back) (first ++ rest) := by
  unfold Resolves
  rw [List.filter_append]
  exact List.rel_append hf hb

/-- **A body is evaluated to its declarations that apply.** -/
theorem evaluateBody_resolves :
    (∀ (item : Item) (env env' : Environment) (out : List Item),
      item.evaluate env = .ok (out, env') →
        Resolves (item.placed env) out ∧ env' = item.environmentBehind env) ∧
    ∀ (items : List Item) (env : Environment) (out : List Item),
      evaluateBody items env = .ok out → Resolves (bodyPlaced items env) out := by
  apply Item.body_induction
  case declaration =>
    intro d env env' out h
    rw [Item.evaluate] at h
    obtain ⟨v, hv, h⟩ := bind_eq_ok_iff.1 h
    cases h
    exact ⟨.cons ⟨v, hv, rfl⟩ .nil, rfl⟩
  case assignment =>
    intro a env env' out h
    rw [Item.evaluate] at h
    obtain ⟨v, hv, h⟩ := bind_eq_ok_iff.1 h
    cases h
    refine ⟨.nil, ?_⟩
    rw [Item.environmentBehind, hv]
  case ifClause =>
    intro clause ih env env' out h
    obtain ⟨b, hv, hbody, rfl⟩ := Item.evaluate_ifClause_ok_iff.1 h
    have branch := ih b env' out hbody
    refine ⟨?_, rfl⟩
    -- one of the two branches is selected, and nothing in the other applies
    unfold Resolves at branch ⊢
    rw [Item.placed_ifClause, List.filter_append, Placed.filter_inBranch, Placed.filter_inBranch,
      Expr.selects, Expr.selects, hv]
    cases b with
    | true => simpa using branch
    | false => simpa using branch
  case nil =>
    intro env out h
    cases h
    exact .nil
  case cons =>
    intro item items front back env out h
    rw [evaluateBody] at h
    obtain ⟨⟨first, env'⟩, hfirst, h⟩ := bind_eq_ok_iff.1 h
    obtain ⟨rest, hrest, h⟩ := bind_eq_ok_iff.1 h
    cases h
    obtain ⟨hf, rfl⟩ := front env env' first hfirst
    exact hf.append (back _ rest hrest)

/-! ### What stylesheets resolve to -/

/-- The rules among members, each with the environment where it stands. -/
def rulesPlaced : List Member → Environment → List (Rule × Environment)
  | [], _ => []
  | .assignment a :: members, env =>
    rulesPlaced members ((Item.assignment a).environmentBehind env)
  | .rule r :: members, env => (r, env) :: rulesPlaced members env

theorem rulesPlaced_map_fst (members : List Member) (env : Environment) (span : Span) :
    (rulesPlaced members env).map Prod.fst = Sheet.rules ⟨members, span⟩ := by
  induction members generalizing env with
  | nil => rfl
  | cons member members ih =>
    cases member with
    | assignment a => exact ih _
    | rule r => exact congrArg (r :: ·) (ih env)

/-- A rule in its place comes to a rule of the same number, selectors and span, the body of
which is the declarations that apply. -/
structure Rule.ResolvesTo (place : Rule × Environment) (flat : Rule) : Prop where
  id : flat.id = place.1.id
  selectors : flat.selectors = place.1.selectors
  span : flat.span = place.1.span
  source : (bodyPlaced place.1.body place.2).map Placed.declaration =
    bodyDeclarations place.1.body
  body : Resolves (bodyPlaced place.1.body place.2) flat.body

/-- A stylesheet comes to one rule for each of its rules, and nothing else. -/
structure Sheet.ResolvesTo (sheet flat : Sheet) : Prop where
  span : flat.span = sheet.span
  members : flat.members = flat.rules.map .rule
  source : (rulesPlaced sheet.members ∅).map Prod.fst = sheet.rules
  rules : List.Forall₂ Rule.ResolvesTo (rulesPlaced sheet.members ∅) flat.rules

/-- Members are evaluated to one rule for each rule among them. -/
theorem evaluateMembers_resolves {members out : List Member} {env : Environment}
    (h : evaluateMembers members env = .ok out) :
    ∃ rules, out = rules.map .rule ∧
      List.Forall₂ Rule.ResolvesTo (rulesPlaced members env) rules := by
  induction members generalizing env out with
  | nil =>
    cases h
    exact ⟨[], rfl, .nil⟩
  | cons member members ih =>
    cases member with
    | assignment a =>
      rw [evaluateMembers] at h
      obtain ⟨v, hv, h⟩ := bind_eq_ok_iff.1 h
      rw [rulesPlaced, Item.environmentBehind, hv]
      exact ih h
    | rule r =>
      rw [evaluateMembers] at h
      obtain ⟨body, hbody, h⟩ := bind_eq_ok_iff.1 h
      obtain ⟨back, hback, h⟩ := bind_eq_ok_iff.1 h
      cases h
      obtain ⟨rules, rfl, resolved⟩ := ih hback
      have front : Rule.ResolvesTo (r, env) {r with body} :=
        ⟨rfl, rfl, rfl, bodyPlaced_declarations.2 r.body env,
          evaluateBody_resolves.2 r.body env body hbody⟩
      exact ⟨{r with body} :: rules, rfl, .cons front resolved⟩

theorem Sheet.rules_map_rule (rules : List Rule) (span : Span) :
    Sheet.rules ⟨rules.map .rule, span⟩ = rules := by
  unfold Sheet.rules
  rw [List.filterMap_map]
  exact List.filterMap_some

theorem Sheet.resolvesTo_of_flatten {sheet flat : Sheet} (h : sheet.flatten = .ok flat) :
    sheet.ResolvesTo flat := by
  obtain ⟨out, _, -, rfl⟩ := Sheet.flatten_ok h
  obtain ⟨rules, rfl, resolved⟩ := evaluateMembers_resolves (Sheet.flatten_ok_iff.1 h)
  refine ⟨rfl, ?_, rulesPlaced_map_fst _ _ _, ?_⟩
  · rw [Sheet.rules_map_rule]
  · rwa [Sheet.rules_map_rule]

/-! ### What is left over -/

/-- What a flat stylesheet has none of. -/
inductive Leftover where
  | assignment (assignment : Assignment)
  | ifClause (clause : IfClause Item)
  | expression (value : Expr)

namespace Leftover

def what : Leftover → String
  | assignment _ => "variable assignment"
  | ifClause _ => "if-clause"
  | expression _ => "unfolded expression"

def span : Leftover → Span
  | assignment a => a.span
  | ifClause clause => clause.span
  | expression e => e.span

/-- The fault of a stylesheet that is written with it. -/
def fault (l : Leftover) : Error :=
  ⟨.internalConsistencyFault (l.what ++ " left in evaluated stylesheet"), l.span.start⟩

end Leftover

/-- An item is itself left over, or its value is, unless that is known. -/
def Item.leftover? : Item → Option Leftover
  | .declaration d =>
    match d.value with
    | .literal .. => none
    | value => some (.expression value)
  | .assignment a => some (.assignment a)
  | .ifClause clause => some (.ifClause clause)

/-- What is left over in a member, in document order. -/
def Member.leftovers : Member → List Leftover
  | .assignment a => [.assignment a]
  | .rule r => r.body.filterMap Item.leftover?

/-- What is left over in a stylesheet, in document order. -/
def Sheet.leftovers (sheet : Sheet) : List Leftover := sheet.members.flatMap Member.leftovers

theorem Item.leftover?_eq_none_iff {item : Item} : item.leftover? = none ↔ item.IsFlat := by
  cases item with
  | declaration d =>
    obtain ⟨id, property, value, span⟩ := d
    cases value with
    | literal => exact ⟨fun _ => ⟨_, rfl⟩, fun _ => rfl⟩
    | reference => exact ⟨fun h => (nomatch h), fun ⟨_, h⟩ => nomatch h⟩
    | operation => exact ⟨fun h => (nomatch h), fun ⟨_, h⟩ => nomatch h⟩
  | assignment a => exact ⟨fun h => (nomatch h), fun ⟨_, h⟩ => nomatch h⟩
  | ifClause clause => exact ⟨fun h => (nomatch h), fun ⟨_, h⟩ => nomatch h⟩

theorem Member.leftovers_eq_nil_iff {member : Member} : member.leftovers = [] ↔ member.IsFlat := by
  cases member with
  | assignment a => exact ⟨fun h => (nomatch h), fun h => nomatch h⟩
  | rule r =>
    unfold leftovers IsFlat
    simp only [List.filterMap_eq_nil_iff, Item.leftover?_eq_none_iff]

/-- Nothing is left over in a flat stylesheet, and in no other. -/
theorem Sheet.leftovers_eq_nil_iff {sheet : Sheet} : sheet.leftovers = [] ↔ sheet.IsFlat := by
  unfold leftovers IsFlat
  simp only [List.flatMap_eq_nil_iff, Member.leftovers_eq_nil_iff]

/-! ### Where writing stops -/

theorem Item.css_of_leftover {item : Item} {l : Leftover} (h : item.leftover? = some l) :
    item.css = .error l.fault := by
  cases item with
  | declaration d =>
    obtain ⟨id, property, value, span⟩ := d
    cases value <;> cases h <;> rfl
  | assignment a =>
    cases h
    rfl
  | ifClause clause =>
    cases h
    rfl

/-- A body is written up to what is left over first. -/
theorem cssBody_of_leftover {items : List Item} {l : Leftover}
    (h : (items.filterMap Item.leftover?).head? = some l) : cssBody items = .error l.fault := by
  induction items with
  | nil => cases h
  | cons item items ih =>
    cases first : item.leftover? with
    | some other =>
      rw [List.filterMap_cons_some first] at h
      cases h
      rw [cssBody, Item.css_of_leftover first]
      rfl
    | none =>
      rw [List.filterMap_cons_none first] at h
      obtain ⟨d, id, v, span, rfl, value⟩ := (Item.leftover?_eq_none_iff.1 first).eq
      have written : (Item.declaration d).css =
          .ok ("  " ++ d.property ++ ": " ++ v.text ++ ";\n") := by
        rw [Item.css, Declaration.css, value]
        rfl
      rw [cssBody, written, ih h]
      rfl

theorem Member.css_of_leftover {member : Member} {l : Leftover}
    (h : member.leftovers.head? = some l) : member.css = .error l.fault := by
  cases member with
  | assignment a =>
    cases h
    rfl
  | rule r =>
    rw [css, Rule.css, cssBody_of_leftover h]
    rfl

theorem Member.css_of_isFlat {member : Member} (h : member.IsFlat) :
    ∃ css, member.css = .ok css := by
  cases member with
  | assignment a => exact absurd h id
  | rule r => exact ⟨_, Rule.css_of_isFlat h⟩

/-- Members are written up to what is left over first. -/
theorem cssMembers_of_leftover {members : List Member} {l : Leftover}
    (h : (members.flatMap Member.leftovers).head? = some l) :
    cssMembers members = .error l.fault := by
  induction members with
  | nil => cases h
  | cons member members ih =>
    rw [List.flatMap_cons, List.head?_append] at h
    rw [cssMembers]
    cases first : member.leftovers.head? with
    | some other =>
      rw [first] at h
      cases h
      rw [Member.css_of_leftover first]
      rfl
    | none =>
      rw [first] at h
      obtain ⟨front, written⟩ :=
        Member.css_of_isFlat (Member.leftovers_eq_nil_iff.1 (List.head?_eq_none_iff.1 first))
      rw [written, ih h]
      rfl

namespace Sheet

/-- Writing a stylesheet stops at what is left over first. -/
theorem css_of_leftover {sheet : Sheet} {l : Leftover} (h : sheet.leftovers.head? = some l) :
    sheet.css = .error l.fault := cssMembers_of_leftover h

theorem exists_leftover {sheet : Sheet} (h : ¬sheet.IsFlat) :
    ∃ l, sheet.leftovers.head? = some l := by
  rw [← leftovers_eq_nil_iff] at h
  exact ⟨_, List.head?_eq_some_head h⟩

theorem css_ok_iff {sheet : Sheet} : (∃ css, sheet.css = .ok css) ↔ sheet.IsFlat := by
  constructor
  · rintro ⟨css, h⟩
    by_contra unflat
    obtain ⟨l, first⟩ := exists_leftover unflat
    cases h.symm.trans (css_of_leftover first)
  · exact fun flat => ⟨_, css_of_isFlat flat⟩

end Sheet

/-! ### Main result -/

/-- **Flattening keeps what applies, and just that is written.** A stylesheet that flattens
comes to one rule for each of its rules, in order, with the declarations that apply. That is
flat, has CSS, and flattens to itself. No stylesheet has CSS that is not flat: it stops at
the first leftover. -/
theorem flatten_resolves (sheet : Sheet) :
    (∀ flat, sheet.flatten = .ok flat →
      sheet.ResolvesTo flat ∧ flat.IsFlat ∧ (∃ css, flat.css = .ok css) ∧
        flat.flatten = .ok flat) ∧
    ((∃ css, sheet.css = .ok css) ↔ sheet.IsFlat) ∧
    (¬sheet.IsFlat → ∃ first, sheet.leftovers.head? = some first ∧
      sheet.css = .error first.fault) := by
  refine ⟨fun flat h => ?_, Sheet.css_ok_iff, fun unflat => ?_⟩
  · have isFlat := Sheet.isFlat_of_flatten h
    exact ⟨Sheet.resolvesTo_of_flatten h, isFlat, ⟨_, Sheet.css_of_isFlat isFlat⟩,
      Sheet.flatten_of_isFlat isFlat⟩
  · obtain ⟨first, h⟩ := Sheet.exists_leftover unflat
    exact ⟨first, h, Sheet.css_of_leftover h⟩

/-- A rule with a branch in a branch, between other declarations. -/
def branchesNested : Sheet :=
  let pixels (id : NodeId) (property : String) (n : Amount) : Item :=
    .declaration ⟨id, property, .literal (id + 1) (.number .pixel n) .nowhere, .nowhere⟩
  let flag (id : NodeId) (value : Bool) : Expr := .literal id (.bool value) .nowhere
  ⟨[.rule ⟨1, [.tag "p"],
    [pixels 2 "width" 1,
      .ifClause ⟨4, flag 5 true,
        [pixels 6 "height" 2,
          .ifClause ⟨8, flag 9 false, [pixels 10 "margin" 3],
            some ⟨12, [pixels 13 "padding" 4], .nowhere⟩, ⟨⟨30, "p"⟩, ⟨40, "p"⟩⟩⟩],
        some ⟨15, [pixels 16 "height" 5], .nowhere⟩, ⟨⟨20, "p"⟩, ⟨50, "p"⟩⟩⟩,
      pixels 18 "border-width" 6], .nowhere⟩], .nowhere⟩

/-- What is around the branches that are taken stays in order. The first clause is what
cannot be written. -/
theorem flatten_resolves_nested :
    ∃ flat, branchesNested.flatten = .ok flat ∧ branchesNested.ResolvesTo flat ∧
      flat.stanzas = [⟨[.tag "p"], [⟨"width", .number .pixel 1⟩, ⟨"height", .number .pixel 2⟩,
        ⟨"padding", .number .pixel 4⟩, ⟨"border-width", .number .pixel 6⟩]⟩] ∧
      flat.flatten = .ok flat ∧ ¬branchesNested.IsFlat ∧ branchesNested.css =
        .error ⟨.internalConsistencyFault "if-clause left in evaluated stylesheet", ⟨20, "p"⟩⟩ := by
  obtain ⟨resolved, -, stops⟩ := flatten_resolves branchesNested
  have flattens : ∃ flat, branchesNested.flatten = .ok flat ∧
      flat.stanzas = [⟨[.tag "p"], [⟨"width", .number .pixel 1⟩, ⟨"height", .number .pixel 2⟩,
        ⟨"padding", .number .pixel 4⟩, ⟨"border-width", .number .pixel 6⟩]⟩] := ⟨_, rfl, rfl⟩
  obtain ⟨flat, h, stanzas⟩ := flattens
  obtain ⟨resolves, -, -, again⟩ := resolved flat h
  have unflat : ¬branchesNested.IsFlat := by
    rw [← Sheet.leftovers_eq_nil_iff]
    exact List.cons_ne_nil _ _
  obtain ⟨first, leftover, fault⟩ := stops unflat
  cases leftover
  exact ⟨flat, h, resolves, stanzas, again, unflat, fault⟩

end Typesheet
