import Typesheet.Proofs.Environment
import Typesheet.Proofs.Flat

/-! Trees regardless of numbers and places.

The same words read elsewhere make another tree: its nodes have other numbers and stand at
other places. `Sheet.bare` is what such trees have in common. Numbers and places do not
matter to what a tree means: in the bare tree the checker finds the same, at no place
(`Sheet.findings_bare`), and evaluation comes to the same bare tree or stops for the
same cause (`evaluateMembers_bare`). -/
namespace Typesheet

/-! ### Bare trees -/

/-- The span of what no text caused. -/
def Span.nowhere : Span := ⟨.nowhere, .nowhere⟩

def Expr.bare : Expr → Expr
  | literal _ value _ => .literal 0 value .nowhere
  | reference _ name _ => .reference 0 name .nowhere
  | operation _ op left right _ => .operation 0 op left.bare right.bare .nowhere

def Assignment.bare (a : Assignment) : Assignment := ⟨0, a.name, a.value.bare, .nowhere⟩

def Declaration.bare (d : Declaration) : Declaration := ⟨0, d.property, d.value.bare, .nowhere⟩

mutual

def Item.bare : Item → Item
  | .declaration d => .declaration d.bare
  | .assignment a => .assignment a.bare
  | .ifClause ⟨_, condition, body, otherwise, _⟩ =>
    .ifClause ⟨0, condition.bare, bareBody body,
      match otherwise with
      | some ⟨_, body, _⟩ => some ⟨0, bareBody body, .nowhere⟩
      | none => none, .nowhere⟩

def bareBody : List Item → List Item
  | [] => []
  | item :: items => item.bare :: bareBody items

end

def Rule.bare (rule : Rule) : Rule := ⟨0, rule.selectors, bareBody rule.body, .nowhere⟩

def Member.bare : Member → Member
  | .assignment a => .assignment a.bare
  | .rule r => .rule r.bare

/-- The stylesheet without the numbers of its nodes and the places they stand at. -/
def Sheet.bare (sheet : Sheet) : Sheet := ⟨sheet.members.map Member.bare, .nowhere⟩

theorem bareBody_append (items others : List Item) :
    bareBody (items ++ others) = bareBody items ++ bareBody others := by
  induction items with
  | nil => rfl
  | cons item items ih => rw [List.cons_append, bareBody, bareBody, ih, List.cons_append]

def ElseClause.bare (other : ElseClause Item) : ElseClause Item :=
  ⟨0, bareBody other.body, .nowhere⟩

/-- A clause without numbers and places. -/
def IfClause.bare (clause : IfClause Item) : IfClause Item :=
  ⟨0, clause.condition.bare, bareBody clause.body, clause.otherwise.map ElseClause.bare, .nowhere⟩

theorem Item.bare_ifClause (clause : IfClause Item) :
    (Item.ifClause clause).bare = .ifClause clause.bare := by
  obtain ⟨id, condition, body, otherwise, span⟩ := clause
  cases otherwise <;> (unfold Item.bare; rfl)

theorem IfClause.branch_bare (clause : IfClause Item) (b : Bool) :
    clause.bare.branch b = bareBody (clause.branch b) := by
  obtain ⟨id, condition, body, otherwise, span⟩ := clause
  cases b with
  | true => rfl
  | false => cases otherwise <;> rfl

/-! ### Checking bare trees -/

/-- An error at no place. -/
def Error.bare (e : Error) : Error := ⟨e.cause, .nowhere⟩

def Diagnostic.bare (d : Diagnostic) : Diagnostic := ⟨0, d.error.bare⟩

theorem Expr.type_bare (s : TypeScopes) (e : Expr) : e.bare.type s = e.type s := by
  induction e with
  | literal => rfl
  | reference => rfl
  | operation id op left right span ihl ihr => rw [bare, type, type, ihl, ihr]

theorem Expr.findings_bare (s : TypeScopes) (e : Expr) :
    e.bare.findings s = (e.findings s).map Diagnostic.bare := by
  induction e with
  | literal => rfl
  | reference id name span =>
    rw [bare, findings, findings]
    cases s.isDefined name <;> rfl
  | operation id op left right span ihl ihr =>
    rw [bare, findings, findings, ihl, ihr, type_bare, type_bare]
    cases op.complaint (left.type s) (right.type s) <;>
      simp [Diagnostic.bare, Error.bare, Span.nowhere]

theorem Declaration.findings_bare (d : Declaration) (s : TypeScopes) :
    d.bare.findings s = (d.findings s).map Diagnostic.bare := by
  simp only [findings, bare, List.map_append, Expr.findings_bare, Expr.type_bare]
  congr 1
  cases Requirement.ofProperty? d.property with
  | none => rfl
  | some requirement =>
    by_cases fits : d.value.type s = .undefined ∨ requirement.accepts (d.value.type s)
    · simp only [if_pos fits, List.map_nil]
    · simp only [if_neg fits]
      rfl

theorem conditionFindings_bare (id : NodeId) (condition : Expr) (span : Span) (s : TypeScopes) :
    conditionFindings 0 condition.bare .nowhere s =
      (conditionFindings id condition span s).map Diagnostic.bare := by
  simp only [conditionFindings, List.map_append, Expr.findings_bare, Expr.type_bare]
  congr 1
  by_cases fits : condition.type s = .bool ∨ condition.type s = .undefined
  · simp only [if_pos fits, List.map_nil]
  · simp only [if_neg fits]
    rfl

/-- What is found in the bare tree, where something else is found in the tree itself. -/
def Check.bare (result : TypeScopes × List Diagnostic) : TypeScopes × List Diagnostic :=
  (result.1, result.2.map Diagnostic.bare)

theorem Assignment.check_bare (a : Assignment) (f : Frame ValueType) (fs : List (Frame ValueType)) :
    a.bare.check ⟨f :: fs⟩ = Check.bare (a.check ⟨f :: fs⟩) := by
  rw [a.bare.check_eq, a.check_eq]
  unfold bare Check.bare
  rw [Expr.findings_bare, Expr.type_bare]

theorem checkBody_bare :
    (∀ (item : Item) (f : Frame ValueType) (fs : List (Frame ValueType)),
      item.bare.check ⟨f :: fs⟩ = Check.bare (item.check ⟨f :: fs⟩)) ∧
    ∀ (items : List Item) (f : Frame ValueType) (fs : List (Frame ValueType)),
      checkBody (bareBody items) ⟨f :: fs⟩ = Check.bare (checkBody items ⟨f :: fs⟩) := by
  apply Item.body_induction
  case declaration =>
    intro d f fs
    exact Prod.ext rfl (d.findings_bare _)
  case assignment => exact fun a f fs => a.check_bare f fs
  case ifClause =>
    intro clause ih f fs
    rw [Item.bare_ifClause, Item.check_ifClause, Item.check_ifClause, clause.branch_bare,
      clause.branch_bare]
    have branch : ∀ b, checkBody (bareBody (clause.branch b)) (Scopes.push ⟨f :: fs⟩) =
        Check.bare (checkBody (clause.branch b) (Scopes.push ⟨f :: fs⟩)) :=
      fun b => ih b .empty (f :: fs)
    rw [branch, branch]
    unfold Check.bare
    simp only [List.map_append, ← conditionFindings_bare]
    rfl
  case nil => exact fun _ _ => rfl
  case cons =>
    intro item items front back f fs
    obtain ⟨g, hg⟩ := checkBody_local.1 item f fs
    rw [bareBody, checkBody_cons, checkBody_cons, front, Check.bare, hg, back g fs]
    unfold Check.bare
    simp only [List.map_append]

theorem checkMembers_bare (members : List Member) (f : Frame ValueType)
    (fs : List (Frame ValueType)) :
    checkMembers (members.map Member.bare) ⟨f :: fs⟩ =
      Check.bare (checkMembers members ⟨f :: fs⟩) := by
  induction members generalizing f with
  | nil => rfl
  | cons member members ih =>
    have front : ∃ g, (member.check ⟨f :: fs⟩).1 = ⟨g :: fs⟩ ∧
        member.bare.check ⟨f :: fs⟩ = Check.bare (member.check ⟨f :: fs⟩) := by
      cases member with
      | assignment a => exact ⟨_, rfl, a.check_bare f fs⟩
      | rule r =>
        have body := checkBody_bare.2 r.body .empty (f :: fs)
        refine ⟨f, ?_, ?_⟩
        · rw [Member.check, r.check_eq]
        · show r.bare.check _ = Check.bare (r.check _)
          rw [r.bare.check_eq, r.check_eq]
          exact Prod.ext rfl (congrArg (·.2) body)
    obtain ⟨g, hg, front⟩ := front
    rw [List.map_cons, checkMembers_cons, checkMembers_cons, front, Check.bare, hg, ih g]
    unfold Check.bare
    simp only [List.map_append]

/-- **In a bare stylesheet the checker finds what it finds in the stylesheet.** -/
theorem Sheet.findings_bare (sheet : Sheet) :
    sheet.bare.findings = sheet.findings.map Diagnostic.bare := by
  rw [Sheet.findings_eq, Sheet.findings_eq]
  exact congrArg Prod.snd (checkMembers_bare sheet.members .empty [])

/-! ### Evaluating bare trees -/

/-- A result seen through `g`, or an error at no place. -/
def bareResult {α β : Type} (g : α → β) : Except Error α → Except Error β
  | .ok a => .ok (g a)
  | .error e => .error e.bare

theorem Expr.valueIn_bare (env : Environment) (e : Expr) :
    e.bare.valueIn env = bareResult (fun v => v) (e.valueIn env) := by
  induction e with
  | literal => rfl
  | reference id name span =>
    rw [bare, valueIn, valueIn]
    cases env.lookup name <;> rfl
  | operation id op left right span ihl ihr =>
    rw [bare, valueIn, valueIn, ihl, ihr]
    cases left.valueIn env with
    | error e => rfl
    | ok l =>
      cases right.valueIn env with
      | error e => rfl
      | ok r =>
        cases hop : op.apply l r with
        | error cause =>
          simp only [bareResult, bind, Except.bind, hop]
          rfl
        | ok v => simp only [bareResult, bind, Except.bind, hop]

theorem evaluateBody_bare :
    (∀ (item : Item) (env : Environment), item.bare.evaluate env =
      bareResult (fun (out, env) => (bareBody out, env)) (item.evaluate env)) ∧
    ∀ (items : List Item) (env : Environment),
      evaluateBody (bareBody items) env = bareResult bareBody (evaluateBody items env) := by
  apply Item.body_induction
  case declaration =>
    intro d env
    rw [Item.bare, Item.evaluate, Item.evaluate, Declaration.bare, Expr.valueIn_bare]
    cases d.value.valueIn env with
    | error e => rfl
    | ok v =>
      have id : d.value.bare.id = 0 := by cases d.value <;> rfl
      have span : d.value.bare.span = .nowhere := by cases d.value <;> rfl
      show Except.ok ([Item.declaration ⟨0, d.property, .literal d.value.bare.id v d.value.bare.span,
        .nowhere⟩], env) = _
      rw [id, span]
      rfl
  case assignment =>
    intro a env
    rw [Item.bare, Item.evaluate, Item.evaluate, Assignment.bare, Expr.valueIn_bare]
    cases a.value.valueIn env <;> rfl
  case ifClause =>
    intro clause ih env
    rw [Item.bare_ifClause, Item.evaluate_ifClause, Item.evaluate_ifClause, IfClause.bare,
      Expr.valueIn_bare]
    cases clause.condition.valueIn env with
    | error e => rfl
    | ok v =>
      cases v with
      | color text => rfl
      | number d a => rfl
      | bool b =>
        show (evaluateBody (clause.bare.branch b) env).map (·, env) = _
        rw [clause.branch_bare, ih b env]
        cases h : evaluateBody (clause.branch b) env <;> simp [bareResult, h, Except.map]
  case nil => exact fun _ => rfl
  case cons =>
    intro item items front back env
    rw [bareBody, evaluateBody, evaluateBody, front env]
    cases item.evaluate env with
    | error e => rfl
    | ok result =>
      obtain ⟨out, env'⟩ := result
      show (do return bareBody out ++ (← evaluateBody (bareBody items) env')) =
        bareResult bareBody (do return out ++ (← evaluateBody items env'))
      rw [back env']
      cases evaluateBody items env' with
      | error e => rfl
      | ok rest => exact congrArg Except.ok (bareBody_append out rest).symm

/-- **Bare members come to what the members come to.** -/
theorem evaluateMembers_bare (members : List Member) (env : Environment) :
    evaluateMembers (members.map Member.bare) env =
      bareResult (List.map Member.bare) (evaluateMembers members env) := by
  induction members generalizing env with
  | nil => rfl
  | cons member members ih =>
    cases member with
    | assignment a =>
      rw [List.map_cons, Member.bare, Assignment.bare, evaluateMembers, evaluateMembers,
        Expr.valueIn_bare]
      cases a.value.valueIn env with
      | error e => rfl
      | ok v => exact ih (env.insert a.name v)
    | rule r =>
      rw [List.map_cons, Member.bare, Rule.bare, evaluateMembers, evaluateMembers,
        evaluateBody_bare.2 r.body env]
      cases evaluateBody r.body env with
      | error e => rfl
      | ok body =>
        show (do return Member.rule ⟨0, r.selectors, bareBody body, .nowhere⟩ ::
            (← evaluateMembers (members.map Member.bare) env)) =
          bareResult (List.map Member.bare)
            (do return Member.rule {r with body} :: (← evaluateMembers members env))
        rw [ih env]
        cases evaluateMembers members env <;> rfl

/-! ### Stanzas of bare trees -/

theorem Item.setting?_bare (item : Item) : item.bare.setting? = item.setting? := by
  cases item with
  | declaration d =>
    rw [bare, setting?, setting?, Declaration.bare]
    cases d.value <;> rfl
  | assignment a => rw [bare]; rfl
  | ifClause clause => rw [bare_ifClause]; rfl

theorem Rule.stanza_bare (rule : Rule) : rule.bare.stanza = rule.stanza := by
  have settings : ∀ items, (bareBody items).filterMap Item.setting? =
      items.filterMap Item.setting? := by
    intro items
    induction items with
    | nil => rfl
    | cons item items ih => rw [bareBody, List.filterMap_cons, List.filterMap_cons,
        Item.setting?_bare, ih]
  rw [stanza, stanza, bare, settings]

theorem Sheet.stanzas_rule (rule : Rule) (members : List Member) (span : Span) :
    stanzas ⟨.rule rule :: members, span⟩ = rule.stanza :: stanzas ⟨members, span⟩ := rfl

theorem Sheet.stanzas_assignment (a : Assignment) (members : List Member) (span : Span) :
    stanzas ⟨.assignment a :: members, span⟩ = stanzas ⟨members, span⟩ := rfl

/-- What is going to be CSS does not depend on numbers and places. -/
theorem Sheet.stanzas_bare (sheet : Sheet) : sheet.bare.stanzas = sheet.stanzas := by
  obtain ⟨members, span⟩ := sheet
  show stanzas ⟨members.map Member.bare, .nowhere⟩ = stanzas ⟨members, span⟩
  induction members with
  | nil => rfl
  | cons member members ih =>
    cases member with
    | assignment a => rw [List.map_cons, Member.bare, stanzas_assignment, stanzas_assignment, ih]
    | rule r => rw [List.map_cons, Member.bare, stanzas_rule, stanzas_rule, r.stanza_bare, ih]

/-! ### Flat stylesheets -/

def Setting.item (e : Setting) : Item :=
  .declaration ⟨0, e.property, .literal 0 e.value .nowhere, .nowhere⟩

def Stanza.rule (s : Stanza) : Rule := ⟨0, s.selectors, s.settings.map Setting.item, .nowhere⟩

/-- The bare stylesheet of given stanzas. -/
def Sheet.ofStanzas (stanzas : List Stanza) : Sheet :=
  ⟨stanzas.map fun s => .rule s.rule, .nowhere⟩

theorem Item.bare_of_setting? {item : Item} {e : Setting} (h : item.setting? = some e) :
    item.bare = e.item := by
  obtain ⟨⟨id, property, value, span⟩, _, v, _, rfl, hv⟩ := IsFlat.eq ⟨e, h⟩
  cases hv
  cases h
  rw [bare]
  rfl

theorem bareBody_of_isFlat {items : List Item} (flat : ∀ i ∈ items, i.IsFlat) :
    bareBody items = (items.filterMap Item.setting?).map Setting.item := by
  induction items with
  | nil => rfl
  | cons item items ih =>
    obtain ⟨⟨e, he⟩, rest⟩ := List.forall_mem_cons.1 flat
    rw [List.filterMap_cons_some he, List.map_cons, bareBody, Item.bare_of_setting? he, ih rest]

/-- **A flat stylesheet is its stanzas**, apart from numbers and places. -/
theorem Sheet.bare_of_isFlat {sheet : Sheet} (flat : sheet.IsFlat) :
    sheet.bare = ofStanzas sheet.stanzas := by
  obtain ⟨members, span⟩ := sheet
  have same : members.map Member.bare =
      (stanzas ⟨members, span⟩).map fun s => Member.rule s.rule := by
    induction members with
    | nil => rfl
    | cons member members ih =>
      obtain ⟨first, rest⟩ := List.forall_mem_cons.1 flat
      cases member with
      | assignment a => exact first.elim
      | rule r =>
        rw [stanzas_rule, List.map_cons, List.map_cons, ih rest, Member.bare, Rule.bare,
          bareBody_of_isFlat first]
        rfl
  exact congrArg (Sheet.mk · .nowhere) same

theorem bareBody_eq_map (items : List Item) : bareBody items = items.map Item.bare := by
  induction items with
  | nil => rfl
  | cons item items ih => rw [bareBody, List.map_cons, ih]

theorem Sheet.isFlat_bare_iff {sheet : Sheet} : sheet.bare.IsFlat ↔ sheet.IsFlat := by
  refine List.forall_mem_map.trans (forall₂_congr fun m _ => ?_)
  cases m with
  | assignment a => exact Iff.rfl
  | rule r =>
    show (∀ item ∈ bareBody r.body, item.IsFlat) ↔ ∀ item ∈ r.body, item.IsFlat
    rw [bareBody_eq_map]
    refine List.forall_mem_map.trans (forall₂_congr fun item _ => ?_)
    rw [Item.IsFlat, Item.IsFlat, item.setting?_bare]

theorem Sheet.isFlat_ofStanzas (stanzas : List Stanza) : (ofStanzas stanzas).IsFlat := by
  refine List.forall_mem_map.2 fun s _ => ?_
  exact List.forall_mem_map.2 fun e _ => ⟨e, rfl⟩

theorem Sheet.stanzas_ofStanzas (stanzas : List Stanza) :
    (ofStanzas stanzas).stanzas = stanzas := by
  have settings : ∀ s : Stanza,
      (s.settings.map Setting.item).filterMap Item.setting? = s.settings := by
    intro s
    rw [List.filterMap_map]
    exact List.filterMap_some
  induction stanzas with
  | nil => rfl
  | cons s stanzas ih =>
    show (⟨s.selectors, (s.settings.map Setting.item).filterMap Item.setting?⟩ : Stanza) ::
      (ofStanzas stanzas).stanzas = _
    rw [settings, ih]

theorem Sheet.bare_ofStanzas (stanzas : List Stanza) :
    (ofStanzas stanzas).bare = ofStanzas stanzas := by
  rw [bare_of_isFlat (isFlat_ofStanzas stanzas), stanzas_ofStanzas]

/-- **What is the bare stylesheet of stanzas but for numbers and places is flat and has these
stanzas.** -/
theorem Sheet.isFlat_of_bare {sheet : Sheet} {stanzas : List Stanza}
    (h : sheet.bare = ofStanzas stanzas) : sheet.IsFlat ∧ sheet.stanzas = stanzas := by
  constructor
  · rw [← isFlat_bare_iff, h]
    exact isFlat_ofStanzas stanzas
  · rw [← sheet.stanzas_bare, h, stanzas_ofStanzas]

end Typesheet
