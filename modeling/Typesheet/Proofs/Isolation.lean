import Typesheet.Proofs.Bare
import Typesheet.Proofs.Weakening

/-! A rule has no effect outside itself.

What a rule assigns is bound in a scope that is closed behind it, so to the members behind
it the rule might as well be missing: they are checked and evaluated as they would be
without it. The other way round, of the members in front of it a rule sees the assignments
only. `rule_isolated` puts this together for a rule anywhere in a stylesheet. -/
namespace Typesheet

/-! ### What members leave behind -/

/-- The assignments among members. -/
def assignmentsAmong (members : List Member) : List Member :=
  members.filter fun
    | .assignment _ => true
    | .rule _ => false

/-- Only assignments leave anything in scope behind them. -/
theorem checkMembers_assignmentsAmong (members : List Member) (s : TypeScopes) :
    (checkMembers (assignmentsAmong members) s).1 = (checkMembers members s).1 := by
  induction members generalizing s with
  | nil => rfl
  | cons member members ih =>
    cases member with
    | assignment a => exact ih (a.check s).1
    | rule r =>
      have unchanged : (Member.check (.rule r) s).1 = s := congrArg Prod.fst (r.check_eq s)
      rw [checkMembers_cons, unchanged]
      exact ih s

/-- In front of others, assignments are evaluated to no rules, but they leave in scope what
all the members do. -/
theorem evaluateMembers_assignmentsAmong {members : List Member} {env env' : Environment}
    (h : environmentBehind members env = .ok env') :
    evaluateMembers (assignmentsAmong members) env = .ok [] ∧
      environmentBehind (assignmentsAmong members) env = .ok env' := by
  induction members generalizing env with
  | nil => exact ⟨rfl, h⟩
  | cons member members ih =>
    cases member with
    | rule r => exact ih h
    | assignment a =>
      obtain ⟨v, hv, h⟩ := bind_eq_ok_iff.1 h
      obtain ⟨none, behind⟩ := ih h
      exact ⟨bind_eq_ok_iff.2 ⟨v, hv, none⟩, bind_eq_ok_iff.2 ⟨v, hv, behind⟩⟩

/-! ### A rule among members -/

/-- What is wrong in a rule behind these members. -/
def Rule.findingsBehind (rule : Rule) (members : List Member) : List Diagnostic :=
  (checkBody rule.body (checkMembers members Scopes.empty.push).1.push).2

theorem Rule.findingsBehind_assignmentsAmong (rule : Rule) (members : List Member) :
    rule.findingsBehind (assignmentsAmong members) = rule.findingsBehind members := by
  unfold findingsBehind
  rw [checkMembers_assignmentsAmong]

/-- What is wrong with the others is the same with the rule and without it. -/
theorem checkMembers_rule (front back : List Member) (r : Rule) :
    (checkMembers (front ++ .rule r :: back) Scopes.empty.push).2 =
      (checkMembers front Scopes.empty.push).2 ++ (r.findingsBehind front ++
        (checkMembers back (checkMembers front Scopes.empty.push).1).2) := by
  have check := r.check_eq (checkMembers front Scopes.empty.push).1
  rw [checkMembers_append, checkMembers_cons]
  show _ ++ ((r.check _).2 ++ (checkMembers back (r.check _).1).2) = _
  rw [check]
  rfl

/-- The rule is evaluated in what the members in front of it leave in scope, and the members
behind it are evaluated in the same. -/
theorem evaluateMembers_rule {front back out : List Member} {r : Rule} {env : Environment}
    (h : evaluateMembers (front ++ .rule r :: back) env = .ok out) :
    ∃ frontOut env' body backOut, out = frontOut ++ .rule {r with body} :: backOut ∧
      evaluateMembers front env = .ok frontOut ∧ environmentBehind front env = .ok env' ∧
      evaluateBody r.body env' = .ok body ∧ evaluateMembers back env' = .ok backOut := by
  obtain ⟨frontOut, env', rest, hfront, henv, hrest, rfl⟩ := evaluateMembers_append_iff.1 h
  rw [evaluateMembers] at hrest
  obtain ⟨body, hbody, hrest⟩ := bind_eq_ok_iff.1 hrest
  obtain ⟨backOut, hback, hrest⟩ := bind_eq_ok_iff.1 hrest
  cases hrest
  exact ⟨frontOut, env', body, backOut, rfl, hfront, henv, hbody, hback⟩

/-- A stylesheet is flattened to what its members are evaluated to. -/
theorem Sheet.flatten_ok_iff {members out : List Member} {span : Span} :
    Sheet.flatten ⟨members, span⟩ = .ok ⟨out, span⟩ ↔ evaluateMembers members ∅ = .ok out := by
  rw [Sheet.flatten_eq_map]
  cases evaluateMembers members ∅ with
  | error e => simp [Except.map]
  | ok out' => simp [Except.map]

/-! ### Main result -/

/-- **A rule has no effect outside itself.** Checked among other members it adds what is
wrong in it, which depends on nothing but the rule and the assignments in front of it, and
everything else found is the same. Flattened among other members it comes to one rule, the
same that it comes to behind those assignments alone, and all other members come to the same
rules without it. -/
theorem rule_isolated (front back : List Member) (r : Rule) (span : Span) :
    (∃ more, Sheet.findings ⟨front ++ back, span⟩ = Sheet.findings ⟨front, span⟩ ++ more ∧
      Sheet.findings ⟨front ++ .rule r :: back, span⟩ =
        Sheet.findings ⟨front, span⟩ ++ (r.findingsBehind (assignmentsAmong front) ++ more)) ∧
    ∀ flat, Sheet.flatten ⟨front ++ .rule r :: back, span⟩ = .ok flat →
      ∃ frontOut body backOut, flat = ⟨frontOut ++ .rule {r with body} :: backOut, span⟩ ∧
        Sheet.flatten ⟨front, span⟩ = .ok ⟨frontOut, span⟩ ∧
        Sheet.flatten ⟨front ++ back, span⟩ = .ok ⟨frontOut ++ backOut, span⟩ ∧
        Sheet.flatten ⟨assignmentsAmong front ++ [.rule r], span⟩ =
          .ok ⟨[.rule {r with body}], span⟩ := by
  constructor
  · refine ⟨(checkMembers back (checkMembers front Scopes.empty.push).1).2, ?_, ?_⟩
    · rw [Sheet.findings_eq, Sheet.findings_eq, checkMembers_append]
    · rw [Sheet.findings_eq, Sheet.findings_eq, r.findingsBehind_assignmentsAmong]
      exact checkMembers_rule front back r
  · intro flat h
    obtain ⟨out, _, -, rfl⟩ := Sheet.flatten_ok h
    obtain ⟨frontOut, env, body, backOut, rfl, hfront, henv, hbody, hback⟩ :=
      evaluateMembers_rule (Sheet.flatten_ok_iff.1 h)
    obtain ⟨none, behind⟩ := evaluateMembers_assignmentsAmong henv
    have rule : evaluateMembers [.rule r] env = .ok [.rule {r with body}] := by
      rw [evaluateMembers, hbody]
      rfl
    refine ⟨frontOut, body, backOut, rfl, Sheet.flatten_ok_iff.2 hfront, ?_, ?_⟩
    · exact Sheet.flatten_ok_iff.2
        (evaluateMembers_append_iff.2 ⟨frontOut, env, backOut, hfront, henv, hback, rfl⟩)
    · exact Sheet.flatten_ok_iff.2
        (evaluateMembers_append_iff.2 ⟨[], env, _, none, behind, rule, rfl⟩)

/-- A width, and a rule in front of others that uses it. -/
def widthInFront : List Member :=
  [.assignment ⟨2, "Width", .literal 1 (.number .pixel 4) .nowhere, .nowhere⟩,
    .rule ⟨5, [.tag "p"], [.declaration ⟨4, "width", .reference 3 "Width" .nowhere, .nowhere⟩],
      .nowhere⟩]

/-- A rule with a colour by the name of the width, which it uses as one. -/
def colouredRule : Rule :=
  ⟨10, [.className "dark"],
    [.assignment ⟨7, "Width", .literal 6 (.color "#000000") .nowhere, .nowhere⟩,
      .declaration ⟨9, "color", .reference 8 "Width" .nowhere, .nowhere⟩], .nowhere⟩

/-- A rule behind others that uses the width. -/
def widthBehind : List Member :=
  [.rule ⟨13, [.tag "q"], [.declaration ⟨12, "width", .reference 11 "Width" .nowhere, .nowhere⟩],
    .nowhere⟩]

/-- To the rule behind the coloured one, the name still is a width. -/
theorem rule_isolated_coloured :
    ∃ flat frontOut body backOut,
      Sheet.flatten ⟨widthInFront ++ .rule colouredRule :: widthBehind, .nowhere⟩ = .ok flat ∧
      flat = ⟨frontOut ++ .rule {colouredRule with body} :: backOut, .nowhere⟩ ∧
      Sheet.flatten ⟨widthInFront ++ widthBehind, .nowhere⟩ =
        .ok ⟨frontOut ++ backOut, .nowhere⟩ := by
  have flat : ∃ flat, Sheet.flatten
      ⟨widthInFront ++ .rule colouredRule :: widthBehind, .nowhere⟩ = .ok flat := ⟨_, rfl⟩
  obtain ⟨flat, h⟩ := flat
  obtain ⟨frontOut, body, backOut, split, -, without, -⟩ :=
    (rule_isolated widthInFront widthBehind colouredRule .nowhere).2 flat h
  exact ⟨flat, frontOut, body, backOut, h, split, without⟩

end Typesheet
