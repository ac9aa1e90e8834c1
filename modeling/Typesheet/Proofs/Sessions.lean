import Mathlib.Data.List.Infix
import Typesheet.Proofs.Scoping

/-! Sessions: many stylesheets, one after the other.

A checker and a flattening can go on to another stylesheet, in the scopes that the last
one has left. A stylesheet leaves the scopes as it found them, also where flattening stops
in the middle of it (`Sheet.flattenIn_eq`, `Checker.check_eq`). So nothing of one stylesheet
is seen in another: each comes to what it comes to alone (`session_fresh`). -/
namespace Typesheet

/-! ### Running a session -/

/-- What a step comes to, and the scopes behind it. -/
def Flattening.run {α : Type} (m : Flattening α) (s : ValueScopes) :
    Except Error α × ValueScopes :=
  match m s with
  | .ok a t => (.ok a, t)
  | .error e t => (.error e, t)

/-- Flattens stylesheets, each in the scopes that the one before it has left, whether or not
that one has stopped. -/
def flattenEach : ValueScopes → List Sheet → List (Except Error Sheet × ValueScopes)
  | _, [] => []
  | s, sheet :: sheets =>
    let outcome := sheet.flattenIn.run s
    outcome :: flattenEach outcome.2 sheets

/-- A checker behind each of the stylesheets that it is given. -/
def checkEach : Checker → List Sheet → List Checker
  | _, [] => []
  | c, sheet :: sheets => c.check sheet :: checkEach (c.check sheet) sheets

/-! ### One stylesheet -/

/-- A stylesheet leaves the scopes as it found them, and what it comes to are the members
in a scope of their own. -/
theorem Sheet.flattenIn_eq (sheet : Sheet) (s : ValueScopes) :
    sheet.flattenIn.run s =
      match flattenMembers sheet.members s.push with
      | .ok members _ => (.ok {sheet with members}, s)
      | .error e _ => (.error e, s) := by
  have alone := (flattenMembers_local sheet.members).inScope_eq s
  unfold Flattening.run Sheet.flattenIn
  cases h : flattenMembers sheet.members s.push with
  | ok members t =>
    rw [h] at alone
    rw [Flattening.bind_ok alone]
    rfl
  | error e t =>
    rw [h] at alone
    rw [Flattening.bind_error alone]

theorem Sheet.flattenIn_empty (sheet : Sheet) :
    sheet.flattenIn.run .empty = (sheet.flatten, .empty) := by
  rw [sheet.flattenIn_eq, sheet.flatten_eq]
  cases flattenMembers sheet.members Scopes.empty.push <;> rfl

theorem Checker.check_eq (c : Checker) (sheet : Sheet) :
    c.check sheet = ⟨c.scopes, c.found ++ (checkMembers sheet.members c.scopes.push).2⟩ := by
  unfold Checker.check
  rw [(checkMembers_local sheet.members).inScope_eq]

theorem Checker.check_empty (found : List Diagnostic) (sheet : Sheet) :
    Checker.check ⟨.empty, found⟩ sheet = ⟨.empty, found ++ sheet.findings⟩ := by
  rw [Checker.check_eq, sheet.findings_eq]

/-! ### Many stylesheets -/

theorem flattenEach_eq (sheets : List Sheet) :
    flattenEach .empty sheets = sheets.map fun sheet => (sheet.flatten, .empty) := by
  induction sheets with
  | nil => rfl
  | cons sheet sheets ih =>
    show sheet.flattenIn.run .empty :: flattenEach (sheet.flattenIn.run .empty).2 sheets = _
    rw [sheet.flattenIn_empty, ih, List.map_cons]

theorem checkEach_eq (found : List Diagnostic) (sheets : List Sheet) :
    checkEach ⟨.empty, found⟩ sheets =
      sheets.inits.tail.map fun checked => ⟨.empty, found ++ checked.flatMap Sheet.findings⟩ := by
  induction sheets generalizing found with
  | nil => rfl
  | cons sheet sheets ih =>
    have fronts : sheets.inits = [] :: sheets.inits.tail := by
      cases sheets <;> rfl
    rw [checkEach, Checker.check_empty, ih, List.inits_cons, List.tail_cons, fronts]
    simp only [List.map_cons, List.map_map, List.tail_cons, List.flatMap_cons, List.flatMap_nil,
      List.append_nil, Function.comp_def, List.append_assoc]

/-- **Every stylesheet of a session is treated as if it were the first.** Flattening gives for
each what it comes to alone, the checker has found what is wrong with each up to the last one,
and no scope is left open behind any of them. -/
theorem session_fresh (sheets : List Sheet) :
    flattenEach .empty sheets = sheets.map (fun sheet => (sheet.flatten, .empty)) ∧
    checkEach .fresh sheets =
      sheets.inits.tail.map fun checked => ⟨.empty, checked.flatMap Sheet.findings⟩ :=
  ⟨flattenEach_eq sheets, checkEach_eq [] sheets⟩

end Typesheet
