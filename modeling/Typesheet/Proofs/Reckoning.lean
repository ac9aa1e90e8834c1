import Typesheet.Proofs.Calculation

/-! Evaluation and exact arithmetic.

What an expression comes to can be reckoned without any bounds, in integers of any size
(`Expr.reckon`). The steps of the reckoning are the operations in the order in which they
are due, each with its exact result. Evaluation gives a value just when the reckoning does,
the same one, and the result of each step is an amount; otherwise it stops at the first
step whose result is none (`value_exact`). What later steps would make of that result is
not considered, so an expression can overflow although its exact value is an amount. -/
namespace Typesheet

/-! ### Reckoning -/

/-- A value whose number, if it is one, may be of any size. -/
inductive Exact where
  | color (text : String)
  | number (dimension : Dimension) (n : Int)
  | bool (value : Bool)
deriving DecidableEq, Repr

/-- A value as one of any size. -/
def Literal.exact : Literal → Exact
  | color text => .color text
  | number dimension amount => .number dimension amount.toInt
  | bool value => .bool value

theorem Literal.exact_injective : Function.Injective Literal.exact := by
  intro v w same
  cases v <;> cases w <;> injection same
  case color.color text => rw [text]
  case number.number dimension amount => rw [dimension, Int64.toInt_inj.1 amount]
  case bool.bool value => rw [value]

/-- The result of an operation in integers of any size. Numbers that measure the same can be
added and subtracted, and a product has a scalar on one side. -/
def Operator.combine : Operator → Exact → Exact → Option (Dimension × Int)
  | add, .number d m, .number e n => if d = e then some (d, m + n) else none
  | subtract, .number d m, .number e n => if d = e then some (d, m - n) else none
  | multiply, .number .scalar m, .number e n => some (e, m * n)
  | multiply, .number d m, .number .scalar n => some (d, m * n)
  | _, _, _ => none

namespace Expr

/-- An operation of an expression, the place where it starts and its exact result. -/
structure Step where
  operator : Operator
  place : Position
  result : Int
deriving DecidableEq, Repr

/-- The result of a step is an amount, between -2^63 and 2^63 - 1. -/
def Step.Fits (step : Step) : Prop :=
  Amount.least ≤ step.result ∧ step.result ≤ Amount.greatest

instance : DecidablePred Step.Fits := fun step =>
  inferInstanceAs (Decidable (Amount.least ≤ step.result ∧ step.result ≤ Amount.greatest))

/-- What an expression comes to in integers of any size, and its steps: those of the left
operand, those of the right one, then the operation itself. -/
def reckon (s : ValueScopes) : Expr → Option (Exact × List Step)
  | literal _ value _ => some (value.exact, [])
  | reference _ name _ => (s.find? name).map fun value => (value.exact, [])
  | operation _ op left right span => do
    let (l, before) ← left.reckon s
    let (r, behind) ← right.reckon s
    let (dimension, n) ← op.combine l r
    return (.number dimension n, before ++ behind ++ [⟨op, span.start, n⟩])

end Expr

/-! ### One operation -/

theorem Operator.combine_number (op : Operator) (d e : Dimension) (m n : Int) :
    op.combine (.number d m) (.number e n) = (op.dimension? d e).map (·, op.exact m n) := by
  cases op <;> cases d <;> cases e <;> rfl

/-- An operation on values is the operation on integers, with a result that is an amount. -/
theorem Operator.apply_eq_combine (op : Operator) (l r : Literal) :
    op.apply l r =
      match op.combine l.exact r.exact with
      | some (dimension, n) =>
        match Amount.ofInt? n with
        | some a => .ok (.number dimension a)
        | none => .error (.arithmeticOverflow op.symbol)
      | none => .error (op.mismatch l.type r.type) := by
  cases l with
  | color text => cases op <;> rfl
  | bool value => cases op <;> rfl
  | number d a =>
    cases r with
    | color text => cases op <;> cases d <;> rfl
    | bool value => cases op <;> cases d <;> rfl
    | number e b =>
      rw [apply_number, Literal.exact, Literal.exact, combine_number]
      cases op.dimension? d e <;> rfl

theorem Expr.Step.fits_iff {step : Step} : step.Fits ↔ ∃ a, Amount.ofInt? step.result = some a := by
  have none := Amount.ofInt?_eq_none_iff (n := step.result)
  unfold Fits
  cases h : Amount.ofInt? step.result with
  | some a =>
    have range : ¬(step.result < Amount.least ∨ Amount.greatest < step.result) := by
      rw [← none, h]
      exact Option.some_ne_none a
    exact ⟨fun _ => ⟨a, rfl⟩, fun _ => by omega⟩
  | none =>
    have range := none.1 h
    exact ⟨fun _ => by omega, fun ⟨_, h⟩ => nomatch h⟩

namespace Expr
variable {s : ValueScopes}

/-! ### Reckoned and evaluated -/

/-- An operation comes to something when its operands do and they combine. -/
theorem reckon_operation_iff {id : NodeId} {op : Operator} {left right : Expr} {span : Span}
    {x : Exact} {steps : List Step} :
    (operation id op left right span).reckon s = some (x, steps) ↔
      ∃ l before r behind dimension n, left.reckon s = some (l, before) ∧
        right.reckon s = some (r, behind) ∧ op.combine l r = some (dimension, n) ∧
        x = .number dimension n ∧ steps = before ++ behind ++ [⟨op, span.start, n⟩] := by
  rw [reckon]
  cases left.reckon s with
  | none => simp
  | some reckoned =>
    obtain ⟨l, before⟩ := reckoned
    cases right.reckon s with
    | none => simp
    | some reckoned =>
      obtain ⟨r, behind⟩ := reckoned
      constructor
      · intro h
        have h : (op.combine l r).bind _ = some (x, steps) := h
        obtain ⟨⟨dimension, n⟩, hc, same⟩ := Option.bind_eq_some_iff.1 h
        cases same
        exact ⟨l, before, r, behind, dimension, n, rfl, rfl, hc, rfl, rfl⟩
      · rintro ⟨_, _, _, _, dimension, n, ⟨⟩, ⟨⟩, hc, rfl, rfl⟩
        show (op.combine l r).bind _ = some _
        rw [hc]
        rfl

/-- The error of a step whose result is no amount. -/
def Step.overflow (step : Step) : Error := ⟨.arithmeticOverflow step.operator.symbol, step.place⟩

/-- An expression with a value comes to it in steps whose results are amounts. -/
theorem reckon_of_value {e : Expr} {v : Literal} (h : e.value s = .ok v) :
    ∃ steps, e.reckon s = some (v.exact, steps) ∧ ∀ step ∈ steps, step.Fits := by
  induction e generalizing v with
  | literal id value span =>
    cases h
    exact ⟨[], rfl, List.forall_mem_nil _⟩
  | reference id name span =>
    rw [value] at h
    cases hf : s.find? name with
    | none =>
      rw [hf] at h
      cases h
    | some w =>
      rw [hf] at h
      cases h
      exact ⟨[], by rw [reckon, hf]; rfl, List.forall_mem_nil _⟩
  | operation id op left right span ihl ihr =>
    cases operated (s := s) id op left right span with
    | left _ value => cases h.symm.trans value
    | right _ _ value => cases h.symm.trans value
    | @both l r hl hr value =>
      obtain ⟨before, reckonl, fitsl⟩ := ihl hl
      obtain ⟨behind, reckonr, fitsr⟩ := ihr hr
      rw [value, op.apply_eq_combine] at h
      cases hc : op.combine l.exact r.exact with
      | none =>
        rw [hc] at h
        cases h
      | some result =>
        obtain ⟨dimension, n⟩ := result
        cases ha : Amount.ofInt? n with
        | none =>
          simp only [hc, ha] at h
          cases h
        | some a =>
          simp only [hc, ha] at h
          cases h
          refine ⟨before ++ behind ++ [⟨op, span.start, n⟩], ?_, ?_⟩
          · refine reckon_operation_iff.2 ⟨_, _, _, _, _, _, reckonl, reckonr, hc, ?_, rfl⟩
            rw [Literal.exact, Amount.ofInt?_eq_some_iff.1 ha]
          · refine List.forall_mem_append.2 ⟨List.forall_mem_append.2 ⟨fitsl, fitsr⟩, ?_⟩
            exact List.forall_mem_singleton.2 (Step.fits_iff.2 ⟨a, ha⟩)

/-- What both operands come to is combined or is no amount. -/
theorem value_operation {id : NodeId} {op : Operator} {left right : Expr} {span : Span}
    {l r : Literal} {dimension : Dimension} {n : Int} (hl : left.value s = .ok l)
    (hr : right.value s = .ok r) (hc : op.combine l.exact r.exact = some (dimension, n)) :
    (operation id op left right span).value s =
      match Amount.ofInt? n with
      | some a => .ok (.number dimension a)
      | none => .error (Step.overflow ⟨op, span.start, n⟩) := by
  have apply := op.apply_eq_combine l r
  simp only [hc] at apply
  rw [value, hl, hr]
  simp only [bind, Except.bind, apply]
  cases Amount.ofInt? n <;> rfl

/-- An expression that comes to something in steps whose results are amounts has a value. -/
theorem value_of_fits {e : Expr} {x : Exact} {steps : List Step}
    (h : e.reckon s = some (x, steps)) (fits : ∀ step ∈ steps, step.Fits) :
    ∃ v : Literal, v.exact = x ∧ e.value s = .ok v := by
  induction e generalizing x steps with
  | literal id value span =>
    cases h
    exact ⟨value, rfl, rfl⟩
  | reference id name span =>
    rw [reckon] at h
    obtain ⟨v, hf, same⟩ := Option.map_eq_some_iff.1 h
    cases same
    exact ⟨v, rfl, by rw [value, hf]⟩
  | operation id op left right span ihl ihr =>
    obtain ⟨_, before, _, behind, dimension, n, reckonl, reckonr, hc, rfl, rfl⟩ :=
      reckon_operation_iff.1 h
    obtain ⟨fits, own⟩ := List.forall_mem_append.1 fits
    obtain ⟨fitsl, fitsr⟩ := List.forall_mem_append.1 fits
    obtain ⟨l, rfl, hl⟩ := ihl reckonl fitsl
    obtain ⟨r, rfl, hr⟩ := ihr reckonr fitsr
    obtain ⟨a, ha⟩ := Step.fits_iff.1 (List.forall_mem_singleton.1 own)
    have ha : Amount.ofInt? n = some a := ha
    refine ⟨.number dimension a, ?_, ?_⟩
    · rw [Literal.exact, Amount.ofInt?_eq_some_iff.1 ha]
    · rw [value_operation hl hr hc, ha]

theorem fits_of_find? {steps : List Step} (h : steps.find? (¬·.Fits) = none) :
    ∀ step ∈ steps, step.Fits := by
  intro step hstep
  simpa using List.find?_eq_none.1 h step hstep

/-- Evaluation stops at the first step whose result is no amount. -/
theorem value_of_first {e : Expr} {x : Exact} {steps : List Step} {first : Step}
    (h : e.reckon s = some (x, steps)) (hfirst : steps.find? (¬·.Fits) = some first) :
    e.value s = .error first.overflow := by
  induction e generalizing x steps with
  | literal id value span =>
    cases h
    cases hfirst
  | reference id name span =>
    rw [reckon] at h
    obtain ⟨v, -, same⟩ := Option.map_eq_some_iff.1 h
    cases same
    cases hfirst
  | operation id op left right span ihl ihr =>
    obtain ⟨_, before, _, behind, dimension, n, reckonl, reckonr, hc, rfl, rfl⟩ :=
      reckon_operation_iff.1 h
    rw [List.find?_append, List.find?_append, Option.or_eq_some_iff, Option.or_eq_some_iff,
      Option.or_eq_none_iff] at hfirst
    obtain (inLeft | ⟨fitsl, inRight⟩) | ⟨⟨fitsl, fitsr⟩, own⟩ := hfirst
    · rw [value, ihl reckonl inLeft]
      rfl
    · obtain ⟨l, rfl, hl⟩ := value_of_fits reckonl (fits_of_find? fitsl)
      rw [value, hl, ihr reckonr inRight]
      rfl
    · obtain ⟨l, rfl, hl⟩ := value_of_fits reckonl (fits_of_find? fitsl)
      obtain ⟨r, rfl, hr⟩ := value_of_fits reckonr (fits_of_find? fitsr)
      obtain rfl := List.mem_singleton.1 (List.mem_of_find?_eq_some own)
      have unfit : ¬Step.Fits ⟨op, span.start, n⟩ := by simpa using List.find?_some own
      have none : Amount.ofInt? n = none := by
        rw [Option.eq_none_iff_forall_ne_some]
        exact fun a ha => unfit (Step.fits_iff.2 ⟨a, ha⟩)
      rw [value_operation hl hr hc, none]

end Expr

/-! ### Main result -/

/-- Evaluation agrees with exact arithmetic: an expression has the value that it comes to in
integers of any size, provided that the result of every step is an amount, and it stops at
the first step whose result is none. -/
theorem value_exact (s : ValueScopes) (e : Expr) :
    (∀ v, e.value s = .ok v ↔
      ∃ steps, e.reckon s = some (v.exact, steps) ∧ ∀ step ∈ steps, step.Fits) ∧
    ∀ x steps, e.reckon s = some (x, steps) → (∃ step ∈ steps, ¬step.Fits) →
      ∃ first, steps.find? (¬·.Fits) = some first ∧
        e.value s = .error ⟨.arithmeticOverflow first.operator.symbol, first.place⟩ := by
  constructor
  · intro v
    constructor
    · exact Expr.reckon_of_value
    · rintro ⟨steps, reckoned, fits⟩
      obtain ⟨w, same, value⟩ := Expr.value_of_fits reckoned fits
      rw [value, Literal.exact_injective same]
  · intro x steps reckoned ⟨step, hstep, unfit⟩
    obtain ⟨first, hfirst⟩ : ∃ first, steps.find? (¬·.Fits) = some first := by
      rw [← Option.isSome_iff_exists, List.find?_isSome]
      exact ⟨step, hstep, decide_eq_true unfit⟩
    exact ⟨first, hfirst, Expr.value_of_first reckoned hfirst⟩

/-- A variable of the greatest amount. -/
def greatestScope : ValueScopes := ⟨[⟨[("A", .number .pixel 9223372036854775807)]⟩]⟩

/-- `A + 1px - (A + 1px)`, read from the start of a file. -/
def cancelling : Expr :=
  .operation 7 .subtract
    (.operation 3 .add (.reference 1 "A" ⟨⟨0, "sheet"⟩, ⟨1, "sheet"⟩⟩)
      (.literal 2 (.number .pixel 1) ⟨⟨4, "sheet"⟩, ⟨7, "sheet"⟩⟩) ⟨⟨0, "sheet"⟩, ⟨7, "sheet"⟩⟩)
    (.operation 6 .add (.reference 4 "A" ⟨⟨11, "sheet"⟩, ⟨12, "sheet"⟩⟩)
      (.literal 5 (.number .pixel 1) ⟨⟨15, "sheet"⟩, ⟨18, "sheet"⟩⟩) ⟨⟨11, "sheet"⟩, ⟨18, "sheet"⟩⟩)
    ⟨⟨0, "sheet"⟩, ⟨18, "sheet"⟩⟩

def cancellingSteps : List Expr.Step :=
  [⟨.add, ⟨0, "sheet"⟩, 9223372036854775808⟩, ⟨.add, ⟨11, "sheet"⟩, 9223372036854775808⟩,
    ⟨.subtract, ⟨0, "sheet"⟩, 0⟩]

/-- Two sums overflow whose difference is zero, and the first is where evaluation stops. -/
theorem value_exact_cancelling :
    cancelling.reckon greatestScope = some (.number .pixel 0, cancellingSteps) ∧
      (∃ step ∈ cancellingSteps, ¬step.Fits) ∧
      cancelling.value greatestScope = .error ⟨.arithmeticOverflow "+", ⟨0, "sheet"⟩⟩ := by
  have reckoned : cancelling.reckon greatestScope = some (.number .pixel 0, cancellingSteps) := by
    decide
  have unfit : ∃ step ∈ cancellingSteps, ¬step.Fits := by decide
  obtain ⟨first, hfirst, value⟩ := (value_exact greatestScope cancelling).2 _ _ reckoned unfit
  have earliest : cancellingSteps.find? (¬·.Fits) =
      some ⟨.add, ⟨0, "sheet"⟩, 9223372036854775808⟩ := by decide
  cases hfirst.symm.trans earliest
  exact ⟨reckoned, unfit, value⟩

end Typesheet
