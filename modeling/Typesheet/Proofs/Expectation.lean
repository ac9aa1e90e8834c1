import Typesheet.Grammar.Expression
import Typesheet.Proofs.Words

/-! What can come next.

Between two tokens of a stylesheet it is known what has to come and what may: a list of
parts stands out, the nearest first, and between two members nothing does. A token that
begins the nearest part is replaced for it by what the part has left, and one that does
not is tried against the next if the part may be left out (`Expected.step`).

Whatever stands out can be supplied up to the end of the stylesheet
(`Expected.run_completion`), so tokens that run at all lead to no dead end. -/
namespace Typesheet

/-- Marks that have to come somewhere. -/
inductive Mark where
  | semicolon
  | openCurly
  | closeCurly
  | closeBracket
  | closeParen
deriving DecidableEq, Repr

namespace Mark

def kind : Mark → Kind
  | semicolon => .semicolon
  | openCurly => .openCurly
  | closeCurly => .closeCurly
  | closeBracket => .closeBracket
  | closeParen => .closeParen

def text : Mark → String
  | semicolon => ";"
  | openCurly => "\x7b"
  | closeCurly => "\x7d"
  | closeBracket => "]"
  | closeParen => ")"

theorem kind_ne_eof (m : Mark) : m.kind ≠ .eof := by
  cases m <;> exact Kind.noConfusion

theorem mem_marks (m : Mark) : (m.kind, m.text.toList) ∈ Lexeme.marks := by
  cases m <;> decide

end Mark

/-- Parts of a stylesheet that can stand out. -/
inductive Expected where
  | mark (m : Mark)
  | operand
  /-- Operators with their right operands, or none. -/
  | operations
  /-- A mark, a value and a semicolon, behind a name in a body. -/
  | given
  /-- A condition and what encloses it. -/
  | condition
  /-- Items of a body, or none. -/
  | items
  /-- What applies otherwise, or nothing. -/
  | otherwise
  | selector
  /-- Selectors behind commas, or none. -/
  | further
  /-- The rest of a member that begins with a name. -/
  | named
deriving DecidableEq, Repr

namespace Expected

/-- Whether a part may be left out. -/
def optional : Expected → Bool
  | operations => true
  | items => true
  | otherwise => true
  | further => true
  | _ => false

/-- An expression in front of a mark. -/
def expression (m : Mark) : List Expected := [operand, operations, mark m]

/-- A body between braces. -/
def body : List Expected := [mark .openCurly, items, mark .closeCurly]

/-- What a part has left behind a token that it begins with. -/
def behind? : Expected → Token → Option (List Expected)
  | mark m, t => if t.kind = m.kind then some [] else none
  | operand, t =>
    if t.kind = .identifier then some []
    else
      match t.literal? with
      | some (.ok _) => some []
      | some (.error _) => none
      | none => if t.kind = .openParen then some (expression .closeParen) else none
  | operations, t => if t.kind.operator?.isSome then some [operand, operations] else none
  | given, t =>
    match t.kind with
    | .assignment => some (expression .semicolon)
    | .colon => some (expression .semicolon)
    | _ => none
  | condition, t =>
    match t.kind with
    | .openBracket => some (expression .closeBracket)
    | .openParen => some (expression .closeParen)
    | _ => none
  | items, t =>
    match t.kind with
    | .identifier => some [given, items]
    | .ifWord => some (condition :: body ++ [otherwise, items])
    | _ => none
  | otherwise, t => if t.kind = .elseWord then some body else none
  | selector, t =>
    match t.kind with
    | .identifier => some []
    | .classSelector => some []
    | .idSelector => some []
    | .color => some []
    | _ => none
  | further, t => if t.kind = .comma then some [selector, further] else none
  | named, t =>
    match t.kind with
    | .assignment => some (expression .semicolon)
    | .comma => some (selector :: further :: body)
    | .openCurly => some [items, mark .closeCurly]
    | _ => none

/-- What stands out behind a token between members. -/
def start? (t : Token) : Option (List Expected) :=
  match t.kind with
  | .identifier => some [named]
  | .classSelector => some (further :: body)
  | .idSelector => some (further :: body)
  | .color => some (further :: body)
  | .eof => some []
  | _ => none

/-- What stands out behind a token, if it can stand where it does. -/
def step : List Expected → Token → Option (List Expected)
  | [], t => start? t
  | e :: rest, t =>
    match e.behind? t with
    | some parts => some (parts ++ rest)
    | none => if e.optional then step rest t else none

/-- What stands out behind tokens. -/
def run (stack : List Expected) : List Token → Option (List Expected)
  | [] => some stack
  | t :: ts => (step stack t).bind fun later => run later ts

section
variable {e : Expected} {rest parts stack later : List Expected} {ts us : List Token} {t : Token}

theorem step_begins (h : e.behind? t = some parts) : step (e :: rest) t = some (parts ++ rest) := by
  rw [step, h]

/-- A part that a token does not begin with is left out. -/
theorem step_omits (h : e.behind? t = none) (optional : e.optional = true) :
    step (e :: rest) t = step rest t := by
  rw [step, h, if_pos optional]

theorem step_stuck (h : e.behind? t = none) (needed : e.optional = false) :
    step (e :: rest) t = none := by
  rw [step, h, needed]
  rfl

theorem step_mark {m : Mark} (h : t.kind = m.kind) : step (mark m :: rest) t = some rest := by
  have found : (mark m).behind? t = some [] := if_pos h
  exact step_begins found

theorem step_mark_none {m : Mark} (h : t.kind ≠ m.kind) : step (mark m :: rest) t = none := by
  have none : (mark m).behind? t = none := if_neg h
  exact step_stuck none rfl

theorem run_cons (h : step stack t = some later) : run stack (t :: ts) = run later ts := by
  rw [run, h, Option.bind_some]

theorem run_append : run stack (ts ++ us) = (run stack ts).bind fun later => run later us := by
  induction ts generalizing stack with
  | nil => rfl
  | cons t ts ih =>
    rw [List.cons_append, run, run, Option.bind_assoc]
    exact Option.bind_congr fun later _ => ih

/-- Nothing runs through a token that cannot stand where it does. -/
theorem run_stuck (h : run stack ts = some later) (stuck : step later t = none) :
    run stack (ts ++ t :: us) = none := by
  rw [run_append, h, Option.bind_some, run, stuck, Option.bind_none]

end

/-! ### What tokens begin -/

section
variable {rest : List Expected} {t : Token}

theorem behind?_operand_none (h : Grammar.standard.operand t.kind = none) :
    operand.behind? t = none := by
  obtain ⟨kind, value, span⟩ := t
  cases kind <;> first | rfl | cases h

theorem behind?_operand_openParen (h : t.kind = .openParen) :
    operand.behind? t = some (expression .closeParen) := by
  obtain ⟨kind, value, span⟩ := t
  cases h
  rfl

theorem behind?_condition_none (h : Parse.conditionEnd? t.kind = none) :
    condition.behind? t = none := by
  obtain ⟨kind, value, span⟩ := t
  cases kind <;> first | rfl | cases h

theorem behind?_condition_some {closing : Kind}
    (h : Parse.conditionEnd? t.kind = some closing) :
    ∃ m : Mark, closing = m.kind ∧ condition.behind? t = some (expression m) := by
  obtain ⟨kind, value, span⟩ := t
  cases kind <;> cases h
  · exact ⟨.closeBracket, rfl, rfl⟩
  · exact ⟨.closeParen, rfl, rfl⟩

theorem behind?_items_none (h : Grammar.standard.item t.kind = none) :
    items.behind? t = none := by
  obtain ⟨kind, value, span⟩ := t
  cases kind <;> first | rfl | cases h

/-- Behind a name that nothing is assigned to, a rule goes on as behind any selector. -/
theorem step_named (h : t.kind ≠ .assignment) :
    step (.named :: rest) t = step (.further :: body ++ rest) t := by
  by_cases comma : t.kind = .comma
  · have named : named.behind? t = some ([.selector, .further] ++ body) := by
      rw [behind?, comma]
      rfl
    have further : further.behind? t = some [.selector, .further] := if_pos comma
    rw [step_begins named, List.append_assoc]
    exact (step_begins further).symm
  · have further : further.behind? t = none := if_neg comma
    rw [List.cons_append, step_omits further rfl]
    by_cases opening : t.kind = .openCurly
    · have named : named.behind? t = some [.items, .mark .closeCurly] := by
        rw [behind?, opening]
      rw [step_begins named]
      exact (step_mark opening).symm
    · have named : named.behind? t = none := by
        rw [behind?]
        split <;> first | contradiction | rfl
      rw [step_stuck named rfl]
      exact (step_mark_none opening).symm

/-- A selector between members begins a rule, and a name may begin an assignment. -/
theorem start?_of_selector (h : selector.behind? t = some []) :
    (t.kind = .identifier ∧ step [] t = some [.named]) ∨
      step [] t = some (.further :: body) := by
  obtain ⟨kind, value, span⟩ := t
  cases kind <;> cases h
  · exact .inl ⟨rfl, rfl⟩
  all_goals exact .inr rfl

theorem start?_none (h : selector.behind? t = none) (going : t.kind ≠ .eof) :
    step [] t = none := by
  obtain ⟨kind, value, span⟩ := t
  cases kind <;> first | rfl | exact absurd rfl going | cases h

end

/-! ### Supplying what stands out -/

/-- Words that will do for a part. -/
def supply : Expected → List Word
  | mark m => [⟨m.kind, m.text⟩]
  | operand => [⟨.scalar, "0"⟩]
  | given => [⟨.colon, ":"⟩, ⟨.scalar, "0"⟩, ⟨.semicolon, ";"⟩]
  | condition => [⟨.openBracket, "["⟩, ⟨.scalar, "0"⟩, ⟨.closeBracket, "]"⟩]
  | selector => [⟨.classSelector, ".a"⟩]
  | named => [⟨.openCurly, "\x7b"⟩, ⟨.closeCurly, "\x7d"⟩]
  | _ => []

end Expected

/-- A word as a token that stands nowhere. -/
def Word.token (w : Word) : Token := ⟨w.kind, w.text, ⟨.nowhere, .nowhere⟩⟩

namespace Expected

/-- The kinds of tokens that begin parts which may be left out. -/
def leaders : List Kind := [.plus, .dash, .star, .identifier, .ifWord, .elseWord, .comma]

theorem behind?_of_not_leader {e : Expected} {t : Token} (optional : e.optional = true)
    (kind : t.kind ∉ leaders) : e.behind? t = none := by
  simp only [leaders, List.mem_cons, List.not_mem_nil, or_false, not_or] at kind
  obtain ⟨noPlus, noDash, noStar, noName, noIf, noElse, noComma⟩ := kind
  cases e <;> cases optional
  · have operator : t.kind.operator? = none := by
      unfold Kind.operator?
      split <;> first | contradiction | rfl
    rw [behind?, operator]
    rfl
  · rw [behind?]
    split <;> first | contradiction | rfl
  · exact if_neg noElse
  · exact if_neg noComma

theorem supply_spelled {e : Expected} : ∀ w ∈ e.supply, w.Spelled := by
  have zero : Lexeme.Spelled .scalar (['0'] ++ []) :=
    .number (List.cons_ne_nil _ _) (List.forall_mem_singleton.2 (by decide)) (by decide)
  intro w hw
  cases e <;> simp only [supply, List.mem_cons, List.not_mem_nil, or_false] at hw
  case mark m =>
    subst hw
    exact .mark m.mem_marks
  case operand =>
    subst hw
    exact zero
  case given =>
    obtain rfl | rfl | rfl := hw
    exacts [.mark (by decide), zero, .mark (by decide)]
  case condition =>
    obtain rfl | rfl | rfl := hw
    exacts [.mark (by decide), zero, .mark (by decide)]
  case selector =>
    subst hw
    exact .className (by decide) (List.forall_mem_nil _)
  case named =>
    obtain rfl | rfl := hw
    exacts [.mark (by decide), .mark (by decide)]

theorem supply_kind {e : Expected} : ∀ w ∈ e.supply, w.kind ∉ leaders := by
  cases e with
  | mark m => cases m <;> decide
  | _ => decide

theorem run_supply {e : Expected} (rest : List Expected) (needed : e.optional = false) :
    run (e :: rest) (e.supply.map Word.token) = some rest := by
  cases e with
  | mark m => cases m <;> rfl
  | operand => rfl
  | given => rfl
  | condition => rfl
  | selector => rfl
  | named => rfl
  | _ => cases needed

/-- In front of a token that begins no such part, a part that may be left out is. -/
theorem run_omits {e : Expected} {rest : List Expected} {t : Token} {ts : List Token}
    (optional : e.optional = true) (kind : t.kind ∉ leaders) :
    run (e :: rest) (t :: ts) = run rest (t :: ts) := by
  rw [run, step_omits (behind?_of_not_leader optional kind) optional, run]

/-- Words for everything that stands out. -/
def completion (stack : List Expected) : List Word := stack.flatMap supply

theorem completion_spelled (stack : List Expected) : ∀ w ∈ completion stack, w.Spelled := by
  intro w hw
  obtain ⟨e, -, hw⟩ := List.mem_flatMap.1 hw
  exact supply_spelled w hw

theorem completion_kind (stack : List Expected) (place : Position) :
    ∀ t ∈ (completion stack).map Word.token ++ [.closing place], t.kind ∉ leaders := by
  intro t ht
  obtain ht | ht := List.mem_append.1 ht
  · obtain ⟨w, hw, rfl⟩ := List.mem_map.1 ht
    obtain ⟨e, -, hw⟩ := List.mem_flatMap.1 hw
    exact supply_kind w hw
  · cases List.mem_singleton.1 ht
    exact of_decide_eq_true rfl

/-- Whatever stands out can be supplied up to the end. -/
theorem run_completion (stack : List Expected) (place : Position) :
    run stack ((completion stack).map Word.token ++ [.closing place]) = some [] := by
  induction stack with
  | nil => rfl
  | cons e rest ih =>
    rw [completion, List.flatMap_cons, List.map_append, List.append_assoc]
    cases optional : e.optional with
    | false =>
      rw [run_append, run_supply rest optional, Option.bind_some]
      exact ih
    | true =>
      have empty : e.supply = [] := by cases e <;> first | rfl | cases optional
      have kinds := completion_kind rest place
      rw [empty, List.map_nil, List.nil_append]
      show run (e :: rest) ((completion rest).map Word.token ++ [.closing place]) = _
      cases first : (completion rest).map Word.token ++ [.closing place] with
      | nil => cases List.append_ne_nil_of_right_ne_nil _ (List.cons_ne_nil _ _) first
      | cons t ts =>
        rw [first] at ih kinds
        rw [run_omits optional (kinds t List.mem_cons_self)]
        exact ih

end Expected
end Typesheet
