import Typesheet.Proofs.Readback
import Typesheet.Proofs.Tracking

/-! Parentheses.

An expression can be put in tokens in many ways: around any part of it there may be
parentheses, of which some are needed (`Expr.InTokens`). Those are needed around the sums and
differences in a product and around any operation on the right side of one that is as strong.
Whichever way is taken, the reader gives the expression back and stops behind its last token
(`expr_of_tokens`).

The words of the tokens are what the expression is written with at any strength that its
operator exceeds, and at every strength if parentheses stand around it
(`Expr.InTokens.writtenAs`); reading from words is completeness. -/
namespace Typesheet

/-! ### Values -/

/-- A token spells a value: a number in decimal digits, with the unit of its kind behind them
any number of times, a colour as it is, and a boolean by its kind. -/
def Token.Spells (t : Token) : Literal → Prop
  | .number d a => t.kind = d.kind ∧
    ∃ n, t.value = String.ofList (Amount.text a ++ (List.replicate n d.suffix).flatten)
  | .color text => t.kind = .color ∧ t.value = text
  | .bool value => t.kind = if value then .trueWord else .falseWord

theorem Amount.mem_text {a : Amount} {c : Char} (h : c ∈ text a) : c = '-' ∨ c.isDigit = true := by
  unfold text at h
  split at h
  · exact (List.mem_cons.1 h).imp id Text.isDigit_of_mem_decimal
  · exact .inr (Text.isDigit_of_mem_decimal h)

theorem Amount.not_mem_text {a : Amount} {c : Char} (dash : c ≠ '-') (digit : c.isDigit = false) :
    c ∉ text a := by
  intro h
  obtain rfl | h := mem_text h
  · exact dash rfl
  · exact Bool.false_ne_true (digit.symm.trans h)

/-- Units do not change the value of a number, however many there are. -/
theorem Word.literal?_repeated (d : Dimension) (a : Amount) (n : Nat) :
    literal? ⟨d.kind, String.ofList (Amount.text a ++ (List.replicate n d.suffix).flatten)⟩ =
      some (.ok (.number d a)) := by
  have pixel := dropPixelUnits_repeated (Amount.not_mem_text (a := a) (c := 'x') (by decide) rfl) n
  have percent :=
    dropPercentSigns_repeated (Amount.not_mem_text (a := a) (c := '%') (by decide) rfl) n
  have bare : (List.replicate n ([] : List Char)).flatten = [] := by simp
  have read := Amount.ofText?_text a
  cases d with
  | pixel =>
    simp only [literal?, Token.literal?, Dimension.kind, Dimension.suffix, String.toList_ofList,
      pixel, read]
  | percentage =>
    simp only [literal?, Token.literal?, Dimension.kind, Dimension.suffix, String.toList_ofList,
      percent, read]
  | scalar =>
    simp only [literal?, Token.literal?, Dimension.kind, Dimension.suffix, String.toList_ofList,
      bare, List.append_nil, read]

theorem Token.Spells.literal? {t : Token} {v : Literal} (h : t.Spells v) :
    t.word.literal? = some (.ok v) := by
  obtain ⟨kind, value, span⟩ := t
  cases v with
  | number d a =>
    obtain ⟨rfl, n, rfl⟩ := h
    exact Word.literal?_repeated d a n
  | color text =>
    obtain ⟨rfl, rfl⟩ := h
    rfl
  | bool value =>
    cases h
    cases value <;> rfl

/-! ### Expressions -/

namespace Expr

/-- A sum or a difference. -/
def isSum : Expr → Bool
  | operation _ op .. => op != .multiply
  | _ => false

def isProduct : Expr → Bool
  | operation _ op .. => op == .multiply
  | _ => false

end Expr

namespace Operator

/-- The left operands that need parentheses. -/
def enclosesLeft (op : Operator) (left : Expr) : Bool :=
  match op with
  | multiply => left.isSum
  | _ => false

/-- The right operands that need parentheses. -/
def enclosesRight (op : Operator) (right : Expr) : Bool :=
  match op with
  | multiply => right.isSum || right.isProduct
  | _ => right.isSum

end Operator

namespace Expr

/-- An expression in tokens, in parentheses or not. All operands that need parentheses are in
some, and anything else may be. -/
inductive InTokens : Expr → Bool → List Token → Prop
  | literal {id : NodeId} {v : Literal} {span : Span} {t : Token} (value : t.Spells v) :
    InTokens (.literal id v span) false [t]
  | reference {id : NodeId} {span : Span} {t : Token} (kind : t.kind = .identifier) :
    InTokens (.reference id t.value span) false [t]
  | parentheses {e : Expr} {enclosed : Bool} {opening closing : Token} {ts : List Token}
    (ho : opening.kind = .openParen) (hc : closing.kind = .closeParen)
    (inner : InTokens e enclosed ts) : InTokens e true (opening :: (ts ++ [closing]))
  | operation {id : NodeId} {op : Operator} {l r : Expr} {span : Span} {sign : Token}
    {tl tr : List Token} {leftEnclosed rightEnclosed : Bool}
    (hs : sign.kind.operator? = some op)
    (left : InTokens l leftEnclosed tl) (right : InTokens r rightEnclosed tr)
    (hl : op.enclosesLeft l = true → leftEnclosed = true)
    (hr : op.enclosesRight r = true → rightEnclosed = true) :
    InTokens (.operation id op l r span) false (tl ++ sign :: tr)

/-- The operator of an expression, if it has any, exceeds a strength. -/
def Exceeds (e : Expr) (floor : Strength) : Prop :=
  match e with
  | operation _ op .. => op.strength.exceeds floor = true
  | _ => True

theorem exceeds_lowest (e : Expr) : e.Exceeds .lowest := by
  cases e with
  | literal => trivial
  | reference => trivial
  | operation id op => cases op <;> rfl

/-- A left operand that needs no parentheses exceeds what it has to. -/
theorem exceeds_of_not_enclosesLeft {op : Operator} {l : Expr}
    (h : op.enclosesLeft l = false) : l.Exceeds op.floor := by
  cases l with
  | literal => trivial
  | reference => trivial
  | operation id op' => cases op <;> cases op' <;> first | rfl | cases h

/-- A right operand that needs no parentheses exceeds what it has to. -/
theorem exceeds_of_not_enclosesRight {op : Operator} {r : Expr}
    (h : op.enclosesRight r = false) : r.Exceeds op.strength := by
  cases r with
  | literal => trivial
  | reference => trivial
  | operation id op' => cases op <;> cases op' <;> first | rfl | cases h

/-- An operand is in parentheses, or it exceeds what it has to. -/
theorem enclosed_or_exceeds {e : Expr} {floor : Strength} {encloses enclosed : Bool}
    (exceeds : encloses = false → e.Exceeds floor) (h : encloses = true → enclosed = true) :
    enclosed = true ∨ e.Exceeds floor := by
  cases encloses with
  | true => exact .inl (h rfl)
  | false => exact .inr (exceeds rfl)

/-- **The words of the tokens are those that the expression is written with**, where its
operator exceeds the strength or parentheses stand around it. -/
theorem InTokens.writtenAs {e : Expr} {enclosed : Bool} {ts : List Token}
    (h : e.InTokens enclosed ts) {floor : Strength}
    (stands : enclosed = true ∨ e.Exceeds floor) : e.WrittenAs floor (ts.map Token.word) := by
  induction h generalizing floor with
  | literal value => exact .literal value.literal?
  | @reference id span t kind =>
    have word : t.word = ⟨.identifier, t.value⟩ := congrArg (Word.mk · t.value) kind
    rw [List.map_singleton, word]
    exact .reference
  | @parentheses e enclosed opening closing ts ho hc inner ih =>
    rw [List.map_cons, List.map_append, List.map_singleton]
    exact .grouping ho hc (ih (.inr e.exceeds_lowest))
  | @operation id op l r span sign tl tr leftEnclosed rightEnclosed hs left right hl hr ihl ihr =>
    obtain enclosed | exceeds := stands
    · cases enclosed
    · rw [List.map_append, List.map_cons]
      exact .operation hs exceeds (ihl (enclosed_or_exceeds exceeds_of_not_enclosesLeft hl))
        (ihr (enclosed_or_exceeds exceeds_of_not_enclosesRight hr))

end Expr

/-! ### Main result -/

namespace Cursor

theorem words_of_tokens {c : Cursor} {ts rest : List Token} {t : Token}
    (h : c.tokens = ts ++ t :: rest) :
    c.words = ts.map Token.word ++ (t :: rest).dropLast.map Token.word := by
  have ahead : c.ahead = ts ++ (t :: rest).dropLast := by
    have dropped := congrArg List.dropLast h
    rwa [tokens, List.dropLast_concat, List.dropLast_append_of_ne_nil (List.cons_ne_nil _ _)]
      at dropped
  rw [words, ahead, List.map_append]

/-- The kind of the next word is that of the next token, though the closing token is no
word. -/
theorem nextKind_of_tokens {c : Cursor} {ts rest : List Token} {t : Token}
    (h : c.tokens = ts ++ t :: rest) :
    Parse.nextKind ((t :: rest).dropLast.map Token.word) = t.kind := by
  cases rest with
  | cons u us => rfl
  | nil =>
    have closing : c.closing = t := by
      have last := congrArg List.getLast? h
      rw [tokens, List.getLast?_concat, List.getLast?_concat] at last
      exact Option.some.inj last
    exact closing ▸ c.closing_kind.symm

end Cursor

/-- **An expression in tokens is read as that expression**, up to numbers and places, in front
of any token that is no operator, and the reader stops at that token. -/
theorem expr_of_tokens {e : Expr} {enclosed : Bool} {ts rest : List Token} {t : Token}
    {c : Cursor} (h : e.InTokens enclosed ts) (ends : t.kind.operator? = none)
    (tokens : c.tokens = ts ++ t :: rest) :
    ∃ e' d, Parse.expr .standard .lowest c = .ok e' d ∧ e'.bare = e.bare ∧
      d.tokens = t :: rest ∧ d.current = t := by
  have written := h.writtenAs (.inr e.exceeds_lowest)
  have stops := Cursor.nextKind_of_tokens tokens ▸ ends
  obtain ⟨e', d, read, words, -, bare⟩ :=
    Parse.expr_complete_of_nextKind written stops c (Cursor.words_of_tokens tokens)
  -- the tokens still to be read are as many as words are left, so they are the last ones
  have tracks : Parse.Tracks (Parse.expr .standard .lowest) c [.operand, .operations] [] :=
    Parse.expr_tracks
  obtain ⟨-, ⟨us, split, -⟩, -⟩ := tracks.ok e' d read
  have length : d.tokens.length = (t :: rest).length := by
    have ahead := d.words_length
    rw [words, List.length_map, List.length_dropLast] at ahead
    rw [Cursor.tokens, List.length_append, ← ahead]
    rfl
  have left := (List.append_inj' (split.symm.trans tokens) length).2
  obtain ⟨_, current⟩ := d.tokens_eq
  exact ⟨e', d, read, bare, left, (List.cons.inj (current.symm.trans left)).1⟩

/-- Twice the difference of the least amount and a variable. -/
def doubledDifference : Expr :=
  .operation 0 .multiply (.literal 0 (.number .scalar 2) .nowhere)
    (.operation 0 .subtract (.literal 0 (.number .pixel (Int64.ofInt Amount.least)) .nowhere)
      (.reference 0 "A" .nowhere) .nowhere) .nowhere

/-- The tokens of `(2) * (-9223372036854775808px - (A))`. -/
def doubledDifferenceTokens : List Token :=
  let mark (kind : Kind) (text : String) : Token := ⟨kind, text, .nowhere⟩
  [mark .openParen "(", mark .scalar "2", mark .closeParen ")", mark .star "*",
    mark .openParen "(", mark .pixel "-9223372036854775808px", mark .dash "-",
    mark .openParen "(", mark .identifier "A", mark .closeParen ")", mark .closeParen ")"]

/-- Parentheses around a single value make no difference. -/
theorem expr_of_tokens_doubledDifference :
    ∃ e d, Parse.expr .standard .lowest (Cursor.ofTokens doubledDifferenceTokens "p") = .ok e d ∧
      e.bare = doubledDifference ∧ d.current.kind = .eof := by
  have two : Token.Spells ⟨.scalar, "2", .nowhere⟩ (.number .scalar 2) :=
    ⟨rfl, 0, by decide +kernel⟩
  have least : Token.Spells ⟨.pixel, "-9223372036854775808px", .nowhere⟩
      (.number .pixel (Int64.ofInt Amount.least)) := ⟨rfl, 1, by decide +kernel⟩
  have product : doubledDifference.InTokens false doubledDifferenceTokens := by
    refine @Expr.InTokens.operation _ _ _ _ _ _ [_, _, _] _ true true rfl ?_ ?_
      (fun _ => rfl) fun _ => rfl
    · exact @Expr.InTokens.parentheses _ _ _ _ [_] rfl rfl (.literal two)
    · refine @Expr.InTokens.parentheses _ false _ _ [_, _, _, _, _] rfl rfl ?_
      refine @Expr.InTokens.operation _ _ _ _ _ _ [_] _ false true rfl (.literal least) ?_
        (fun needed => nomatch needed) fun _ => rfl
      exact @Expr.InTokens.parentheses _ _ _ _ [_] rfl rfl
        (@Expr.InTokens.reference _ _ ⟨.identifier, "A", .nowhere⟩ rfl)
  obtain ⟨e, d, read, bare, left⟩ :=
    expr_of_tokens product rfl (show (Cursor.ofTokens doubledDifferenceTokens "p").tokens =
      doubledDifferenceTokens ++ [.closing ⟨0, "p"⟩] from rfl)
  exact ⟨e, d, read, bare, left.2 ▸ rfl⟩

end Typesheet
