import Typesheet.Proofs.Words

/-! How trees are written.

`WrittenAs` relates a tree to the words that it is written with: an item to a name, a
mark, a value and a semicolon, say. Numbers and places of nodes are indifferent. The
relation follows the tree and says nothing of how words are read, but it says which
tree is written: an expression is written at a strength (`Expr.WrittenAs`), which the
operators that stand in it without parentheses exceed. -/
namespace Typesheet

/-! ### Strengths -/

theorem Strength.exceeds_iff {s t : Strength} : s.exceeds t = true ↔ t.level < s.level :=
  decide_eq_true_iff

namespace Operator

/-- How strongly an operator holds its operands. -/
def strength : Operator → Strength
  | multiply => .multiplicative
  | _ => .additive

/-- The strength that operators in a left operand exceed: equal operators group to
the left. -/
def floor : Operator → Strength
  | multiply => .additive
  | _ => .lowest

theorem level_strength (op : Operator) : op.strength.level = op.floor.level + 1 := by
  cases op <;> rfl

theorem exceeds_iff {op : Operator} {s : Strength} :
    op.strength.exceeds s = true ↔ s.level ≤ op.floor.level := by
  rw [Strength.exceeds_iff, op.level_strength, Nat.lt_succ_iff]

end Operator

namespace Kind

/-- No operator that exceeds the strength. -/
def Halts (k : Kind) (s : Strength) : Prop :=
  ∀ op, k.operator? = some op → op.strength.exceeds s = false

theorem halts_of_not_operator {k : Kind} (h : k.operator? = none) (s : Strength) : k.Halts s :=
  fun _ h' => nomatch h.symm.trans h'

theorem Halts.mono {k : Kind} {s t : Strength} (h : k.Halts s) (level : s.level ≤ t.level) :
    k.Halts t := by
  intro op hop
  have below := h op hop
  rw [← Bool.not_eq_true, Strength.exceeds_iff] at below ⊢
  omega

end Kind

/-! ### Expressions -/

/-- The value that a word spells: nothing if its kind spells none, and no amount if its
number is out of range. -/
def Word.literal? (w : Word) : Option (Except Cause Literal) :=
  Token.literal? ⟨w.kind, w.text, ⟨.nowhere, .nowhere⟩⟩

theorem Token.literal?_word (t : Token) : t.word.literal? = t.literal? := rfl

namespace Expr

/-- An expression is written with these words where its operators have to exceed a
strength. Parentheses leave no node, and nothing has to be exceeded in them. -/
inductive WrittenAs : Expr → Strength → List Word → Prop
  | literal {id : NodeId} {v : Literal} {span : Span} {floor : Strength} {w : Word}
      (value : w.literal? = some (.ok v)) : WrittenAs (.literal id v span) floor [w]
  | reference {id : NodeId} {name : String} {span : Span} {floor : Strength} :
      WrittenAs (.reference id name span) floor [⟨.identifier, name⟩]
  | grouping {e : Expr} {floor : Strength} {opening closing : Word} {ws : List Word}
      (ho : opening.kind = .openParen) (hc : closing.kind = .closeParen)
      (inner : WrittenAs e .lowest ws) : WrittenAs e floor (opening :: (ws ++ [closing]))
  | operation {id : NodeId} {op : Operator} {l r : Expr} {span : Span} {floor : Strength}
      {sign : Word} {wl wr : List Word} (hs : sign.kind.operator? = some op)
      (exceeds : op.strength.exceeds floor = true) (left : WrittenAs l op.floor wl)
      (right : WrittenAs r op.strength wr) :
      WrittenAs (.operation id op l r span) floor (wl ++ sign :: wr)

end Expr

/-! ### Bodies -/

/-- Words between a mark that opens and one that closes. -/
def Enclosed (opening closing : Kind) (P : List Word → Prop) (ws : List Word) : Prop :=
  ∃ o inner c, ws = o :: (inner ++ [c]) ∧ o.kind = opening ∧ c.kind = closing ∧ P inner

/-- Words between braces. -/
abbrev Braced : (List Word → Prop) → List Word → Prop := Enclosed .openCurly .closeCurly

/-- A name and the value that a mark gives to it. -/
def Given (mark : Kind) (name : String) (value : Expr) (ws : List Word) : Prop :=
  ∃ m wv s, ws = ⟨.identifier, name⟩ :: m :: (wv ++ [s]) ∧ m.kind = mark ∧
    value.WrittenAs .lowest wv ∧ s.kind = .semicolon

/-- A condition is written in brackets or parentheses. -/
def Expr.IsCondition (condition : Expr) (ws : List Word) : Prop :=
  ∃ opening closing, Parse.conditionEnd? opening = some closing ∧
    Enclosed opening closing (condition.WrittenAs .lowest) ws

/-- The word for what applies otherwise, and a body. -/
def Otherwise (body : List Word → Prop) (ws : List Word) : Prop :=
  ∃ word wb, ws = word :: wb ∧ word.kind = .elseWord ∧ Braced body wb

mutual

def Item.WrittenAs : Item → List Word → Prop
  | .declaration d, ws => Given .colon d.property d.value ws
  | .assignment a, ws => Given .assignment a.name a.value ws
  | .ifClause ⟨_, condition, body, otherwise, _⟩, ws =>
    ∃ word wc wb wo, ws = word :: (wc ++ (wb ++ wo)) ∧ word.kind = .ifWord ∧
      condition.IsCondition wc ∧ Braced (bodyWrittenAs body) wb ∧
      match otherwise with
      | none => wo = []
      | some ⟨_, body, _⟩ => Otherwise (bodyWrittenAs body) wo

/-- The items of a body are written one after the other. -/
def bodyWrittenAs : List Item → List Word → Prop
  | [], ws => ws = []
  | item :: items, ws => ∃ front back, ws = front ++ back ∧ item.WrittenAs front ∧
    bodyWrittenAs items back

end

/-- An item begins with a name or with the word for a condition. -/
theorem Item.WrittenAs.first {item : Item} {ws : List Word} (h : item.WrittenAs ws) :
    ∃ w rest, ws = w :: rest ∧ (w.kind = .identifier ∨ w.kind = .ifWord) := by
  cases item with
  | declaration d =>
    obtain ⟨m, wv, s, rfl, -⟩ := h
    exact ⟨_, _, rfl, .inl rfl⟩
  | assignment a =>
    obtain ⟨m, wv, s, rfl, -⟩ := h
    exact ⟨_, _, rfl, .inl rfl⟩
  | ifClause clause =>
    obtain ⟨id, condition, body, otherwise, span⟩ := clause
    unfold Item.WrittenAs at h
    obtain ⟨word, wc, wb, wo, rfl, hw, -⟩ := h
    exact ⟨_, _, rfl, .inr hw⟩

/-! ### Members -/

/-- The selector that a word spells. What reads as a colour is an id here. -/
def Word.selector? (w : Word) : Option Selector :=
  match w.kind with
  | .identifier => some (.tag w.text)
  | .classSelector => some (.className (String.ofList (w.text.toList.drop 1)))
  | .idSelector => some (.id (String.ofList (w.text.toList.drop 1)))
  | .color => some (.id (String.ofList (w.text.toList.drop 1)))
  | _ => none

/-- Selectors, each behind a comma. -/
def furtherWrittenAs : List Selector → List Word → Prop
  | [], ws => ws = []
  | s :: selectors, ws => ∃ comma w rest, ws = comma :: w :: rest ∧ comma.kind = .comma ∧
    w.selector? = some s ∧ furtherWrittenAs selectors rest

def Rule.WrittenAs (rule : Rule) (ws : List Word) : Prop :=
  ∃ s selectors w further wb, rule.selectors = s :: selectors ∧ ws = w :: (further ++ wb) ∧
    w.selector? = some s ∧ furtherWrittenAs selectors further ∧
    Braced (bodyWrittenAs rule.body) wb

def Member.WrittenAs : Member → List Word → Prop
  | .assignment a, ws => Given .assignment a.name a.value ws
  | .rule r, ws => r.WrittenAs ws

/-- Members are written one after the other. -/
def membersWrittenAs : List Member → List Word → Prop
  | [], ws => ws = []
  | member :: members, ws => ∃ front back, ws = front ++ back ∧ member.WrittenAs front ∧
    membersWrittenAs members back

theorem membersWrittenAs_append {members others : List Member} {ws vs : List Word}
    (h : membersWrittenAs members ws) (h' : membersWrittenAs others vs) :
    membersWrittenAs (members ++ others) (ws ++ vs) := by
  induction members generalizing ws with
  | nil =>
    cases h
    exact h'
  | cons member members ih =>
    obtain ⟨front, back, rfl, first, rest⟩ := h
    exact ⟨front, back ++ vs, List.append_assoc .., first, ih rest⟩

end Typesheet
