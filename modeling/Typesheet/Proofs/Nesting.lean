import Typesheet.Proofs.Layout
import Typesheet.Proofs.Tracking
import Typesheet.Proofs.Whereabouts

/-! How the spans of a stylesheet nest.

Tokens lie one behind the other (`Token.Tiles`) and nodes lie among tokens (`LieIn`), so the
spans of nodes are never empty, those of the children of a node lie in that of the node, and
siblings follow each other (`Node.Lies`). For an operation that rests on its operands, since
its span leaves out the parentheses that its tokens go on to; for every other node that has
children it rests on its first and last token.

`Sheet.ofText_lies`: all of this is true of every node of a stylesheet that is read from a
text. The stylesheet itself spans the text from end to end. -/
namespace Typesheet

/-! ### Spans and tokens in order -/

namespace Span

/-- One span lies in another. -/
structure Inside (s t : Span) : Prop where
  starts : t.start.offset ≤ s.start.offset
  stops : s.stop.offset ≤ t.stop.offset

/-- One span has ended when another starts. -/
def Before (s t : Span) : Prop := s.stop.offset ≤ t.start.offset

theorem Inside.refl (s : Span) : s.Inside s := ⟨le_rfl, le_rfl⟩

theorem Inside.trans {s t u : Span} (h : s.Inside t) (h' : t.Inside u) : s.Inside u :=
  ⟨h'.starts.trans h.starts, h.stops.trans h'.stops⟩

end Span

/-- Tokens of a file that follow each other, none of them empty. -/
structure Token.InOrder (file : String) (ts : List Token) : Prop where
  named : ∀ t ∈ ts, t.span.start.file = file ∧ t.span.stop.file = file
  nonempty : ∀ t ∈ ts, t.span.start.offset < t.span.stop.offset
  ordered : ts.Pairwise fun s t => s.span.Before t.span

namespace Token

theorem Tiles.inOrder {text file : String} {offset : Nat} {front : List Token}
    (h : Tiles text file offset front) : InOrder file front :=
  ⟨h.named, fun t ht => (h.word t ht).2.2.1, h.ordered⟩

namespace InOrder
variable {file : String} {t : Token} {ts us : List Token} {a b : Span}

theorem sublist (h : InOrder file us) (sub : ts.Sublist us) : InOrder file ts :=
  ⟨fun t ht => h.named t (sub.subset ht), fun t ht => h.nonempty t (sub.subset ht),
    h.ordered.sublist sub⟩

theorem named_of_among (h : InOrder file ts) (among : a.Among ts) :
    a.start.file = file ∧ a.stop.file = file := by
  obtain ⟨t, ht, starts⟩ := among.starts
  obtain ⟨u, hu, stops⟩ := among.stops
  rw [← starts, ← stops]
  exact ⟨(h.named t ht).1, (h.named u hu).2⟩

/-- What lies among the tokens in front has ended when something behind them starts. -/
theorem before (h : InOrder file (ts ++ us)) (inFront : a.Among ts) (behind : b.Among us) :
    a.Before b := by
  obtain ⟨t, ht, stops⟩ := inFront.stops
  obtain ⟨u, hu, starts⟩ := behind.starts
  show a.stop.offset ≤ b.start.offset
  rw [← stops, ← starts]
  exact (List.pairwise_append.1 h.ordered).2.2 t ht u hu

/-- Behind the first token, all starts after it. -/
theorem first_lt (h : InOrder file (t :: ts)) (among : a.Among ts) :
    t.span.start.offset < a.start.offset :=
  (h.nonempty t List.mem_cons_self).trans_le
    (before (show InOrder file ([t] ++ ts) from h) (span_among List.mem_cons_self) among)

/-- What lies among tokens ends with the last of them at the latest. -/
theorem le_last (h : InOrder file (ts ++ [t])) (among : a.Among (ts ++ [t])) :
    a.stop.offset ≤ t.span.stop.offset := by
  obtain ⟨u, hu, stops⟩ := among.stops
  rw [← stops]
  obtain hu | hu := List.mem_append.1 hu
  · have inFront := before h (span_among hu) (span_among (List.mem_singleton_self t))
    exact le_trans inFront (h.nonempty t List.mem_concat_self).le
  · rw [List.mem_singleton.1 hu]

end InOrder

end Token

/-! ### One node -/

/-- How a node lies in a file with these tokens. -/
structure Node.Lies (n : Node) (file : String) (tokens : List Token) : Prop where
  named : n.span.start.file = file ∧ n.span.stop.file = file
  nonempty : n.span.start.offset < n.span.stop.offset
  encloses : ∀ child ∈ n.children, child.span.Inside n.span
  ordered : n.children.Pairwise fun a b => a.span.Before b.span
  /-- An operation goes from its left operand to its right one, and something stands between
  the two. -/
  operands : ∀ id op left right span, n = .expr (.operation id op left right span) →
    n.span = ⟨left.span.start, right.span.stop⟩ ∧
      left.span.stop.offset < right.span.start.offset
  /-- The tokens of a node are a stretch of those of the file. -/
  own : ∃ own, own <:+: tokens ∧ n.Spans own

namespace Node

theorem Lies.mono {n : Node} {file : String} {ts us : List Token} (h : n.Lies file ts)
    (within : ts <:+: us) : n.Lies file us :=
  { h with own := h.own.imp fun _ own => ⟨own.1.trans within, own.2⟩ }

variable {n : Node} {written : List Word → Prop} {file : String} {own : List Token}

/-- The children of a node start behind its first token. -/
theorem Framed.start_lt (h : n.Framed written own) (order : Token.InOrder file own) {child : Span}
    (among : child.Among own.tail) : n.span.start.offset < child.start.offset := by
  obtain ⟨first, rest, rfl, starts, -⟩ := h.ends
  rw [← starts]
  exact order.first_lt among

theorem Framed.lies (h : n.Framed written own) (order : Token.InOrder file own)
    (spans : n.Spans own) (ordered : n.children.Pairwise fun a b => a.span.Before b.span)
    (notExpr : ∀ e, n ≠ .expr e) : n.Lies file own where
  named := order.named_of_among h.among
  nonempty := by
    obtain ⟨first, rest, rfl, starts, front, last, split, stops⟩ := h.ends
    have firstEnds : first.span.stop.offset ≤ last.span.stop.offset := by
      rw [split] at order
      refine order.le_last (Token.span_among ?_)
      rw [← split]
      exact List.mem_cons_self
    rw [← starts, ← stops]
    exact (order.nonempty first List.mem_cons_self).trans_le firstEnds
  encloses := by
    intro child hc
    have behind := h.behind child hc
    refine ⟨(h.start_lt order behind).le, ?_⟩
    obtain ⟨-, -, -, -, front, last, rfl, stops⟩ := h.ends
    rw [← stops]
    exact order.le_last (behind.mono (List.tail_subset _))
  ordered := ordered
  operands := fun _ _ _ _ _ same => absurd same (notExpr _)
  own := ⟨own, List.infix_rfl, spans⟩

end Node

/-- Between its operands an operation has its sign. -/
theorem Expr.Spans.apart {id : NodeId} {op : Operator} {left right : Expr} {span : Span}
    {file : String} {own : List Token} (spans : (operation id op left right span).Spans own)
    (order : Token.InOrder file own) : left.span.stop.offset < right.span.start.offset := by
  obtain ⟨-, front, sign, back, rfl, -, inFront, behind⟩ := spans
  have leftEnds : left.span.stop.offset ≤ sign.span.start.offset :=
    order.before inFront (Token.span_among List.mem_cons_self)
  have order := order.sublist (List.sublist_append_right front (sign :: back))
  exact leftEnds.trans_lt (order.first_lt behind)

/-- An expression lies as it should when its operands are not empty. -/
theorem Expr.Spans.lies {e : Expr} {file : String} {own : List Token} (spans : e.Spans own)
    (order : Token.InOrder file own)
    (nonempty : ∀ operand ∈ (Node.expr e).children,
      operand.span.start.offset < operand.span.stop.offset)
    (ordered : (Node.expr e).children.Pairwise fun a b => a.span.Before b.span) :
    (Node.expr e).Lies file own := by
  have named := order.named_of_among spans.among
  have stretch : ∃ ts, ts <:+: own ∧ (Node.expr e).Spans ts := ⟨own, List.infix_rfl, spans⟩
  cases e with
  | literal id value span =>
    obtain ⟨t, rfl, rfl, -⟩ := spans
    exact ⟨named, order.nonempty t List.mem_cons_self, nofun, .nil, nofun, stretch⟩
  | reference id name span =>
    obtain rfl : own = _ := spans
    exact ⟨named, order.nonempty _ List.mem_cons_self, nofun, .nil, nofun, stretch⟩
  | operation id op left right span =>
    have apart := spans.apart order
    have leftNonempty : left.span.start.offset < left.span.stop.offset :=
      nonempty (.expr left) List.mem_cons_self
    have rightNonempty : right.span.start.offset < right.span.stop.offset :=
      nonempty (.expr right) (List.mem_cons_of_mem _ List.mem_cons_self)
    obtain ⟨rfl, -⟩ := spans
    -- The tokens may begin with parentheses, so it is the operands that bound the span.
    refine ⟨named, ?_, ?_, ordered, ?_, stretch⟩
    · exact leftNonempty.trans (apart.trans rightNonempty)
    · rintro child (_ | ⟨_, _ | ⟨_, ⟨⟩⟩⟩)
      · exact ⟨le_rfl, (apart.trans rightNonempty).le⟩
      · exact ⟨(leftNonempty.trans apart).le, le_rfl⟩
    · rintro _ _ _ _ _ ⟨⟩
      exact ⟨rfl, apart⟩

/-- Every node but an expression rests on its first and last token. -/
theorem Node.Spans.framed {n : Node} {own : List Token} (spans : n.Spans own)
    (notExpr : ∀ e, n ≠ .expr e) : ∃ written, n.Framed written own := by
  cases n with
  | expr e => exact absurd rfl (notExpr e)
  | declaration d => exact ⟨_, spans⟩
  | assignment a => exact ⟨_, spans⟩
  | ifClause clause => exact ⟨_, spans⟩
  | elseClause clause => exact ⟨_, spans⟩
  | rule r => exact ⟨_, spans⟩

/-- A node lies as it should when its children are not empty and follow each other. -/
theorem Node.Spans.lies {n : Node} {file : String} {own : List Token} (spans : n.Spans own)
    (order : Token.InOrder file own)
    (nonempty : ∀ child ∈ n.children, child.span.start.offset < child.span.stop.offset)
    (ordered : n.children.Pairwise fun a b => a.span.Before b.span) : n.Lies file own := by
  by_cases expr : ∃ e, n = .expr e
  · obtain ⟨e, rfl⟩ := expr
    exact Expr.Spans.lies spans order nonempty ordered
  · have notExpr : ∀ e, n ≠ .expr e := fun e same => expr ⟨e, same⟩
    obtain ⟨written, framed⟩ := spans.framed notExpr
    exact framed.lies order spans ordered notExpr

/-! ### All nodes -/

namespace LieIn
variable {n m : Node} {ns : List Node} {file : String} {ts : List Token}

/-- Nodes beside each other follow each other. -/
theorem pairwise (h : LieIn ns ts) (order : Token.InOrder file ts) :
    ns.Pairwise fun a b => a.span.Before b.span := by
  induction h with
  | nil => exact .nil
  | cons spans children more _ ih =>
    have order := order.sublist (List.sublist_append_right _ _)
    refine .cons (fun m hm => ?_) (ih (order.sublist (List.sublist_append_right _ _)))
    exact order.before spans.among (more.among_of_mem hm)

/-- Nodes that lie among tokens in order lie as they should, and so does what is in them. -/
theorem lies (h : LieIn ns ts) (order : Token.InOrder file ts) :
    ∀ n ∈ ns.flatMap Node.nodes, n.Lies file ts := by
  induction h with
  | nil => exact nofun
  | @cons n ns gap own rest spans children more ihc ihm =>
    have inOwn : own <:+: gap ++ (own ++ rest) :=
      (List.prefix_append own rest).isInfix.trans (List.suffix_append _ _).isInfix
    have inRest : rest <:+: gap ++ (own ++ rest) :=
      (List.suffix_append own rest).isInfix.trans (List.suffix_append _ _).isInfix
    have ownOrder := order.sublist inOwn.sublist
    have inner := ihc ownOrder
    have nonempty : ∀ child ∈ n.children, child.span.start.offset < child.span.stop.offset :=
      fun child hc => (inner child (List.mem_flatMap.2 ⟨child, hc, child.mem_nodes⟩)).nonempty
    intro m hm
    rw [List.flatMap_cons, n.nodes_eq, List.cons_append, List.mem_cons, List.mem_append] at hm
    obtain rfl | hm | hm := hm
    · exact (spans.lies ownOrder nonempty (children.pairwise ownOrder)).mono inOwn
    · exact (inner m hm).mono inOwn
    · exact (ihm (order.sublist inRest.sublist) m hm).mono inRest

/-- Whatever is in a node lies in its span. -/
theorem within (h : LieIn ns ts) (order : Token.InOrder file ts) :
    ∀ n ∈ ns, ∀ m ∈ n.nodes, m.span.Inside n.span := by
  induction h with
  | nil => exact nofun
  | @cons n ns gap own rest spans children more ihc ihm =>
    have all : LieIn (n :: ns) (gap ++ (own ++ rest)) := cons spans children more
    have lies := all.lies order
    have order := order.sublist (List.sublist_append_right gap (own ++ rest))
    rintro n' (_ | ⟨_, hn⟩) m hm
    · rw [n.nodes_eq] at hm
      obtain rfl | hm := List.mem_cons.1 hm
      · exact .refl _
      · obtain ⟨child, hc, hm⟩ := List.mem_flatMap.1 hm
        refine (ihc (order.sublist (List.sublist_append_left own rest)) child hc m hm).trans ?_
        exact (lies n (List.mem_append_left _ n.mem_nodes)).encloses child hc
    · exact ihm (order.sublist (List.sublist_append_right own rest)) n' hn m hm

/-- Nodes are listed in the order in which they start. -/
theorem sorted (h : LieIn ns ts) (order : Token.InOrder file ts) :
    (ns.flatMap Node.nodes).Pairwise fun a b => a.span.start.offset ≤ b.span.start.offset := by
  induction h with
  | nil => exact .nil
  | @cons n ns gap own rest spans children more ihc ihm =>
    have all : LieIn (n :: ns) (gap ++ (own ++ rest)) := cons spans children more
    have within := all.within order n List.mem_cons_self
    have lies := all.lies order
    have order := order.sublist (List.sublist_append_right gap (own ++ rest))
    have ownOrder := order.sublist (List.sublist_append_left own rest)
    have restOrder := order.sublist (List.sublist_append_right own rest)
    rw [List.flatMap_cons]
    refine List.pairwise_append.2 ⟨?_, ihm restOrder, fun a ha b hb => ?_⟩
    · rw [n.nodes_eq] at within ⊢
      exact .cons (fun m hm => (within m (List.mem_cons_of_mem _ hm)).starts) (ihc ownOrder)
    · -- What is in the node has ended when something behind it starts.
      have nonempty := (lies a (List.mem_append_left _ ha)).nonempty
      have ended : a.span.Before b.span :=
        order.before ((single spans children).among a (List.mem_append_left _ ha)) (more.among b hb)
      exact nonempty.le.trans ended

/-- Whatever is in a node that is no expression starts after it. -/
theorem start_lt (h : LieIn ns ts) (order : Token.InOrder file ts)
    (notExpr : ∀ n ∈ ns, ∀ e, n ≠ .expr e) :
    ∀ n ∈ ns, ∀ m ∈ n.children.flatMap Node.nodes,
      n.span.start.offset < m.span.start.offset := by
  induction h with
  | nil => exact nofun
  | @cons n ns gap own rest spans children more _ ihm =>
    have order := order.sublist (List.sublist_append_right gap (own ++ rest))
    have ownOrder := order.sublist (List.sublist_append_left own rest)
    rintro n' (_ | ⟨_, hn⟩) m hm
    · obtain ⟨written, framed⟩ := spans.framed (notExpr n List.mem_cons_self)
      obtain ⟨child, hc, hm⟩ := List.mem_flatMap.1 hm
      have behind := framed.start_lt ownOrder (framed.behind child hc)
      exact behind.trans_le (children.within ownOrder child hc m hm).starts
    · exact ihm (order.sublist (List.sublist_append_right own rest))
        (fun n hn => notExpr n (List.mem_cons_of_mem _ hn)) n' hn m hm

end LieIn

/-! ### Main result -/

namespace Sheet
variable {text file : String} {sheet : Sheet}

/-- What a text was read from: its tokens, and a reader that went past all of them. -/
theorem read_of_ofText (h : ofText text file = .ok sheet) :
    ∃ front d, Token.ofText text (some file) =
        .ok (front ++ [.closing ⟨text.utf8ByteSize, file⟩]) ∧
      Token.Tiles text file 0 front ∧
      Parse.sheet .standard
        ⟨file, .startOf file, front, .closing ⟨text.utf8ByteSize, file⟩, rfl, 1⟩ = .ok sheet d := by
  cases scanned : Token.ofText text (some file) with
  | error e =>
    unfold ofText at h
    rw [scanned] at h
    cases h
  | ok tokens =>
    obtain ⟨front, rfl, tiles⟩ :=
      (Token.laid_of_scan scanned).tiles (show text.toList = [] ++ text.toList from rfl) rfl
    rw [ofText_of_scan scanned] at h
    split at h <;> cases h
    rename_i d read
    exact ⟨front, d, rfl, tiles, read⟩

/-- Reading a stylesheet goes past all tokens, and the members lie among them. -/
theorem lieIn_of_ofText (h : ofText text file = .ok sheet) :
    ∃ front, Token.ofText text (some file) =
        .ok (front ++ [.closing ⟨text.utf8ByteSize, file⟩]) ∧
      Token.Tiles text file 0 front ∧ LieIn (sheet.members.map Member.node) front ∧
      sheet.span = ⟨⟨0, file⟩, ⟨text.utf8ByteSize, file⟩⟩ := by
  obtain ⟨front, d, scanned, tiles, read⟩ := read_of_ofText h
  have ended := Parse.sheet_ended read
  obtain ⟨ts, passes, lie, span⟩ := Parse.sheet_lies sheet d read
  have split : front = ts ++ d.ahead := passes.ahead
  have all : d.ahead = [] := by
    cases ahead : d.ahead with
    | nil => rfl
    | cons t rest =>
      have ht : t ∈ front := by
        rw [split, ahead]
        exact List.mem_append_right _ List.mem_cons_self
      unfold Cursor.kind Cursor.current at ended
      rw [ahead] at ended
      exact absurd ended (tiles.word t ht).1
  rw [all, List.append_nil] at split
  have place : d.position = ⟨text.utf8ByteSize, file⟩ := by
    unfold Cursor.position Cursor.current
    rw [all, passes.closing]
    rfl
  rw [place, passes.file] at span
  exact ⟨front, scanned, tiles, split ▸ lie, span⟩

/-- How a stylesheet lies in the text of a file. -/
structure Lies (sheet : Sheet) (text file : String) : Prop where
  /-- It spans the text from end to end. -/
  span : sheet.span = ⟨⟨0, file⟩, ⟨text.utf8ByteSize, file⟩⟩
  encloses : ∀ member ∈ sheet.members, member.node.span.Inside sheet.span
  ordered : (sheet.members.map Member.node).Pairwise fun a b => a.span.Before b.span
  nodes : ∃ front, Token.ofText text (some file) =
      .ok (front ++ [.closing ⟨text.utf8ByteSize, file⟩]) ∧
    ∀ n ∈ sheet.nodes, n.Lies file front

/-- **The spans of a stylesheet that is read from a text nest**: none is empty, each lies in
that of its parent, and siblings follow each other. A node with words of its own goes from
the first to the last of its tokens, and an operation from operand to operand. -/
theorem ofText_lies (h : ofText text file = .ok sheet) : sheet.Lies text file := by
  obtain ⟨front, scanned, tiles, lie, span⟩ := lieIn_of_ofText h
  have order := tiles.inOrder
  refine ⟨span, fun member hm => ?_, lie.pairwise order, front, scanned, ?_⟩
  · obtain ⟨t, ht, stops⟩ := (lie.among_of_mem (List.mem_map_of_mem hm)).stops
    rw [span]
    refine ⟨Nat.zero_le _, ?_⟩
    rw [← stops]
    exact (tiles.word t ht).2.2.2.stop_valid.le_rawEndPos
  · rw [nodes_eq_flatMap_node]
    exact lie.lies order

/-- A product with parentheses around its left factor, and a clause with two branches. -/
def nestedText : String :=
  "W := (1 + 2) * 3px; /* \u00e9 */ p \x7b if [true] \x7b width: W; \x7d else \x7b \x7d \x7d"

def nestedSpans : List (Nat × Nat) :=
  [(0, 19), (6, 18), (6, 11), (6, 7), (10, 11), (15, 18),
    (29, 67), (33, 65), (37, 41), (45, 54), (52, 53), (57, 65)]

/-- The product starts behind the parenthesis that opens it. -/
theorem ofText_lies_nested : ∃ sheet, ofText nestedText "sheet" = .ok sheet ∧
    (sheet.nodes.map fun n => (n.span.start.offset, n.span.stop.offset)) = nestedSpans ∧
    sheet.Lies nestedText "sheet" := by
  have known : (ofText nestedText "sheet").map
      (fun sheet => sheet.nodes.map fun n => (n.span.start.offset, n.span.stop.offset)) =
        .ok nestedSpans := by cbv
  cases read : ofText nestedText "sheet" with
  | error e =>
    rw [read] at known
    cases known
  | ok sheet =>
    rw [read] at known
    exact ⟨sheet, rfl, Except.ok.inj known, ofText_lies read⟩

end Sheet

end Typesheet
