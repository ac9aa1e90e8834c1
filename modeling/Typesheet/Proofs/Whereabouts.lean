import Typesheet.Proofs.Nodes
import Typesheet.Proofs.Soundness

/-! Where nodes lie among tokens.

The tokens that a node is read from are a stretch of the tokens of the text, and its span goes
from the first of them to the last (`Node.Framed`); a value or a variable is one token, and an
operation goes from its left operand to its right one, without the parentheses around them
(`Expr.Spans`). `LieIn` says of nodes and tokens that the stretches of the nodes follow each
other among the tokens, and that the same is true of the children of each node in its stretch.

It is what reading does (`Parse.sheet_lies`). `Parse.Passes` says of a reader at a place which
tokens it goes past, with a rule for each step that a reader begins with. How nodes are written
with their tokens is known already (`Parse.Takes`) and is only joined to it
(`Parse.Passes.takes`). -/
namespace Typesheet

/-! ### Stretches of tokens -/

/-- A span starts where one of the tokens does, and ends where one of them does. -/
structure Span.Among (span : Span) (ts : List Token) : Prop where
  starts : ∃ t ∈ ts, t.span.start = span.start
  stops : ∃ t ∈ ts, t.span.stop = span.stop

theorem Span.Among.mono {span : Span} {ts us : List Token} (h : span.Among ts) (subset : ts ⊆ us) :
    span.Among us :=
  ⟨h.starts.imp fun _ ht => ⟨subset ht.1, ht.2⟩, h.stops.imp fun _ ht => ⟨subset ht.1, ht.2⟩⟩

theorem Token.span_among {t : Token} {ts : List Token} (ht : t ∈ ts) : t.span.Among ts :=
  ⟨⟨t, ht, rfl⟩, ⟨t, ht, rfl⟩⟩

/-- The span of an expression by the tokens it is read from. -/
def Expr.Spans : Expr → List Token → Prop
  | .literal _ value span, ts => ∃ t, ts = [t] ∧ t.span = span ∧ t.literal? = some (.ok value)
  | .reference _ name span, ts => ts = [⟨.identifier, name, span⟩]
  | .operation _ op left right span, ts =>
    span = ⟨left.span.start, right.span.stop⟩ ∧
      ∃ front sign back, ts = front ++ sign :: back ∧ sign.kind.operator? = some op ∧
        left.span.Among front ∧ right.span.Among back

/-- A node is written with these tokens: its span starts with the first and ends with the last,
and its children start behind the first. -/
structure Node.Framed (n : Node) (written : List Word → Prop) (ts : List Token) : Prop where
  starts : (ts.head?.map fun t => t.span.start) = some n.span.start
  stops : (ts.getLast?.map fun t => t.span.stop) = some n.span.stop
  written : written (ts.map Token.word)
  behind : ∀ child ∈ n.children, child.span.Among ts.tail

/-- The span of a node by the tokens it is read from. -/
def Node.Spans : Node → List Token → Prop
  | .expr e => e.Spans
  | .declaration d => Framed (.declaration d) (Item.declaration d).WrittenAs
  | .assignment a => Framed (.assignment a) (Item.assignment a).WrittenAs
  | .ifClause clause => Framed (.ifClause clause) (Item.ifClause clause).WrittenAs
  | .elseClause clause => Framed (.elseClause clause) (Otherwise (bodyWrittenAs clause.body))
  | .rule r => Framed (.rule r) r.WrittenAs

theorem Item.spans_of_framed (item : Item) (ts : List Token)
    (h : item.node.Framed item.WrittenAs ts) : item.node.Spans ts := by
  cases item with
  | declaration d => exact h
  | assignment a => exact h
  | ifClause clause => exact h

theorem Member.spans_of_framed (member : Member) (ts : List Token)
    (h : member.node.Framed member.WrittenAs ts) : member.node.Spans ts := by
  cases member with
  | assignment a => exact h
  | rule r => exact h

/-- The first of the tokens, and the last. -/
theorem Node.Framed.ends {n : Node} {written : List Word → Prop} {ts : List Token}
    (h : n.Framed written ts) :
    ∃ first rest, ts = first :: rest ∧ first.span.start = n.span.start ∧
      ∃ front last, ts = front ++ [last] ∧ last.span.stop = n.span.stop := by
  obtain ⟨first, head, starts⟩ := Option.map_eq_some_iff.1 h.starts
  obtain ⟨last, final, stops⟩ := Option.map_eq_some_iff.1 h.stops
  obtain ⟨rest, rfl⟩ := List.head?_eq_some_iff.1 head
  obtain ⟨front, split⟩ := List.getLast?_eq_some_iff.1 final
  exact ⟨first, rest, rfl, starts, front, last, split, stops⟩

theorem Node.Framed.among {n : Node} {written : List Word → Prop} {ts : List Token}
    (h : n.Framed written ts) : n.span.Among ts := by
  obtain ⟨first, rest, rfl, starts, front, last, split, stops⟩ := h.ends
  exact ⟨⟨first, List.mem_cons_self, starts⟩, ⟨last, split ▸ List.mem_concat_self, stops⟩⟩

theorem Expr.Spans.among {e : Expr} {ts : List Token} (h : e.Spans ts) : e.span.Among ts := by
  cases e with
  | literal =>
    obtain ⟨t, rfl, rfl, -⟩ := h
    exact Token.span_among List.mem_cons_self
  | reference id name span =>
    obtain rfl : ts = _ := h
    exact Token.span_among (t := ⟨.identifier, name, span⟩) List.mem_cons_self
  | operation =>
    obtain ⟨rfl, front, sign, back, rfl, -, left, right⟩ := h
    obtain ⟨t, ht, starts⟩ := left.starts
    obtain ⟨u, hu, stops⟩ := right.stops
    exact ⟨⟨t, List.mem_append_left _ ht, starts⟩,
      ⟨u, List.mem_append_right _ (List.mem_cons_of_mem _ hu), stops⟩⟩

theorem Node.Spans.among {n : Node} {ts : List Token} (h : n.Spans ts) : n.span.Among ts := by
  cases n with
  | expr e => exact Expr.Spans.among h
  | declaration d => exact Framed.among h
  | assignment a => exact Framed.among h
  | ifClause clause => exact Framed.among h
  | elseClause clause => exact Framed.among h
  | rule r => exact Framed.among h

/-! ### Nodes among tokens -/

/-- The nodes lie one behind the other among the tokens, and so do the children of each node
among the tokens of the node. -/
inductive LieIn : List Node → List Token → Prop
  | nil {ts : List Token} : LieIn [] ts
  | cons {n : Node} {ns : List Node} {gap own rest : List Token} (spans : n.Spans own)
      (children : LieIn n.children own) (more : LieIn ns rest) :
      LieIn (n :: ns) (gap ++ (own ++ rest))

namespace LieIn
variable {n : Node} {ns ms : List Node} {ts us : List Token}

theorem single (spans : n.Spans ts) (children : LieIn n.children ts) : LieIn [n] ts := by
  have alone : LieIn [n] ([] ++ (ts ++ [])) := cons spans children nil
  rwa [List.nil_append, List.append_nil] at alone

theorem append (h : LieIn ns ts) (h' : LieIn ms us) : LieIn (ns ++ ms) (ts ++ us) := by
  induction h with
  | @nil ts =>
    cases h' with
    | nil => exact .nil
    | cons spans children more =>
      rw [← List.append_assoc]
      exact .cons spans children more
  | cons spans children more _ ih =>
    rw [List.append_assoc, List.append_assoc]
    exact .cons spans children ih

theorem behind (h : LieIn ns us) (ts : List Token) : LieIn ns (ts ++ us) := append nil h

theorem inFront (h : LieIn ns ts) (us : List Token) : LieIn ns (ts ++ us) := by
  have more : LieIn (ns ++ []) (ts ++ us) := append h nil
  rwa [List.append_nil] at more

/-- Whatever lies in the nodes starts where one of the tokens does, and ends where one does. -/
theorem among (h : LieIn ns ts) : ∀ n ∈ ns.flatMap Node.nodes, n.span.Among ts := by
  induction h with
  | nil => exact fun _ hn => nomatch hn
  | @cons n ns gap own rest spans _ _ ihc ihm =>
    have inOwn : own ⊆ gap ++ (own ++ rest) :=
      List.subset_append_of_subset_right gap (List.subset_append_left own rest)
    have inRest : rest ⊆ gap ++ (own ++ rest) :=
      List.subset_append_of_subset_right gap (List.subset_append_right own rest)
    intro m hm
    rw [List.flatMap_cons, n.nodes_eq, List.cons_append, List.mem_cons, List.mem_append] at hm
    obtain rfl | hm | hm := hm
    · exact spans.among.mono inOwn
    · exact (ihc m hm).mono inOwn
    · exact (ihm m hm).mono inRest

theorem among_of_mem (h : LieIn ns ts) (hn : n ∈ ns) : n.span.Among ts :=
  h.among n (List.mem_flatMap.2 ⟨n, hn, n.mem_nodes⟩)

end LieIn

/-! ### What a reader goes past -/

namespace Cursor

/-- From one place to another, reading has gone past these tokens. -/
structure Passes (c : Cursor) (ts : List Token) (d : Cursor) : Prop where
  ahead : c.ahead = ts ++ d.ahead
  readTo : d.readTo = (ts.getLast?.map fun t => t.span.stop).getD c.readTo
  closing : d.closing = c.closing
  file : d.file = c.file

namespace Passes
variable {b c d : Cursor} {t : Token} {ts us : List Token}

theorem refl (c : Cursor) : c.Passes [] c := ⟨rfl, rfl, rfl, rfl⟩

theorem next (going : c.kind ≠ .eof) : c.Passes [c.current] c.next := by
  obtain ⟨file, readTo, ahead, closing, eof, nextId⟩ := c
  cases ahead with
  | nil => exact absurd eof going
  | cons t ts => exact ⟨rfl, rfl, rfl, rfl⟩

theorem trans (h : b.Passes ts c) (h' : c.Passes us d) : b.Passes (ts ++ us) d where
  ahead := by rw [h.ahead, h'.ahead, List.append_assoc]
  readTo := by
    rw [h'.readTo, h.readTo, List.getLast?_append]
    cases us.getLast? with
    | none => rfl
    | some u => rfl
  closing := h'.closing.trans h.closing
  file := h'.file.trans h.file

/-- Reading stands where the last of the tokens stops. -/
theorem getLast? (h : c.Passes (t :: ts) d) :
    ((t :: ts).getLast?.map fun t => t.span.stop) = some d.readTo := by
  rw [h.readTo, List.getLast?_cons]
  rfl

theorem words (h : c.Passes ts d) : c.words = ts.map Token.word ++ d.words := by
  rw [Cursor.words, h.ahead, List.map_append, Cursor.words]

/-- A node is framed by the tokens gone past, if it starts with the first and ends with the last
of them and its children lie behind the first. -/
theorem framed {n : Node} {written : List Word → Prop} (h : c.Passes (t :: ts) d)
    (span : n.span = ⟨t.span.start, d.readTo⟩) (lie : LieIn n.children ts)
    (words : written ((t :: ts).map Token.word)) : n.Framed written (t :: ts) where
  starts := by
    rw [span]
    rfl
  stops := by
    rw [span]
    exact h.getLast?
  written := words
  behind _ child := lie.among_of_mem child

end Passes

end Cursor

namespace Parse
variable {α β : Type}

/-- From the place `c` the reader goes past tokens, and stops or gives something that `R`
relates to them and to the place behind them. -/
def Passes (m : Parse α) (c : Cursor) (R : α → Cursor → List Token → Prop) : Prop :=
  ∀ a d, m c = .ok a d → ∃ ts, c.Passes ts d ∧ R a d ts

namespace Passes
variable {c : Cursor} {R : β → Cursor → List Token → Prop}

theorem bind {m : Parse α} {k : α → Parse β} {S : α → Cursor → List Token → Prop}
    (hm : Passes m c S)
    (hk : ∀ a d ts, c.Passes ts d → S a d ts →
      Passes (k a) d fun b d' us => R b d' (ts ++ us)) : Passes (m >>= k) c R := by
  intro b d h
  obtain ⟨a, c', h, h'⟩ := bind_ok_iff.1 h
  obtain ⟨ts, passes, ha⟩ := hm a c' h
  obtain ⟨us, passes', hb⟩ := hk a c' ts passes ha b d h'
  exact ⟨ts ++ us, passes.trans passes', hb⟩

theorem mono {m : Parse α} {R S : α → Cursor → List Token → Prop} (h : Passes m c S)
    (imp : ∀ a d ts, c.Passes ts d → S a d ts → R a d ts) : Passes m c R := by
  intro a d hm
  obtain ⟨ts, passes, ha⟩ := h a d hm
  exact ⟨ts, passes, imp a d ts passes ha⟩

/-- The tokens gone past have the words taken. -/
theorem takes {m : Parse α} {S : α → Cursor → List Token → Prop} {W : α → List Word → Prop}
    (h : Passes m c S) (ht : Takes m c fun a _ ws => W a ws) :
    Passes m c fun a d ts => S a d ts ∧ W a (ts.map Token.word) := by
  intro a d hm
  obtain ⟨ts, passes, ha⟩ := h a d hm
  obtain ⟨ws, words, hw⟩ := ht a d hm
  rw [passes.words] at words
  exact ⟨ts, passes, ha, List.append_cancel_right words ▸ hw⟩

theorem pure {b : β} (h : R b c []) : Passes (Pure.pure b) c R := by
  rintro _ _ ⟨⟩
  exact ⟨[], .refl c, h⟩

theorem refuse (message : String) : Passes (Parse.refuse message) c R := fun _ _ h => nomatch h

theorem raise (e : Error) : Passes (throw e) c R := fun _ _ h => nomatch h

theorem get {k : Cursor → Parse β} (h : Passes (k c) c R) : Passes (MonadState.get >>= k) c R := h

theorem kind {k : Kind → Parse β} (h : Passes (k c.kind) c R) : Passes (Parse.kind >>= k) c R := h

theorem position {k : Position → Parse β} (h : Passes (k c.position) c R) :
    Passes (Parse.position >>= k) c R := h

theorem spanFrom {k : Span → Parse β} {start : Position} (h : Passes (k ⟨start, c.readTo⟩) c R) :
    Passes (Parse.spanFrom start >>= k) c R := h

theorem budget {k : Nat → Parse β} (h : ∀ n, Passes (k n) c R) : Passes (Parse.budget >>= k) c R :=
  h _

theorem freshId {k : NodeId → Parse β} (h : ∀ id d, Passes (k id) d R) :
    Passes (Parse.freshId >>= k) c R := by
  intro b d hk
  obtain ⟨ts, ⟨ahead, readTo, closing, file⟩, hb⟩ :=
    h _ {c with nextId := c.nextId + 1} b d hk
  exact ⟨ts, ⟨ahead, readTo, closing, file⟩, hb⟩

theorem advance {k : Token → Parse β} (going : c.kind ≠ .eof)
    (h : Passes (k c.current) c.next fun b d ts => R b d (c.current :: ts)) :
    Passes (Parse.advance >>= k) c R := by
  intro b d hk
  obtain ⟨ts, passes, hb⟩ := h b d hk
  exact ⟨c.current :: ts, (Cursor.Passes.next going).trans passes, hb⟩

theorem expect {k : Token → Parse β} {kind : Kind} (going : kind ≠ .eof)
    (h : ∀ t d, Passes (k t) d fun b d' ts => R b d' (t :: ts)) :
    Passes (Parse.expect kind >>= k) c R := by
  intro b d hk
  obtain ⟨t, c', ht, hk'⟩ := bind_ok_iff.1 hk
  unfold Parse.expect expectOr at ht
  split at ht
  · rename_i hc
    exact advance (hc ▸ going) (h c.current c.next) b d (bind_ok_iff.2 ⟨t, c', ht, hk'⟩)
  · cases ht

/-- What starts with the current token and holds its children behind it lies among the tokens
gone past. -/
theorem framed {m : Parse α} (node : α → Node) {W : α → List Word → Prop}
    (spans : ∀ a ts, (node a).Framed (W a) ts → (node a).Spans ts)
    (h : Passes m c fun a d ts => (node a).span = ⟨c.position, d.readTo⟩ ∧
      ∃ rest, ts = c.current :: rest ∧ LieIn (node a).children rest)
    (written : Takes m c fun a _ ws => W a ws) : Passes m c fun a _ ts => LieIn [node a] ts := by
  refine (h.takes written).mono ?_
  rintro a d _ passes ⟨⟨span, rest, rfl, lie⟩, words⟩
  exact .single (spans a _ (passes.framed span lie words)) (lie.behind [c.current])

end Passes

/-! ### Expressions -/

section
variable {c : Cursor}

theorem primary_lies : Passes primary c fun e _ ts => LieIn [.expr e] ts := by
  refine .get ?_
  simp only []
  split
  · rename_i name
    have name : c.kind = .identifier := name
    refine .advance (name ▸ Kind.noConfusion) (.freshId fun id d => .pure (.single ?_ .nil))
    show [c.current] = [⟨.identifier, c.current.value, c.current.span⟩]
    rw [← name]
    rfl
  · split
    · rename_i v value
      have going : c.kind ≠ .eof := by
        intro eof
        rw [← Token.literal?_word, c.word_of_kind eof] at value
        cases value
      exact .advance going (.freshId fun id d =>
        .pure (.single ⟨c.current, rfl, rfl, value⟩ .nil))
    · exact .raise _
    · exact .refuse _

/-- Parentheses leave no node. -/
theorem grouping_lies {inner : Parse Expr} (opening : c.kind = .openParen)
    (h : ∀ d, Passes inner d fun e _ ts => LieIn [.expr e] ts) :
    Passes (grouping inner) c fun e _ ts => LieIn [.expr e] ts := by
  refine .advance (opening ▸ Kind.noConfusion) (.bind (h _) fun e d ts _ lie => ?_)
  refine .expect Kind.noConfusion fun t d => .pure ?_
  exact (lie.inFront [t]).behind [c.current]

theorem operation_lies {left : Expr} {operand : Parse Expr} {tl : List Token}
    (lie : LieIn [.expr left] tl) (h : ∀ d, Passes operand d fun e _ ts => LieIn [.expr e] ts) :
    Passes (operation left operand) c fun e _ ts => LieIn [.expr e] (tl ++ ts) := by
  cases hop : c.current.kind.operator? with
  | none =>
    intro e d hm
    obtain ⟨sign, c', ⟨⟩, hm⟩ := bind_ok_iff.1 hm
    rw [hop] at hm
    cases hm
  | some op =>
    have going : c.kind ≠ .eof := by
      intro eof
      rw [show c.current.kind = .eof from eof] at hop
      cases hop
    refine .advance going ?_
    rw [hop]
    refine .bind (h _) fun right d tr _ lie' => .freshId fun id d => .pure ?_
    rw [List.append_nil]
    have operands := lie.append (lie'.behind [c.current])
    exact .single ⟨rfl, tl, c.current, tr, rfl, hop, lie.among_of_mem List.mem_cons_self,
      lie'.among_of_mem List.mem_cons_self⟩ operands

theorem exprWithin_lies (n : Nat) :
    (∀ floor c, Passes (exprWithin .standard n floor) c fun e _ ts => LieIn [.expr e] ts) ∧
    ∀ floor left tl c, LieIn [.expr left] tl →
      Passes (operationsWithin .standard n floor left) c fun e _ ts =>
        LieIn [.expr e] (tl ++ ts) := by
  induction n with
  | zero =>
    refine ⟨fun _ _ => .refuse _, fun floor left tl c lie => .pure ?_⟩
    rwa [List.append_nil]
  | succ n ih =>
    obtain ⟨ihe, iho⟩ := ih
    constructor
    · intro floor c
      refine .kind ?_
      split
      · exact .refuse _
      · exact .bind primary_lies fun left d tl _ lie => iho floor left tl d lie
      · rename_i form
        have opening := Grammar.kind_of_grouping form
        exact .bind (grouping_lies opening (ihe _)) fun left d tl _ lie => iho floor left tl d lie
    · intro floor left tl c lie
      refine .kind ?_
      simp only []
      split
      · refine .bind (operation_lies lie (ihe _)) fun e d ts _ lie => ?_
        refine (iho floor e (tl ++ ts) d lie).mono fun e d us _ lie => ?_
        rwa [← List.append_assoc]
      · refine .pure ?_
        rwa [List.append_nil]

theorem expr_lies : Passes (expr .standard .lowest) c fun e _ ts => LieIn [.expr e] ts :=
  .budget fun n => (exprWithin_lies n).1 .lowest c

end

/-! ### Bodies -/

section
variable {c : Cursor}

/-- The rest of an assignment holds its value. -/
theorem assignmentTail_lies (name : Token) :
    Passes (assignmentTail .standard name) c fun a d ts =>
      a.span = ⟨name.span.start, d.readTo⟩ ∧ LieIn [.expr a.value] ts := by
  refine .expect Kind.noConfusion fun m d => .bind expr_lies fun value d ts _ lie => ?_
  refine .expect Kind.noConfusion fun s d => .freshId fun id d' => .spanFrom (.pure ⟨rfl, ?_⟩)
  exact (lie.inFront [s]).behind [m]

theorem namedItem_lies (name : c.kind = .identifier) :
    Passes (namedItem .standard) c fun i _ ts => LieIn [i.node] ts := by
  have frame : Passes (namedItem .standard) c fun i d ts =>
      i.node.span = ⟨c.position, d.readTo⟩ ∧
        ∃ rest, ts = c.current :: rest ∧ LieIn i.node.children rest := by
    refine .advance (name ▸ Kind.noConfusion) (.kind ?_)
    split
    · refine .bind (assignmentTail_lies _) ?_
      rintro a d ts - ⟨span, lie⟩
      exact .pure ⟨span, ts, by rw [List.append_nil], lie⟩
    · rename_i colon
      refine .advance (colon ▸ Kind.noConfusion) (.bind expr_lies fun value d ts _ lie => ?_)
      refine .expect Kind.noConfusion fun s d => .freshId fun id d' =>
        .spanFrom (.pure ⟨rfl, _, rfl, ?_⟩)
      exact (lie.inFront [s]).behind [c.next.current]
    · exact .refuse _
  exact .framed Item.node Item.spans_of_framed frame (namedItem_sound name)

/-- The items that are read lie among the tokens gone past. -/
def BodyLies (body : Parse (List Item)) : Prop :=
  ∀ c, Passes body c fun items _ ts => LieIn (items.map Item.node) ts

theorem elseClause_lies {body : Parse (List Item)} (h : BodyLies body)
    (sound : ∀ c, Takes body c fun items _ ws => Braced (bodyWrittenAs items) ws) :
    Passes (ifClause.elseClause body) c fun other _ ts =>
      LieIn (other.map Node.elseClause).toList ts := by
  by_cases word : c.kind = .elseWord
  · have frame : Passes (ifClause.elseClause body) c fun other d ts => ∃ clause,
        other = some clause ∧ clause.span = ⟨c.position, d.readTo⟩ ∧
          ∃ rest, ts = c.current :: rest ∧ LieIn (Node.elseClause clause).children rest := by
      refine .kind ?_
      rw [if_pos word]
      refine .advance (word ▸ Kind.noConfusion) (.freshId fun id d => ?_)
      refine .bind (h d) fun items d ts _ lie => .spanFrom (.pure ⟨_, rfl, rfl, ts, ?_, lie⟩)
      rw [List.append_nil]
    refine (frame.takes (elseClause_sound sound)).mono ?_
    rintro _ d _ passes ⟨⟨clause, rfl, span, rest, rfl, lie⟩, words⟩
    exact .single (passes.framed (n := .elseClause clause) span lie words)
      (lie.behind [c.current])
  · refine .kind ?_
    rw [if_neg word]
    exact .pure .nil

theorem ifClause_lies {body : Parse (List Item)} (word : c.kind = .ifWord) (h : BodyLies body)
    (sound : ∀ c, Takes body c fun items _ ws => Braced (bodyWrittenAs items) ws) :
    Passes (ifClause .standard body) c fun i _ ts => LieIn [i.node] ts := by
  have frame : Passes (ifClause .standard body) c fun i d ts =>
      i.node.span = ⟨c.position, d.readTo⟩ ∧
        ∃ rest, ts = c.current :: rest ∧ LieIn i.node.children rest := by
    refine .advance (word ▸ Kind.noConfusion) (.kind ?_)
    split
    · exact .refuse _
    · rename_i closing ends
      obtain ⟨opens, closes⟩ := conditionEnd?_going ends
      refine .advance opens (.bind expr_lies fun condition d tc _ inCondition => ?_)
      refine .expect closes fun t d => .freshId fun id d => ?_
      refine .bind (h d) fun whenTrue d tb _ inBody => ?_
      refine .bind (elseClause_lies h sound) fun otherwise d te _ inElse => ?_
      refine .spanFrom (.pure ⟨rfl, _, rfl, ?_⟩)
      rw [List.append_nil]
      exact (inCondition.append ((inBody.append inElse).behind [t])).behind [c.next.current]
  exact .framed Item.node Item.spans_of_framed frame (ifClause_sound word sound)

theorem item_lies {body : Parse (List Item)} (h : BodyLies body)
    (sound : ∀ c, Takes body c fun items _ ws => Braced (bodyWrittenAs items) ws) :
    Passes (item .standard body) c fun i _ ts => LieIn [i.node] ts := by
  refine .kind ?_
  split
  · rename_i form
    exact namedItem_lies (Grammar.kind_of_item form)
  · rename_i form
    exact ifClause_lies (Grammar.kind_of_item form) h sound
  · exact .refuse _

theorem braces_lies {items : Parse (List Item)} (h : BodyLies items) : BodyLies (braces items) := by
  intro c
  refine .expect Kind.noConfusion fun o d => .bind (h d) fun items d ts _ lie => ?_
  exact .expect Kind.noConfusion fun t d => .pure ((lie.inFront [t]).behind [o])

theorem itemsWithin_lies (n : Nat) : BodyLies (itemsWithin .standard n) := by
  induction n with
  | zero => exact fun _ => .pure .nil
  | succ n ih =>
    intro c
    refine .kind ?_
    split
    · exact .pure .nil
    · have sound : ∀ c, Takes (braces (itemsWithin .standard n)) c fun items _ ws =>
          Braced (bodyWrittenAs items) ws := fun c => braces_sound (itemsWithin_sound n)
      refine .bind (item_lies (braces_lies ih) sound) fun front d ts _ inFront => ?_
      refine .bind (ih d) fun back d us _ inBack => .pure ?_
      rw [List.append_nil]
      exact inFront.append inBack

theorem block_lies : BodyLies (block .standard) :=
  fun c => .budget fun n => braces_lies (itemsWithin_lies n) c

end

/-! ### Members -/

section
variable {c : Cursor}

theorem selector_passes : Passes selector c fun _ _ ts => ts = [c.current] := by
  refine .kind ?_
  split
  case h_5 => exact .refuse _
  all_goals
    rename_i kind
    exact .advance (kind ▸ Kind.noConfusion) (.pure rfl)

theorem selectorsWithin_passes (n : Nat) (c : Cursor) :
    Passes (selectorsWithin n) c fun _ _ _ => True := by
  induction n generalizing c with
  | zero => exact .pure trivial
  | succ n ih =>
    refine .kind ?_
    split
    · rename_i comma
      refine .advance (comma ▸ Kind.noConfusion) (.bind selector_passes fun front d _ _ _ => ?_)
      exact .bind (ih d) fun back d _ _ _ => .pure trivial
    · exact .pure trivial

theorem rule_frames : Passes (rule .standard) c fun r d ts =>
    r.span = ⟨c.position, d.readTo⟩ ∧
      ∃ rest, ts = c.current :: rest ∧ LieIn (r.body.map Item.node) rest := by
  refine .position (.bind selector_passes ?_)
  rintro front d _ - rfl
  refine .budget fun n => .bind (selectorsWithin_passes n d) fun back d ts _ _ => ?_
  refine .freshId fun id d => .bind (block_lies d) fun body d us _ lie => ?_
  refine .spanFrom (.pure ⟨rfl, _, rfl, ?_⟩)
  rw [List.append_nil]
  exact lie.behind ts

theorem member_lies : Passes (member .standard) c fun m _ ts => LieIn [m.node] ts := by
  have frame : Passes (member .standard) c fun m d ts =>
      m.node.span = ⟨c.position, d.readTo⟩ ∧
        ∃ rest, ts = c.current :: rest ∧ LieIn m.node.children rest := by
    refine .get ?_
    split
    · rename_i second
      refine .advance (second.1 ▸ Kind.noConfusion) (.bind (assignmentTail_lies _) ?_)
      rintro a d ts - ⟨span, lie⟩
      exact .pure ⟨span, ts, by rw [List.append_nil], lie⟩
    · refine .bind rule_frames ?_
      rintro r d ts - ⟨span, rest, rfl, lie⟩
      exact .pure ⟨span, rest, by rw [List.append_nil], lie⟩
  exact .framed Member.node Member.spans_of_framed frame member_sound

theorem membersWithin_lies (n : Nat) (c : Cursor) :
    Passes (membersWithin .standard n) c fun members _ ts =>
      LieIn (members.map Member.node) ts := by
  induction n generalizing c with
  | zero => exact .pure .nil
  | succ n ih =>
    refine .get ?_
    split
    · refine .bind member_lies fun front d ts _ inFront => .bind (ih d) fun back d us _ inBack => ?_
      refine .pure ?_
      rw [List.append_nil]
      exact inFront.append inBack
    · exact .pure .nil

/-- **The members of a stylesheet lie among the tokens**, and it spans all from the start of the
file to where reading stands. -/
theorem sheet_lies : Passes (sheet .standard) c fun s d ts =>
    LieIn (s.members.map Member.node) ts ∧ s.span = ⟨.startOf d.file, d.position⟩ := by
  refine .budget fun n => .bind (membersWithin_lies n c) fun members d ts _ lie => ?_
  refine .get (.pure ⟨?_, rfl⟩)
  rwa [List.append_nil]

end

end Parse

end Typesheet
