import Typesheet.Proofs.Tracking

/-! Readers that do the same.

What is ahead of a place up to the first closing token decides what is read there. So places
with the same tokens up to there are compared (`Cursor.Abreast`), whatever tokens follow, and
`Parse.Together` says of two readers, started at two such places, that they give the same or
stop with the same error, having gone on by the same number of tokens past no closing one.
There is a rule for each step that a reader begins with.

The readers are two so that those of two grammars can be compared, or, as in what follows,
those with two budgets. -/
namespace Typesheet

namespace Cursor
variable {c d e : Cursor} {j k : Nat}

/-- The tokens ahead in front of the first closing one. -/
def live (c : Cursor) : List Token := c.ahead.takeWhile (·.kind ≠ .eof)

/-- The first closing token ahead. -/
def stop (c : Cursor) : Token := (c.ahead.dropWhile (·.kind ≠ .eof)).head?.getD c.closing

theorem live_length_le (c : Cursor) : c.live.length ≤ c.ahead.length :=
  (List.takeWhile_prefix _).length_le

theorem current_eq_live (c : Cursor) : c.current = c.live.head?.getD c.stop := by
  unfold current live stop
  cases c.ahead with
  | nil => rfl
  | cons t ts =>
    by_cases eof : t.kind = .eof
    · simp [eof]
    · simp [eof]

theorem live_of_kind (h : c.kind ≠ .eof) :
    c.live = c.current :: c.next.live ∧ c.stop = c.next.stop := by
  obtain ⟨t, ts, ahead⟩ := ahead_of_kind h
  have going : t.kind ≠ .eof := by
    unfold kind current at h
    rwa [ahead] at h
  simp [live, stop, current, next, ahead, going]

/-! ### Places abreast -/

/-- Two places from which the same tokens are ahead up to a closing one, and which agree in
all that is known of what was read. -/
structure Abreast (c d : Cursor) : Prop where
  file : c.file = d.file
  readTo : c.readTo = d.readTo
  nextId : c.nextId = d.nextId
  live : c.live = d.live
  stop : c.stop = d.stop

namespace Abreast

theorem refl (c : Cursor) : c.Abreast c := ⟨rfl, rfl, rfl, rfl, rfl⟩

theorem current (h : c.Abreast d) : c.current = d.current := by
  rw [current_eq_live, current_eq_live, h.live, h.stop]

theorem kind (h : c.Abreast d) : c.kind = d.kind := congrArg Token.kind h.current

theorem next (h : c.Abreast d) (going : c.kind ≠ .eof) : c.next.Abreast d.next := by
  have going' : d.kind ≠ .eof := h.kind ▸ going
  obtain ⟨live, stop⟩ := live_of_kind going
  obtain ⟨live', stop'⟩ := live_of_kind going'
  obtain ⟨t, ts, ahead⟩ := ahead_of_kind going
  obtain ⟨t', ts', ahead'⟩ := ahead_of_kind going'
  have first : t = t' := by
    have current := h.current
    unfold Cursor.current at current
    rwa [ahead, ahead'] at current
  have tokens := h.live
  rw [live, live'] at tokens
  refine ⟨?_, ?_, ?_, (List.cons.inj tokens).2, stop.symm.trans (h.stop.trans stop')⟩
  · simp only [Cursor.next, ahead, ahead']
    exact h.file
  · simp only [Cursor.next, ahead, ahead', first]
  · simp only [Cursor.next, ahead, ahead']
    exact h.nextId

theorem peek_one (h : c.Abreast d) (going : c.kind ≠ .eof) : c.peek 1 = d.peek 1 := by
  rw [Cursor.peek_one going, Cursor.peek_one (h.kind ▸ going), (h.next going).current]

theorem live_length_le (h : c.Abreast d) : c.live.length ≤ d.ahead.length :=
  h.live ▸ d.live_length_le

theorem fresh (h : c.Abreast d) :
    Abreast {c with nextId := c.nextId + 1} {d with nextId := d.nextId + 1} :=
  ⟨h.file, h.readTo, congrArg (· + 1) h.nextId, h.live, h.stop⟩

end Abreast

/-! ### Going on -/

theorem takeWhile_drop {p : Token → Bool} : ∀ {k : Nat} {ts : List Token},
    k ≤ (ts.takeWhile p).length → (ts.drop k).takeWhile p = (ts.takeWhile p).drop k
  | 0, _, _ => rfl
  | _ + 1, [], _ => rfl
  | k + 1, t :: ts, within => by
    by_cases going : p t
    · rw [List.takeWhile_cons_of_pos going] at within ⊢
      exact takeWhile_drop (Nat.le_of_succ_le_succ within)
    · rw [List.takeWhile_cons_of_neg going] at within
      exact absurd within (Nat.not_succ_le_zero k)

/-- One place is so many tokens behind another, and no closing token is between them. -/
structure Onward (k : Nat) (c d : Cursor) : Prop where
  ahead : d.ahead = c.ahead.drop k
  closing : d.closing = c.closing
  within : k ≤ c.live.length

namespace Onward

theorem refl (c : Cursor) : Onward 0 c c := ⟨rfl, rfl, Nat.zero_le _⟩

theorem live (h : Onward k c d) : d.live = c.live.drop k := by
  unfold Cursor.live
  rw [h.ahead]
  exact takeWhile_drop h.within

theorem trans (h : Onward j c d) (h' : Onward k d e) : Onward (j + k) c e where
  ahead := by rw [h'.ahead, h.ahead, List.drop_drop]
  closing := h'.closing.trans h.closing
  within := by
    have first := h.within
    have second := h'.within
    rw [h.live, List.length_drop] at second
    omega

theorem next (h : c.kind ≠ .eof) : Onward 1 c c.next where
  ahead := by
    obtain ⟨t, ts, ahead⟩ := ahead_of_kind h
    simp [Cursor.next, ahead]
  closing := by
    obtain ⟨t, ts, ahead⟩ := ahead_of_kind h
    simp [Cursor.next, ahead]
  within := by
    rw [(live_of_kind h).1]
    exact Nat.succ_le_succ (Nat.zero_le _)

/-- Places abreast that lie equally far behind one place are one place. -/
theorem unique (h : Onward k c d) (h' : Onward k c e) (abreast : d.Abreast e) : d = e := by
  obtain ⟨_, _, ahead, closing, _, _⟩ := d
  obtain ⟨_, _, ahead', closing', _, _⟩ := e
  obtain ⟨rfl, rfl, rfl, -, -⟩ := abreast
  obtain rfl : ahead = ahead' := h.ahead.trans h'.ahead.symm
  obtain rfl : closing = closing' := h.closing.trans h'.closing.symm
  rfl

end Onward

end Cursor

namespace Parse
open Cursor (Abreast Onward)
variable {α β : Type}

/-! ### Readers that do the same -/

/-- From two places two readings went on to two others: by as many tokens, no fewer than
`least` and past no closing one, to places abreast. -/
def Paired (least : Nat) (c d c' d' : Cursor) : Prop :=
  c'.Abreast d' ∧ ∃ k ≥ least, Onward k c c' ∧ Onward k d d'

/-- Started at two places two readers do the same, and use so many tokens at least if they
do not stop. -/
structure Together (least : Nat) (m m' : Parse α) (c d : Cursor) : Prop where
  ok : ∀ a c', m c = .ok a c' → ∃ d', m' d = .ok a d' ∧ Paired least c d c' d'
  stops : ∀ e c', m c = .error e c' → ∃ d', m' d = .error e d' ∧ Paired 0 c d c' d'

namespace Paired
variable {i : Nat} {c d c' d' : Cursor}

theorem refl (abreast : c.Abreast d) : Paired 0 c d c d :=
  ⟨abreast, 0, Nat.le_refl 0, .refl c, .refl d⟩

theorem trans {c'' d'' : Cursor} (h : Paired i c d c' d') (h' : Paired 0 c' d' c'' d'') :
    Paired i c d c'' d'' := by
  obtain ⟨-, k, least, first, first'⟩ := h
  obtain ⟨abreast, k', -, second, second'⟩ := h'
  exact ⟨abreast, k + k', Nat.le_add_right_of_le least, first.trans second,
    first'.trans second'⟩

theorem any (h : Paired i c d c' d') : Paired 0 c d c' d' := by
  obtain ⟨abreast, k, -, onward⟩ := h
  exact ⟨abreast, k, Nat.zero_le k, onward⟩

theorem live_le (h : Paired i c d c' d') : c'.live.length + i ≤ c.live.length := by
  obtain ⟨-, k, least, onward, -⟩ := h
  have within := onward.within
  rw [onward.live, List.length_drop]
  omega

theorem next (going : c.kind ≠ .eof) (abreast : c.Abreast d) : Paired 1 c d c.next d.next :=
  ⟨abreast.next going, 1, Nat.le_refl 1, .next going, .next (abreast.kind ▸ going)⟩

theorem fresh (abreast : c.Abreast d) :
    Paired 0 c d {c with nextId := c.nextId + 1} {d with nextId := d.nextId + 1} :=
  ⟨abreast.fresh, 0, Nat.le_refl 0, ⟨rfl, rfl, Nat.zero_le _⟩, ⟨rfl, rfl, Nat.zero_le _⟩⟩

end Paired

namespace Together
variable {i : Nat} {m m' : Parse α} {k k' : α → Parse β} {c d : Cursor}

/-- Readers that do the same at one place are the same there. -/
theorem eq (h : Together i m m' c c) : m c = m' c := by
  cases result : m c with
  | ok a c' =>
    obtain ⟨d', other, abreast, k, -, onward, onward'⟩ := h.ok a c' result
    rw [other, onward.unique onward' abreast]
  | error e c' =>
    obtain ⟨d', other, abreast, k, -, onward, onward'⟩ := h.stops e c' result
    rw [other, onward.unique onward' abreast]

theorem any (h : Together i m m' c d) : Together 0 m m' c d where
  ok a c' hm := by
    obtain ⟨d', other, paired⟩ := h.ok a c' hm
    exact ⟨d', other, paired.any⟩
  stops := h.stops

theorem bindOk (hm : Together i m m' c d)
    (hk : ∀ a c' d', m c = .ok a c' → c'.live.length + i ≤ c.live.length → c'.Abreast d' →
      Together 0 (k a) (k' a) c' d') : Together i (m >>= k) (m' >>= k') c d where
  ok b c'' h := by
    obtain ⟨a, c', h, h'⟩ := bind_ok_iff.1 h
    obtain ⟨d', first, paired⟩ := hm.ok a c' h
    obtain ⟨d'', second, paired'⟩ := (hk a c' d' h paired.live_le paired.1).ok b c'' h'
    exact ⟨d'', bind_ok_iff.2 ⟨a, d', first, second⟩, paired.trans paired'⟩
  stops e c'' h := by
    obtain h | ⟨a, c', h, h'⟩ := bind_error_iff.1 h
    · obtain ⟨d', first, paired⟩ := hm.stops e c'' h
      exact ⟨d', bind_error_iff.2 (.inl first), paired⟩
    · obtain ⟨d', first, paired⟩ := hm.ok a c' h
      obtain ⟨d'', second, paired'⟩ := (hk a c' d' h paired.live_le paired.1).stops e c'' h'
      exact ⟨d'', bind_error_iff.2 (.inr ⟨a, d', first, second⟩), (paired.trans paired').any⟩

theorem bind (hm : Together i m m' c d)
    (hk : ∀ a c' d', c'.live.length + i ≤ c.live.length → c'.Abreast d' →
      Together 0 (k a) (k' a) c' d') : Together i (m >>= k) (m' >>= k') c d :=
  hm.bindOk fun a c' d' _ => hk a c' d'

theorem pure {b : β} (abreast : c.Abreast d) :
    Together 0 (Pure.pure b : Parse β) (Pure.pure b) c d where
  ok := by
    rintro _ _ ⟨⟩
    exact ⟨d, rfl, .refl abreast⟩
  stops _ _ h := nomatch h

theorem raise {e : Error} (abreast : c.Abreast d) :
    Together i (throw e : Parse β) (throw e) c d where
  ok _ _ h := nomatch h
  stops := by
    rintro _ _ ⟨⟩
    exact ⟨d, rfl, .refl abreast⟩

theorem refuse (message : String) (abreast : c.Abreast d) :
    Together i (Parse.refuse message : Parse β) (Parse.refuse message) c d where
  ok _ _ h := nomatch h
  stops := by
    rintro _ _ ⟨⟩
    refine ⟨d, ?_, .refl abreast⟩
    unfold Parse.refuse Cursor.unexpected Cursor.position
    rw [abreast.current]

theorem get {k l : Cursor → Parse β} (h : Together i (k c) (l d) c d) :
    Together i (MonadState.get >>= k) (MonadState.get >>= l) c d := ⟨h.ok, h.stops⟩

theorem kind {k k' : Kind → Parse β} (abreast : c.Abreast d)
    (h : Together i (k c.kind) (k' c.kind) c d) :
    Together i (Parse.kind >>= k) (Parse.kind >>= k') c d := by
  refine .get (k := fun c => k c.kind) (l := fun c => k' c.kind) ?_
  rwa [← abreast.kind]

theorem position {k k' : Position → Parse β} (abreast : c.Abreast d)
    (h : Together i (k c.position) (k' c.position) c d) :
    Together i (Parse.position >>= k) (Parse.position >>= k') c d := by
  refine .get (k := fun c => k c.position) (l := fun c => k' c.position) ?_
  unfold Cursor.position at h ⊢
  rwa [← abreast.current]

theorem spanFrom {k k' : Span → Parse β} {start : Position} (abreast : c.Abreast d)
    (h : ∀ span, Together i (k span) (k' span) c d) :
    Together i (Parse.spanFrom start >>= k) (Parse.spanFrom start >>= k') c d := by
  refine .get (k := fun c => k (c.spanFrom start)) (l := fun c => k' (c.spanFrom start)) ?_
  unfold Cursor.spanFrom
  rw [← abreast.readTo]
  exact h _

theorem budget {k k' : Nat → Parse β}
    (h : Together i (k (c.ahead.length + 1)) (k' (d.ahead.length + 1)) c d) :
    Together i (Parse.budget >>= k) (Parse.budget >>= k') c d := ⟨h.ok, h.stops⟩

theorem freshId {k k' : NodeId → Parse β} (abreast : c.Abreast d)
    (h : ∀ id c' d', c'.live.length ≤ c.live.length → c'.Abreast d' →
      Together 0 (k id) (k' id) c' d') :
    Together 0 (Parse.freshId >>= k) (Parse.freshId >>= k') c d := by
  have here : Together 0 Parse.freshId Parse.freshId c d := {
    ok := by
      rintro _ _ ⟨⟩
      exact ⟨_, by rw [abreast.nextId]; rfl, .fresh abreast⟩
    stops := fun _ _ h => nomatch h }
  exact here.bind h

theorem advance {k k' : Token → Parse β} (going : c.kind ≠ .eof) (abreast : c.Abreast d)
    (h : ∀ c' d', c'.live.length < c.live.length → c'.Abreast d' →
      Together 0 (k c.current) (k' c.current) c' d') :
    Together 1 (Parse.advance >>= k) (Parse.advance >>= k') c d := by
  have here : Together 1 Parse.advance Parse.advance c d := {
    ok := by
      rintro _ _ ⟨⟩
      exact ⟨d.next, by rw [abreast.current]; rfl, .next going abreast⟩
    stops := fun _ _ h => nomatch h }
  refine here.bindOk ?_
  rintro _ _ d' ⟨⟩ shorter abreast'
  exact h c.next d' shorter abreast'

theorem token {kind : Kind} (going : kind ≠ .eof) (abreast : c.Abreast d) :
    Together 1 (Parse.expect kind) (Parse.expect kind) c d := by
  by_cases found : c.kind = kind
  · have first : Parse.expect kind c = (Parse.advance >>= Pure.pure) c := if_pos found
    have second : Parse.expect kind d = (Parse.advance >>= Pure.pure) d :=
      if_pos (abreast.kind ▸ found)
    have advances : Together 1 (Parse.advance >>= Pure.pure) (Parse.advance >>= Pure.pure) c d :=
      .advance (found ▸ going) abreast fun _ _ _ abreast => .pure abreast
    exact ⟨by rw [first, second]; exact advances.ok, by rw [first, second]; exact advances.stops⟩
  · have first : Parse.expect kind c = .error (outOfPlace c.current) c := if_neg found
    have second : Parse.expect kind d = .error (outOfPlace d.current) d :=
      if_neg (abreast.kind ▸ found)
    rw [← abreast.current] at second
    refine ⟨fun _ _ h => (nomatch first.symm.trans h), fun _ _ h => ?_⟩
    cases first.symm.trans h
    exact ⟨d, second, .refl abreast⟩

theorem expect {k k' : Token → Parse β} {kind : Kind} (going : kind ≠ .eof)
    (abreast : c.Abreast d)
    (h : ∀ t c' d', c'.live.length < c.live.length → c'.Abreast d' →
      Together 0 (k t) (k' t) c' d') :
    Together 1 (Parse.expect kind >>= k) (Parse.expect kind >>= k') c d :=
  (token going abreast).bind h

end Together

end Parse

end Typesheet
