import Typesheet.Proofs.Reading
import Typesheet.Proofs.Words

/-! Readers seen by words.

What a reader gives depends on the words ahead, and only numbers and places depend on more
than that. `Reads m before after Q` says that a reader takes the words `before` down to
`after` and gives something in `Q`. The tokens it leaves ahead are the last of those it
had, so words that are still ahead stand where they stood. -/
namespace Typesheet

/-! ### Cursors before known words -/

namespace Cursor
variable {w : Word} {ws : List Word}

theorem current_word {c : Cursor} (h : c.words = w :: ws) : c.current.word = w := by
  unfold Cursor.words at h
  cases ha : c.ahead with
  | nil =>
    rw [ha] at h
    cases h
  | cons t ts =>
    rw [ha, List.map_cons] at h
    rw [Cursor.current, ha]
    exact (List.cons.inj h).1

theorem current_kind {c : Cursor} (h : c.words = w :: ws) : c.kind = w.kind :=
  congrArg Word.kind (current_word h)

theorem second_word {v : Word} {c : Cursor} (h : c.words = v :: w :: ws) :
    (c.peek 1).word = w := by
  have second : c.words[1]? = some w := by rw [h]; rfl
  rw [Cursor.words, List.getElem?_map] at second
  obtain ⟨t, ht, word⟩ := Option.map_eq_some_iff.1 second
  rw [Cursor.peek, ht]
  exact word

theorem next_words {c : Cursor} (h : c.words = w :: ws) : c.next.words = ws := by
  unfold Cursor.words at h
  unfold Cursor.next
  cases ha : c.ahead with
  | nil =>
    rw [ha] at h
    cases h
  | cons t ts =>
    rw [ha, List.map_cons] at h
    exact (List.cons.inj h).2

theorem hasTokens_of_words {c : Cursor} (h : c.words = w :: ws) (hw : w.kind ≠ .eof) :
    c.hasTokens = true := by
  unfold hasTokens
  rw [current_kind h]
  exact decide_eq_true hw

theorem not_hasTokens_of_words {c : Cursor} (h : c.words = []) : ¬c.hasTokens = true := by
  have none : c.ahead = [] := List.map_eq_nil_iff.1 h
  unfold hasTokens kind current
  rw [none, decide_eq_true_eq]
  exact not_not_intro c.closing_kind

/-- An assignment shows in the second word. -/
theorem not_assignment_of_words {v : Word} {c : Cursor} (h : c.words = v :: w :: ws)
    (hw : w.kind ≠ .assignment) : ¬(c.kind = .identifier ∧ (c.peek 1).kind = .assignment) := by
  rintro ⟨-, assignment⟩
  have kind : (c.peek 1).kind = w.kind := congrArg Word.kind (second_word h)
  exact hw (kind.symm.trans assignment)

/-- Reading on leaves the last of the tokens. -/
theorem next_suffix (c : Cursor) : c.next.ahead <:+ c.ahead := by
  unfold Cursor.next
  split
  · exact List.suffix_refl _
  · rename_i t ts h
    rw [h]
    exact List.suffix_cons t ts

end Cursor

namespace Parse
variable {α β : Type}

/-- The kind of the word to be read next, or that of the closing token behind all words. -/
def nextKind (ws : List Word) : Kind := (ws.head?.map Word.kind).getD .eof

/-! ### Readers seen by words -/

/-- From the words `before` the reader gives something in `Q`, with `after` still
ahead. -/
def Reads (m : Parse α) (before after : List Word) (Q : α → Prop) : Prop :=
  ∀ c : Cursor, c.words = before →
    ∃ a d, m c = .ok a d ∧ d.words = after ∧ d.ahead <:+ c.ahead ∧ Q a

section
variable {m : Parse α} {k : α → Parse β} {before mid after ws : List Word} {w : Word}
  {Q : α → Prop} {R : β → Prop}

namespace Reads

theorem bind (hm : Reads m before mid Q) (hk : ∀ a, Q a → Reads (k a) mid after R) :
    Reads (m >>= k) before after R := by
  intro c hc
  obtain ⟨a, c', h, hc', onward, ha⟩ := hm c hc
  obtain ⟨b, d, h', hd, further, hb⟩ := hk a ha c' hc'
  exact ⟨b, d, bind_ok_iff.2 ⟨a, c', h, h'⟩, hd, further.trans onward, hb⟩

/-- A reader that leaves all tokens ahead. -/
theorem of_stays (h : ∀ c : Cursor, c.words = ws → ∃ a d, m c = .ok a d ∧ d.ahead = c.ahead ∧ Q a) :
    Reads m ws ws Q := by
  intro c hc
  obtain ⟨a, d, hm, same, ha⟩ := h c hc
  refine ⟨a, d, hm, ?_, same ▸ List.suffix_refl _, ha⟩
  rw [Cursor.words, same]
  exact hc

theorem pure {a : α} (h : Q a) : Reads (Pure.pure a) ws ws Q :=
  of_stays fun c _ => ⟨a, c, rfl, rfl, h⟩

theorem get : Reads MonadState.get ws ws fun c => c.words = ws :=
  of_stays fun c hc => ⟨c, c, rfl, rfl, hc⟩

theorem kind : Reads Parse.kind (w :: ws) (w :: ws) (· = w.kind) :=
  of_stays fun c hc => ⟨c.kind, c, rfl, rfl, Cursor.current_kind hc⟩

theorem nextKind : Reads Parse.kind ws ws (· = nextKind ws) := by
  refine of_stays fun c hc => ⟨c.kind, c, rfl, rfl, ?_⟩
  cases ws with
  | cons w ws => exact Cursor.current_kind hc
  | nil =>
    have none : c.ahead = [] := List.map_eq_nil_iff.1 hc
    show c.kind = .eof
    rw [Cursor.kind, Cursor.current, none]
    exact c.closing_kind

theorem advance : Reads Parse.advance (w :: ws) ws (·.word = w) := fun c hc =>
  ⟨c.current, c.next, rfl, Cursor.next_words hc, c.next_suffix, Cursor.current_word hc⟩

theorem expect : Reads (Parse.expect w.kind) (w :: ws) ws (·.word = w) := by
  intro c hc
  obtain ⟨t, d, h, behind⟩ := advance c hc
  refine ⟨t, d, ?_, behind⟩
  unfold Parse.expect expectOr
  rw [if_pos (Cursor.current_kind hc)]
  exact h

theorem freshId : Reads Parse.freshId ws ws fun _ => True :=
  of_stays fun c _ => ⟨c.nextId, {c with nextId := c.nextId + 1}, rfl, rfl, trivial⟩

theorem position : Reads Parse.position ws ws fun _ => True :=
  of_stays fun c _ => ⟨c.position, c, rfl, rfl, trivial⟩

theorem spanFrom (start : Position) : Reads (Parse.spanFrom start) ws ws fun _ => True :=
  of_stays fun c _ => ⟨c.spanFrom start, c, rfl, rfl, trivial⟩

theorem budget : Reads Parse.budget ws ws (· = ws.length + 1) := by
  refine of_stays fun c hc => ⟨c.ahead.length + 1, c, rfl, rfl, ?_⟩
  rw [← hc, Cursor.words, List.length_map]

end Reads

end

end Parse

end Typesheet
