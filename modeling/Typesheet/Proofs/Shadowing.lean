import Mathlib.Data.List.Infix
import Typesheet.Proofs.Scoping

/-! What a name stands for while bodies are opened and closed.

Between opening a body and closing it again other bodies are opened and closed in it, names are
bound, some of them again and some in several bodies, and names are looked up, in any order
(`Scopes.Bracketed`). What a name then stands for is a matter of the acts alone: it was bound to
it last in the innermost body that is still open and binds it (`Scopes.StandsFor`). The scopes
have no memory of the acts, they keep a frame for every open body.

The acts that have left some frames behind are cut in front of each body that is still open, and
in between all that was opened is closed again (`Scopes.Leaves`). One act more keeps to that as
long as it does not close the first body (`Scopes.Leaves.perform`), so a run keeps to it too,
and closing the first body gives back the scopes in front of it (`Scopes.run_bracketed`). -/
namespace Typesheet.Scopes

variable {α : Type}

/-! ### Acts -/

/-- What is done to scopes. -/
inductive Act (α : Type) where
  | push
  | define (name : String) (value : α)
  | find (name : String)
  | pop
deriving DecidableEq, Repr

/-- What comes back from an act. -/
inductive Reply (α : Type) where
  | done
  | found (value : Option α)
  | closed (frame : Frame α)
deriving DecidableEq, Repr

/-- The reply to an act, and the scopes behind it. -/
def Act.perform (s : Scopes α) : Act α → Except Error (Reply α × Scopes α)
  | push => .ok (.done, s.push)
  | define name value => do return (.done, ← s.define name value)
  | find name => .ok (.found (s.find? name), s)
  | pop => do
    let (frame, t) ← s.pop
    return (.closed frame, t)

/-- The replies to acts, one after the other, and the scopes behind them. -/
def run (s : Scopes α) : List (Act α) → Except Error (List (Reply α) × Scopes α)
  | [] => .ok ([], s)
  | act :: acts => do
    let (reply, t) ← act.perform s
    let (replies, u) ← run t acts
    return (reply :: replies, u)

theorem run_cons_ok_iff {s u : Scopes α} {act : Act α} {acts : List (Act α)}
    {replies : List (Reply α)} :
    s.run (act :: acts) = .ok (replies, u) ↔ ∃ reply t more, act.perform s = .ok (reply, t) ∧
      t.run acts = .ok (more, u) ∧ replies = reply :: more := by
  constructor
  · intro h
    obtain ⟨⟨reply, t⟩, performed, h⟩ := bind_eq_ok_iff.1 h
    obtain ⟨⟨more, v⟩, ran, h⟩ := bind_eq_ok_iff.1 h
    cases h
    exact ⟨reply, t, more, performed, ran, rfl⟩
  · rintro ⟨reply, t, more, performed, ran, rfl⟩
    exact bind_eq_ok_iff.2 ⟨(reply, t), performed, bind_eq_ok_iff.2 ⟨(more, u), ran, rfl⟩⟩

theorem run_append_ok_iff {s u : Scopes α} {first second : List (Act α)}
    {replies : List (Reply α)} :
    s.run (first ++ second) = .ok (replies, u) ↔ ∃ told t more, s.run first = .ok (told, t) ∧
      t.run second = .ok (more, u) ∧ replies = told ++ more := by
  induction first generalizing s replies with
  | nil => simp [run]
  | cons act acts ih =>
    simp only [List.cons_append, run_cons_ok_iff, ih]
    constructor
    · rintro ⟨reply, t, _, performed, ⟨told, v, more, ran, later, rfl⟩, rfl⟩
      exact ⟨_, v, more, ⟨reply, t, told, performed, ran, rfl⟩, later, rfl⟩
    · rintro ⟨_, v, more, ⟨reply, t, told, performed, ran, rfl⟩, later, rfl⟩
      exact ⟨reply, t, _, performed, ⟨told, v, more, ran, later, rfl⟩, rfl⟩

theorem length_of_run {s t : Scopes α} {acts : List (Act α)} {replies : List (Reply α)}
    (h : s.run acts = .ok (replies, t)) : replies.length = acts.length := by
  induction acts generalizing s replies with
  | nil =>
    cases h
    rfl
  | cons act acts ih =>
    obtain ⟨_, _, _, _, ran, rfl⟩ := run_cons_ok_iff.1 h
    rw [List.length_cons, List.length_cons, ih ran]

/-! ### Bodies opened and closed -/

/-- How many bodies an act opens. -/
def Act.rise : Act α → Int
  | push => 1
  | pop => -1
  | _ => 0

/-- How many more bodies acts open than they close. -/
def height : List (Act α) → Int
  | [] => 0
  | act :: acts => act.rise + height acts

@[simp] theorem height_nil : height ([] : List (Act α)) = 0 := rfl

@[simp] theorem height_cons (act : Act α) (acts : List (Act α)) :
    height (act :: acts) = act.rise + height acts := rfl

@[simp] theorem height_append (first second : List (Act α)) :
    height (first ++ second) = height first + height second := by
  induction first with
  | nil => rw [List.nil_append, height_nil, Int.zero_add]
  | cons act acts ih => rw [List.cons_append, height_cons, height_cons, ih, Int.add_assoc]

/-- The body that acts take place in stays open: they close only bodies that they have
opened. -/
def StaysOpen (acts : List (Act α)) : Prop := ∀ front, front <+: acts → 0 ≤ height front

/-- Acts close the bodies that they open, all of them and no others. -/
structure Level (acts : List (Act α)) : Prop where
  stays : StaysOpen acts
  height : height acts = 0

instance (acts : List (Act α)) : Decidable (StaysOpen acts) :=
  decidable_of_iff (∀ front ∈ acts.inits, 0 ≤ height front)
    (forall_congr' fun front => imp_congr_left (List.mem_inits front acts))

instance (acts : List (Act α)) : Decidable (Level acts) :=
  decidable_of_iff (StaysOpen acts ∧ height acts = 0) ⟨fun h => ⟨h.1, h.2⟩, fun h => ⟨h.1, h.2⟩⟩

/-- The first of the acts opens a body, and the last of them is the one that closes it. -/
def Bracketed (acts : List (Act α)) : Prop :=
  ∃ inner, acts = .push :: (inner ++ [.pop]) ∧ Level inner

/-- Where a list is cut at an element, the cut lies in one or the other of its parts. -/
theorem append_eq_append_cons_iff {β : Type} {first second before later : List β} {x : β} :
    first ++ second = before ++ x :: later ↔
      (∃ rest, first = before ++ x :: rest ∧ later = rest ++ second) ∨
        ∃ more, before = first ++ more ∧ second = more ++ x :: later := by
  rw [List.append_eq_append_iff]
  constructor
  · rintro (⟨more, rfl, rfl⟩ | ⟨rest, rfl, split⟩)
    · exact .inr ⟨more, rfl, rfl⟩
    · cases rest with
      | nil => exact .inr ⟨[], by simp, split.symm⟩
      | cons y rest =>
        obtain ⟨rfl, rfl⟩ := List.cons.inj split
        exact .inl ⟨rest, rfl, rfl⟩
  · rintro (⟨rest, rfl, rfl⟩ | ⟨more, rfl, rfl⟩)
    · exact .inr ⟨x :: rest, rfl, rfl⟩
    · exact .inl ⟨more, rfl, rfl⟩

namespace StaysOpen
variable {first second : List (Act α)}

theorem front (h : StaysOpen (first ++ second)) : StaysOpen first :=
  fun front among => h front (among.trans (List.prefix_append first second))

theorem height_nonneg (h : StaysOpen first) : 0 ≤ height first := h first List.prefix_rfl

theorem append (hf : StaysOpen first) (hs : StaysOpen second) : StaysOpen (first ++ second) := by
  intro front among
  obtain within | ⟨more, rfl⟩ :=
    List.prefix_or_prefix_of_prefix among (List.prefix_append first second)
  · exact hf front within
  · have within := hs more ((List.prefix_append_right_inj first).1 among)
    have before := hf.height_nonneg
    rw [height_append]
    omega

theorem push (h : StaysOpen first) : StaysOpen (.push :: first) := by
  intro front among
  obtain rfl | ⟨more, rfl, within⟩ := List.prefix_cons_iff.1 among
  · exact Int.le_refl 0
  · have within := h more within
    rw [height_cons, Act.rise]
    omega

end StaysOpen

namespace Level
variable {first second : List (Act α)}

theorem nil : Level ([] : List (Act α)) :=
  ⟨fun _ among => (List.prefix_nil.1 among ▸ Int.le_refl 0), rfl⟩

theorem append (hf : Level first) (hs : Level second) : Level (first ++ second) where
  stays := hf.stays.append hs.stays
  height := by rw [height_append, hf.height, hs.height, Int.add_zero]

/-- An act that opens and closes nothing. -/
theorem single {act : Act α} (h : act.rise = 0) : Level [act] where
  stays := by
    intro front among
    obtain rfl | ⟨more, rfl, within⟩ := List.prefix_cons_iff.1 among
    · exact Int.le_refl 0
    · rw [List.prefix_nil.1 within, height_cons, h, height_nil]
      exact Int.le_refl 0
  height := by rw [height_cons, h, height_nil, Int.add_zero]

/-- A body that is closed again. -/
theorem body (h : Level first) : Level (.push :: (first ++ [.pop])) where
  stays := by
    intro front among
    rw [← List.cons_append] at among
    obtain rfl | within := List.prefix_concat_iff.1 among
    · simp [Act.rise, h.height]
    · exact h.stays.push front within
  height := by simp [Act.rise, h.height]

end Level

/-! ### What a name stands for -/

/-- In the course of these acts a body was opened that is still open, and these of them have
taken place since. -/
def Since (acts own : List (Act α)) : Prop := ∃ past, acts = past ++ .push :: own ∧ StaysOpen own

/-- Of the acts since a body was opened, the one right behind these binds a name, in the body
itself and not in one opened inside it. -/
def BindsAt (own before : List (Act α)) (name : String) (value : α) : Prop :=
  Level before ∧ ∃ later, own = before ++ .define name value :: later

/-- A body binds a name. -/
def Binds (own : List (Act α)) (name : String) : Prop :=
  ∃ before value, BindsAt own before name value

/-- The value that a body binds a name to last. -/
def BindsLast (own : List (Act α)) (name : String) (value : α) : Prop :=
  ∃ before, BindsAt own before name value ∧
    ∀ other v, BindsAt own other name v → other.length ≤ before.length

/-- Behind these acts a name stands for what the innermost open body that binds it has bound it
to last, or else for what it stood for in front of them. -/
inductive StandsFor (acts : List (Act α)) (name : String) (outer : Option α) :
    Option α → Prop
  | bound {own : List (Act α)} {value : α} (isOpen : Since acts own)
      (last : BindsLast own name value) (innermost : ∀ inner, Since own inner → ¬Binds inner name) :
      StandsFor acts name outer (some value)
  | outside (unbound : ∀ own, Since acts own → ¬Binds own name) : StandsFor acts name outer outer

section
variable {own inner last before : List (Act α)} {name : String} {value : α}

theorem Level.not_since (h : Level own) : ¬Since own inner := by
  rintro ⟨past, rfl, stays⟩
  have front := h.stays.front.height_nonneg
  have since := stays.height_nonneg
  have all := h.height
  rw [height_append, height_cons, Act.rise] at all
  omega

/-- Where no body is open, a name stands for what it stood for in front. -/
theorem Level.standsFor_iff (h : Level own) {outer answer : Option α} :
    StandsFor own name outer answer ↔ outer = answer := by
  constructor
  · rintro (⟨opened, -, -⟩ | -)
    · exact absurd opened h.not_since
    · rfl
  · rintro rfl
    exact .outside fun inner opened => absurd opened h.not_since

/-- The bodies that are open inside a body opened last are those around it, and itself. -/
theorem since_push_iff {past since : List (Act α)} (h : Level own) :
    Since (past ++ .push :: own) since ↔
      since = own ∨ ∃ outer, Since past outer ∧ since = outer ++ .push :: own := by
  constructor
  · rintro ⟨front, cut, stays⟩
    obtain ⟨rest, rfl, rfl⟩ | ⟨more, rfl, behind⟩ := append_eq_append_cons_iff.1 cut
    · exact .inr ⟨rest, ⟨front, rfl, stays.front⟩, rfl⟩
    · cases more with
      | nil => exact .inl (List.cons.inj behind).2.symm
      | cons _ more => exact absurd ⟨more, (List.cons.inj behind).2, stays⟩ h.not_since
  · rintro (rfl | ⟨outer, ⟨front, rfl, stays⟩, rfl⟩)
    · exact ⟨past, rfl, h.stays⟩
    · exact ⟨front, by simp, stays.append h.stays.push⟩

/-- What is bound in a body inside it is not bound in the body itself. -/
theorem bindsAt_push_iff (stays : StaysOpen own) (within : StaysOpen inner)
    (others : ∀ n v, Act.define n v ∉ last) :
    BindsAt (own ++ .push :: (inner ++ last)) before name value ↔
      BindsAt own before name value := by
  constructor
  · rintro ⟨level, later, cut⟩
    obtain ⟨rest, rfl, -⟩ | ⟨more, rfl, behind⟩ := append_eq_append_cons_iff.1 cut
    · exact ⟨level, rest, rfl⟩
    · obtain ⟨-, first⟩ | ⟨more, rfl, inside⟩ := List.append_eq_cons_iff.1 behind.symm
      · cases (List.cons.inj first).1
      · obtain ⟨rest, rfl, -⟩ | ⟨_, rfl, rfl⟩ := append_eq_append_cons_iff.1 inside
        · -- The body inside is still open, so the acts in front are not level.
          have front := stays.height_nonneg
          have inside := within.front.height_nonneg
          have all := level.height
          rw [height_append, height_cons, Act.rise] at all
          omega
        · exact absurd (by simp) (others name value)
  · rintro ⟨level, later, rfl⟩
    exact ⟨level, _, by rw [List.append_assoc, List.cons_append]⟩

theorem bindsAt_concat_iff {act : Act α} :
    BindsAt (own ++ [act]) before name value ↔
      BindsAt own before name value ∨ Level own ∧ before = own ∧ act = .define name value := by
  constructor
  · rintro ⟨level, later, cut⟩
    obtain ⟨rest, rfl, -⟩ | ⟨more, rfl, behind⟩ := append_eq_append_cons_iff.1 cut
    · exact .inl ⟨level, rest, rfl⟩
    · cases more with
      | nil =>
        rw [List.append_nil] at level ⊢
        exact .inr ⟨level, rfl, (List.cons.inj behind).1⟩
      | cons _ more => simp at behind
  · rintro (⟨level, later, rfl⟩ | ⟨level, rfl, rfl⟩)
    · exact ⟨level, _, by rw [List.append_assoc, List.cons_append]⟩
    · exact ⟨level, [], rfl⟩

end

section
variable {own past : List (Act α)} {name : String}

theorem BindsLast.unique {v w : α} (hv : BindsLast own name v) (hw : BindsLast own name w) :
    v = w := by
  obtain ⟨before, ⟨level, later, rfl⟩, latest⟩ := hv
  obtain ⟨other, ⟨level', later', same⟩, latest'⟩ := hw
  have le := latest other w ⟨level', later', same⟩
  have ge := latest' before v ⟨level, later, rfl⟩
  obtain ⟨rfl, act⟩ := List.append_inj same (Nat.le_antisymm ge le)
  cases (List.cons.inj act).1
  rfl

/-- What a body binds a name to now, it binds it to last. -/
theorem bindsLast_define (level : Level own) (value : α) :
    BindsLast (own ++ [.define name value]) name value := by
  refine ⟨own, bindsAt_concat_iff.2 (.inr ⟨level, rfl, rfl⟩), fun before v binds => ?_⟩
  obtain ⟨-, later, rfl⟩ | ⟨-, rfl, -⟩ := bindsAt_concat_iff.1 binds
  · simp
  · exact Nat.le_refl _

theorem BindsLast.binds {value : α} (h : BindsLast own name value) : Binds own name :=
  h.imp fun _ here => ⟨value, here.1⟩

theorem Since.stays (h : Since past own) : StaysOpen own := by
  obtain ⟨_, _, stays⟩ := h
  exact stays

section
variable {around : List (Act α)} (stays : StaysOpen around) (level : Level own)
include stays level

/-- What an open body binds is not changed by a body opened in it. -/
theorem bindsAt_around_iff {before : List (Act α)} {value : α} :
    BindsAt (around ++ .push :: own) before name value ↔ BindsAt around before name value := by
  have none : ∀ n v, Act.define n v ∉ ([] : List (Act α)) := fun _ _ => List.not_mem_nil
  simpa using bindsAt_push_iff stays level.stays none

theorem binds_around_iff : Binds (around ++ .push :: own) name ↔ Binds around name := by
  simp only [Binds, bindsAt_around_iff stays level]

theorem bindsLast_around_iff {value : α} :
    BindsLast (around ++ .push :: own) name value ↔ BindsLast around name value := by
  simp only [BindsLast, bindsAt_around_iff stays level]

end

/-- A body stays open while another is opened in it. -/
theorem Since.around {around : List (Act α)} (h : Since past around) (level : Level own) :
    Since (past ++ .push :: own) (around ++ .push :: own) :=
  (since_push_iff level).2 (.inr ⟨around, h, rfl⟩)

/-- A name stands for what the body opened last binds it to. -/
theorem standsFor_push_of_bindsLast (level : Level own) {value : α}
    (last : BindsLast own name value) {outer answer : Option α} :
    StandsFor (past ++ .push :: own) name outer answer ↔ answer = some value := by
  have isOpen : Since (past ++ .push :: own) own := (since_push_iff level).2 (.inl rfl)
  constructor
  · rintro (⟨opened, other, innermost⟩ | unbound)
    · obtain rfl | ⟨around, -, rfl⟩ := (since_push_iff level).1 opened
      · rw [other.unique last]
      · exact absurd last.binds (innermost own ⟨around, rfl, level.stays⟩)
    · exact absurd last.binds (unbound own isOpen)
  · rintro rfl
    exact .bound isOpen last fun inner opened => absurd opened level.not_since

/-- A name stands for what it stood for around the body opened last, unless that binds it. -/
theorem standsFor_push_of_not_binds (level : Level own) (unbound : ¬Binds own name)
    {outer answer : Option α} :
    StandsFor (past ++ .push :: own) name outer answer ↔ StandsFor past name outer answer := by
  constructor
  · rintro (⟨opened, last, innermost⟩ | nowhere)
    · obtain rfl | ⟨around, before, rfl⟩ := (since_push_iff level).1 opened
      · exact absurd last.binds unbound
      · refine .bound before ((bindsLast_around_iff before.stays level).1 last) fun inner within => ?_
        rw [← binds_around_iff within.stays level]
        exact innermost _ (within.around level)
    · refine .outside fun around opened => ?_
      rw [← binds_around_iff opened.stays level]
      exact nowhere _ (opened.around level)
  · rintro (⟨opened, last, innermost⟩ | nowhere)
    · refine .bound (opened.around level) ((bindsLast_around_iff opened.stays level).2 last)
        fun inner within => ?_
      obtain rfl | ⟨deeper, before, rfl⟩ := (since_push_iff level).1 within
      · exact unbound
      · rw [binds_around_iff before.stays level]
        exact innermost deeper before
    · refine .outside fun inner opened => ?_
      obtain rfl | ⟨around, before, rfl⟩ := (since_push_iff level).1 opened
      · exact unbound
      · rw [binds_around_iff before.stays level]
        exact nowhere around before

end

/-! ### The frames behind acts -/

/-- The frame of a body has what the body binds. -/
structure Holds (f : Frame α) (own : List (Act α)) : Prop where
  level : Level own
  some : ∀ name value, f.find? name = some value ↔ BindsLast own name value
  none : ∀ name, f.find? name = none ↔ ¬Binds own name

namespace Holds
variable {f : Frame α} {own : List (Act α)}

theorem empty : Holds (.empty : Frame α) [] := by
  have unbound : ∀ before name (value : α), ¬BindsAt [] before name value := by
    rintro before name value ⟨-, later, split⟩
    simp at split
  exact ⟨.nil, fun name value => ⟨nofun, fun ⟨before, binds, _⟩ => absurd binds (unbound _ _ _)⟩,
    fun name => ⟨fun _ ⟨before, value, binds⟩ => unbound _ _ _ binds, fun _ => rfl⟩⟩

/-- Acts that bind nothing in the body itself leave its frame as it is. -/
theorem still (h : Holds f own) {more : List (Act α)} (level : Level more)
    (same : ∀ before name value,
      BindsAt (own ++ more) before name value ↔ BindsAt own before name value) :
    Holds f (own ++ more) where
  level := h.level.append level
  some := by
    unfold BindsLast
    simp only [same]
    exact h.some
  none := by
    unfold Binds
    simp only [same]
    exact h.none

theorem find (h : Holds f own) (name : String) : Holds f (own ++ [.find name]) :=
  h.still (.single rfl) fun _ _ _ => by simp [bindsAt_concat_iff]

theorem body (h : Holds f own) {inner : List (Act α)} (level : Level inner) :
    Holds f (own ++ .push :: (inner ++ [.pop])) :=
  h.still level.body fun _ _ _ => bindsAt_push_iff h.level.stays level.stays (by simp)

theorem define (h : Holds f own) (name : String) (value : α) :
    Holds (f.define name value) (own ++ [.define name value]) where
  level := h.level.append (.single rfl)
  some := by
    intro other v
    rw [Frame.find?_define]
    by_cases same : other = name
    · subst same
      have last : BindsLast (own ++ [.define other value]) other value :=
        bindsLast_define h.level value
      rw [if_pos rfl]
      constructor
      · rintro ⟨⟩
        exact last
      · intro others
        rw [others.unique last]
    · rw [if_neg same, h.some]
      simp [BindsLast, bindsAt_concat_iff, Ne.symm same]
  none := by
    intro other
    rw [Frame.find?_define]
    by_cases same : other = name
    · subst same
      rw [if_pos rfl]
      exact ⟨nofun, fun unbound => absurd (bindsLast_define h.level value).binds unbound⟩
    · rw [if_neg same, h.none]
      simp [Binds, bindsAt_concat_iff, Ne.symm same]

end Holds

/-- These acts leave these frames behind: one for every body that is still open, innermost
first, with what that body binds. -/
inductive Leaves : List (Act α) → List (Frame α) → Prop
  | none : Leaves [] []
  | body {past own : List (Act α)} {f : Frame α} {fs : List (Frame α)} (outer : Leaves past fs)
      (holds : Holds f own) : Leaves (past ++ .push :: own) (f :: fs)

namespace Leaves
variable {past : List (Act α)} {fs : List (Frame α)}

theorem height_eq (h : Leaves past fs) : height past = fs.length := by
  induction h with
  | none => rfl
  | body outer holds ih =>
    rw [height_append, height_cons, Act.rise, ih, holds.level.height, List.length_cons]
    omega

/-- Names stand for what the frames say. -/
theorem standsFor_iff (h : Leaves past fs) {name : String} {outer answer : Option α} :
    StandsFor past name outer answer ↔ (fs.findSome? (·.find? name)).or outer = answer := by
  induction h generalizing answer with
  | none => exact Level.nil.standsFor_iff
  | @body past own f fs outside holds ih =>
    rw [List.findSome?_cons]
    cases here : f.find? name with
    | some value =>
      have last := (holds.some name value).1 here
      rw [standsFor_push_of_bindsLast holds.level last, eq_comm]
      rfl
    | none =>
      rw [standsFor_push_of_not_binds holds.level ((holds.none name).1 here), ih]

/-- Acts in the body opened last. -/
theorem further {own more : List (Act α)} {f : Frame α} (outer : Leaves past fs)
    (holds : Holds f (own ++ more)) : Leaves (past ++ .push :: own ++ more) (f :: fs) := by
  rw [List.append_assoc, List.cons_append]
  exact outer.body holds

/-- One act more, as long as the body opened first stays open. -/
theorem perform (h : Leaves past fs) (s : Scopes α) (act : Act α)
    (stays : 0 < height (past ++ [act])) :
    ∃ reply gs, act.perform ⟨fs ++ s.frames⟩ = .ok (reply, ⟨gs ++ s.frames⟩) ∧
      Leaves (past ++ [act]) gs := by
  cases act with
  | push => exact ⟨.done, _, rfl, h.body .empty⟩
  | define name value =>
    cases h with
    | none => exact absurd stays (Int.lt_irrefl 0)
    | @body _ _ f fs outer holds =>
      exact ⟨.done, f.define name value :: fs, rfl, outer.further (holds.define name value)⟩
  | find name =>
    cases h with
    | none => exact absurd stays (Int.lt_irrefl 0)
    | body outer holds => exact ⟨_, _, rfl, outer.further (holds.find name)⟩
  | pop =>
    cases h with
    | none => exact absurd stays (Int.not_lt_of_ge (Int.neg_nonpos_of_nonneg Int.one_nonneg))
    | body outer holds =>
      cases outer with
      | none => simp [Act.rise, holds.level.height] at stays
      | body outermost around =>
        refine ⟨.closed _, _, rfl, ?_⟩
        rw [List.append_assoc]
        exact outermost.further (around.body holds.level)

/-- Many acts more, as long as the body opened first stays open. -/
theorem run (h : Leaves past fs) (s : Scopes α) {acts : List (Act α)}
    (stays : ∀ front, front ≠ [] → front <+: acts → 0 < height (past ++ front)) :
    ∃ replies gs, run ⟨fs ++ s.frames⟩ acts = .ok (replies, ⟨gs ++ s.frames⟩) ∧
      Leaves (past ++ acts) gs := by
  induction acts generalizing past fs with
  | nil => exact ⟨[], fs, rfl, by rwa [List.append_nil]⟩
  | cons act acts ih =>
    obtain ⟨reply, gs, performed, next⟩ :=
      h.perform s act (stays [act] (List.cons_ne_nil _ _) (by simp))
    obtain ⟨replies, ks, ran, last⟩ := ih next fun front _ among => by
      rw [List.append_assoc, List.singleton_append]
      exact stays (act :: front) (List.cons_ne_nil _ _) ((List.prefix_cons_inj act).2 among)
    rw [List.append_assoc, List.singleton_append] at last
    exact ⟨reply :: replies, ks, run_cons_ok_iff.2 ⟨_, _, _, performed, ran, rfl⟩, last⟩

end Leaves

/-! ### Main result -/

/-- From opening a body on, as long as it is not closed, the scopes in front of it stay below the
frames of the bodies that are open. -/
theorem exists_leaves (s : Scopes α) {inner acts : List (Act α)} (h : StaysOpen inner)
    (among : acts <+: .push :: inner) :
    ∃ replies fs, s.run acts = .ok (replies, ⟨fs ++ s.frames⟩) ∧ Leaves acts fs := by
  refine Leaves.none.run s fun front some before => ?_
  obtain rfl | ⟨more, rfl, within⟩ := List.prefix_cons_iff.1 (before.trans among)
  · exact absurd rfl some
  · have within := h more within
    rw [List.nil_append, height_cons, Act.rise]
    omega

/-- Opening a body and closing it again, with whatever is done in between. -/
theorem exists_run_bracketed (s : Scopes α) {acts : List (Act α)} (h : Bracketed acts) :
    ∃ replies, s.run acts = .ok (replies, s) := by
  obtain ⟨inner, rfl, level⟩ := h
  obtain ⟨replies, fs, ran, leaves⟩ := exists_leaves s level.stays List.prefix_rfl
  have single := leaves.height_eq
  rw [height_cons, Act.rise, level.height] at single
  obtain ⟨f, rfl⟩ : ∃ f, fs = [f] := List.length_eq_one_iff.1 (by omega)
  exact ⟨_, run_append_ok_iff.2 ⟨_, _, [.closed f], ran, rfl, rfl⟩⟩

/-- At every moment between opening a body and having closed it again, names stand for what the
acts up to that moment say. -/
theorem standsFor_iff_of_bracketed (s : Scopes α) {acts past : List (Act α)} (h : Bracketed acts)
    (among : past <+: acts) : ∃ replies t, s.run past = .ok (replies, t) ∧
      ∀ name answer, StandsFor past name (s.find? name) answer ↔ t.find? name = answer := by
  obtain ⟨replies, ran⟩ := exists_run_bracketed s h
  obtain ⟨inner, rfl, level⟩ := h
  rw [← List.cons_append] at among
  obtain rfl | among := List.prefix_concat_iff.1 among
  · exact ⟨replies, s, ran, fun _ _ => level.body.standsFor_iff⟩
  · obtain ⟨replies, fs, ran, leaves⟩ := exists_leaves s level.stays among
    refine ⟨replies, _, ran, fun name answer => ?_⟩
    rw [leaves.standsFor_iff, find?, find?, List.findSome?_append]

/-- **Bodies that are opened and closed again leave no trace, and while they are open they shadow
what is around them.** No act between opening a body and closing it fails, and behind them the
scopes are those in front. At every moment, a name stands for what the innermost open body that
binds it has bound it to last, or for what it stood for in front of them all, and so a search
for it says. -/
theorem run_bracketed (s : Scopes α) {acts : List (Act α)} (h : Bracketed acts) :
    ∃ replies, s.run acts = .ok (replies, s) ∧
      ∀ past later, acts = past ++ later → ∃ t,
        s.run past = .ok (replies.take past.length, t) ∧
        (∀ name answer, StandsFor past name (s.find? name) answer ↔ t.find? name = answer) ∧
        ∀ name rest, later = .find name :: rest →
          replies[past.length]? = some (.found (t.find? name)) := by
  obtain ⟨replies, ran⟩ := exists_run_bracketed s h
  refine ⟨replies, ran, fun past later split => ?_⟩
  obtain ⟨told, t, ranPast, stands⟩ := standsFor_iff_of_bracketed s h ⟨later, split.symm⟩
  rw [split, run_append_ok_iff] at ran
  obtain ⟨_, _, more, again, ranLater, rfl⟩ := ran
  cases ranPast.symm.trans again
  have told_length := length_of_run ranPast
  refine ⟨t, ?_, stands, ?_⟩
  · rw [← told_length, List.take_left]
    exact ranPast
  · rintro name rest rfl
    obtain ⟨_, _, others, found, -, rfl⟩ := run_cons_ok_iff.1 ranLater
    cases found
    rw [← told_length, List.getElem?_append_right (Nat.le_refl _), Nat.sub_self,
      List.getElem?_cons_zero]

/-- A width and nothing else. -/
def widths : Scopes Int := ⟨[⟨[("Width", 10)]⟩]⟩

/-- In a body the width is bound anew, and twice more in a body inside it. -/
def rebinding : List (Act Int) :=
  [.push, .define "Width" 20, .push, .find "Width", .define "Width" 30, .define "Width" 40,
    .find "Width", .pop, .find "Width", .find "Height", .pop]

/-- A body sees the width around it until it binds it itself, and the last binding counts; when
it is closed the width around it is as it was. -/
theorem run_bracketed_rebinding :
    Bracketed rebinding ∧
    widths.run rebinding = .ok ([.done, .done, .done, .found (some 20), .done, .done,
      .found (some 40), .closed ⟨[("Width", 40)]⟩, .found (some 20), .found none,
      .closed ⟨[("Width", 20)]⟩], widths) ∧
    StandsFor (rebinding.take 3) "Width" (some 10) (some 20) ∧
    StandsFor (rebinding.take 6) "Width" (some 10) (some 40) ∧
    StandsFor (rebinding.take 9) "Height" none none := by
  have bracketed : Bracketed rebinding := ⟨rebinding.tail.dropLast, rfl, by decide⟩
  have told : widths.run rebinding = .ok ([.done, .done, .done, .found (some 20), .done, .done,
      .found (some 40), .closed ⟨[("Width", 40)]⟩, .found (some 20), .found none,
      .closed ⟨[("Width", 20)]⟩], widths) := rfl
  obtain ⟨replies, ran, moments⟩ := run_bracketed widths bracketed
  have searched : ∀ past name rest, rebinding = past ++ .find name :: rest →
      ∃ answer, replies[past.length]? = some (.found answer) ∧
        StandsFor past name (widths.find? name) answer := by
    intro past name rest split
    obtain ⟨t, -, stands, found⟩ := moments past _ split
    exact ⟨t.find? name, found name rest rfl, (stands name _).2 rfl⟩
  cases told.symm.trans ran
  refine ⟨bracketed, told, ?_, ?_, ?_⟩
  · obtain ⟨_, ⟨⟩, stands⟩ := searched (rebinding.take 3) "Width" _ rfl
    exact stands
  · obtain ⟨_, ⟨⟩, stands⟩ := searched (rebinding.take 6) "Width" _ rfl
    exact stands
  · obtain ⟨_, ⟨⟩, stands⟩ := searched (rebinding.take 9) "Height" _ rfl
    exact stands

end Typesheet.Scopes
