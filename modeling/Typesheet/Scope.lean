import Typesheet.Error

/-! Scopes: which variables stand for what.

Each body has a frame of bindings of its own, which disappears when the body
ends. A name stands for what the innermost frame that binds it says. -/
namespace Typesheet

/-- The bindings made in one body, at most one for each name. -/
structure Frame (α : Type) where
  bindings : List (String × α)
deriving DecidableEq, Repr, Inhabited

namespace Frame
variable {α : Type}

def empty : Frame α := ⟨[]⟩

/-- What a name stands for. -/
def find? (f : Frame α) (name : String) : Option α := f.bindings.lookup name

/-- The bindings with one added, or put in the place of the one with its name. -/
def put (name : String) (value : α) : List (String × α) → List (String × α)
  | [] => [(name, value)]
  | (n, v) :: bindings =>
    if n = name then (name, value) :: bindings else (n, v) :: put name value bindings

/-- Binds a name, in place of what it stood for. -/
def define (f : Frame α) (name : String) (value : α) : Frame α :=
  ⟨put name value f.bindings⟩

@[simp] theorem find?_empty (name : String) : (empty : Frame α).find? name = none := rfl

theorem lookup_put (name other : String) (value : α) (bindings : List (String × α)) :
    (put name value bindings).lookup other =
      if other = name then some value else bindings.lookup other := by
  induction bindings with
  | nil =>
    by_cases h : other = name
    · simp [put, h]
    · simp [put, h]
  | cons binding bindings ih =>
    obtain ⟨n, v⟩ := binding
    by_cases hn : n = name
    · by_cases h : other = name
      · simp [put, hn, h]
      · simp [put, hn, h, List.lookup_cons, beq_eq_false_iff_ne.2 h]
    · rw [put, if_neg hn, List.lookup_cons, List.lookup_cons, ih]
      by_cases hother : other = n
      · subst hother
        simp [hn]
      · simp [beq_eq_false_iff_ne.2 hother]

theorem find?_define (f : Frame α) (name other : String) (value : α) :
    (f.define name value).find? other = if other = name then some value else f.find? other :=
  lookup_put name other value f.bindings

end Frame

/-- The frames of the bodies that are open, innermost first. -/
structure Scopes (α : Type) where
  frames : List (Frame α)
deriving DecidableEq, Repr, Inhabited

namespace Scopes
variable {α : Type}

/-- No body is open. -/
def empty : Scopes α := ⟨[]⟩

/-- A frame was asked for when no body is open. -/
def underflow : Error := ⟨.scopeUnderflow, .nowhere⟩

/-- Opens a body. -/
def push (s : Scopes α) : Scopes α := ⟨.empty :: s.frames⟩

/-- Closes the innermost body and gives its bindings. -/
def pop (s : Scopes α) : Except Error (Frame α × Scopes α) :=
  match s.frames with
  | [] => .error underflow
  | f :: fs => .ok (f, ⟨fs⟩)

/-- Binds a name in the innermost body; the bodies around it are untouched. -/
def define (s : Scopes α) (name : String) (value : α) : Except Error (Scopes α) :=
  match s.frames with
  | [] => .error underflow
  | f :: fs => .ok ⟨f.define name value :: fs⟩

/-- What a name stands for. -/
def find? (s : Scopes α) (name : String) : Option α := s.frames.findSome? (·.find? name)

/-- Whether a name stands for anything. -/
def isDefined (s : Scopes α) (name : String) : Bool := (s.find? name).isSome

/-- How many bodies are open. -/
def depth (s : Scopes α) : Nat := s.frames.length

@[simp] theorem pop_push (s : Scopes α) : s.push.pop = .ok (.empty, s) := rfl

@[simp] theorem find?_push (s : Scopes α) (name : String) : s.push.find? name = s.find? name := rfl

theorem find?_define {s t : Scopes α} {name : String} {value : α}
    (h : s.define name value = .ok t) (other : String) :
    t.find? other = if other = name then some value else s.find? other := by
  obtain ⟨frames⟩ := s
  cases frames with
  | nil => cases h
  | cons f fs =>
    cases h
    unfold find?
    rw [List.findSome?_cons, List.findSome?_cons, Frame.find?_define]
    by_cases hn : other = name
    · simp [hn]
    · simp [hn]

end Scopes

end Typesheet
