import Typesheet.Command.Files
import Typesheet.Proofs.Weakening

/-! A tree of files keeps what is written to it.

Writing to a path puts a file where no directory lies, so every directory stays one and the path
leads where it led before (`Files.read_of_write`). Only a device keeps nothing. -/
namespace Typesheet.Command

namespace Entry

/-- What was put at a place lies there. -/
theorem at?_put (new : Entry) : ∀ (place : Place) (entry : Entry),
    (new.put entry place).at? place = some new
  | [], entry => by cases entry <;> simp [put, at?]
  | name :: place, .directory contents => by simp [put, at?, at?_put new place]
  | name :: place, .file _ | name :: place, .sink => by simp [put, at?, at?_put new place]

theorem lookup_filter_ne {name other : String} (differ : other ≠ name) :
    ∀ contents : List (String × Entry),
      (contents.filter (·.1 ≠ name)).lookup other = contents.lookup other
  | [] => rfl
  | (first, entry) :: contents => by
    have ih := lookup_filter_ne differ contents
    by_cases same : first = name
    · subst same
      have ahead : (other == first) = false := beq_eq_false_iff_ne.2 differ
      simpa [List.lookup_cons, ahead] using ih
    · rw [List.filter_cons_of_pos (by simpa using same), List.lookup_cons, List.lookup_cons, ih]

/-- A directory stays one when something is put where no directory lies. -/
theorem at?_put_directory (new : Entry) : ∀ (place q : Place) {entry : Entry},
    (∀ contents, entry.at? place ≠ some (directory contents)) →
    (∃ contents, entry.at? q = some (directory contents)) →
    ∃ contents, (new.put entry place).at? q = some (directory contents)
  | [], [], entry, free, ⟨contents, h⟩ => by
    exact absurd h (free contents)
  | [], _ :: _, .directory contents, free, _ => absurd rfl (free contents)
  | _ :: _, [], .directory contents, _, _ => ⟨_, by rw [put, at?]⟩
  | _ :: _, [], .file _, _, ⟨_, h⟩ | _ :: _, [], .sink, _, ⟨_, h⟩ => by simp [at?] at h
  | _, _ :: _, .file _, _, ⟨_, h⟩ | _, _ :: _, .sink, _, ⟨_, h⟩ => by simp [at?] at h
  | name :: place, other :: q, .directory contents, free, ⟨below, h⟩ => by
    by_cases same : other = name
    · subst same
      cases found : contents.lookup other with
      | none => simp [at?, found] at h
      | some entry =>
        simp only [at?, found] at h free
        obtain ⟨left, hl⟩ := at?_put_directory new place q free ⟨below, h⟩
        exact ⟨left, by simpa [put, at?, found] using hl⟩
    · refine ⟨below, ?_⟩
      simp only [put, at?, List.lookup_cons, beq_eq_false_iff_ne.2 same, lookup_filter_ne same]
      exact h
end Entry

namespace Files

section
variable {fs other : Files}

theorem lookUp_ok {place : Place} {entry : Option Entry} : fs.lookUp place = .ok entry ↔
    (place.getLast?.any (nameLimit < ·.utf8ByteSize)) = false ∧ fs.root.at? place = entry := by
  unfold lookUp
  split <;> simp_all

theorem enter_ok {place : Place} : fs.enter place = .ok () ↔
    ∃ contents, fs.lookUp place = .ok (some (.directory contents)) := by
  constructor
  · intro h
    obtain ⟨entry, looked, h⟩ := bind_eq_ok_iff.1 h
    cases entry with
    | none => cases h
    | some entry =>
      cases entry with
      | directory contents => exact ⟨contents, looked⟩
      | file => cases h
      | sink => cases h
  · rintro ⟨contents, looked⟩
    exact bind_eq_ok_iff.2 ⟨_, looked, rfl⟩

/-- A directory can still be entered when something is put where no directory lies. -/
theorem enter_put (place : Place) (new : Entry)
    (free : ∀ contents, fs.root.at? place ≠ some (.directory contents)) (q : Place)
    (h : fs.enter q = .ok ()) : (fs.put place new).enter q = .ok () := by
  obtain ⟨contents, looked⟩ := enter_ok.1 h
  obtain ⟨fits, lies⟩ := lookUp_ok.1 looked
  obtain ⟨left, stays⟩ := Entry.at?_put_directory new place q free ⟨contents, lies⟩
  exact enter_ok.2 ⟨left, lookUp_ok.2 ⟨fits, stays⟩⟩

/-- Segments lead to one place in two trees when every directory of one is one of the other. -/
theorem follow_directories
    (stay : ∀ place, fs.enter place = .ok () → other.enter place = .ok ()) :
    ∀ (segments : List String) {place end_ : Place},
      fs.follow place segments = .ok end_ → other.follow place segments = .ok end_
  | [], _, _, h => h
  | _ :: segments, place, _, h => by
    obtain ⟨_, entered, h⟩ := bind_eq_ok_iff.1 h
    exact bind_eq_ok_iff.2 ⟨(), stay place entered, follow_directories stay segments h⟩

theorem follow_append : ∀ (front : List String) (last : String) {place mid : Place},
    fs.follow place front = .ok mid → fs.enter mid = .ok () →
      fs.follow place (front ++ [last]) = .ok (step mid last)
  | [], last, place, mid, h, entered => by
    cases h
    exact bind_eq_ok_iff.2 ⟨(), entered, rfl⟩
  | _ :: front, last, place, mid, h, entered => by
    obtain ⟨_, first, h⟩ := bind_eq_ok_iff.1 h
    exact bind_eq_ok_iff.2 ⟨(), first, follow_append front last h entered⟩

/-- A path that ends in no slash is not cut. -/
theorem dropWhile_reverse {segments : List String} (open_ : segments.getLast? ≠ some "") :
    segments.reverse.dropWhile (· = "") = segments.reverse := by
  cases h : segments.reverse with
  | nil => rfl
  | cons last front =>
    rw [List.getLast?_eq_head?_reverse, h] at open_
    exact List.dropWhile_cons_of_neg (by simpa using open_)

/-- What a path names that does not end in a slash: a name in a directory. -/
theorem target_named {p : Path} {place : Place} (named : fs.target p = .ok (.named place))
    (open_ : p.segments.getLast? ≠ some "") : requireShort p = .ok () ∧
      ∃ front last mid, p.segments = front ++ [last] ∧ fs.follow (fs.origin p) front = .ok mid ∧
        fs.enter mid = .ok () ∧ place = step mid last := by
  obtain ⟨_, short, named⟩ := bind_eq_ok_iff.1 named
  rw [dropWhile_reverse open_] at named
  cases h : p.segments.reverse with
  | nil =>
    rw [h] at named
    cases named
  | cons last front =>
    rw [h] at named
    obtain ⟨mid, reached, named⟩ := bind_eq_ok_iff.1 named
    obtain ⟨_, entered, named⟩ := bind_eq_ok_iff.1 named
    have spelled : p.segments = front.reverse ++ [last] := by
      rw [← List.reverse_reverse p.segments, h, List.reverse_cons]
    refine ⟨short, front.reverse, last, mid, spelled, reached, entered, ?_⟩
    split at named
    · cases named
    · rename_i dots
      cases named
      rw [spelled, List.getLast?_concat] at open_
      obtain ⟨dot, up⟩ := not_or.1 dots
      rw [step, if_neg (not_or.2 ⟨fun slash => open_ (congrArg some slash), dot⟩), if_neg up]

/-- A path leads to what lies at the place that it names. -/
theorem find_of_followed {p : Path} {front : List String} {last : String} {mid : Place}
    {entry : Entry} (short : requireShort p = .ok ()) (spelled : p.segments = front ++ [last])
    (reached : fs.follow (fs.origin p) front = .ok mid) (entered : fs.enter mid = .ok ())
    (found : fs.lookUp (step mid last) = .ok (some entry)) : fs.find p = .ok entry := by
  have whole := follow_append front last reached entered
  rw [← spelled] at whole
  exact bind_eq_ok_iff.2 ⟨(), short, bind_eq_ok_iff.2 ⟨_, whole, bind_eq_ok_iff.2 ⟨_, found, rfl⟩⟩⟩

/-- A written file is read back, unless it is a device that keeps nothing. -/
theorem read_of_write {p : Path} {text : String} (written : fs.write p text = .ok other) :
    other.read p = .ok text.toUTF8 ∨ other = fs ∧ fs.find p = .ok .sink := by
  obtain ⟨target, named, written⟩ := bind_eq_ok_iff.1 written
  cases target with
  | existing => cases written
  | named place =>
    simp only [] at written
    split at written
    · cases written
    rename_i open_
    obtain ⟨entry, looked, written⟩ := bind_eq_ok_iff.1 written
    obtain ⟨short, front, last, mid, spelled, reached, entered, rfl⟩ := target_named named open_
    obtain ⟨fits, lies⟩ := lookUp_ok.1 looked
    split at written
    · cases written
    · cases written
      exact .inr ⟨rfl, find_of_followed short spelled reached entered looked⟩
    · rename_i free _
      cases written
      -- what was a directory is one still, so the path leads where it led
      have stay := enter_put (step mid last) (.file text.toUTF8) fun contents h =>
        free contents (lies.symm.trans h)
      have found : (fs.put (step mid last) (.file text.toUTF8)).find p = _ :=
        find_of_followed short spelled (follow_directories stay _ reached)
          (stay mid entered) (lookUp_ok.2 ⟨fits, Entry.at?_put _ _ _⟩)
      exact .inl (bind_eq_ok_iff.2 ⟨_, found, rfl⟩)

end
end Files
end Typesheet.Command
