/-! Paths of files and directories.

A path is kept as it was written, cut at its slashes, so that it can be shown
again unchanged. Empty segments and single dots stand for nothing, except for a
dot that a relative path begins with. -/
namespace Typesheet.Command

/-- The segments of a path between its slashes. -/
structure Path where
  absolute : Bool
  segments : List String
deriving DecidableEq, Repr, Inhabited

namespace Path

/-- A text cut at its slashes. -/
def cut : List Char → List (List Char)
  | [] => [[]]
  | c :: cs =>
    if c = '/' then [] :: cut cs
    else
      match cut cs with
      | [] => [[c]]
      | segment :: segments => (c :: segment) :: segments

/-- Segments put together with slashes between them. -/
def join : List (List Char) → List Char
  | [] => []
  | [segment] => segment
  | segment :: segments => segment ++ '/' :: join segments

theorem cut_ne_nil (cs : List Char) : cut cs ≠ [] := by
  cases cs with
  | nil => exact List.cons_ne_nil _ _
  | cons c cs =>
    unfold cut
    split
    · exact List.cons_ne_nil _ _
    · split <;> exact List.cons_ne_nil _ _

theorem join_cut (cs : List Char) : join (cut cs) = cs := by
  induction cs with
  | nil => rfl
  | cons c cs ih =>
    unfold cut
    split
    · rename_i hc
      subst hc
      rw [join, ih, List.nil_append]
      exact cut_ne_nil cs
    · split
      · rename_i h
        exact absurd h (cut_ne_nil cs)
      · rename_i segment segments h
        rw [h] at ih
        cases segments with
        | nil => exact congrArg (c :: ·) ih
        | cons _ _ => exact congrArg (c :: ·) ih

/-- The path that a text spells. -/
def ofText (text : String) : Path :=
  match text.toList with
  | [] => ⟨false, []⟩
  | '/' :: cs => ⟨true, (cut cs).map String.ofList⟩
  | cs => ⟨false, (cut cs).map String.ofList⟩

/-- The path as it was written. -/
def text (p : Path) : String :=
  let path := join (p.segments.map String.toList)
  String.ofList (if p.absolute then '/' :: path else path)

theorem text_ofText (text : String) : (ofText text).text = text := by
  have whole (cs : List Char) : join (((cut cs).map String.ofList).map String.toList) = cs := by
    have back : String.toList ∘ String.ofList = id := funext fun _ => String.toList_ofList
    rw [List.map_map, back, List.map_id, join_cut]
  unfold ofText
  split
  · rename_i h
    exact String.toList_inj.1 (by rw [h]; rfl)
  · rename_i cs h
    simp only [Path.text, whole, if_true]
    exact String.toList_inj.1 (by rw [h, String.toList_ofList])
  · rename_i cs _ _
    simp only [Path.text, whole, Bool.false_eq_true, if_false]
    exact String.ofList_toList

/-- The path of the directory that relative paths start from. -/
def isEmpty (p : Path) : Bool := !p.absolute && p.segments.isEmpty

/-- Segments, last one first, without those at the end that stand for nothing. -/
def settled (absolute : Bool) : List String → List String
  | [] => []
  | "" :: segments => settled absolute segments
  | ["."] => if absolute then [] else ["."]
  | "." :: segments => settled absolute segments
  | segments => segments

/-- The path without its last segment that stands for something, if there is one. -/
def parent? (p : Path) : Option Path :=
  match settled p.absolute p.segments.reverse with
  | [] => none
  | _ :: segments => some {p with segments := (settled p.absolute segments).reverse}

/-- The name at the end of the path, unless it ends in dots. -/
def fileName? (p : Path) : Option String :=
  match settled p.absolute p.segments.reverse with
  | [] => none
  | name :: _ => if name = "." ∨ name = ".." then none else some name

/-- The path and every path above it, innermost first, as far as there are
segments to drop. -/
def upwards : Nat → Path → List Path
  | 0, p => [p]
  | n + 1, p =>
    match p.parent? with
    | none => [p]
    | some above => p :: upwards n above

/-- The path and every path above it. -/
def lineage (p : Path) : List Path := p.upwards p.segments.length

end Path

end Typesheet.Command
