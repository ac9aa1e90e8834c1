import Mathlib.Logic.Relation
import Typesheet.Proofs.Cascade

/-! Where undefined types come from.

An expression of an undefined type is not reported by what it is used for, because whatever is
wrong with it has been reported already. It was reported in the expression, or in the value of
an assignment that bound a variable in the expression, or in that of an assignment that bound
a variable there, and so on (`Sheet.undefined_reported`).

The scopes of the checker hold types and forget where they come from. So the checker is
followed in scopes that remember (`Binding`): a name is bound by an assignment whose value was
checked in such scopes itself. In each place their types are those that the checker knows
(`bodyViewpoints_inspections`), and whatever is bound in them was checked before
(`bodyViewpoints_ordered`). -/
namespace Typesheet

/-! ### Bindings that remember -/

/-- How a name was bound: by an assignment whose value was checked in some scopes. -/
inductive Binding where
  | mk (assignment : Assignment) (origins : Scopes Binding)

/-- Scopes that remember where their bindings come from. -/
abbrev Origins := Scopes Binding

namespace Binding

/-- The assignment that bound the name. -/
def assignment : Binding → Assignment
  | ⟨a, _⟩ => a

/-- What was bound where the value was checked. -/
def origins : Binding → Origins
  | ⟨_, origins⟩ => origins

mutual

/-- The type that the name is bound to. -/
def type : Binding → ValueType
  | ⟨a, ⟨frames⟩⟩ => a.value.type ⟨typesOfFrames frames⟩

def typesOfFrames : List (Frame Binding) → List (Frame ValueType)
  | [] => []
  | ⟨bindings⟩ :: frames => ⟨typesOf bindings⟩ :: typesOfFrames frames

def typesOf : List (String × Binding) → List (String × ValueType)
  | [] => []
  | (name, b) :: bindings => (name, b.type) :: typesOf bindings

end

end Binding

namespace Origins

/-- The scopes of the checker. -/
def types (s : Origins) : TypeScopes := s.map Binding.type

theorem find?_types (s : Origins) (name : String) :
    s.types.find? name = (s.find? name).map Binding.type := s.find?_map Binding.type name

theorem types_cons (f : Frame Binding) (fs : List (Frame Binding)) :
    types ⟨f :: fs⟩ = ⟨f.map Binding.type :: (types ⟨fs⟩).frames⟩ := rfl

/-- What a name stands for is bound to it in one of the frames. -/
theorem mem_of_find? {s : Origins} {name : String} {b : Binding} (h : s.find? name = some b) :
    ∃ f ∈ s.frames, (name, b) ∈ f.bindings := by
  obtain ⟨f, hf, found⟩ := List.exists_of_findSome?_eq_some h
  obtain ⟨front, back, split, -⟩ := List.lookup_eq_some_iff.1 found
  refine ⟨f, hf, ?_⟩
  rw [split]
  exact List.mem_append_right _ List.mem_cons_self

end Origins

namespace Binding

theorem typesOf_eq (bindings : List (String × Binding)) :
    typesOf bindings = bindings.map fun (name, b) => (name, b.type) := by
  induction bindings with
  | nil => rfl
  | cons binding bindings ih =>
    rw [typesOf, ih]
    rfl

theorem typesOfFrames_eq (frames : List (Frame Binding)) :
    typesOfFrames frames = frames.map (Frame.map type) := by
  induction frames with
  | nil => rfl
  | cons f frames ih =>
    rw [typesOfFrames, ih, typesOf_eq]
    rfl

/-- A name is bound to the type that its value had where it was checked. -/
theorem type_eq (b : Binding) : b.type = b.assignment.value.type b.origins.types := by
  obtain ⟨a, frames⟩ := b
  rw [type, typesOfFrames_eq]
  rfl

/-- Something is known of every binding if it is known of one once it is known of all that
were in force for it. -/
theorem origins_induction {P : Binding → Prop}
    (step : ∀ b, (∀ name earlier, b.origins.find? name = some earlier → P earlier) → P b)
    (b : Binding) : P b := by
  obtain ⟨a, s⟩ := b
  refine step _ fun name earlier found => ?_
  have smaller : sizeOf earlier < sizeOf (Binding.mk a s) := by
    obtain ⟨f, hf, bound⟩ := Origins.mem_of_find? found
    have inFrames := List.sizeOf_lt_of_mem hf
    have inFrame := List.sizeOf_lt_of_mem bound
    obtain ⟨frames⟩ := s
    obtain ⟨bindings⟩ := f
    simp only [origins, Frame.mk.sizeOf_spec, Prod.mk.sizeOf_spec] at inFrames inFrame
    simp only [Binding.mk.sizeOf_spec, Scopes.mk.sizeOf_spec]
    omega
  exact origins_induction step earlier
termination_by sizeOf b
decreasing_by exact smaller

end Binding

/-! ### The places of the checker -/

mutual

/-- The places that the checker comes to in an item, in the scopes that are in force there. -/
def Item.inspections : Item → TypeScopes → List Inspection
  | .declaration d, s => [⟨s, .declaration d⟩]
  | .assignment a, s => [⟨s, .assignment a⟩]
  | .ifClause ⟨id, condition, body, otherwise, span⟩, s =>
    ⟨s, .condition ⟨id, condition, body, otherwise, span⟩⟩ ::
      (bodyInspections body s.push ++
        match otherwise with
        | some ⟨_, other, _⟩ => bodyInspections other (Check.inScope (checkBody body) s).1.push
        | none => [])

/-- The places in the items of a body: each item is checked in the scopes that the check of the
one before leaves behind. -/
def bodyInspections : List Item → TypeScopes → List Inspection
  | [], _ => []
  | item :: items, s => item.inspections s ++ bodyInspections items (item.check s).1

end

/-- The places in a member. -/
def Member.inspections : Member → TypeScopes → List Inspection
  | .assignment a, s => [⟨s, .assignment a⟩]
  | .rule r, s => bodyInspections r.body s.push

/-- The places in members. -/
def membersInspections : List Member → TypeScopes → List Inspection
  | [], _ => []
  | member :: members, s => member.inspections s ++ membersInspections members (member.check s).1

/-- The places in a stylesheet, in the order in which the checker comes by. -/
def Sheet.inspections (sheet : Sheet) : List Inspection :=
  membersInspections sheet.members Scopes.empty.push

theorem Item.inspections_ifClause (clause : IfClause Item) (s : TypeScopes) :
    (Item.ifClause clause).inspections s = ⟨s, .condition clause⟩ ::
      (bodyInspections (clause.branch true) s.push ++
        bodyInspections (clause.branch false) s.push) := by
  obtain ⟨id, condition, body, otherwise, span⟩ := clause
  unfold Item.inspections
  cases otherwise with
  | none => rfl
  | some other => rw [(checkBody_local.2 body).inScope_eq]; rfl

/-! ### The checker in scopes that remember -/

/-- A place that the checker comes to, and how the names were bound that are in force. -/
structure Viewpoint where
  origins : Origins
  site : Site

namespace Viewpoint

/-- The types that the names have there. -/
def scopes (v : Viewpoint) : TypeScopes := v.origins.types

/-- The place, without how the names were bound. -/
def inspection (v : Viewpoint) : Inspection := ⟨v.scopes, v.site⟩

/-- What is found there. -/
def findings (v : Viewpoint) : List Diagnostic := v.inspection.findings

end Viewpoint

/-- The place where the value was checked. -/
def Binding.viewpoint (b : Binding) : Viewpoint := ⟨b.origins, .assignment b.assignment⟩

/-- What is in force behind an assignment. -/
def Assignment.bind (a : Assignment) (s : Origins) : Origins :=
  match s.define a.name ⟨a, s⟩ with
  | .ok t => t
  | .error _ => s

/-- What is in force behind an item. -/
def Item.bind : Item → Origins → Origins
  | .assignment a, s => a.bind s
  | _, s => s

/-- What is in force behind a member. -/
def Member.bind : Member → Origins → Origins
  | .assignment a, s => a.bind s
  | .rule _, s => s

mutual

/-- The places in an item. -/
def Item.viewpoints : Item → Origins → List Viewpoint
  | .declaration d, s => [⟨s, .declaration d⟩]
  | .assignment a, s => [⟨s, .assignment a⟩]
  | .ifClause ⟨id, condition, body, otherwise, span⟩, s =>
    ⟨s, .condition ⟨id, condition, body, otherwise, span⟩⟩ ::
      (bodyViewpoints body s.push ++
        match otherwise with
        | some ⟨_, body, _⟩ => bodyViewpoints body s.push
        | none => [])

/-- The places in the items of a body. -/
def bodyViewpoints : List Item → Origins → List Viewpoint
  | [], _ => []
  | item :: items, s => item.viewpoints s ++ bodyViewpoints items (item.bind s)

end

/-- The places in a member. -/
def Member.viewpoints : Member → Origins → List Viewpoint
  | .assignment a, s => [⟨s, .assignment a⟩]
  | .rule r, s => bodyViewpoints r.body s.push

/-- The places in members. -/
def membersViewpoints : List Member → Origins → List Viewpoint
  | [], _ => []
  | member :: members, s => member.viewpoints s ++ membersViewpoints members (member.bind s)

/-- The places in a stylesheet, in the order in which the checker comes by. -/
def Sheet.viewpoints (sheet : Sheet) : List Viewpoint :=
  membersViewpoints sheet.members Scopes.empty.push

theorem Item.viewpoints_ifClause (clause : IfClause Item) (s : Origins) :
    (Item.ifClause clause).viewpoints s = ⟨s, .condition clause⟩ ::
      (bodyViewpoints (clause.branch true) s.push ++
        bodyViewpoints (clause.branch false) s.push) := by
  obtain ⟨id, condition, body, otherwise, span⟩ := clause
  unfold Item.viewpoints
  cases otherwise <;> rfl

/-! ### These are the places of the checker -/

/-- Every place is come to once, in the order of the nodes. -/
theorem bodyViewpoints_sites :
    (∀ (item : Item) (s : Origins),
      (item.viewpoints s).map Viewpoint.site = item.nodes.filterMap Node.site?) ∧
    ∀ (items : List Item) (s : Origins),
      (bodyViewpoints items s).map Viewpoint.site = (bodyNodes items).filterMap Node.site? := by
  apply Item.body_induction
  case declaration => exact fun d s => d.sites_nodes.symm
  case assignment => exact fun a s => a.sites_nodes.symm
  case ifClause =>
    intro clause ih s
    rw [Item.viewpoints_ifClause, Item.sites_ifClause, List.map_cons, List.map_append, ih, ih]
  case nil => exact fun _ => rfl
  case cons =>
    intro item items front back s
    rw [bodyViewpoints, bodyNodes, List.map_append, List.filterMap_append, front, back]

theorem membersViewpoints_sites (members : List Member) (s : Origins) :
    (membersViewpoints members s).map Viewpoint.site =
      (members.flatMap Member.nodes).filterMap Node.site? := by
  induction members generalizing s with
  | nil => rfl
  | cons member members ih =>
    rw [membersViewpoints, List.map_append, ih, List.flatMap_cons, List.filterMap_append]
    cases member with
    | assignment a => exact congrArg (· ++ _) a.sites_nodes.symm
    | rule r => exact congrArg (· ++ _) (bodyViewpoints_sites.2 r.body s.push)

/-- The check comes by these places and reports what is found there, and behind it the scopes
have the types of what is in force. -/
def Check.Follows (c : Check) (views : Origins → List Viewpoint) (bind : Origins → Origins) :
    Prop :=
  ∀ f fs, c (Origins.types ⟨f :: fs⟩) =
    ((bind ⟨f :: fs⟩).types, (views ⟨f :: fs⟩).flatMap Viewpoint.findings) ∧
      ∃ g, bind ⟨f :: fs⟩ = ⟨g :: fs⟩

theorem Assignment.check_follows (a : Assignment) :
    Check.Follows a.check (fun s => [⟨s, .assignment a⟩]) a.bind := by
  intro f fs
  refine ⟨?_, _, rfl⟩
  have bound : a.bind ⟨f :: fs⟩ = ⟨f.define a.name ⟨a, ⟨f :: fs⟩⟩ :: fs⟩ := rfl
  rw [bound, Origins.types_cons, Origins.types_cons, a.check_eq, Frame.map_define, Binding.type_eq,
    List.flatMap_singleton]
  rfl

/-- What is in force behind the items of a body. -/
def bindBody (items : List Item) (s : Origins) : Origins :=
  items.foldl (fun s item => item.bind s) s

/-- What is in force behind members. -/
def bindMembers (members : List Member) (s : Origins) : Origins :=
  members.foldl (fun s member => member.bind s) s

theorem checkBody_viewpoints :
    (∀ item : Item, Check.Follows item.check item.viewpoints item.bind) ∧
    ∀ items, Check.Follows (checkBody items) (bodyViewpoints items) (bindBody items) := by
  apply Item.body_induction
  case declaration =>
    intro d f fs
    refine ⟨?_, f, rfl⟩
    rw [Item.viewpoints, List.flatMap_singleton]
    rfl
  case assignment => exact Assignment.check_follows
  case ifClause =>
    intro clause ih f fs
    refine ⟨?_, f, rfl⟩
    obtain ⟨whenTrue, -⟩ := ih true .empty (f :: fs)
    obtain ⟨whenFalse, -⟩ := ih false .empty (f :: fs)
    have opened : (Origins.types ⟨f :: fs⟩).push = Origins.types ⟨.empty :: f :: fs⟩ := rfl
    rw [Item.check_ifClause, Item.viewpoints_ifClause, List.flatMap_cons, List.flatMap_append,
      opened, whenTrue, whenFalse]
    rfl
  case nil => exact fun f _ => ⟨rfl, f, rfl⟩
  case cons =>
    intro item items front back f fs
    obtain ⟨first, g, bound⟩ := front f fs
    obtain ⟨rest, whole⟩ := back g fs
    have behind : bindBody (item :: items) ⟨f :: fs⟩ = bindBody items ⟨g :: fs⟩ :=
      congrArg (bindBody items) bound
    rw [checkBody_cons, first, bound, rest, bodyViewpoints, bound, List.flatMap_append, behind]
    exact ⟨rfl, whole⟩

theorem Member.check_follows (member : Member) :
    Check.Follows member.check member.viewpoints member.bind := by
  cases member with
  | assignment a => exact a.check_follows
  | rule r =>
    intro f fs
    obtain ⟨body, -⟩ := checkBody_viewpoints.2 r.body .empty (f :: fs)
    have opened : (Origins.types ⟨f :: fs⟩).push = Origins.types ⟨.empty :: f :: fs⟩ := rfl
    refine ⟨?_, f, rfl⟩
    rw [Member.check, r.check_eq, opened, body]
    rfl

theorem checkMembers_viewpoints (members : List Member) :
    Check.Follows (checkMembers members) (membersViewpoints members) (bindMembers members) := by
  induction members with
  | nil => exact fun f _ => ⟨rfl, f, rfl⟩
  | cons member members ih =>
    intro f fs
    obtain ⟨first, g, bound⟩ := member.check_follows f fs
    obtain ⟨rest, whole⟩ := ih g fs
    have behind : bindMembers (member :: members) ⟨f :: fs⟩ = bindMembers members ⟨g :: fs⟩ :=
      congrArg (bindMembers members) bound
    rw [checkMembers_cons, first, bound, rest, membersViewpoints, bound, List.flatMap_append,
      behind]
    exact ⟨rfl, whole⟩

/-- In each of the places the names have the types that the checker knows there. -/
theorem bodyViewpoints_inspections :
    (∀ (item : Item) (f : Frame Binding) (fs : List (Frame Binding)),
      (item.viewpoints ⟨f :: fs⟩).map Viewpoint.inspection =
        item.inspections (Origins.types ⟨f :: fs⟩)) ∧
    ∀ (items : List Item) (f : Frame Binding) (fs : List (Frame Binding)),
      (bodyViewpoints items ⟨f :: fs⟩).map Viewpoint.inspection =
        bodyInspections items (Origins.types ⟨f :: fs⟩) := by
  apply Item.body_induction
  case declaration => exact fun _ _ _ => rfl
  case assignment => exact fun _ _ _ => rfl
  case ifClause =>
    intro clause ih f fs
    have whenTrue := ih true .empty (f :: fs)
    have whenFalse := ih false .empty (f :: fs)
    rw [Item.viewpoints_ifClause, Item.inspections_ifClause, List.map_cons, List.map_append]
    exact congrArg₂ (fun front back => _ :: (front ++ back)) whenTrue whenFalse
  case nil => exact fun _ _ => rfl
  case cons =>
    intro item items front back f fs
    obtain ⟨first, g, bound⟩ := checkBody_viewpoints.1 item f fs
    rw [bodyViewpoints, bodyInspections, List.map_append, front, first, bound, back]

theorem membersViewpoints_inspections (members : List Member) (f : Frame Binding)
    (fs : List (Frame Binding)) :
    (membersViewpoints members ⟨f :: fs⟩).map Viewpoint.inspection =
      membersInspections members (Origins.types ⟨f :: fs⟩) := by
  induction members generalizing f with
  | nil => rfl
  | cons member members ih =>
    obtain ⟨first, g, bound⟩ := member.check_follows f fs
    have here : (member.viewpoints ⟨f :: fs⟩).map Viewpoint.inspection =
        member.inspections (Origins.types ⟨f :: fs⟩) := by
      cases member with
      | assignment a => rfl
      | rule r => exact bodyViewpoints_inspections.2 r.body .empty (f :: fs)
    rw [membersViewpoints, membersInspections, List.map_append, here, first, bound, ih]

namespace Sheet

theorem viewpoints_inspections (sheet : Sheet) :
    sheet.viewpoints.map Viewpoint.inspection = sheet.inspections :=
  membersViewpoints_inspections sheet.members .empty []

/-- The checker comes once to every place in a stylesheet. -/
theorem inspections_sites (sheet : Sheet) :
    sheet.inspections.map Inspection.site = sheet.nodes.filterMap Node.site? := by
  rw [← viewpoints_inspections, List.map_map]
  exact membersViewpoints_sites sheet.members _

/-- What it finds in a stylesheet is what it finds there, one place after the other. -/
theorem findings_inspections (sheet : Sheet) :
    sheet.findings = sheet.inspections.flatMap Inspection.findings := by
  obtain ⟨follows, -⟩ := checkMembers_viewpoints sheet.members .empty []
  rw [findings_eq, ← viewpoints_inspections, List.flatMap_map]
  exact congrArg Prod.snd follows

end Sheet

/-! ### What is bound was checked before -/

/-- What is bound in the scopes was bound under its name, and checked in one of these places. -/
def Origins.From (s : Origins) (seen : List Viewpoint) : Prop :=
  ∀ f ∈ s.frames, ∀ name b, (name, b) ∈ f.bindings → b.assignment.name = name ∧ b.viewpoint ∈ seen

/-- In each of the places, what is bound was checked in one before. -/
def Ordered : List Viewpoint → List Viewpoint → Prop
  | _, [] => True
  | seen, v :: views => v.origins.From seen ∧ Ordered (seen ++ [v]) views

theorem Frame.mem_put {α : Type} {name other : String} {value v : α}
    {bindings : List (String × α)} (h : (other, v) ∈ put name value bindings) :
    other = name ∧ v = value ∨ (other, v) ∈ bindings := by
  induction bindings with
  | nil =>
    cases List.mem_singleton.1 h
    exact .inl ⟨rfl, rfl⟩
  | cons binding bindings ih =>
    unfold put at h
    split at h
    · obtain h | h := List.mem_cons.1 h
      · cases h
        exact .inl ⟨rfl, rfl⟩
      · exact .inr (List.mem_cons_of_mem _ h)
    · obtain h | h := List.mem_cons.1 h
      · exact .inr (h ▸ List.mem_cons_self)
      · exact (ih h).imp id (List.mem_cons_of_mem _)

namespace Origins.From
variable {s : Origins} {seen more : List Viewpoint}

theorem mono (h : s.From seen) (subset : seen ⊆ more) : s.From more :=
  fun f hf name b bound => (h f hf name b bound).imp id (@subset _)

theorem push (h : s.From seen) : Origins.From s.push seen := by
  intro f hf name b bound
  obtain rfl | hf := List.mem_cons.1 hf
  · cases bound
  · exact h f hf name b bound

theorem find? (h : s.From seen) {name : String} {b : Binding} (found : s.find? name = some b) :
    b.assignment.name = name ∧ b.viewpoint ∈ seen := by
  obtain ⟨f, hf, bound⟩ := mem_of_find? found
  exact h f hf name b bound

/-- Behind an assignment its own place is one of those before. -/
theorem bind (h : s.From seen) (a : Assignment) :
    Origins.From (a.bind s) (seen ++ [⟨s, .assignment a⟩]) := by
  have before := h.mono (List.subset_append_left seen [⟨s, .assignment a⟩])
  obtain ⟨frames⟩ := s
  cases frames with
  | nil => exact before
  | cons f fs =>
    intro g hg name b bound
    obtain rfl | hg := List.mem_cons.1 hg
    · obtain ⟨rfl, rfl⟩ | bound := Frame.mem_put bound
      · exact ⟨rfl, List.mem_append_right _ List.mem_cons_self⟩
      · exact before f List.mem_cons_self name b bound
    · exact before g (List.mem_cons_of_mem _ hg) name b bound

end Origins.From

theorem ordered_append {seen views others : List Viewpoint} :
    Ordered seen (views ++ others) ↔ Ordered seen views ∧ Ordered (seen ++ views) others := by
  induction views generalizing seen with
  | nil => simp [Ordered]
  | cons v views ih => simp [Ordered, ih, and_assoc]

theorem ordered_of_split {seen before behind : List Viewpoint} {v : Viewpoint}
    (h : Ordered seen (before ++ v :: behind)) : v.origins.From (seen ++ before) :=
  (ordered_append.1 h).2.1

/-- **What is bound in a place was checked in one before.** -/
theorem bodyViewpoints_ordered :
    (∀ (item : Item) (s : Origins) (seen : List Viewpoint), s.From seen →
      Ordered seen (item.viewpoints s) ∧ (item.bind s).From (seen ++ item.viewpoints s)) ∧
    ∀ (items : List Item) (s : Origins) (seen : List Viewpoint), s.From seen →
      Ordered seen (bodyViewpoints items s) := by
  apply Item.body_induction
  case declaration =>
    intro d s seen known
    exact ⟨⟨known, trivial⟩, known.mono (List.subset_append_left _ _)⟩
  case assignment =>
    intro a s seen known
    exact ⟨⟨known, trivial⟩, known.bind a⟩
  case ifClause =>
    intro clause ih s seen known
    rw [Item.viewpoints_ifClause]
    have opened := known.mono (List.subset_append_left seen [⟨s, .condition clause⟩])
    refine ⟨⟨known, ordered_append.2 ⟨ih true _ _ opened.push, ih false _ _ ?_⟩⟩,
      known.mono (List.subset_append_left _ _)⟩
    exact (opened.mono (List.subset_append_left _ _)).push
  case nil => exact fun _ _ _ => trivial
  case cons =>
    intro item items front back s seen known
    obtain ⟨first, behind⟩ := front s seen known
    exact ordered_append.2 ⟨first, back _ _ behind⟩

theorem membersViewpoints_ordered (members : List Member) {s : Origins} {seen : List Viewpoint}
    (known : s.From seen) : Ordered seen (membersViewpoints members s) := by
  induction members generalizing s seen with
  | nil => exact trivial
  | cons member members ih =>
    cases member with
    | assignment a => exact ordered_append.2 ⟨⟨known, trivial⟩, ih (known.bind a)⟩
    | rule r =>
      refine ordered_append.2 ⟨bodyViewpoints_ordered.2 r.body _ _ known.push, ih ?_⟩
      exact known.mono (List.subset_append_left _ _)

namespace Sheet
variable {sheet : Sheet} {before behind : List Viewpoint} {v : Viewpoint}

theorem origins_from (split : sheet.viewpoints = before ++ v :: behind) :
    v.origins.From before := by
  have outermost : Origins.From Scopes.empty.push [] := by
    intro f hf name b bound
    cases List.mem_singleton.1 hf
    cases bound
  have ordered := membersViewpoints_ordered sheet.members outermost
  exact ordered_of_split (split ▸ ordered : Ordered [] (before ++ v :: behind))

end Sheet

/-! ### Where an undefined type comes from -/

/-- The result of an operation is undefined because the operation is refused or an operand is
undefined. -/
theorem Operator.undefined_source {op : Operator} {t u : ValueType}
    (h : op.resultType t u = .undefined) :
    (op.complaint t u).isSome = true ∨ t = .undefined ∨ u = .undefined := by
  cases t with
  | undefined => exact .inr (.inl rfl)
  | color => exact .inl rfl
  | bool => exact .inl rfl
  | number d =>
    cases u with
    | undefined => exact .inr (.inr rfl)
    | color => exact .inl rfl
    | bool => exact .inl rfl
    | number e => cases op <;> cases d <;> cases e <;> first | exact .inl rfl | cases h

namespace Expr
variable {e : Expr} {s : TypeScopes}

/-- Something is reported of a node in the expression. -/
def Reported (e : Expr) (s : TypeScopes) : Prop := ∃ x ∈ e.findings s, ∃ n ∈ e.nodes, x.node = n.id

theorem reported_iff : e.Reported s ↔ e.findings s ≠ [] := by
  constructor
  · rintro ⟨x, hx, -⟩
    exact List.ne_nil_of_mem hx
  · intro found
    obtain ⟨x, hx⟩ := List.exists_mem_of_ne_nil _ found
    obtain ⟨o, ho, node, -⟩ := mem_findings hx
    exact ⟨x, hx, .expr o, ho, node⟩

/-- A type is undefined because of something that is reported, or of a variable that is bound
to an undefined type. -/
theorem undefined_source (h : e.type s = .undefined) : e.Reported s ∨
    ∃ id name span, .expr (.reference id name span) ∈ e.nodes ∧
      s.find? name = some .undefined := by
  rw [reported_iff]
  induction e with
  | literal id value span => cases value <;> cases h
  | reference id name span =>
    unfold type at h
    unfold findings Scopes.isDefined
    cases bound : s.find? name with
    | none => exact .inl (List.cons_ne_nil _ _)
    | some t =>
      rw [bound] at h
      exact .inr ⟨id, name, span, List.mem_cons_self, h ▸ bound⟩
  | operation id op left right span ihl ihr =>
    rw [findings]
    obtain refused | hl | hr := Operator.undefined_source h
    · obtain ⟨cause, complaint⟩ := Option.isSome_iff_exists.1 refused
      rw [complaint]
      exact .inl (List.cons_ne_nil _ _)
    · refine (ihl hl).imp (fun found => ?_) ?_
      · exact List.append_ne_nil_of_right_ne_nil _ (List.append_ne_nil_of_left_ne_nil found _)
      · rintro ⟨id, name, span, within, bound⟩
        exact ⟨id, name, span, List.mem_cons_of_mem _ (List.mem_append_left _ within), bound⟩
    · refine (ihr hr).imp (fun found => ?_) ?_
      · exact List.append_ne_nil_of_right_ne_nil _ (List.append_ne_nil_of_right_ne_nil _ found)
      · rintro ⟨id, name, span, within, bound⟩
        exact ⟨id, name, span, List.mem_cons_of_mem _ (List.mem_append_right _ within), bound⟩

/-- What is found in a part of an expression is found in the expression. -/
theorem findings_subset {o : Expr} (ho : .expr o ∈ e.nodes) : o.findings s ⊆ e.findings s := by
  induction e with
  | literal =>
    cases List.mem_singleton.1 ho
    exact List.Subset.refl _
  | reference =>
    cases List.mem_singleton.1 ho
    exact List.Subset.refl _
  | operation id op left right span ihl ihr =>
    rw [nodes, List.mem_cons, List.mem_append] at ho
    obtain ho | ho | ho := ho
    · cases ho
      exact List.Subset.refl _
    · exact fun x hx => List.mem_append_right _ (List.mem_append_left _ (ihl ho hx))
    · exact fun x hx => List.mem_append_right _ (List.mem_append_right _ (ihr ho hx))

/-- A variable in the expression was bound so. -/
def RefersTo (e : Expr) (s : Origins) (b : Binding) : Prop :=
  ∃ id name span, .expr (.reference id name span) ∈ e.nodes ∧ s.find? name = some b

theorem undefined_origin {s : Origins} (h : e.type s.types = .undefined) :
    e.Reported s.types ∨ ∃ b, e.RefersTo s b ∧ b.type = .undefined := by
  refine (undefined_source h).imp (fun reported => reported) ?_
  rintro ⟨id, name, span, within, bound⟩
  rw [Origins.find?_types] at bound
  obtain ⟨b, found, undefined⟩ := Option.map_eq_some_iff.1 bound
  exact ⟨b, ⟨id, name, span, within, found⟩, undefined⟩

end Expr

namespace Binding
open Relation (ReflTransGen)

/-- A variable in the value was bound so. -/
def RefersTo (b earlier : Binding) : Prop := b.assignment.value.RefersTo b.origins earlier

/-- Where the value was checked, something is reported of a node in it. -/
def Reported (b : Binding) : Prop :=
  ∃ x ∈ b.viewpoint.findings, ∃ n ∈ b.assignment.value.nodes, x.node = n.id

/-- From a name that is bound to an undefined type, bindings lead back to one whose value is
reported. -/
theorem exists_reported (b : Binding) (h : b.type = .undefined) :
    ∃ first, ReflTransGen RefersTo b first ∧ first.Reported := by
  induction b using origins_induction with
  | step b ih =>
    rw [type_eq] at h
    obtain reported | ⟨earlier, refers, undefined⟩ := Expr.undefined_origin h
    · exact ⟨b, .refl, reported⟩
    · obtain ⟨_, name, _, -, found⟩ := id refers
      obtain ⟨first, back, reported⟩ := ih name earlier found undefined
      exact ⟨first, .head refers back, reported⟩

end Binding

/-! ### Main result -/

namespace Sheet
open Relation (ReflTransGen)
variable {sheet : Sheet} {before behind : List Viewpoint} {v : Viewpoint}

/-- Whatever bindings lead back to was checked before. -/
theorem checked_before (among : before <+: sheet.viewpoints) {b first : Binding}
    (back : ReflTransGen Binding.RefersTo b first) (checked : b.viewpoint ∈ before) :
    first.viewpoint ∈ before := by
  induction back with
  | refl => exact checked
  | tail _ refers ih =>
    obtain ⟨_, name, _, -, found⟩ := refers
    obtain ⟨more, whole⟩ := among
    obtain ⟨front, rest, rfl⟩ := List.append_of_mem ih
    rw [List.append_assoc] at whole
    exact List.mem_append_left _ ((origins_from whole.symm).find? found).2

/-- **Skipped checks hide no error.** The checker comes by the places of a stylesheet and
reports what it finds there, in scopes of which it is known how each name was bound: by an
assignment that was checked before. Where the type of an expression is undefined, something is
reported of a node in it, or of a node in the value of such an assignment, to which bindings
lead back from a variable in the expression. -/
theorem undefined_reported (sheet : Sheet) :
    sheet.inspections.map Inspection.site = sheet.nodes.filterMap Node.site? ∧
    sheet.findings = sheet.inspections.flatMap Inspection.findings ∧
    sheet.viewpoints.map Viewpoint.inspection = sheet.inspections ∧
    ∀ before v behind, sheet.viewpoints = before ++ v :: behind →
      (∀ name b, v.origins.find? name = some b →
        b.assignment.name = name ∧ b.viewpoint ∈ before) ∧
      ∀ e, .expr e ∈ v.site.value.nodes → e.findings v.scopes ⊆ v.findings ∧
        (e.type v.scopes = .undefined →
          e.Reported v.scopes ∨ ∃ b first, e.RefersTo v.origins b ∧
            ReflTransGen Binding.RefersTo b first ∧ first.viewpoint ∈ before ∧
              first.Reported) := by
  refine ⟨sheet.inspections_sites, sheet.findings_inspections, sheet.viewpoints_inspections,
    fun before v behind split => ?_⟩
  have bound := origins_from split
  refine ⟨fun name b => bound.find?, fun e he => ⟨fun x hx => ?_, fun undefined => ?_⟩⟩
  · exact v.site.value_findings_subset v.scopes (Expr.findings_subset he hx)
  refine (Expr.undefined_origin undefined).imp (fun reported => reported) ?_
  rintro ⟨b, refers, undefined⟩
  obtain ⟨first, back, reported⟩ := b.exists_reported undefined
  obtain ⟨_, name, _, -, found⟩ := id refers
  have checked := checked_before ⟨v :: behind, split.symm⟩ back (bound.find? found).2
  exact ⟨b, first, refers, back, checked, reported⟩

example : (ofText "A := Gone; p \x7b B := A * 2; if [B] \x7b width: B; \x7d \x7d" "sheet").map
    (fun sheet => sheet.findings.map fun x => x.error.cause) =
      .ok [.variableNotDeclared "Gone"] := by cbv

end Sheet

end Typesheet
