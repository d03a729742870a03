import Agenda.Proofs.Needs.Listing

/-!
What the lists are told with, without the shards and the reads: which courses list by checkpoints, what
a user ignores, what a scope covers, holds and offers, and which half of the assignments a query is about.
-/

namespace Agenda

namespace Tables

variable (tables : Tables)

def checkpointed : List CourseId :=
  (tables.courses.filter (·.checkpoints)).map (·.id)

def Ignores (user : UserId) (asset : Asset) (purpose : Purpose) : Prop :=
  ∃ row ∈ tables.ignores, row.user = user ∧ row.asset = asset ∧ row.purpose = purpose

instance (user : UserId) (asset : Asset) (purpose : Purpose) :
    Decidable (tables.Ignores user asset purpose) :=
  inferInstanceAs (Decidable (∃ row ∈ tables.ignores, _))

/-- Read on the shard of a target, the dates of its override are those of the last row of all that
override it for the user. -/
theorem datesOf?_overridesOn {shard : ShardId} {user : UserId} (target : OverrideTarget)
    (home : target.shard = shard) :
    DueDateOverride.datesOf? (tables.overridesOn shard user) target =
      (tables.overrides.filter fun other => other.target = target && other.user = user).getLast?.map
        (·.dates) := by
  rw [DueDateOverride.datesOf?, overridesOn, List.getLast?_eq_head?_reverse, ← List.filter_reverse,
    ← List.filter_reverse, List.head?_filter, List.find?_filter]
  refine congrArg (Option.map _) (List.find?_congr fun other _ => ?_)
  by_cases same : other.target = target
  · simp [same, home]
  · simp [same]

end Tables

namespace Scope

variable (scope : Scope)

def Covers : Context → Prop
  | .course id => id ∈ scope.courses.toList
  | .group id => id ∈ scope.groups.toList

@[mk_iff]
structure Holds (context : Context) (shard : ShardId) : Prop where
  covered : scope.Covers context
  home : shard = context.shard

instance : (context : Context) → Decidable (scope.Covers context)
  | .course id => inferInstanceAs (Decidable (id ∈ scope.courses.toList))
  | .group id => inferInstanceAs (Decidable (id ∈ scope.groups.toList))

instance (context : Context) (shard : ShardId) : Decidable (scope.Holds context shard) :=
  decidable_of_iff _ (holds_iff scope context shard).symm

end Scope

@[mk_iff]
structure Scope.Offers (scope : Scope) (row : Assignment) : Prop where
  covered : row.course ∈ scope.courses.toList
  home : row.id.shard = row.course.shard
  published : row.isPublished

instance (scope : Scope) (row : Assignment) : Decidable (scope.Offers row) :=
  decidable_of_iff _ (scope.offers_iff row).symm

namespace AssignmentKind

variable {kind : AssignmentKind} {row : Assignment}

theorem half_of_admits {checkpoints : List CourseId} (admitted : kind.admits row checkpoints = true) :
    row.isSubAssignment = decide (kind = .subAssignment) := by
  cases kind with
  | assignment =>
      simp only [admits, Bool.and_eq_true, Bool.not_eq_true'] at admitted
      exact admitted.1
  | subAssignment =>
      simp only [admits, Bool.and_eq_true] at admitted
      exact admitted.1

/-- The checkpoints that a shard reads for some courses are enough for the assignments of each. -/
theorem admits_checkpointCoursesOn_eq {tables : Tables} {shard : ShardId} {courses : List CourseId}
    (asked : row.course ∈ courses) (home : row.course.shard = shard) :
    kind.admits row (tables.checkpointCoursesOn shard courses) =
      kind.admits row tables.checkpointed := by
  have same : (tables.checkpointCoursesOn shard courses).contains row.course =
      tables.checkpointed.contains row.course := by
    rw [Bool.eq_iff_iff]
    simp only [List.contains_eq_mem, decide_eq_true_eq, Tables.checkpointCoursesOn, Tables.checkpointed,
      List.mem_map, List.mem_filter, Bool.and_eq_true]
    constructor
    · rintro ⟨course, ⟨⟨member, -⟩, enabled⟩, same⟩
      exact ⟨course, ⟨member, enabled⟩, same⟩
    · rintro ⟨course, ⟨member, enabled⟩, same⟩
      refine ⟨course, ⟨⟨member, ?_, ?_⟩, enabled⟩, same⟩
      · rwa [same]
      · rwa [same]
  simp only [admits, same]

end AssignmentKind

theorem Deployment.mem_ignored_iff {deployment : Deployment} {user : UserId} {kind : ObjectKind}
    {purpose : Purpose} {options : NeedsOptions} {id : GlobalId} :
    id ∈ deployment.ignored user kind purpose options ↔
      options.includeIgnored = false ∧ deployment.tables.Ignores user ⟨kind, id⟩ purpose := by
  cases included : options.includeIgnored with
  | true => simp [ignored, included]
  | false =>
      simp only [ignored, included, Bool.false_eq_true, if_false, List.mem_map, List.mem_filter,
        Bool.and_eq_true, decide_eq_true_eq, true_and, Tables.Ignores]
      constructor
      · rintro ⟨row, ⟨⟨member, mine, same⟩, rfl⟩, rfl⟩
        exact ⟨row, member, mine, rfl, same⟩
      · rintro ⟨row, member, mine, asset, same⟩
        exact ⟨row, ⟨⟨member, mine, same⟩, by rw [asset]⟩, by rw [asset]⟩

theorem Deployment.contains_ignored {deployment : Deployment} {user : UserId} {kind : ObjectKind}
    {purpose : Purpose} {options : NeedsOptions} {id : GlobalId} :
    (deployment.ignored user kind purpose options).contains id = false ↔
      options.includeIgnored = true ∨ ¬deployment.tables.Ignores user ⟨kind, id⟩ purpose := by
  rw [List.contains_eq_mem, decide_eq_false_iff_not, mem_ignored_iff, not_and_or, Bool.not_eq_false]

end Agenda
