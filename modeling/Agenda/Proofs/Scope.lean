import Agenda.Needs.Query
import Agenda.Proofs.Metered
import Agenda.Proofs.Shard.Partition

/-!
What a resolved scope consists of: on each side a partition of the ids that the directory names and
the filters of the request let pass.
-/

namespace Agenda

namespace Deployment

variable {deployment : Deployment}

theorem answer_of_use {α : Type} {facility : Facility} {effort : Effort} {answer value : α}
    (used : (deployment.use facility effort answer).outcome = .ok value) : value = answer := by
  unfold use at used
  split at used
  · cases used
  · exact (Except.ok.inj used).symm

theorem allows_of_matrix {user : UserId} {contexts : List Context} {permissions : List Permission}
    {matrix : PermissionMatrix} (checked : (deployment.checkMany user contexts permissions).outcome =
      .ok matrix) {context : Context} {permission : Permission} :
    matrix.allows context permission = true ↔
      context ∈ contexts ∧ permission ∈ permissions ∧ deployment.allows user context permission := by
  rw [answer_of_use checked]
  simp only [PermissionMatrix.allows, List.contains_eq_mem, decide_eq_true_eq, List.mem_filter,
    List.mem_flatMap, List.mem_map, Prod.mk.injEq]
  constructor
  · rintro ⟨⟨_, member, _, asked, rfl, rfl⟩, allowed⟩
    exact ⟨member, asked, allowed⟩
  · rintro ⟨member, asked, allowed⟩
    exact ⟨⟨context, member, permission, asked, rfl, rfl⟩, allowed⟩

def Joined (deployment : Deployment) (user : UserId) : Context → Prop
  | .course id => ∃ membership ∈ deployment.memberships user, membership.course = id
  | .group id => id ∈ deployment.groups user

end Deployment

namespace Scope

section Side

variable {α : Type} [DecidableEq α] [Ranked α] [Sharded α] {filter : Option (List α)}
  {defaults : Metered (List α)} {partition : ShardPartition α}

theorem side_cases (chosen : (side filter defaults).outcome = .ok partition) :
    (filter = some [] ∧ partition = .empty) ∨
      ∃ ids, defaults.outcome = .ok ids ∧
        partition = .ofList (ids.filter fun id => filter.all fun wanted => wanted.contains id) := by
  unfold side at chosen
  split at chosen
  · rename_i nothing
    cases chosen
    exact .inl ⟨nothing, rfl⟩
  · obtain ⟨ids, listed, filtered⟩ := Metered.outcome_bind_eq_ok.mp chosen
    cases filtered
    exact .inr ⟨ids, listed, rfl⟩

theorem mem_of_side (chosen : (side filter defaults).outcome = .ok partition) {id : α}
    (member : id ∈ partition.toList) : ∃ ids, defaults.outcome = .ok ids ∧ id ∈ ids := by
  rcases side_cases chosen with ⟨-, rfl⟩ | ⟨ids, listed, rfl⟩
  · cases member
  · exact ⟨ids, listed, (List.mem_filter.mp (ShardPartition.mem_toList_ofList.mp member)).1⟩

theorem spread_of_side (chosen : (side filter defaults).outcome = .ok partition) :
    ∃ ids, partition = .ofList ids := by
  rcases side_cases chosen with ⟨-, rfl⟩ | ⟨ids, -, rfl⟩
  · exact ⟨[], ShardPartition.ofList_nil.symm⟩
  · exact ⟨_, rfl⟩

end Side

variable {deployment : Deployment} {user : UserId} {request : ScopeRequest} {scope : Scope}

theorem sides_of_resolve (resolved : (resolve deployment user request).outcome = .ok scope) :
    (side request.courseFilter (defaultCourses deployment user request)).outcome =
        .ok scope.courses ∧
      (side request.groupFilter (deployment.listGroups user)).outcome = .ok scope.groups := by
  obtain ⟨courses, chosen, further⟩ := Metered.outcome_bind_eq_ok.mp resolved
  obtain ⟨groups, joined, both⟩ := Metered.outcome_bind_eq_ok.mp further
  cases both
  exact ⟨chosen, joined⟩

theorem granted_of_grantedCourses {candidates ids : List CourseId} {permission : Permission}
    (granted : (grantedCourses deployment user candidates permission).outcome = .ok ids)
    {id : CourseId} (member : id ∈ ids) :
    id ∈ candidates ∧ deployment.allows user (.course id) permission = true := by
  unfold grantedCourses at granted
  split at granted
  · cases granted
    cases member
  · obtain ⟨matrix, checked, chosen⟩ := Metered.outcome_bind_eq_ok.mp granted
    cases chosen
    obtain ⟨candidate, allowed⟩ := List.mem_filter.mp member
    exact ⟨candidate, ((Deployment.allows_of_matrix checked).mp allowed).2.2⟩

theorem enrolled_of_defaultCourses {ids : List CourseId}
    (listed : (defaultCourses deployment user request).outcome = .ok ids) {id : CourseId}
    (member : id ∈ ids) : deployment.Joined user (.course id) := by
  obtain ⟨memberships, directory, chosen⟩ := Metered.outcome_bind_eq_ok.mp listed
  obtain rfl := Deployment.answer_of_use directory
  have ofRows {rows : List Membership} (within : ∀ row ∈ rows, row ∈ deployment.memberships user)
      (among : id ∈ rows.map (·.course)) : deployment.Joined user (.course id) := by
    obtain ⟨membership, row, same⟩ := List.mem_map.mp among
    exact ⟨membership, within membership row, same⟩
  have current (row : Membership)
      (kept : row ∈ (deployment.memberships user).filter Membership.isCurrent) :
      row ∈ deployment.memberships user :=
    List.mem_of_mem_filter kept
  split at chosen
  · cases chosen
    exact ofRows (fun row member => member) member
  · split at chosen
    · cases chosen
      exact ofRows (fun row kept => current row (List.mem_of_mem_filter kept)) member
    · cases chosen
      exact ofRows (fun row kept => current row (List.mem_of_mem_filter kept)) member
    · exact ofRows current (granted_of_grantedCourses chosen member).1

theorem spread_of_resolve (resolved : (resolve deployment user request).outcome = .ok scope) :
    ∃ courses groups, scope = ⟨.ofList courses, .ofList groups⟩ := by
  obtain ⟨chosen, joined⟩ := sides_of_resolve resolved
  obtain ⟨courses, spreadCourses⟩ := spread_of_side chosen
  obtain ⟨groups, spreadGroups⟩ := spread_of_side joined
  exact ⟨courses, groups, by rw [← spreadCourses, ← spreadGroups]⟩

@[simp] theorem mem_contexts_course {id : CourseId} :
    .course id ∈ scope.contexts ↔ id ∈ scope.courses.toList := by
  simp [contexts]

@[simp] theorem mem_contexts_group {id : GroupId} :
    .group id ∈ scope.contexts ↔ id ∈ scope.groups.toList := by
  simp [contexts]

/-- A scope covers nothing that the user has not joined. -/
theorem joined_of_resolve (resolved : (resolve deployment user request).outcome = .ok scope)
    {context : Context} (member : context ∈ scope.contexts) : deployment.Joined user context := by
  obtain ⟨chosen, joined⟩ := sides_of_resolve resolved
  cases context with
  | course id =>
      obtain ⟨ids, listed, among⟩ := mem_of_side chosen (mem_contexts_course.mp member)
      exact enrolled_of_defaultCourses listed among
  | group id =>
      obtain ⟨ids, listed, among⟩ := mem_of_side joined (mem_contexts_group.mp member)
      rwa [Deployment.answer_of_use listed] at among

end Scope

theorem NeedsQuery.isOutside_congr (query : NeedsQuery) {earlier later : Deployment}
    {user visitor : UserId} {request other : ScopeRequest} {area scope : Scope}
    (before : (Scope.resolve earlier user request).outcome = .ok area)
    (after : (Scope.resolve later visitor other).outcome = .ok scope)
    (contexts : ∀ context, context ∈ area.contexts ↔ context ∈ scope.contexts) :
    query.isOutside area = query.isOutside scope := by
  have courses : area.courses.isEmpty = scope.courses.isEmpty := by
    obtain ⟨courses, groups, rfl⟩ := Scope.spread_of_resolve before
    obtain ⟨others, further, rfl⟩ := Scope.spread_of_resolve after
    rw [Bool.eq_iff_iff, ShardPartition.isEmpty_ofList, ShardPartition.isEmpty_ofList]
    exact forall_congr' fun id => not_congr (by simpa using contexts (.course id))
  have groups : area.groups.isEmpty = scope.groups.isEmpty := by
    obtain ⟨courses, groups, rfl⟩ := Scope.spread_of_resolve before
    obtain ⟨others, further, rfl⟩ := Scope.spread_of_resolve after
    rw [Bool.eq_iff_iff, ShardPartition.isEmpty_ofList, ShardPartition.isEmpty_ofList]
    exact forall_congr' fun id => not_congr (by simpa using contexts (.group id))
  cases query <;> simp only [isOutside, Scope.isEmpty, courses, groups]

end Agenda
