import Agenda.Proofs.Effort
import Agenda.Proofs.Needs.Unrestricted

/-!
What a scope resolves to, told from the tables, the grants and the request: the courses and groups of
the user that the filters let pass, and on the side of the courses those whose memberships count. The
permission engine is asked once at most.
-/

namespace Agenda

namespace Tables

def Enrolls (tables : Tables) (user : UserId) (membership : Membership) : Prop :=
  ∃ row ∈ tables.memberships, row.user = user ∧ membership ∈ row.courses

def Groups (tables : Tables) (user : UserId) (group : GroupId) : Prop :=
  ∃ row ∈ tables.memberships, row.user = user ∧ group ∈ row.groups

end Tables

namespace Membership

def IsOpen (membership : Membership) : Prop :=
  membership.state = .active ∧ membership.concluded = false

/-- A membership makes its course a part of what a request covers: every membership does if the request
includes concluded courses, and otherwise an open one that goes with the permission. -/
def Counts (membership : Membership) (deployment : Deployment) (user : UserId)
    (request : ScopeRequest) : Prop :=
  request.includeConcluded = true ∨
    membership.IsOpen ∧
      match request.permission with
      | .participate => membership.role.isStudent = true
      | .instruct => membership.role.isInstructor = true
      | .grant permission => deployment.allows user (.course membership.course) permission = true

end Membership

namespace ScopeRequest

def AdmitsCourse (request : ScopeRequest) (id : CourseId) : Prop :=
  (∀ ids, request.courses = some ids → id ∈ ids) ∧
    ∀ contexts, request.contexts = some contexts → .course id ∈ contexts

def AdmitsGroup (request : ScopeRequest) (id : GroupId) : Prop :=
  (∀ ids, request.groups = some ids → id ∈ ids) ∧
    ∀ contexts, request.contexts = some contexts → .group id ∈ contexts

/-- The request goes by a permission on the course of each open membership, and there is one. -/
structure GoesByGrants (request : ScopeRequest) (tables : Tables) (user : UserId) : Prop where
  permitted : ∃ permission, request.permission = .grant permission
  current : request.includeConcluded = false
  enrolled : ∃ membership, tables.Enrolls user membership ∧ membership.IsOpen

variable {request : ScopeRequest}

theorem courseFilter_all {id : CourseId} :
    (request.courseFilter.all fun ids => ids.contains id) = true ↔ request.AdmitsCourse id := by
  rw [courseFilter, all_intersectFilters, Bool.and_eq_true, Option.all_map]
  simp [AdmitsCourse, Context.course?_eq_some, Option.all_eq_true]

theorem groupFilter_all {id : GroupId} :
    (request.groupFilter.all fun ids => ids.contains id) = true ↔ request.AdmitsGroup id := by
  rw [groupFilter, all_intersectFilters, Bool.and_eq_true, Option.all_map]
  simp [AdmitsGroup, Context.group?_eq_some, Option.all_eq_true]

theorem courseFilter_ne_nil : request.courseFilter ≠ some [] ↔ ∃ id, request.AdmitsCourse id := by
  simp only [← courseFilter_all]
  constructor
  · intro filtered
    cases filter : request.courseFilter with
    | none => exact ⟨⟨⟨0, by decide⟩⟩, rfl⟩
    | some ids =>
        cases ids with
        | nil => exact absurd filter filtered
        | cons first rest => exact ⟨first, by simp⟩
  · rintro ⟨id, admitted⟩ nothing
    simp [nothing] at admitted

end ScopeRequest

namespace Deployment

variable {deployment : Deployment}

theorem checkMany_served (working : deployment.outages = []) (user : UserId)
    (contexts : List Context) (permissions : List Permission) :
    ∃ matrix, deployment.checkMany user contexts permissions = ⟨.ok matrix, { bulkChecks := 1 }⟩ ∧
      ∀ context ∈ contexts, ∀ permission ∈ permissions,
        matrix.allows context permission = deployment.allows user context permission := by
  refine ⟨_, use_served working .checkMany _ _, fun context member permission asked => ?_⟩
  rw [Bool.eq_iff_iff]
  have answered : (deployment.checkMany user contexts permissions).outcome = .ok _ :=
    congrArg Metered.outcome (use_served working .checkMany _ _)
  rw [allows_of_matrix answered]
  exact ⟨fun allowed => allowed.2.2, fun allowed => ⟨member, asked, allowed⟩⟩

theorem mem_memberships {user : UserId} {membership : Membership} :
    membership ∈ deployment.memberships user ↔ deployment.tables.Enrolls user membership := by
  simp [memberships, Tables.Enrolls, List.mem_flatMap, and_assoc]

theorem mem_groups {user : UserId} {group : GroupId} :
    group ∈ deployment.groups user ↔ deployment.tables.Groups user group := by
  simp [groups, Tables.Groups, List.mem_flatMap, and_assoc]

end Deployment

theorem Membership.isCurrent_iff {membership : Membership} :
    membership.isCurrent = true ↔ membership.IsOpen := by
  simp [isCurrent, IsOpen]

namespace Scope

section Side

variable {α : Type} [DecidableEq α] [Ranked α] [Sharded α]

theorem side_served (filter : Option (List α)) (ids : List α) (cost : Effort) :
    side filter ⟨.ok ids, cost⟩ =
      ⟨.ok (.ofList (ids.filter fun id => filter.all fun wanted => wanted.contains id)),
        if filter = some [] then .zero else cost⟩ := by
  unfold side
  by_cases nothing : filter = some []
  · subst nothing
    simp
    rfl
  · rw [if_neg nothing, if_neg nothing, Metered.bind_of_ok rfl]
    rfl

end Side

section Served

variable {deployment : Deployment} (working : deployment.outages = []) (user : UserId)
include working

theorem grantedCourses_served (candidates : List CourseId) (permission : Permission) :
    grantedCourses deployment user candidates permission =
      ⟨.ok (candidates.filter fun id => deployment.allows user (.course id) permission),
        if candidates = [] then .zero else { bulkChecks := 1 }⟩ := by
  unfold grantedCourses
  by_cases nothing : candidates = []
  · subst nothing
    rfl
  · obtain ⟨matrix, checked, allows⟩ := Deployment.checkMany_served working user
      (candidates.map .course) [permission]
    rw [if_neg (by simp [nothing]), if_neg nothing, checked, Metered.bind_of_ok rfl]
    have granted : candidates.filter (fun id => matrix.allows (.course id) permission) =
        candidates.filter fun id => deployment.allows user (.course id) permission :=
      List.filter_congr fun id member =>
        allows _ (List.mem_map_of_mem member) permission (List.mem_singleton_self _)
    rw [← granted]
    rfl

theorem mem_defaultCourses (request : ScopeRequest) :
    ∃ ids, (defaultCourses deployment user request).outcome = .ok ids ∧
      ∀ id, id ∈ ids ↔ ∃ membership, deployment.tables.Enrolls user membership ∧
        membership.course = id ∧ membership.Counts deployment user request := by
  have listed : deployment.listCourses user = ⟨.ok (deployment.memberships user), .zero⟩ :=
    Deployment.use_served working ..
  have chosen (keep : Membership → Bool) (id : CourseId) :
      id ∈ ((deployment.memberships user).filter keep).map (·.course) ↔
        ∃ membership, deployment.tables.Enrolls user membership ∧ membership.course = id ∧
          keep membership = true := by
    simp only [List.mem_map, List.mem_filter, Deployment.mem_memberships]
    constructor
    · rintro ⟨membership, ⟨enrolled, kept⟩, same⟩
      exact ⟨membership, enrolled, same, kept⟩
    · rintro ⟨membership, enrolled, same, kept⟩
      exact ⟨membership, ⟨enrolled, kept⟩, same⟩
  rw [defaultCourses, listed, Metered.bind_of_ok rfl]
  cases concluded : request.includeConcluded with
  | true =>
      refine ⟨_, rfl, fun id => ?_⟩
      have all := chosen (fun _ => true) id
      rw [List.filter_true] at all
      rw [all]
      simp [Membership.Counts, concluded]
  | false =>
      cases permission_eq : request.permission with
      | participate | instruct =>
          refine ⟨_, rfl, fun id => ?_⟩
          rw [List.filter_filter, chosen]
          simp [Membership.Counts, concluded, permission_eq, Membership.isCurrent_iff, and_comm]
      | grant permission =>
          have granted := grantedCourses_served working user
            (((deployment.memberships user).filter Membership.isCurrent).map (·.course)) permission
          refine ⟨_, congrArg Metered.outcome granted, fun id => ?_⟩
          simp only [List.mem_filter, chosen, Membership.isCurrent_iff, Membership.Counts, concluded,
            permission_eq, Bool.false_eq_true, false_or]
          constructor
          · rintro ⟨⟨membership, enrolled, rfl, current⟩, allowed⟩
            exact ⟨membership, enrolled, rfl, current, allowed⟩
          · rintro ⟨membership, enrolled, rfl, current, allowed⟩
            exact ⟨⟨membership, enrolled, rfl, current⟩, allowed⟩

theorem effort_defaultCourses_eq (request : ScopeRequest) :
    (request.GoesByGrants deployment.tables user →
      (defaultCourses deployment user request).effort = { bulkChecks := 1 }) ∧
    (¬request.GoesByGrants deployment.tables user →
      (defaultCourses deployment user request).effort = .zero) := by
  have listed : deployment.listCourses user = ⟨.ok (deployment.memberships user), .zero⟩ :=
    Deployment.use_served working ..
  rw [defaultCourses, listed, Metered.bind_of_ok rfl]
  cases concluded : request.includeConcluded with
  | true => exact ⟨fun goes => by simp [goes.current] at concluded, fun _ => rfl⟩
  | false =>
      cases permission_eq : request.permission with
      | participate | instruct =>
          refine ⟨fun goes => ?_, fun _ => rfl⟩
          obtain ⟨permission, same⟩ := goes.permitted
          simp [permission_eq] at same
      | grant permission =>
          have granted := congrArg Metered.effort (grantedCourses_served working user
            (((deployment.memberships user).filter Membership.isCurrent).map (·.course)) permission)
          have some : ((deployment.memberships user).filter Membership.isCurrent).map (·.course) ≠ [] ↔
              ∃ membership, deployment.tables.Enrolls user membership ∧ membership.IsOpen := by
            simp [Deployment.mem_memberships, Membership.isCurrent_iff]
          simp only [Bool.false_eq_true, if_false, granted]
          constructor
          · intro goes
            rw [if_neg (some.mpr goes.enrolled)]
            rfl
          · intro stays
            rw [if_pos]
            · rfl
            · by_contra asked
              exact stays ⟨⟨permission, permission_eq⟩, concluded, some.mp asked⟩

end Served

/-- With nothing out of order a request resolves to a scope. Its courses are those that the filters let
pass and of which some membership counts, and its groups those of the user that the filters let pass;
each side is parted by shards, ascending and without repetition. The engine is asked once if the request
goes by grants and some course passes the filters. Otherwise nothing is asked. -/
theorem resolve_exact (deployment : Deployment) (working : deployment.outages = []) (user : UserId)
    (request : ScopeRequest) :
    ∃ scope, (resolve deployment user request).outcome = .ok scope ∧
      scope.courses.WellFormed ∧ scope.groups.WellFormed ∧
      (∀ id, id ∈ scope.courses.toList ↔ request.AdmitsCourse id ∧
        ∃ membership, deployment.tables.Enrolls user membership ∧ membership.course = id ∧
          membership.Counts deployment user request) ∧
      (∀ id, id ∈ scope.groups.toList ↔ request.AdmitsGroup id ∧ deployment.tables.Groups user id) ∧
      let asks := request.GoesByGrants deployment.tables user ∧ ∃ id, request.AdmitsCourse id
      (asks → (resolve deployment user request).effort = { bulkChecks := 1 }) ∧
        (¬asks → (resolve deployment user request).effort = .zero) := by
  obtain ⟨ids, listed, counted⟩ := mem_defaultCourses working user request
  obtain ⟨once, never⟩ := effort_defaultCourses_eq working user request
  have defaults : defaultCourses deployment user request =
      ⟨.ok ids, (defaultCourses deployment user request).effort⟩ := by
    rw [← listed]
  have joined : deployment.listGroups user = ⟨.ok (deployment.groups user), .zero⟩ :=
    Deployment.use_served working ..
  have resolved : resolve deployment user request = ⟨.ok
      ⟨.ofList (ids.filter fun id => request.courseFilter.all fun wanted => wanted.contains id),
        .ofList ((deployment.groups user).filter fun id =>
          request.groupFilter.all fun wanted => wanted.contains id)⟩,
      if request.courseFilter = some [] then .zero
        else (defaultCourses deployment user request).effort⟩ := by
    rw [resolve, joined, defaults, side_served, side_served, Metered.bind_of_ok rfl,
      Metered.bind_of_ok rfl, ite_self]
    rfl
  refine ⟨_, congrArg Metered.outcome resolved, ShardPartition.wellFormed_ofList _,
    ShardPartition.wellFormed_ofList _, fun id => ?_, fun id => ?_, ?_⟩
  · rw [ShardPartition.mem_toList_ofList, List.mem_filter, counted, ScopeRequest.courseFilter_all,
      and_comm]
  · rw [ShardPartition.mem_toList_ofList, List.mem_filter, Deployment.mem_groups,
      ScopeRequest.groupFilter_all, and_comm]
  · rw [resolved]
    constructor
    · rintro ⟨goes, admitting⟩
      rw [if_neg (ScopeRequest.courseFilter_ne_nil.mpr admitting), once goes]
    · intro idle
      by_cases empty : request.courseFilter = some []
      · rw [if_pos empty]
      · rw [if_neg empty]
        exact never fun goes => idle ⟨goes, ScopeRequest.courseFilter_ne_nil.mp empty⟩

/-- A grader with two rows of memberships, and filters that repeat themselves and overlap in one
course. -/
theorem resolve_exact_grader :
    let grader : UserId := ⟨⟨9, by decide⟩⟩
    let physics : CourseId := ⟨⟨1, by decide⟩⟩
    let history : CourseId := ⟨⟨20000000000001, by decide⟩⟩
    let club : GroupId := ⟨⟨1, by decide⟩⟩
    let deployment : Deployment := {
      tables := {
        memberships := [⟨grader, [⟨history, .ta, .active, false⟩, ⟨physics, .teacher, .completed, true⟩],
            []⟩,
          ⟨grader, [⟨history, .designer, .active, false⟩, ⟨physics, .designer, .active, false⟩],
            [club, club]⟩] }
      grants := [⟨grader, .course history, .manageGrades⟩, ⟨grader, .course physics, .manageGrades⟩]
      offline := []
      outages := []
      now := ⟨⟨2026, 1, 11, by decide⟩, 0, 0, by decide, by decide⟩
      config := {} }
    let request : ScopeRequest := {
      permission := .grant .manageGrades
      courses := some [physics, history, history]
      contexts := some [.group club, .course history] }
    ∃ scope, (resolve deployment grader request).outcome = .ok scope ∧ history ∈ scope.courses.toList ∧
      physics ∉ scope.courses.toList ∧ club ∈ scope.groups.toList ∧
      (resolve deployment grader request).effort = { bulkChecks := 1 } := by
  intro grader physics history club deployment request
  obtain ⟨scope, resolved, -, -, courses, groups, once, -⟩ := resolve_exact deployment rfl grader request
  have enrolled : deployment.tables.Enrolls grader ⟨history, .ta, .active, false⟩ :=
    ⟨_, List.mem_cons_self, rfl, List.mem_cons_self⟩
  have admitted : request.AdmitsCourse history := by
    constructor
    · rintro ids ⟨⟩
      simp
    · rintro contexts ⟨⟩
      simp
  refine ⟨scope, resolved, (courses history).mpr ⟨admitted, _, enrolled, rfl, ?_⟩, ?_, ?_, ?_⟩
  · exact .inr ⟨⟨rfl, rfl⟩, by decide⟩
  · rw [courses]
    rintro ⟨⟨-, within⟩, -⟩
    exact absurd (within _ rfl) (by decide)
  · refine (groups club).mpr ⟨⟨?_, ?_⟩, _, List.mem_cons_of_mem _ List.mem_cons_self, rfl, by simp⟩
    · rintro ids ⟨⟩
    · rintro contexts ⟨⟩
      simp
  · exact once ⟨⟨⟨_, rfl⟩, rfl, _, enrolled, rfl, rfl⟩, history, admitted⟩

end Scope

end Agenda
