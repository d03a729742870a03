import Agenda.Proofs.Needs.Criteria
import Agenda.Proofs.Needs.Unrestricted

/-!
The list of a student, told from the tables alone: each row of an assignment that is still to be
submitted stands on it once, with the dates that the student has.
-/

namespace Agenda

namespace Tables

variable (tables : Tables)

def datesFor (user : UserId) (row : Assignment) : EffectiveDates :=
  let rows := tables.overrides.filter fun other =>
    other.target = .assignment row.id && other.user = user
  (rows.getLast?.map (·.dates)).getD row.baseDates

def HasTurnedIn (user : UserId) (assignment : AssignmentId) : Prop :=
  ∃ row ∈ tables.submissions, row.id.shard = assignment.shard ∧ row.assignment = assignment ∧
    row.user = user ∧ row.isActive ∧ row.isTurnedIn

instance (user : UserId) (assignment : AssignmentId) : Decidable (tables.HasTurnedIn user assignment) :=
  inferInstanceAs (Decidable (∃ row ∈ tables.submissions, _))

end Tables

namespace Submitting

/-- By the dates that a student has there is still something to do: the assignment is open, due in the
window, and not turned in unless its due date is still to come. -/
@[mk_iff]
structure IsStillDue (query : Submitting) (tables : Tables) (now : Instant) (row : Assignment) :
    Prop where
  unlocked : query.choice.includeLocked ∨ (tables.datesFor query.user row).isLocked now = false
  due : query.options.withinWindow (tables.datesFor query.user row).due
  unfinished : ¬tables.HasTurnedIn query.user row.id ∨
    ∃ due, (tables.datesFor query.user row).due = some due ∧ now < due

/-- An assignment of a scope that is listed for a student at a time. -/
@[mk_iff]
structure Lists (query : Submitting) (tables : Tables) (scope : Scope) (now : Instant)
    (row : Assignment) : Prop where
  offered : scope.Offers row
  admitted : query.kind.admits row tables.checkpointed
  visible : row.isVisibleTo query.user
  shown : row.suppressed = false
  expected : query.choice.includeUngraded ∨ row.expectsSubmission
  wanted : query.options.includeIgnored ∨
    ¬tables.Ignores query.user ⟨query.kind.objectKind, row.id.global⟩ .submitting
  still : query.IsStillDue tables now row

instance (query : Submitting) (tables : Tables) (now : Instant) (row : Assignment) :
    Decidable (query.IsStillDue tables now row) :=
  decidable_of_iff _ (isStillDue_iff query tables now row).symm

instance (query : Submitting) (tables : Tables) (scope : Scope) (now : Instant) (row : Assignment) :
    Decidable (query.Lists tables scope now row) :=
  decidable_of_iff _ (lists_iff query tables scope now row).symm

variable {query : Submitting} {deployment : Deployment} {scope : Scope} {shard : ShardId}
  {courses : List CourseId} {row : Assignment}

theorem datesOf?_overridesOn (home : row.id.shard = shard) :
    (DueDateOverride.datesOf? (deployment.tables.overridesOn shard query.user)
      (.assignment row.id)).getD row.baseDates = deployment.tables.datesFor query.user row := by
  rw [Tables.datesOf?_overridesOn _ (.assignment row.id) home]
  rfl

theorem contains_turnedIn (home : row.id.shard = shard) :
    (query.turnedIn deployment shard).contains row.id = true ↔
      deployment.tables.HasTurnedIn query.user row.id := by
  simp only [turnedIn, Tables.submissionsOn, List.contains_eq_mem, decide_eq_true_eq, List.mem_map,
    List.mem_filter, Bool.and_eq_true, Option.all_some, Tables.HasTurnedIn, home]
  constructor
  · rintro ⟨other, ⟨⟨member, here, mine⟩, active, done⟩, same⟩
    exact ⟨other, member, here, same, mine, active, done⟩
  · rintro ⟨other, member, here, same, mine, active, done⟩
    exact ⟨other, ⟨⟨member, here, mine⟩, active, done⟩, same⟩

theorem isCandidate_iff (asked : row.course ∈ courses) (home : row.course.shard = shard) :
    query.isCandidate (deployment.ignored query.user query.kind.objectKind .submitting query.options)
        (deployment.tables.checkpointCoursesOn shard courses) row = true ↔
      query.kind.admits row deployment.tables.checkpointed ∧ row.isVisibleTo query.user ∧
        row.suppressed = false ∧ (query.choice.includeUngraded ∨ row.expectsSubmission) ∧
        (query.options.includeIgnored ∨ ¬deployment.tables.Ignores query.user
          ⟨query.kind.objectKind, row.id.global⟩ .submitting) := by
  rw [isCandidate, AssignmentKind.admits_checkpointCoursesOn_eq asked home,
    ← Deployment.contains_ignored]
  simp only [Bool.and_eq_true, Bool.or_eq_true, Bool.not_eq_true', and_assoc]

theorem item?_eq (home : row.id.shard = shard) :
    query.item? deployment.now (deployment.tables.overridesOn shard query.user)
        (query.turnedIn deployment shard) row =
      if query.IsStillDue deployment.tables deployment.now row then
        some ⟨row, (deployment.tables.datesFor query.user row).due, none⟩
      else none := by
  simp only [item?, datesOf?_overridesOn home]
  refine if_congr ?_ rfl rfl
  rw [isStillDue_iff, ← contains_turnedIn home]
  simp only [Bool.and_eq_true, Bool.or_eq_true, Bool.not_eq_true', Bool.and_eq_false_iff,
    Bool.not_eq_false', Option.any_eq_true, decide_eq_true_eq, Bool.not_eq_true, and_assoc]

theorem found_eq (owned : ∀ course ∈ courses, course.shard = shard)
    (covered : ∀ course ∈ courses, course ∈ scope.courses.toList) :
    query.found deployment
        (deployment.ignored query.user query.kind.objectKind .submitting query.options) shard courses =
      (deployment.tables.assignments.filter fun row =>
        courses.contains row.course && query.Lists deployment.tables scope deployment.now row).map
          fun row => ⟨row, (deployment.tables.datesFor query.user row).due, none⟩ := by
  rw [found, candidates, Tables.assignmentsOn, List.filter_filter, List.filterMap_filter,
    ← List.filterMap_eq_map', List.filterMap_filter]
  refine List.filterMap_congr fun row _ => ?_
  by_cases asked : row.course ∈ courses
  swap
  · simp [AssignmentQuery.admits, asked]
  by_cases home : row.id.shard = shard
  swap
  · have away : ¬query.Lists deployment.tables scope deployment.now row := fun lists =>
      home (lists.offered.home.trans (owned _ asked))
    simp [home, away]
  rw [item?_eq home, ← ite_and]
  refine if_congr ?_ rfl rfl
  simp only [Bool.and_eq_true, decide_eq_true_eq, isCandidate_iff asked (owned _ asked),
    AssignmentQuery.admits, List.contains_eq_mem, beq_iff_eq]
  constructor
  · rintro ⟨⟨⟨admitted, visible, shown, expected, wanted⟩, -, ⟨⟨-, published⟩, -⟩, -⟩, still⟩
    exact ⟨asked, ⟨covered _ asked, home.trans (owned _ asked).symm, published⟩, admitted, visible,
      shown, expected, wanted, still⟩
  · rintro ⟨-, lists⟩
    exact ⟨⟨⟨lists.admitted, lists.visible, lists.shown, lists.expected, lists.wanted⟩, home,
      ⟨⟨asked, lists.offered.published⟩, AssignmentKind.half_of_admits lists.admitted⟩, rfl⟩, lists.still⟩

theorem flatMap_found_perm {groups : ShardPartition GroupId} :
    ((ShardPartition.ofList courses).parts.flatMap fun part => query.found deployment
        (deployment.ignored query.user query.kind.objectKind .submitting query.options) part.1
          part.2).Perm
      ((deployment.tables.assignments.filter fun row =>
        query.Lists deployment.tables ⟨.ofList courses, groups⟩ deployment.now row).map fun row =>
          ⟨row, (deployment.tables.datesFor query.user row).due, none⟩) := by
  refine ShardPartition.flatMap_perm_of_parts Assignment.course (fun row listed => ?_)
    fun part isPart => .of_eq ?_
  · exact ShardPartition.mem_toList_ofList.mp (of_decide_eq_true listed).offered.covered
  · exact query.found_eq (fun course member => ShardPartition.shard_of_mem isPart member)
      fun course member => ShardPartition.mem_toList isPart member

end Submitting

namespace NeedsQuery

/-- With no shard offline, a submitting query of a resolved scope lists each assignment that the tables
list for the student, once for each of its rows and with the due date that the student has, in ascending
order. With no outage there is such a scope. -/
theorem submitting_lists (deployment : Deployment) (kind : AssignmentKind) (choice : SubmittingOptions)
    (user : UserId) (options : NeedsOptions) (online : deployment.offline = []) :
    (deployment.outages = [] → ∃ scope,
      ((NeedsQuery.submitting kind choice).scope deployment user options).outcome = .ok scope) ∧
    ∀ scope, ((NeedsQuery.submitting kind choice).scope deployment user options).outcome = .ok scope →
      ∃ items : List AssignmentTodo,
        ((NeedsQuery.submitting kind choice).load deployment user options [] none).outcome = .ok items ∧
        items.Pairwise (fun earlier later => Listed.noLater earlier later) ∧
        items.Perm ((deployment.tables.assignments.filter fun row =>
          Submitting.Lists ⟨kind, choice, user, options⟩ deployment.tables scope deployment.now row).map
            fun row => ⟨row, (deployment.tables.datesFor user row).due, none⟩) := by
  refine ⟨fun working => Scope.outcome_resolve_served working user _, fun scope resolved => ?_⟩
  obtain ⟨courses, groups, rfl⟩ := Scope.spread_of_resolve resolved
  let query : Submitting := ⟨kind, choice, user, options⟩
  let found : List AssignmentTodo := (ShardPartition.ofList courses).parts.flatMap fun part =>
    query.found deployment (deployment.ignored user kind.objectKind .submitting options) part.1 part.2
  have listed : ((NeedsQuery.submitting kind choice).load deployment user options [] none).outcome =
      .ok (Listed.sort found) := by
    rw [outcome_load, outcome_run_enabled rfl, resolved, Except.bind, outcome_list, access_online online]
    rfl
  refine ⟨_, listed, Listed.sort_sorted found, ?_⟩
  exact (List.mergeSort_perm found Listed.noLater).trans query.flatMap_found_perm

/-- Of two essays on two shards one is locked. The other was turned in, but the last of its overrides
leaves the student some time. -/
theorem submitting_lists_resubmission :
    let student : UserId := ⟨⟨7, by decide⟩⟩
    let physics : CourseId := ⟨⟨1, by decide⟩⟩
    let history : CourseId := ⟨⟨10000000000001, by decide⟩⟩
    let yesterday : Instant := ⟨⟨2026, 1, 10, by decide⟩, 43200, 0, by decide, by decide⟩
    let today : Instant := ⟨⟨2026, 1, 11, by decide⟩, 43200, 0, by decide, by decide⟩
    let tomorrow : Instant := ⟨⟨2026, 1, 12, by decide⟩, 43200, 0, by decide, by decide⟩
    let motion := essayFor ⟨⟨10, by decide⟩⟩ physics yesterday
    let rome := { essayFor ⟨⟨10000000000010, by decide⟩⟩ history yesterday with lock := some today }
    let deployment : Deployment := {
      tables := {
        memberships := [⟨student, [⟨physics, .student, .active, false⟩,
          ⟨history, .student, .active, false⟩], []⟩]
        assignments := [rome, motion]
        overrides := [⟨.assignment motion.id, student, ⟨some yesterday, none, none⟩⟩,
          ⟨.assignment motion.id, student, ⟨some tomorrow, none, none⟩⟩]
        submissions := [⟨⟨⟨11, by decide⟩⟩, motion.id, student, .submitted, some .onlineTextEntry, false,
          false, false, none⟩] }
      grants := []
      offline := []
      outages := []
      now := today
      config := {} }
    ((NeedsQuery.submitting .assignment {}).load deployment student {} [] none).outcome =
      .ok [(⟨motion, some tomorrow, none⟩ : AssignmentTodo)] := by
  intro student physics history yesterday today tomorrow motion rome deployment
  obtain ⟨-, listed⟩ := submitting_lists deployment .assignment {} student {} rfl
  let scope : Scope := ⟨.ofList [physics, history], .empty⟩
  obtain ⟨items, loaded, -, perm⟩ := listed scope rfl
  let query : Submitting := ⟨.assignment, {}, student, {}⟩
  have stays : query.Lists deployment.tables scope deployment.now motion := {
    offered := ⟨by decide, rfl, rfl⟩
    admitted := rfl
    visible := rfl
    shown := rfl
    expected := .inr rfl
    wanted := .inr (by rintro ⟨row, member, -⟩; cases member)
    still := {
      unlocked := .inr rfl
      due := rfl
      unfinished := .inr ⟨tomorrow, rfl, by decide⟩ } }
  have locked : ¬query.Lists deployment.tables scope deployment.now rome := by
    intro lists
    have closed : (deployment.tables.datesFor student rome).isLocked today = true := by decide
    rcases lists.still.unlocked with included | isOpen
    · cases included
    · exact absurd (isOpen.symm.trans closed) Bool.false_ne_true
  have kept : ([rome, motion].filter fun row =>
      decide (query.Lists deployment.tables scope deployment.now row)) = [motion] := by
    rw [List.filter_cons_of_neg (by simpa using locked), List.filter_cons_of_pos (by simpa using stays)]
    rfl
  change items.Perm (([rome, motion].filter fun row =>
    decide (query.Lists deployment.tables scope deployment.now row)).map _) at perm
  rw [kept] at perm
  rw [loaded, List.perm_singleton.mp perm]
  rfl

end NeedsQuery

end Agenda
