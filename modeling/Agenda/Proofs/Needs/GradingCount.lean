import Agenda.Proofs.Needs.Criteria
import Agenda.Proofs.World.GradingPermission

/-!
The list of a grader, told from the tables alone: which assignments stand on it, in which order, and
how many submissions each of them shows. The roster, the early exits and the reads by shard make no
difference.
-/

namespace Agenda

namespace Enrollment

def IsOf (row : Enrollment) (user : UserId) (course : CourseId) : Prop :=
  row.isActive ∧ row.user = user ∧ row.course = course

def IsStudentOf (row : Enrollment) (user : UserId) (course : CourseId) : Prop :=
  row.IsOf user course ∧ row.role.isStudent

instance (row : Enrollment) (user : UserId) (course : CourseId) : Decidable (row.IsOf user course) :=
  inferInstanceAs (Decidable (_ ∧ _))

instance (row : Enrollment) (user : UserId) (course : CourseId) :
    Decidable (row.IsStudentOf user course) :=
  inferInstanceAs (Decidable (_ ∧ _))

end Enrollment

namespace Tables

variable (tables : Tables)

/-- A grader who is not enrolled in a course, or is without a limit to sections, sees each student of
it. Others see the students of their sections. -/
def MaySee (grader student : UserId) (course : CourseId) : Prop :=
  (∀ own ∈ tables.enrollments, ¬own.IsOf grader course) ∨
    (∃ own ∈ tables.enrollments, own.IsOf grader course ∧ own.limitedToSection = false) ∨
    ∃ own ∈ tables.enrollments, own.IsOf grader course ∧
      ∃ row ∈ tables.enrollments, row.IsStudentOf student course ∧
        row.courseSection = own.courseSection

/-- A submission waits for a grader at an assignment: its work has no current grade, the grader may
see its student, and has not given it a provisional grade while grades are provisional. -/
def WaitsFor (grader : UserId) (assignment : Assignment) (row : Submission) : Prop :=
  row.id.shard = assignment.id.shard ∧ row.assignment = assignment.id ∧
    row.isActive ∧ row.needsGrading ∧
    row.user ≠ grader ∧ (∃ own ∈ tables.enrollments, own.IsStudentOf row.user assignment.course) ∧
    tables.MaySee grader row.user assignment.course ∧
    ¬(assignment.awaitsModeration ∧ ⟨row.id, grader⟩ ∈ tables.provisionalGrades)

instance (grader student : UserId) (course : CourseId) :
    Decidable (tables.MaySee grader student course) :=
  inferInstanceAs (Decidable (_ ∨ _ ∨ _))

instance (grader : UserId) (assignment : Assignment) (row : Submission) :
    Decidable (tables.WaitsFor grader assignment row) :=
  inferInstanceAs (Decidable (_ ∧ _))

def waiting (grader : UserId) (assignment : Assignment) : Nat :=
  tables.submissions.countP fun row => tables.WaitsFor grader assignment row

end Tables

/-- An assignment of a scope that is listed for a grader. -/
structure Grading.Lists (query : Grading) (tables : Tables) (scope : Scope) (row : Assignment) :
    Prop where
  stored : row ∈ tables.assignments
  covered : row.course ∈ scope.courses.toList
  home : row.id.shard = row.course.shard
  published : row.isPublished
  expected : row.expectsSubmission
  admitted : query.kind.admits row tables.checkpointed
  wanted : query.options.includeIgnored ∨
    ¬tables.Ignores query.user ⟨query.kind.objectKind, row.id.global⟩ .grading
  due : query.options.withinWindow row.due
  waited : 0 < tables.waiting query.user row

section Rows

variable {tables : Tables} {shard : ShardId} {courses : List CourseId} {course : CourseId}
  (asked : course ∈ courses) (home : course.shard = shard)
include asked home

theorem Tables.mem_enrollmentsOn_iff {row : Enrollment} (own : row.course = course) :
    row ∈ tables.enrollmentsOn shard courses ↔ row ∈ tables.enrollments := by
  subst own
  simp [enrollmentsOn, List.mem_filter, asked, home]

namespace Roster

variable {grader student : UserId}

theorem mem_graderRows {own : Enrollment} :
    own ∈ graderRows ⟨grader, tables.enrollmentsOn shard courses⟩ course ↔
      own ∈ tables.enrollments ∧ own.IsOf grader course := by
  simp only [graderRows, List.mem_filter, Bool.and_eq_true, decide_eq_true_eq, Enrollment.IsOf]
  constructor
  · rintro ⟨member, ⟨active, mine⟩, own⟩
    exact ⟨(Tables.mem_enrollmentsOn_iff asked home own).mp member, active, mine, own⟩
  · rintro ⟨member, active, mine, own⟩
    exact ⟨(Tables.mem_enrollmentsOn_iff asked home own).mpr member, ⟨active, mine⟩, own⟩

theorem mem_studentRows {row : Enrollment} :
    row ∈ studentRows ⟨grader, tables.enrollmentsOn shard courses⟩ course student ↔
      student ≠ grader ∧ row ∈ tables.enrollments ∧ row.IsStudentOf student course := by
  simp only [studentRows, List.mem_filter, Bool.and_eq_true, decide_eq_true_eq, Enrollment.IsStudentOf,
    Enrollment.IsOf]
  constructor
  · rintro ⟨member, ⟨⟨⟨active, other⟩, role⟩, own⟩, rfl⟩
    exact ⟨other, (Tables.mem_enrollmentsOn_iff asked home own).mp member, ⟨active, rfl, own⟩, role⟩
  · rintro ⟨other, member, ⟨active, rfl, own⟩, role⟩
    exact ⟨(Tables.mem_enrollmentsOn_iff asked home own).mpr member,
      ⟨⟨⟨active, other⟩, role⟩, own⟩, rfl⟩

theorem admits_iff :
    admits ⟨grader, tables.enrollmentsOn shard courses⟩ course student = true ↔
      student ≠ grader ∧ (∃ row ∈ tables.enrollments, row.IsStudentOf student course) ∧
        tables.MaySee grader student course := by
  have enrolled : (!(studentRows ⟨grader, tables.enrollmentsOn shard courses⟩ course student).isEmpty)
      = true ↔ student ≠ grader ∧ ∃ row ∈ tables.enrollments, row.IsStudentOf student course := by
    simp only [Bool.not_eq_true', List.isEmpty_eq_false_iff_exists_mem, mem_studentRows asked home]
    exact ⟨fun ⟨row, other, member⟩ => ⟨other, row, member⟩,
      fun ⟨other, row, member⟩ => ⟨row, other, member⟩⟩
  have unlimited : isUnlimited ⟨grader, tables.enrollmentsOn shard courses⟩ course = true ↔
      (∀ own ∈ tables.enrollments, ¬own.IsOf grader course) ∨
        ∃ own ∈ tables.enrollments, own.IsOf grader course ∧ own.limitedToSection = false := by
    simp only [isUnlimited, Bool.or_eq_true, List.isEmpty_iff, List.eq_nil_iff_forall_not_mem,
      List.any_eq_true, mem_graderRows asked home, Bool.not_eq_true', not_and, and_assoc]
  have shared : ((graderRows ⟨grader, tables.enrollmentsOn shard courses⟩ course).any fun own =>
      (studentRows ⟨grader, tables.enrollmentsOn shard courses⟩ course student).any fun row =>
        row.courseSection = own.courseSection) = true ↔
      ∃ own ∈ tables.enrollments, own.IsOf grader course ∧ student ≠ grader ∧
        ∃ row ∈ tables.enrollments, row.IsStudentOf student course ∧
          row.courseSection = own.courseSection := by
    simp only [List.any_eq_true, mem_graderRows asked home, mem_studentRows asked home,
      decide_eq_true_eq, and_assoc, exists_and_left]
  rw [admits, Bool.and_eq_true, Bool.or_eq_true, enrolled, unlimited, shared, Tables.MaySee, and_assoc]
  constructor
  · rintro ⟨other, student, (none | free) | ⟨own, member, mine, -, together⟩⟩
    · exact ⟨other, student, .inl none⟩
    · exact ⟨other, student, .inr (.inl free)⟩
    · exact ⟨other, student, .inr (.inr ⟨own, member, mine, together⟩)⟩
  · rintro ⟨other, student, none | free | ⟨own, member, mine, together⟩⟩
    · exact ⟨other, student, .inl (.inl none)⟩
    · exact ⟨other, student, .inl (.inr free)⟩
    · exact ⟨other, student, .inr ⟨own, member, mine, other, together⟩⟩

end Roster

end Rows

namespace Grading

variable {query : Grading} {deployment : Deployment} {shard : ShardId} {courses : List CourseId}

theorem countP_pendingOn {row : Assignment} (asked : row.course ∈ courses)
    (course : row.course.shard = shard) (own : row.id.shard = shard) :
    (deployment.tables.pendingOn shard).countP
        (counts ⟨query.user, deployment.tables.enrollmentsOn shard courses⟩
          (query.gradedOn deployment shard) row) =
      deployment.tables.waiting query.user row := by
  rw [Tables.pendingOn, Tables.submissionsOn, List.filter_filter, List.countP_filter, Tables.waiting]
  refine List.countP_congr fun submission _ => ?_
  have graded (stored : submission.id.shard = shard) :
      submission.id ∈ query.gradedOn deployment shard ↔
        ⟨submission.id, query.user⟩ ∈ deployment.tables.provisionalGrades := by
    simp only [gradedOn, Tables.gradesOn, List.mem_map, List.mem_filter, decide_eq_true_eq]
    constructor
    · rintro ⟨grade, ⟨⟨member, -⟩, mine⟩, same⟩
      rwa [← mine, ← same]
    · intro member
      exact ⟨_, ⟨⟨member, stored⟩, rfl⟩, rfl⟩
  simp only [counts, Bool.and_eq_true, decide_eq_true_eq, Roster.admits_iff asked course,
    Bool.not_eq_true', Bool.and_eq_false_iff, List.contains_eq_mem, decide_eq_false_iff_not,
    Option.all_none, and_true, Tables.WaitsFor, own]
  constructor
  · rintro ⟨⟨⟨same, other, student, seen⟩, unmarked⟩, ⟨active, waits⟩, stored⟩
    refine ⟨stored, same, active, waits, other, student, seen, ?_⟩
    rintro ⟨awaits, marked⟩
    rcases unmarked with never | missing
    · rw [awaits] at never
      cases never
    · exact missing ((graded stored).mpr marked)
  · rintro ⟨stored, same, active, waits, other, student, seen, unmarked⟩
    refine ⟨⟨⟨same, other, student, seen⟩, ?_⟩, ⟨active, waits⟩, stored⟩
    cases awaits : row.awaitsModeration with
    | false => exact .inl rfl
    | true => exact .inr fun marked => unmarked ⟨awaits, (graded stored).mp marked⟩

theorem mem_candidates_iff (distinct : (deployment.tables.assignments.map (·.id)).Nodup)
    (owned : ∀ course ∈ courses, course.shard = shard) {row : Assignment} :
    row ∈ query.candidates deployment
        (deployment.ignored query.user query.kind.objectKind .grading query.options) shard courses ↔
      row.course ∈ courses ∧ row ∈ deployment.tables.assignments ∧ row.id.shard = row.course.shard ∧
        row.isPublished ∧ row.expectsSubmission ∧
        query.kind.admits row deployment.tables.checkpointed ∧
        (query.options.includeIgnored ∨
          ¬deployment.tables.Ignores query.user ⟨query.kind.objectKind, row.id.global⟩ .grading) ∧
        query.options.withinWindow row.due := by
  have rows : (((deployment.tables.assignmentsOn shard
      { courses := courses, subAssignments := query.kind = .subAssignment }).filter
        (query.isCandidate (deployment.ignored query.user query.kind.objectKind .grading query.options)
          (deployment.tables.checkpointCoursesOn shard courses))).map (·.id)).Nodup :=
    distinct.sublist ((List.filter_sublist.trans List.filter_sublist).map _)
  have admits (asked : row.course ∈ courses) :
      query.kind.admits row (deployment.tables.checkpointCoursesOn shard courses) =
        query.kind.admits row deployment.tables.checkpointed :=
    AssignmentKind.admits_checkpointCoursesOn_eq asked (owned row.course asked)
  rw [candidates, Ranked.mem_indexBy_of_nodup rows, List.mem_filter, Tables.assignmentsOn,
    List.mem_filter]
  simp only [isCandidate, AssignmentQuery.admits, Bool.and_eq_true, decide_eq_true_eq, beq_iff_eq,
    Bool.not_eq_true', Bool.not_false, Bool.true_or, and_true, Deployment.contains_ignored]
  simp only [List.contains_eq_mem, decide_eq_true_eq]
  constructor
  · rintro ⟨⟨member, own, ⟨asked, published⟩, -⟩, ⟨⟨admitted, expected⟩, kept⟩, due⟩
    rw [admits asked] at admitted
    exact ⟨asked, member, own.trans (owned _ asked).symm, published, expected, admitted, kept, due⟩
  · rintro ⟨asked, member, home, published, expected, admitted, kept, due⟩
    refine ⟨⟨member, home.trans (owned _ asked), ⟨asked, published⟩,
      AssignmentKind.half_of_admits admitted⟩, ⟨⟨?_, expected⟩, kept⟩, due⟩
    rwa [admits asked]

theorem mem_found_iff (distinct : (deployment.tables.assignments.map (·.id)).Nodup)
    (owned : ∀ course ∈ courses, course.shard = shard) {item : AssignmentTodo} :
    item ∈ query.found deployment
        (deployment.ignored query.user query.kind.objectKind .grading query.options) shard courses ↔
      item.assignment ∈ query.candidates deployment
        (deployment.ignored query.user query.kind.objectKind .grading query.options) shard courses ∧
      0 < deployment.tables.waiting query.user item.assignment ∧
      item = ⟨item.assignment, item.assignment.due,
        some (deployment.tables.waiting query.user item.assignment)⟩ := by
  have made {row : Assignment} (candidate : row ∈ query.candidates deployment
      (deployment.ignored query.user query.kind.objectKind .grading query.options) shard courses) :
      item? ⟨query.user, deployment.tables.enrollmentsOn shard courses⟩
        (query.gradedOn deployment shard) (deployment.tables.pendingOn shard) row =
        if 0 < deployment.tables.waiting query.user row then
          some ⟨row, row.due, some (deployment.tables.waiting query.user row)⟩
        else none := by
    obtain ⟨asked, -, home, -⟩ := (mem_candidates_iff distinct owned).mp candidate
    simp only [item?, countP_pendingOn asked (owned _ asked) (home.trans (owned _ asked))]
  rw [found, List.mem_filterMap]
  constructor
  · rintro ⟨row, candidate, listed⟩
    rw [made candidate] at listed
    split at listed
    · cases listed
      exact ⟨candidate, ‹_›, rfl⟩
    · cases listed
  · rintro ⟨candidate, waited, same⟩
    refine ⟨item.assignment, candidate, ?_⟩
    rw [made candidate, if_pos waited, ← same]

theorem nodup_found (ignored : List GlobalId) :
    (query.found deployment ignored shard courses).Nodup := by
  refine (Ranked.nodup_map_indexBy _).of_map.filterMap fun first second item firstMade secondMade => ?_
  rw [← assignment_of_item? firstMade, assignment_of_item? secondMade]

end Grading

namespace NeedsQuery

variable {deployment : Deployment} {kind : AssignmentKind} {user : UserId} {options : NeedsOptions}

theorem nodup_found_grading {courses : List CourseId} {groups : ShardPartition GroupId}
    (ignored : List GlobalId) :
    ((NeedsQuery.grading kind).found deployment user options ⟨.ofList courses, groups⟩
      ignored).Nodup := by
  have shardOf {part : ShardId × List CourseId} (isPart : part ∈ (ShardPartition.ofList courses).parts)
      {item : AssignmentTodo}
      (listed : item ∈ Grading.found ⟨kind, user, options⟩ deployment ignored part.1 part.2) :
      item.assignment.course.shard = part.1 :=
    ShardPartition.shard_of_mem isPart (Grading.row_of_found listed).1
  refine List.nodup_flatMap.mpr ⟨fun part _ => Grading.nodup_found ignored, ?_⟩
  have shards : (ShardPartition.ofList courses).parts.Pairwise fun first second =>
      first.1 ≠ second.1 :=
    List.pairwise_map.mp (ShardPartition.nodup_ofList courses)
  refine shards.imp_of_mem fun {first second} firstPart secondPart differ item inFirst inSecond => ?_
  exact differ ((shardOf firstPart inFirst).symm.trans (shardOf secondPart inSecond))

theorem mem_found_grading (distinct : (deployment.tables.assignments.map (·.id)).Nodup)
    {courses : List CourseId} {groups : ShardPartition GroupId} {item : AssignmentTodo} :
    item ∈ (NeedsQuery.grading kind).found deployment user options ⟨.ofList courses, groups⟩
        (deployment.ignored user kind.objectKind .grading options) ↔
      Grading.Lists ⟨kind, user, options⟩ deployment.tables ⟨.ofList courses, groups⟩
        item.assignment ∧
      item = ⟨item.assignment, item.assignment.due,
        some (deployment.tables.waiting user item.assignment)⟩ := by
  let query : Grading := ⟨kind, user, options⟩
  have owned {part : ShardId × List CourseId} (isPart : part ∈ (ShardPartition.ofList courses).parts) :
      ∀ course ∈ part.2, course.shard = part.1 :=
    fun course member => ShardPartition.shard_of_mem isPart member
  constructor
  · intro listed
    obtain ⟨part, isPart, found⟩ := List.mem_flatMap.mp listed
    obtain ⟨candidate, waited, same⟩ :=
      (query.mem_found_iff distinct (owned isPart)).mp found
    obtain ⟨asked, stored, home, published, expected, admitted, wanted, due⟩ :=
      (query.mem_candidates_iff distinct (owned isPart)).mp candidate
    exact ⟨⟨stored, ShardPartition.mem_toList isPart asked, home, published, expected, admitted, wanted,
      due, waited⟩, same⟩
  · rintro ⟨lists, same⟩
    obtain ⟨part, isPart, asked⟩ := List.mem_flatMap.mp lists.covered
    refine List.mem_flatMap.mpr ⟨part, isPart, ?_⟩
    refine (query.mem_found_iff distinct (owned isPart)).mpr ⟨?_, lists.waited, same⟩
    exact (query.mem_candidates_iff distinct (owned isPart)).mpr ⟨asked, lists.stored, lists.home,
      lists.published, lists.expected, lists.admitted, lists.wanted, lists.due⟩

/-- Where assignment ids are unique, a grading query of a resolved scope lists the assignments that
the tables list for the grader, each once with the number of submissions that wait for the grader, and
in strictly ascending order. With no outage there is such a scope. -/
theorem grading_counts (deployment : Deployment) (kind : AssignmentKind) (user : UserId)
    (options : NeedsOptions) (distinct : (deployment.tables.assignments.map (·.id)).Nodup)
    (enabled : deployment.config.gradingDisabled = false) (online : deployment.offline = []) :
    (deployment.outages = [] →
      ∃ scope, ((NeedsQuery.grading kind).scope deployment user options).outcome = .ok scope) ∧
    ∀ scope, ((NeedsQuery.grading kind).scope deployment user options).outcome = .ok scope →
      ∃ items : List AssignmentTodo,
        ((NeedsQuery.grading kind).load deployment user options [] none).outcome = .ok items ∧
        items.Pairwise (fun earlier later => Listed.noLater later earlier = false) ∧
        ∀ item, item ∈ items ↔
          Grading.Lists ⟨kind, user, options⟩ deployment.tables scope item.assignment ∧
            item = ⟨item.assignment, item.assignment.due,
              some (deployment.tables.waiting user item.assignment)⟩ := by
  refine ⟨fun working => Scope.outcome_resolve_served working user _, fun scope resolved => ?_⟩
  obtain ⟨courses, groups, rfl⟩ := Scope.spread_of_resolve resolved
  let found : List AssignmentTodo := (NeedsQuery.grading kind).found deployment user options
    ⟨.ofList courses, .ofList groups⟩ (deployment.ignored user kind.objectKind .grading options)
  have listed : ((NeedsQuery.grading kind).load deployment user options [] none).outcome =
      .ok (Listed.sort found) := by
    rw [outcome_load, outcome_run_enabled (isDisabled_eq_false _ enabled), resolved, Except.bind,
      outcome_list, access_online online]
    rfl
  have apart : Listed.ToldApart found := by
    intro first firstFound second secondFound same
    obtain ⟨firstLists, firstMade⟩ := (mem_found_grading distinct).mp firstFound
    obtain ⟨secondLists, secondMade⟩ := (mem_found_grading distinct).mp secondFound
    have sameId : first.assignment.id = second.assignment.id := congrArg Id.mk same
    have sameRow := List.inj_on_of_nodup_map distinct firstLists.stored secondLists.stored sameId
    rw [firstMade, secondMade, sameRow]
  refine ⟨_, listed, Listed.sort_strict apart (nodup_found_grading _), fun item => ?_⟩
  exact ((List.mergeSort_perm found Listed.noLater).mem_iff).trans (mem_found_grading distinct)

def splitClass : Deployment :=
  let first : UserId := ⟨sampleId 7⟩
  let second : UserId := ⟨sampleId 8⟩
  let work (id : Nat) (student : UserId) : Submission :=
    ⟨⟨sampleId id⟩, essay.id, student, .submitted, some .onlineTextEntry, false, false, false, none⟩
  { gradedClass.deployment with
    tables := { gradedClass.deployment.tables with
      submissions := [work 100 first, work 101 second, work 102 classUser]
      enrollments := [⟨first, lecture, ⟨sampleId 3⟩, .student, .active, false⟩,
        ⟨second, lecture, ⟨sampleId 4⟩, .student, .active, false⟩,
        ⟨classUser, lecture, ⟨sampleId 3⟩, .ta, .active, true⟩] } }

/-- One of three submissions counts. -/
theorem grading_counts_sections :
    ∃ items : List AssignmentTodo, ((NeedsQuery.grading .assignment).load splitClass classUser hundred []
      none).outcome = .ok items ∧ essayItem ∈ items := by
  obtain ⟨-, counted⟩ := grading_counts splitClass .assignment classUser hundred (by decide) rfl rfl
  obtain ⟨items, listed, -, exactly⟩ := counted gradingScope rfl
  have waiting : splitClass.tables.waiting classUser essay = 1 := by decide
  refine ⟨items, listed, (exactly essayItem).mpr ⟨?_, ?_⟩⟩
  · exact {
      stored := List.mem_singleton_self _
      covered := by decide
      home := rfl
      published := rfl
      expected := rfl
      admitted := rfl
      wanted := .inr (by rintro ⟨row, member, -⟩; cases member)
      due := rfl
      waited := by
        change 0 < splitClass.tables.waiting classUser essay
        omega }
  · change essayItem = ⟨essay, none, some (splitClass.tables.waiting classUser essay)⟩
    rw [waiting]
    rfl

end NeedsQuery

end Agenda
