import Agenda.Proofs.Needs.Criteria
import Agenda.Proofs.Needs.Restricted

/-!
The assignments that wait for a final grader, told from the tables alone. Which row stands for an id,
and that only the submissions to the candidates are read, makes no difference where ids are unique.
-/

namespace Agenda

def Tables.ProvisionallyGraded (tables : Tables) (assignment : AssignmentId) : Prop :=
  ∃ row ∈ tables.submissions, row.id.shard = assignment.shard ∧ row.assignment = assignment ∧
    row.isActive ∧ row.needsGrading ∧ ∃ grade ∈ tables.provisionalGrades, grade.submission = row.id

instance (tables : Tables) (assignment : AssignmentId) :
    Decidable (tables.ProvisionallyGraded assignment) :=
  inferInstanceAs (Decidable (∃ row ∈ tables.submissions, _))

namespace Moderation

/-- An assignment of a scope whose final grades the user has to choose, if the course allows it. -/
@[mk_iff]
structure Lists (query : Moderation) (tables : Tables) (scope : Scope) (row : Assignment) : Prop where
  offered : scope.Offers row
  whole : row.isSubAssignment = false
  expected : row.expectsSubmission
  provisional : row.awaitsModeration
  chooser : row.finalGrader = some query.user
  due : query.options.withinWindow row.due
  wanted : query.options.includeIgnored ∨
    ¬tables.Ignores query.user ⟨.assignment, row.id.global⟩ .moderation
  graded : tables.ProvisionallyGraded row.id

instance (query : Moderation) (tables : Tables) (scope : Scope) (row : Assignment) :
    Decidable (query.Lists tables scope row) :=
  decidable_of_iff _ (lists_iff query tables scope row).symm

variable {query : Moderation} {deployment : Deployment} {scope : Scope} {shard : ShardId}
  {courses : List CourseId} {row : Assignment}

theorem isGraded_iff (home : row.id.shard = shard) :
    isGraded deployment shard row.id = true ↔ deployment.tables.ProvisionallyGraded row.id := by
  simp only [isGraded, Tables.pendingOn, Tables.submissionsOn, Tables.gradesOn, List.any_eq_true,
    List.mem_filter, Bool.and_eq_true, decide_eq_true_eq, Option.all_none, and_true,
    Tables.ProvisionallyGraded, home]
  constructor
  · rintro ⟨other, ⟨⟨member, here⟩, active, waits⟩, same, grade, ⟨graded, -⟩, own⟩
    exact ⟨other, member, here, same, active, waits, grade, graded, own⟩
  · rintro ⟨other, member, here, same, active, waits, grade, graded, own⟩
    exact ⟨other, ⟨⟨member, here⟩, active, waits⟩, same, grade, ⟨graded, by rw [own, here]⟩, own⟩

theorem found_perm (distinct : deployment.tables.DistinctIds)
    (owned : ∀ course ∈ courses, course.shard = shard)
    (covered : ∀ course ∈ courses, course ∈ scope.courses.toList) :
    (query.found deployment
        (deployment.ignored query.user .assignment .moderation query.options) shard courses).Perm
      ((deployment.tables.assignments.filter fun row =>
        courses.contains row.course && query.Lists deployment.tables scope row).map fun row =>
          ⟨row, row.due, none⟩) := by
  have candidates : (query.candidatesOn deployment
      (deployment.ignored query.user .assignment .moderation query.options) shard courses).Perm
        ((deployment.tables.assignmentsOn shard
          { courses := courses, subAssignments := false, awaitingModeration := true }).filter
            (query.isCandidate
              (deployment.ignored query.user .assignment .moderation query.options))) :=
    Ranked.indexBy_perm_rows (distinct.assignmentsOn ..)
  rw [found, query.filter_gradedOn _ _ _ _ distinct.pending]
  refine ((candidates.filter _).map _).trans (.of_eq (congrArg (List.map _) ?_))
  rw [Tables.assignmentsOn, List.filter_filter, List.filter_filter]
  refine List.filter_congr fun row _ => ?_
  by_cases asked : row.course ∈ courses
  swap
  · simp [AssignmentQuery.admits, asked]
  by_cases home : row.id.shard = shard
  swap
  · have away : ¬query.Lists deployment.tables scope row := fun lists =>
      home (lists.offered.home.trans (owned _ asked))
    simp [home, away]
  rw [Bool.eq_iff_iff]
  simp only [isCandidate, AssignmentQuery.admits, Bool.and_eq_true, decide_eq_true_eq, beq_iff_eq,
    Bool.not_eq_true', Deployment.contains_ignored, isGraded_iff home, Bool.not_true,
    Bool.false_or]
  simp only [List.contains_eq_mem, decide_eq_true_eq]
  constructor
  · rintro ⟨⟨graded, ⟨⟨⟨expected, provisional⟩, chooser⟩, wanted⟩, due⟩, -, ⟨⟨-, published⟩, whole⟩, -⟩
    exact ⟨asked, ⟨covered _ asked, home.trans (owned _ asked).symm, published⟩, whole, expected,
      provisional, chooser, due, wanted, graded⟩
  · rintro ⟨-, lists⟩
    exact ⟨⟨lists.graded, ⟨⟨⟨lists.expected, lists.provisional⟩, lists.chooser⟩, lists.wanted⟩,
      lists.due⟩, home, ⟨⟨asked, lists.offered.published⟩, lists.whole⟩, lists.provisional⟩

theorem flatMap_found_perm (distinct : deployment.tables.DistinctIds) (groups : ShardPartition GroupId) :
    ((ShardPartition.ofList courses).parts.flatMap fun part => query.found deployment
        (deployment.ignored query.user .assignment .moderation query.options) part.1 part.2).Perm
      ((deployment.tables.assignments.filter fun row =>
        query.Lists deployment.tables ⟨.ofList courses, groups⟩ row).map fun row =>
          ⟨row, row.due, none⟩) := by
  refine ShardPartition.flatMap_perm_of_parts Assignment.course (fun row listed => ?_) fun part isPart => ?_
  · exact ShardPartition.mem_toList_ofList.mp (of_decide_eq_true listed).offered.covered
  · exact query.found_perm distinct (fun course member => ShardPartition.shard_of_mem isPart member)
      fun course member => ShardPartition.mem_toList isPart member

end Moderation

end Agenda
