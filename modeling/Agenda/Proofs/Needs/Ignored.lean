import Agenda.Proofs.Needs.Listing

/-!
Ignores only take items off a list: what a query finds when some ids are left out is what it finds
otherwise, without the items of these ids.
-/

namespace Agenda

section Filters

variable {ι κ : Type}

theorem flatMap_filter {parts : List κ} {found all : κ → List ι} {keep : ι → Bool}
    (same : ∀ part ∈ parts, found part = (all part).filter keep) :
    parts.flatMap found = (parts.flatMap all).filter keep := by
  rw [List.filter_flatMap]
  exact List.flatMap_congr same

end Filters

namespace Submitting

variable (query : Submitting) (deployment : Deployment) (ignored : List GlobalId) (shard : ShardId)
  (courses : List CourseId)

theorem assignment_of_item? {now : Instant} {overrides : List DueDateOverride}
    {turnedIn : List AssignmentId} {row : Assignment} {item : AssignmentTodo}
    (listed : query.item? now overrides turnedIn row = some item) : item.assignment = row := by
  simp only [item?] at listed
  split at listed
  · cases listed
    rfl
  · cases listed

theorem found_filter :
    query.found deployment ignored shard courses =
      (query.found deployment [] shard courses).filter fun item =>
        !ignored.contains item.assignment.id.global := by
  have candidates : query.candidates deployment ignored shard courses =
      (query.candidates deployment [] shard courses).filter fun row =>
        !ignored.contains row.id.global := by
    rw [candidates, candidates, List.filter_filter]
    refine List.filter_congr fun row _ => ?_
    simp [isCandidate, Bool.and_comm]
  rw [found, found, candidates]
  refine filterMap_filter_of_agree (fun row item listed => ?_) _
  rw [query.assignment_of_item? listed]

end Submitting

namespace Grading

variable (query : Grading) (deployment : Deployment) (ignored : List GlobalId) (shard : ShardId)
  (courses : List CourseId)

theorem assignment_of_item? {roster : Roster} {graded : List SubmissionId} {pending : List Submission}
    {row : Assignment} {item : AssignmentTodo} (listed : item? roster graded pending row = some item) :
    item.assignment = row := by
  simp only [item?] at listed
  split at listed
  · cases listed
    rfl
  · cases listed

theorem found_filter :
    query.found deployment ignored shard courses =
      (query.found deployment [] shard courses).filter fun item =>
        !ignored.contains item.assignment.id.global := by
  have candidates : query.candidates deployment ignored shard courses =
      (query.candidates deployment [] shard courses).filter fun row =>
        !ignored.contains row.id.global := by
    rw [candidates, candidates]
    refine Eq.trans ?_ (Ranked.indexBy_filter (fun id : AssignmentId => !ignored.contains id.global) _)
    rw [List.filter_filter]
    refine congrArg _ (List.filter_congr fun row _ => ?_)
    simp only [isCandidate, List.contains_nil, Bool.not_false, Bool.and_true]
    ac_rfl
  rw [found, found, candidates]
  refine filterMap_filter_of_agree (fun row item listed => ?_) _
  rw [assignment_of_item? listed]

end Grading

namespace Quizzes

variable (query : Quizzes) (deployment : Deployment) (ignored : List GlobalId) (shard : ShardId)
  (courses : List CourseId)

theorem quiz_of_item? {now : Instant} {overrides : List DueDateOverride} {completed : List QuizId}
    {row : Quiz} {item : QuizTodo} (listed : query.item? now overrides completed row = some item) :
    item.quiz = row := by
  simp only [item?] at listed
  split at listed
  · cases listed
    rfl
  · cases listed

theorem found_filter :
    query.found deployment ignored shard courses =
      (query.found deployment [] shard courses).filter fun item =>
        !ignored.contains item.quiz.id.global := by
  have candidates : query.candidates deployment ignored shard courses =
      (query.candidates deployment [] shard courses).filter fun row =>
        !ignored.contains row.id.global := by
    rw [candidates, candidates, List.filter_filter]
    refine List.filter_congr fun row _ => ?_
    simp [isCandidate, Bool.and_comm]
  rw [found, found, candidates]
  refine filterMap_filter_of_agree (fun row item listed => ?_) _
  rw [query.quiz_of_item? listed]

end Quizzes

theorem Tables.PendingDistinct.assignment_eq {tables : Tables} (distinct : tables.PendingDistinct)
    {shard : ShardId} {first second : Submission} (firstPending : first ∈ tables.pendingOn shard)
    (secondPending : second ∈ tables.pendingOn shard) (same : first.id = second.id) :
    first.assignment = second.assignment := by
  have row {submission : Submission} (pending : submission ∈ tables.pendingOn shard) :
      submission ∈ tables.submissions ∧ (submission.isActive && submission.needsGrading) = true := by
    obtain ⟨owned, waits⟩ := List.mem_filter.mp pending
    exact ⟨(List.mem_filter.mp owned).1, waits⟩
  obtain ⟨firstRow, firstWaits⟩ := row firstPending
  obtain ⟨secondRow, secondWaits⟩ := row secondPending
  exact distinct first firstRow second secondRow firstWaits secondWaits same

namespace Moderation

variable (query : Moderation) (deployment : Deployment) (ignored : List GlobalId) (shard : ShardId)
  (courses : List CourseId)

theorem candidatesOn_filter :
    query.candidatesOn deployment ignored shard courses =
      (query.candidatesOn deployment [] shard courses).filter fun row =>
        !ignored.contains row.id.global := by
  rw [candidatesOn, candidatesOn]
  refine Eq.trans ?_ (Ranked.indexBy_filter (fun id : AssignmentId => !ignored.contains id.global) _)
  rw [List.filter_filter]
  refine congrArg _ (List.filter_congr fun row _ => ?_)
  simp only [isCandidate, List.contains_nil, Bool.not_false, Bool.and_true]
  ac_rfl

def isGraded (id : AssignmentId) : Bool :=
  (deployment.tables.pendingOn shard).any fun row =>
    row.assignment = id &&
      (deployment.tables.gradesOn shard).any fun grade => grade.submission = row.id

theorem mem_gradedOn (distinct : deployment.tables.PendingDistinct) {assignment : Assignment}
    (member : assignment ∈ query.candidatesOn deployment ignored shard courses) :
    assignment.id ∈ query.gradedOn deployment ignored shard courses ↔
      isGraded deployment shard assignment.id = true := by
  have pending {row : Submission}
      (indexed : row ∈ query.pendingOn deployment ignored shard courses) :
      row ∈ deployment.tables.pendingOn shard :=
    (List.mem_filter.mp (Ranked.mem_of_mem_indexBy indexed)).1
  simp only [gradedOn, provisionallyGraded, List.mem_filterMap, Option.map_eq_some_iff, isGraded,
    List.any_eq_true, Bool.and_eq_true, decide_eq_true_eq]
  constructor
  · rintro ⟨grade, graded, row, found, own⟩
    have same : row.id = grade.submission := by simpa using List.find?_some found
    exact ⟨row, pending (List.mem_of_find?_eq_some found), own, grade, graded, same.symm⟩
  · rintro ⟨row, waits, own, grade, graded, same⟩
    have asked : row ∈ (deployment.tables.pendingOn shard).filter fun row =>
        ((query.candidatesOn deployment ignored shard courses).map (·.id)).contains
          row.assignment := by
      rw [List.mem_filter, own, List.contains_eq_mem, decide_eq_true_eq]
      exact ⟨waits, List.mem_map_of_mem member⟩
    obtain ⟨other, indexed, key⟩ : ∃ other ∈ query.pendingOn deployment ignored shard courses,
        other.id = row.id := Ranked.exists_mem_indexBy asked
    have present : ((query.pendingOn deployment ignored shard courses).find? fun row =>
        row.id = grade.submission).isSome := by
      rw [List.find?_isSome]
      exact ⟨other, indexed, by simp [key, same]⟩
    obtain ⟨last, found⟩ := Option.isSome_iff_exists.mp present
    have lastKey : last.id = row.id := by
      rw [← same]
      simpa using List.find?_some found
    refine ⟨grade, graded, last, found, ?_⟩
    rw [distinct.assignment_eq (pending (List.mem_of_find?_eq_some found)) waits lastKey, own]

theorem filter_gradedOn (distinct : deployment.tables.PendingDistinct) :
    (query.candidatesOn deployment ignored shard courses).filter (fun row =>
      (query.gradedOn deployment ignored shard courses).contains row.id) =
    (query.candidatesOn deployment ignored shard courses).filter fun row =>
      isGraded deployment shard row.id := by
  refine List.filter_congr fun row member => ?_
  rw [Bool.eq_iff_iff, List.contains_eq_mem, decide_eq_true_eq]
  exact query.mem_gradedOn deployment ignored shard courses distinct member

theorem found_filter (distinct : deployment.tables.PendingDistinct) :
    query.found deployment ignored shard courses =
      (query.found deployment [] shard courses).filter fun item =>
        !ignored.contains item.assignment.id.global := by
  rw [found, found, query.filter_gradedOn _ _ _ _ distinct, query.filter_gradedOn _ _ _ _ distinct,
    candidatesOn_filter, List.filter_map, List.filter_comm]
  rfl

theorem not_ignored {item : AssignmentTodo}
    (listed : item ∈ query.found deployment ignored shard courses) :
    item.assignment.id.global ∉ ignored := by
  obtain ⟨row, kept, rfl⟩ := List.mem_map.mp listed
  have candidate := (List.mem_filter.mp kept).1
  rw [candidatesOn_filter] at candidate
  simpa using (List.mem_filter.mp candidate).2

end Moderation

namespace Reviews

variable (query : Reviews) (deployment : Deployment) (ignored : List GlobalId) (shard : ShardId)
  (courses : List CourseId)

theorem found_filter :
    query.found deployment ignored shard courses =
      (query.found deployment [] shard courses).filter fun item =>
        !ignored.contains item.request.id.global := by
  have requests : query.requested deployment false ignored shard courses =
      (query.requested deployment false [] shard courses).filter fun row =>
        !ignored.contains row.id.global := by
    simp [requested]
  rw [found, found, requests]
  refine filterMap_filter_of_agree (fun row item listed => ?_) _
  rw [query.request_of_item? listed]

end Reviews

namespace Viewing

variable (query : Viewing) (deployment : Deployment) (ignored : List GlobalId) (shard : ShardId)
  (contexts : List Context)

theorem foundTopics_filter :
    query.foundTopics deployment ignored shard contexts =
      (query.foundTopics deployment [] shard contexts).filter fun topic =>
        !ignored.contains topic.id.global := by
  rw [foundTopics, foundTopics, List.filter_filter]
  refine List.filter_congr fun topic _ => ?_
  simp [listsTopic, Bool.and_comm]

theorem foundPages_filter :
    query.foundPages deployment ignored shard contexts =
      (query.foundPages deployment [] shard contexts).filter fun page =>
        !ignored.contains page.id.global := by
  rw [foundPages, foundPages, List.filter_filter]
  refine List.filter_congr fun page _ => ?_
  simp [listsPage, Bool.and_comm]

end Viewing

namespace NeedsQuery

variable (query : NeedsQuery) (deployment : Deployment) (user : UserId) (options : NeedsOptions)
  (scope : Scope) (ignored : List GlobalId)

/-- Leaving ids out of what a query finds is leaving out their items; in moderation, where the rows
of a submission count once, as long as they belong to one assignment. -/
theorem found_filter (distinct : query = .moderation → deployment.tables.PendingDistinct) :
    query.found deployment user options scope ignored =
      (query.found deployment user options scope []).filter fun item =>
        !ignored.contains (Listed.id item) := by
  cases query with
  | submitting kind choice =>
      exact flatMap_filter fun part _ =>
        Submitting.found_filter ⟨kind, choice, user, options⟩ deployment ignored part.1 part.2
  | grading kind =>
      exact flatMap_filter fun part _ =>
        Grading.found_filter ⟨kind, user, options⟩ deployment ignored part.1 part.2
  | moderation =>
      exact flatMap_filter fun part _ =>
        Moderation.found_filter ⟨user, options⟩ deployment ignored part.1 part.2 (distinct rfl)
  | quizzes choice =>
      exact flatMap_filter fun part _ =>
        Quizzes.found_filter ⟨choice, user, options⟩ deployment ignored part.1 part.2
  | reviews =>
      exact flatMap_filter fun part _ =>
        Reviews.found_filter ⟨user, options⟩ deployment ignored part.1 part.2
  | topics =>
      exact flatMap_filter fun part _ =>
        Viewing.foundTopics_filter ⟨user, options⟩ deployment ignored part.1 part.2
  | pages =>
      exact flatMap_filter fun part _ =>
        Viewing.foundPages_filter ⟨user, options⟩ deployment ignored part.1 part.2

theorem not_ignored {item : query.Item}
    (listed : item ∈ query.found deployment user options scope ignored) :
    Listed.id item ∉ ignored := by
  by_cases moderates : query = .moderation
  · subst moderates
    obtain ⟨part, -, found⟩ := List.mem_flatMap.mp listed
    exact Moderation.not_ignored ⟨user, options⟩ deployment ignored part.1 part.2 found
  · rw [query.found_filter deployment user options scope ignored fun same => absurd same moderates]
      at listed
    simpa using (List.mem_filter.mp listed).2

end NeedsQuery

end Agenda
