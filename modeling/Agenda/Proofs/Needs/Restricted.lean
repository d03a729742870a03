import Agenda.Proofs.Needs.Rows

/-!
Fewer courses and a narrower window. What a query finds on a shard for some of the courses, with a
window, is what it finds for all of them without one, restricted to these courses and the window. For
that a row must stand for its id alone, and a request must belong to the course of its assignment.
-/

namespace Agenda

namespace NeedsOptions

variable (options : NeedsOptions)

def unrestricted : NeedsOptions :=
  { options with
    dueAfter := none
    dueBefore := none
    includeIgnored := true
    courses := none
    groups := none
    contexts := none }

@[simp] theorem withinWindow_unrestricted (due : Option Instant) :
    options.unrestricted.withinWindow due = true :=
  rfl

def admits : Context → Bool
  | .course id => (options.courses.all fun ids => ids.contains id) &&
      options.contexts.all fun contexts => contexts.contains (.course id)
  | .group id => (options.groups.all fun ids => ids.contains id) &&
      options.contexts.all fun contexts => contexts.contains (.group id)

end NeedsOptions

section Rows

variable {ι κ : Type}

theorem contains_filter [DecidableEq κ] (elements : List κ) (keep : κ → Bool) (element : κ) :
    (elements.filter keep).contains element = (elements.contains element && keep element) := by
  rw [Bool.eq_iff_iff]
  simp

theorem filterMap_filter_eq {rows : List κ} {test : κ → Bool} {narrow wide : κ → Option ι}
    {passes : ι → Bool}
    (same : ∀ row ∈ rows, (if test row then narrow row else none) = (wide row).filter passes) :
    (rows.filter test).filterMap narrow = (rows.filterMap wide).filter passes := by
  rw [List.filterMap_filter, List.filter_filterMap]
  exact List.filterMap_congr same

theorem filter_ite_some {test ready narrow : Bool} {item : ι} {passes : ι → Bool}
    (same : passes item = (test && narrow)) :
    (if test then if ready && narrow then some item else none else none) =
      (if ready then some item else none).filter passes := by
  cases test <;> cases ready <;> cases narrow <;> simp [same, Option.filter]

theorem filter_eq_ite {made : Option ι} {passes : ι → Bool} {test : Bool}
    (same : ∀ item, made = some item → passes item = test) :
    made.filter passes = if test then made else none := by
  cases made with
  | none => simp
  | some item => simp [Option.filter, same item rfl]

theorem filter_filter_of_imp {rows : List κ} {first second : κ → Bool}
    (implies : ∀ row, second row = true → first row = true) :
    (rows.filter first).filter second = rows.filter second := by
  rw [List.filter_filter]
  refine List.filter_congr fun row _ => ?_
  cases passes : second row with
  | true => simp [implies row passes]
  | false => rfl

end Rows

namespace Tables

/-- No two assignments have the same id, and no two submissions. -/
structure DistinctIds (tables : Tables) : Prop where
  assignments : (tables.assignments.map (·.id)).Nodup
  submissions : (tables.submissions.map (·.id)).Nodup

/-- Every request belongs to the course of its assignment, and its submission to the assignment. -/
structure ReviewsCoherent (tables : Tables) : Prop where
  course : ∀ request ∈ tables.peerReviews, ∀ row ∈ tables.assignments,
    row.id = request.assignment → row.course = request.course
  assignment : ∀ request ∈ tables.peerReviews, ∀ row ∈ tables.submissions,
    row.id = request.submission → row.assignment = request.assignment

theorem DistinctIds.pending {tables : Tables} (distinct : tables.DistinctIds) :
    tables.PendingDistinct := fun _ firstRow _ secondRow _ _ same =>
  congrArg Submission.assignment
    (List.inj_on_of_nodup_map distinct.submissions firstRow secondRow same)

variable {tables : Tables} {shard : ShardId} {courses : List CourseId} (keep : CourseId → Bool)

theorem assignmentsOn_filter (half awaiting : Bool) :
    tables.assignmentsOn shard
        { courses := courses.filter keep, subAssignments := half, awaitingModeration := awaiting } =
      (tables.assignmentsOn shard
        { courses := courses, subAssignments := half, awaitingModeration := awaiting }).filter
          fun row => keep row.course := by
  simp only [assignmentsOn, AssignmentQuery.admits, contains_filter, List.filter_filter]
  refine List.filter_congr fun row _ => ?_
  cases keep row.course <;> simp

theorem contains_checkpointCoursesOn {id : CourseId} (kept : keep id = true) :
    (tables.checkpointCoursesOn shard (courses.filter keep)).contains id =
      (tables.checkpointCoursesOn shard courses).contains id := by
  rw [Bool.eq_iff_iff]
  simp only [checkpointCoursesOn, List.contains_eq_mem, decide_eq_true_eq, List.mem_map,
    List.mem_filter, Bool.and_eq_true]
  constructor
  · rintro ⟨row, ⟨⟨member, owned, listed, -⟩, splits⟩, rfl⟩
    exact ⟨row, ⟨⟨member, owned, listed⟩, splits⟩, rfl⟩
  · rintro ⟨row, ⟨⟨member, owned, listed⟩, splits⟩, rfl⟩
    exact ⟨row, ⟨⟨member, owned, listed, kept⟩, splits⟩, rfl⟩

theorem admits_checkpointCoursesOn (kind : AssignmentKind) {row : Assignment}
    (kept : keep row.course = true) :
    kind.admits row (tables.checkpointCoursesOn shard (courses.filter keep)) =
      kind.admits row (tables.checkpointCoursesOn shard courses) := by
  simp only [AssignmentKind.admits, contains_checkpointCoursesOn keep kept]

theorem enrollmentsOn_filter :
    tables.enrollmentsOn shard (courses.filter keep) =
      (tables.enrollmentsOn shard courses).filter fun row => keep row.course := by
  simp only [enrollmentsOn, contains_filter, List.filter_filter]
  refine List.filter_congr fun row _ => ?_
  cases keep row.course <;> simp

theorem admits_enrollmentsOn {grader : UserId} {course : CourseId} (kept : keep course = true)
    (student : UserId) :
    (Roster.mk grader (tables.enrollmentsOn shard (courses.filter keep))).admits course student =
      (Roster.mk grader (tables.enrollmentsOn shard courses)).admits course student := by
  have own : (Roster.mk grader (tables.enrollmentsOn shard (courses.filter keep))).graderRows course =
      (Roster.mk grader (tables.enrollmentsOn shard courses)).graderRows course := by
    rw [Roster.graderRows, Roster.graderRows, enrollmentsOn_filter]
    refine filter_filter_of_imp fun row counts => ?_
    simp only [Bool.and_eq_true, decide_eq_true_eq] at counts
    rw [counts.2, kept]
  have others :
      (Roster.mk grader (tables.enrollmentsOn shard (courses.filter keep))).studentRows course student =
        (Roster.mk grader (tables.enrollmentsOn shard courses)).studentRows course student := by
    rw [Roster.studentRows, Roster.studentRows, enrollmentsOn_filter]
    refine filter_filter_of_imp fun row counts => ?_
    simp only [Bool.and_eq_true, decide_eq_true_eq] at counts
    rw [counts.1.2, kept]
  simp only [Roster.admits, Roster.isUnlimited, own, others]

theorem isEnrolled_enrollmentsOn {course : CourseId} (kept : keep course = true) (user : UserId) :
    Reviews.isEnrolled (tables.enrollmentsOn shard (courses.filter keep)) course user =
      Reviews.isEnrolled (tables.enrollmentsOn shard courses) course user := by
  rw [Reviews.isEnrolled, Reviews.isEnrolled, enrollmentsOn_filter, List.any_filter]
  refine congrArg (List.any _) (funext fun row => ?_)
  by_cases own : row.course = course
  · simp [own, kept]
  · simp [own]

theorem quizzesOn_filter :
    tables.quizzesOn shard (courses.filter keep) =
      (tables.quizzesOn shard courses).filter fun row => keep row.course := by
  simp only [quizzesOn, contains_filter, List.filter_filter]
  refine List.filter_congr fun row _ => ?_
  cases keep row.course <;> simp

end Tables

namespace Submitting

variable (kind : AssignmentKind) (choice : SubmittingOptions) (user : UserId)
  (options : NeedsOptions) (deployment : Deployment) (shard : ShardId) (courses : List CourseId)
  (keep : CourseId → Bool)

theorem candidates_restrict :
    candidates ⟨kind, choice, user, options⟩ deployment [] shard (courses.filter keep) =
      (candidates ⟨kind, choice, user, options.unrestricted⟩ deployment [] shard courses).filter
        fun row => keep row.course := by
  rw [candidates, candidates, Tables.assignmentsOn_filter, List.filter_filter, List.filter_filter]
  refine List.filter_congr fun row _ => ?_
  cases kept : keep row.course with
  | true => simp [isCandidate, Tables.admits_checkpointCoursesOn keep kind kept]
  | false => simp

theorem found_restrict :
    found ⟨kind, choice, user, options⟩ deployment [] shard (courses.filter keep) =
      (found ⟨kind, choice, user, options.unrestricted⟩ deployment [] shard courses).filter
        fun item => keep item.assignment.course && options.withinWindow item.due := by
  rw [found, found, candidates_restrict]
  refine filterMap_filter_eq fun row _ => ?_
  simp only [item?, NeedsOptions.withinWindow_unrestricted, Bool.and_true]
  rw [Bool.and_right_comm]
  exact filter_ite_some rfl

end Submitting

namespace Quizzes

variable (choice : QuizOptions) (user : UserId) (options : NeedsOptions) (deployment : Deployment)
  (shard : ShardId) (courses : List CourseId) (keep : CourseId → Bool)

theorem found_restrict :
    found ⟨choice, user, options⟩ deployment [] shard (courses.filter keep) =
      (found ⟨choice, user, options.unrestricted⟩ deployment [] shard courses).filter
        fun item => keep item.quiz.course && options.withinWindow item.due := by
  have candidates : candidates ⟨choice, user, options⟩ deployment [] shard (courses.filter keep) =
      (candidates ⟨choice, user, options.unrestricted⟩ deployment [] shard courses).filter
        fun row => keep row.course := by
    rw [candidates, candidates, Tables.quizzesOn_filter]
    exact List.filter_comm ..
  rw [found, found, candidates]
  refine filterMap_filter_eq fun row _ => ?_
  simp only [item?, NeedsOptions.withinWindow_unrestricted, Bool.and_true]
  exact filter_ite_some rfl

end Quizzes

theorem Tables.DistinctIds.assignmentsOn {tables : Tables} (distinct : tables.DistinctIds)
    (shard : ShardId) (query : AssignmentQuery) (test : Assignment → Bool) :
    (((tables.assignmentsOn shard query).filter test).map (·.id)).Nodup :=
  distinct.assignments.sublist ((List.filter_sublist.trans List.filter_sublist).map _)

namespace Grading

theorem due_of_item? {roster : Roster} {graded : List SubmissionId} {pending : List Submission}
    {row : Assignment} {item : AssignmentTodo} (listed : item? roster graded pending row = some item) :
    item.due = row.due := by
  simp only [item?] at listed
  split at listed
  · cases listed
    rfl
  · cases listed

variable (kind : AssignmentKind) (user : UserId) (options : NeedsOptions) {deployment : Deployment}
  (shard : ShardId) (courses : List CourseId) (keep : CourseId → Bool)
  (distinct : deployment.tables.DistinctIds)
include distinct

theorem candidates_restrict :
    candidates ⟨kind, user, options⟩ deployment [] shard (courses.filter keep) =
      (candidates ⟨kind, user, options.unrestricted⟩ deployment [] shard courses).filter
        fun row => keep row.course && options.withinWindow row.due := by
  rw [candidates, candidates, ← Ranked.indexBy_filter_of_nodup (distinct.assignmentsOn ..),
    Tables.assignmentsOn_filter, List.filter_filter, List.filter_filter]
  refine congrArg _ (List.filter_congr fun row _ => ?_)
  cases kept : keep row.course with
  | true => simp [isCandidate, Tables.admits_checkpointCoursesOn keep kind kept, Bool.and_comm]
  | false => simp

/-- The submissions that count for an assignment stay the same. -/
theorem found_restrict :
    found ⟨kind, user, options⟩ deployment [] shard (courses.filter keep) =
      (found ⟨kind, user, options.unrestricted⟩ deployment [] shard courses).filter
        fun item => keep item.assignment.course && options.withinWindow item.due := by
  rw [found, found, candidates_restrict kind user options shard courses keep distinct]
  refine filterMap_filter_eq fun row _ => ?_
  rw [filter_eq_ite fun item made => by rw [assignment_of_item? made, due_of_item? made]]
  split
  · rename_i passes
    have kept : keep row.course = true := (Bool.and_eq_true_iff.mp passes).1
    have counted : counts ⟨user, deployment.tables.enrollmentsOn shard (courses.filter keep)⟩
        (gradedOn ⟨kind, user, options⟩ deployment shard) row =
          counts ⟨user, deployment.tables.enrollmentsOn shard courses⟩
            (gradedOn ⟨kind, user, options.unrestricted⟩ deployment shard) row := by
      funext submission
      simp only [counts, Tables.admits_enrollmentsOn keep kept, gradedOn]
    simp only [item?, counted]
  · rfl

end Grading

namespace Moderation

variable (user : UserId) (options : NeedsOptions) {deployment : Deployment} (shard : ShardId)
  (courses : List CourseId) (keep : CourseId → Bool) (distinct : deployment.tables.DistinctIds)
include distinct

theorem candidatesOn_restrict :
    candidatesOn ⟨user, options⟩ deployment [] shard (courses.filter keep) =
      (candidatesOn ⟨user, options.unrestricted⟩ deployment [] shard courses).filter
        fun row => keep row.course && options.withinWindow row.due := by
  rw [candidatesOn, candidatesOn, ← Ranked.indexBy_filter_of_nodup (distinct.assignmentsOn ..),
    Tables.assignmentsOn_filter, List.filter_filter, List.filter_filter]
  refine congrArg _ (List.filter_congr fun row _ => ?_)
  cases keep row.course with
  | true => simp [isCandidate, Bool.and_comm]
  | false => simp

theorem found_restrict :
    found ⟨user, options⟩ deployment [] shard (courses.filter keep) =
      (found ⟨user, options.unrestricted⟩ deployment [] shard courses).filter
        fun item => keep item.assignment.course && options.withinWindow item.due := by
  rw [found, found, filter_gradedOn _ _ _ _ _ distinct.pending,
    filter_gradedOn _ _ _ _ _ distinct.pending,
    candidatesOn_restrict user options shard courses keep distinct, List.filter_map, List.filter_comm]
  rfl

end Moderation

namespace Reviews

variable (user : UserId) (options : NeedsOptions) {deployment : Deployment} {shard : ShardId}
  {courses : List CourseId} (keep : CourseId → Bool) (distinct : deployment.tables.DistinctIds)

theorem requested_restrict :
    requested ⟨user, options⟩ deployment false [] shard (courses.filter keep) =
      (requested ⟨user, options.unrestricted⟩ deployment false [] shard courses).filter
        fun row => keep row.course := by
  simp only [requested, contains_filter, List.filter_filter]
  refine List.filter_congr fun row _ => ?_
  cases keep row.course <;> simp

theorem mem_of_reviewedOn {row : Assignment} (reviewed : row ∈ reviewedOn deployment shard courses) :
    row ∈ deployment.tables.assignments :=
  (List.mem_filter.mp (List.mem_filter.mp (Ranked.mem_of_mem_indexBy reviewed)).1).1

section

include distinct

theorem reviewedOn_restrict :
    reviewedOn deployment shard (courses.filter keep) =
      (reviewedOn deployment shard courses).filter fun row => keep row.course := by
  rw [reviewedOn, reviewedOn, ← Ranked.indexBy_filter_of_nodup (distinct.assignmentsOn ..),
    Tables.assignmentsOn_filter, List.filter_comm]

theorem find?_activeOn (coherent : deployment.tables.ReviewsCoherent) {request : PeerReview}
    (listed : request ∈ deployment.tables.peerReviews)
    (reviewed : request.assignment ∈ (reviewedOn deployment shard courses).map (·.id)) :
    (activeOn deployment shard courses).find? (fun row => row.id = request.submission) =
      (indexBy (·.id) ((deployment.tables.submissionsOn shard none).filter
        Submission.isActive)).find? fun row => row.id = request.submission := by
  have ids : (((deployment.tables.submissionsOn shard none).filter Submission.isActive).map
      (·.id)).Nodup :=
    distinct.submissions.sublist ((List.filter_sublist.trans List.filter_sublist).map _)
  rw [activeOn, List.filter_comm, Ranked.indexBy_filter_of_nodup ids, List.find?_filter]
  refine List.find?_congr fun row indexed => ?_
  by_cases own : row.id = request.submission
  · have member : row ∈ deployment.tables.submissions :=
      (List.mem_filter.mp (List.mem_filter.mp (Ranked.mem_of_mem_indexBy indexed)).1).1
    have same := coherent.assignment request listed row member own
    simp [own, same, List.mem_map.mp reviewed]
  · simp [own]

theorem find?_reviewedOn (coherent : deployment.tables.ReviewsCoherent) {request : PeerReview}
    (listed : request ∈ deployment.tables.peerReviews) (kept : keep request.course = true) :
    (reviewedOn deployment shard (courses.filter keep)).find?
        (fun row => row.id = request.assignment) =
      (reviewedOn deployment shard courses).find? fun row => row.id = request.assignment := by
  rw [reviewedOn_restrict keep distinct, List.find?_filter]
  refine List.find?_congr fun row reviewed => ?_
  by_cases own : row.id = request.assignment
  · have same := coherent.course request listed row (mem_of_reviewedOn reviewed) own
    simp [own, same, kept]
  · simp [own]

theorem item?_restrict (coherent : deployment.tables.ReviewsCoherent) {request : PeerReview}
    (listed : request ∈ deployment.tables.peerReviews) :
    (if keep request.course then
      item? ⟨user, options⟩ (reviewedOn deployment shard (courses.filter keep))
        (activeOn deployment shard (courses.filter keep))
        (deployment.tables.enrollmentsOn shard (courses.filter keep)) request
    else none) =
      (item? ⟨user, options.unrestricted⟩ (reviewedOn deployment shard courses)
        (activeOn deployment shard courses) (deployment.tables.enrollmentsOn shard courses)
        request).filter fun item => keep item.request.course && options.withinWindow item.due := by
  cases kept : keep request.course with
  | false =>
      rw [filter_eq_ite fun item made => by rw [request_of_item? _ made, kept, Bool.false_and]]
      rfl
  | true =>
      have assignment : (reviewedOn deployment shard (courses.filter keep)).find? _ =
          (reviewedOn deployment shard courses).find? _ :=
        find?_reviewedOn keep distinct coherent listed kept
      simp only [item?, assignment, if_true, Tables.isEnrolled_enrollmentsOn keep kept,
        NeedsOptions.withinWindow_unrestricted, Bool.and_true]
      cases found : (reviewedOn deployment shard courses).find? fun row =>
          row.id = request.assignment with
      | none => rfl
      | some row =>
          have reviewed {ids : List CourseId}
              (among : (reviewedOn deployment shard ids).find? (fun row =>
                row.id = request.assignment) = some row) :
              request.assignment ∈ (reviewedOn deployment shard ids).map (·.id) :=
            List.mem_map.mpr ⟨row, List.mem_of_find?_eq_some among,
              by simpa using List.find?_some among⟩
          have submission := find?_activeOn distinct coherent listed (reviewed found)
          have same := find?_activeOn distinct coherent listed (reviewed (assignment.trans found))
          simp only [submission, same]
          cases (indexBy (·.id) ((deployment.tables.submissionsOn shard none).filter
            Submission.isActive)).find? fun row => row.id = request.submission with
          | none => rfl
          | some work => exact @filter_ite_some _ true _ _ _ _ (congrArg (· && _) kept)

variable (shard courses) in
theorem found_restrict (coherent : deployment.tables.ReviewsCoherent) :
    found ⟨user, options⟩ deployment [] shard (courses.filter keep) =
      (found ⟨user, options.unrestricted⟩ deployment [] shard courses).filter
        fun item => keep item.request.course && options.withinWindow item.due := by
  rw [found, found, requested_restrict]
  refine filterMap_filter_eq fun request requested => ?_
  exact item?_restrict user options keep distinct coherent
    (List.mem_filter.mp (List.mem_filter.mp requested).1).1

end

end Reviews

namespace Viewing

variable (user : UserId) (options : NeedsOptions) (deployment : Deployment) (shard : ShardId)
  (contexts : List Context) (keep : Context → Bool)

theorem foundTopics_restrict :
    foundTopics ⟨user, options⟩ deployment [] shard (contexts.filter keep) =
      (foundTopics ⟨user, options.unrestricted⟩ deployment [] shard contexts).filter
        fun topic => keep topic.context && options.withinWindow topic.toDo := by
  simp only [foundTopics, Tables.topicsOn, contains_filter, List.filter_filter, listsTopic, isDue,
    NeedsOptions.withinWindow_unrestricted]
  refine List.filter_congr fun topic _ => ?_
  cases keep topic.context <;> cases options.withinWindow topic.toDo <;> simp

theorem foundPages_restrict :
    foundPages ⟨user, options⟩ deployment [] shard (contexts.filter keep) =
      (foundPages ⟨user, options.unrestricted⟩ deployment [] shard contexts).filter
        fun page => keep page.context && options.withinWindow page.toDo := by
  simp only [foundPages, Tables.pagesOn, contains_filter, List.filter_filter, listsPage, isDue,
    NeedsOptions.withinWindow_unrestricted]
  refine List.filter_congr fun page _ => ?_
  cases keep page.context <;> cases options.withinWindow page.toDo <;> simp

end Viewing

end Agenda
