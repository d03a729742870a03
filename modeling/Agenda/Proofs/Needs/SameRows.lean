import Agenda.Proofs.SameRows
import Agenda.Proofs.Scope

/-!
Queries do not depend on the order of rows: on a shard they find the same items in some order, sorting
leaves one order for them, and so the whole computation, its effort included, is the same.
-/

namespace Agenda

open Metered (Corresponds)

section Gathering

variable {κ ι : Type} [Listed ι] {step other : ShardId → List κ → Metered (List ι)}

theorem gatherParts_sameRows
    (alike : ∀ shard ids, Corresponds (SameRowsOn Listed.id shard) (step shard ids) (other shard ids))
    {parts : List (ShardId × List κ)} (distinct : (parts.map (·.1)).Nodup) :
    Corresponds (fun left right : List ι => left.Perm right ∧ (left.map Listed.id).Nodup ∧
        ∀ item ∈ left, (Listed.id item).shard ∈ parts.map (·.1))
      (gatherParts step parts) (gatherParts other parts) := by
  induction parts with
  | nil => exact .pure ⟨.refl _, List.nodup_nil, by simp⟩
  | cons part rest ih =>
      obtain ⟨shard, ids⟩ := part
      obtain ⟨fresh, restDistinct⟩ := List.nodup_cons.mp distinct
      refine .bind ((alike shard ids).onShard shard) fun first second own => ?_
      refine .bind (ih restDistinct) fun others further found => ?_
      obtain ⟨perm, once, elsewhere⟩ := found
      refine .pure ⟨own.perm.append perm, ?_, ?_⟩
      · rw [List.map_append, List.nodup_append]
        refine ⟨own.once, once, ?_⟩
        intro id inFirst same inOthers equal
        obtain ⟨item, listed, rfl⟩ := List.mem_map.mp inFirst
        obtain ⟨other, far, rfl⟩ := List.mem_map.mp inOthers
        have away := elsewhere other far
        rw [← equal, own.here item listed] at away
        exact fresh away
      · intro item listed
        rcases List.mem_append.mp listed with inFirst | inOthers
        · exact List.mem_cons.mpr (.inl (own.here item inFirst))
        · exact List.mem_cons_of_mem _ (elsewhere item inOthers)

theorem gather_sameRows
    (alike : ∀ shard ids, Corresponds (SameRowsOn Listed.id shard) (step shard ids) (other shard ids))
    {partition : ShardPartition κ} (distinct : (partition.parts.map (·.1)).Nodup) :
    gather partition step = gather partition other := by
  refine (gatherParts_sameRows alike distinct).bind_eq fun left right found => ?_
  obtain ⟨perm, once, -⟩ := found
  rw [Listed.sort_perm perm fun first firstListed second secondListed same =>
    List.inj_on_of_nodup_map once firstListed secondListed same]

end Gathering

section OnShard

variable {left right : Deployment} {ignored others : List GlobalId} {shard : ShardId}
  {courses : List CourseId}

theorem Submitting.onShard_sameRows (query : Submitting) (same : left.SameRows right)
    (ignores : ignored.Perm others) :
    Corresponds (SameRowsOn Listed.id shard) (query.onShard left ignored shard courses)
      (query.onShard right others shard courses) := by
  refine .bind (same.checkpointCourses shard courses) fun flagged flaggedOther flags => ?_
  refine .bind (same.readAssignments shard _) fun rows rowsOther read => ?_
  have tests : query.isCandidate others flaggedOther = query.isCandidate ignored flagged := by
    funext row
    simp only [isCandidate, AssignmentKind.admits, ignores.contains_eq, flags.contains_eq]
  have candidates := read.filter (query.isCandidate ignored flagged)
  simp only [tests]
  refine .ite candidates.perm.isEmpty_eq (.pure .nil) ?_
  refine .bind (same.readOverrides shard query.user (candidates.perm.map _))
    fun overrides overridesOther dates => ?_
  refine .bind (same.readSubmissions shard (candidates.perm.map _) _) fun sent sentOther work => ?_
  have items (row : Assignment) :
      query.item? right.now overridesOther ((sentOther.filter fun row =>
        row.isActive && row.isTurnedIn).map (·.assignment)) row =
      query.item? left.now overrides ((sent.filter fun row =>
        row.isActive && row.isTurnedIn).map (·.assignment)) row := by
    simp only [item?, dates, same.now, ((work.perm.filter _).map _).contains_eq]
  simp only [items]
  refine .pure (candidates.filterMap fun row item made => ?_)
  change item.assignment.id.global = row.id.global
  rw [query.assignment_of_item? made]

theorem Roster.admits_perm {enrollments further : List Enrollment} (perm : enrollments.Perm further)
    (grader : UserId) (course : CourseId) (student : UserId) :
    Roster.admits ⟨grader, enrollments⟩ course student =
      Roster.admits ⟨grader, further⟩ course student := by
  have own : (graderRows ⟨grader, enrollments⟩ course).Perm (graderRows ⟨grader, further⟩ course) :=
    perm.filter _
  have theirs : (studentRows ⟨grader, enrollments⟩ course student).Perm
      (studentRows ⟨grader, further⟩ course student) := perm.filter _
  simp only [admits, isUnlimited, own.isEmpty_eq, own.any_eq, theirs.isEmpty_eq, theirs.any_eq]

namespace Grading

variable (query : Grading)

theorem provisionallyGraded_sameRows (same : left.SameRows right) (assignments : List Assignment)
    {pending further : List Submission} (perm : pending.Perm further) :
    Corresponds List.Perm (query.provisionallyGraded left shard assignments pending)
      (query.provisionallyGraded right shard assignments further) := by
  have moderated := perm.filter fun row =>
    (assignmentOf? assignments row.assignment).any Assignment.awaitsModeration
  refine .ite moderated.isEmpty_eq (.pure (.refl _)) ?_
  refine .bind (same.readProvisionalGrades shard (moderated.map _)) fun grades gradesOther given => ?_
  exact .pure ((given.filter _).map _)

theorem item?_perm {grader : UserId} {enrollments enrollmentsOther : List Enrollment}
    {graded gradedOther : List SubmissionId} {pending pendingOther : List Submission}
    (roster : enrollments.Perm enrollmentsOther) (grades : graded.Perm gradedOther)
    (work : pending.Perm pendingOther) :
    item? ⟨grader, enrollments⟩ graded pending =
      item? ⟨grader, enrollmentsOther⟩ gradedOther pendingOther := by
  have counted : counts ⟨grader, enrollments⟩ graded =
      counts ⟨grader, enrollmentsOther⟩ gradedOther := by
    funext assignment row
    simp only [counts, Roster.admits_perm roster, grades.contains_eq]
  funext assignment
  simp only [item?, counted, work.countP_eq]

theorem onShard_sameRows (same : left.SameRows right) (ignores : ignored.Perm others) :
    Corresponds (SameRowsOn Listed.id shard) (query.onShard left ignored shard courses)
      (query.onShard right others shard courses) := by
  refine .bind (same.checkpointCourses shard courses) fun flagged flaggedOther flags => ?_
  refine .bind (same.readAssignments shard _) fun rows rowsOther read => ?_
  have tests : query.isCandidate others flaggedOther = query.isCandidate ignored flagged := by
    funext row
    simp only [isCandidate, AssignmentKind.admits, ignores.contains_eq, flags.contains_eq]
  have kept := read.filter (query.isCandidate ignored flagged)
  simp only [tests, ← kept.indexBy_eq]
  refine .ite rfl (.pure .nil) ?_
  refine .bind (same.readSubmissions shard (.refl _) _) fun sent sentOther work => ?_
  have pending := work.perm.filter fun row => row.isActive && row.needsGrading
  refine .ite pending.isEmpty_eq (.pure .nil) ?_
  refine .bind (same.readEnrollments shard courses) fun enrollments enrollmentsOther roster => ?_
  refine .bind (query.provisionallyGraded_sameRows same _ pending) fun graded gradedOther grades => ?_
  rw [item?_perm roster grades pending]
  refine .pure (kept.indexed.filterMap fun row item made => ?_)
  change item.assignment.id.global = row.id.global
  rw [assignment_of_item? made]

end Grading

theorem Moderation.onShard_sameRows (query : Moderation) (same : left.SameRows right)
    (ignores : ignored.Perm others) :
    Corresponds (SameRowsOn Listed.id shard) (query.onShard left ignored shard courses)
      (query.onShard right others shard courses) := by
  refine .bind (same.readAssignments shard _) fun rows rowsOther read => ?_
  have tests : query.isCandidate others = query.isCandidate ignored := by
    funext row
    simp only [isCandidate, ignores.contains_eq]
  have kept := read.filter (query.isCandidate ignored)
  simp only [tests, ← kept.indexBy_eq]
  refine .ite rfl (.pure .nil) ?_
  refine .bind (same.readSubmissions shard (.refl _) _) fun sent sentOther work => ?_
  have waiting := work.filter fun row => row.isActive && row.needsGrading
  simp only [← waiting.indexBy_eq]
  refine .ite rfl (.pure .nil) ?_
  refine .bind (same.readProvisionalGrades shard (.refl _)) fun grades gradesOther given => ?_
  have graded := given.filterMap fun grade => ((indexBy (·.id) (sent.filter fun row =>
    row.isActive && row.needsGrading)).find? fun row => row.id = grade.submission).map (·.assignment)
  simp only [provisionallyGraded, graded.contains_eq]
  exact .pure ((kept.indexed.filter _).map fun row => rfl)

theorem Quizzes.completed_sameRows (query : Quizzes) (same : left.SameRows right)
    {candidates further : List Quiz} (perm : candidates.Perm further) :
    Corresponds List.Perm (query.completed left shard candidates)
      (query.completed right shard further) := by
  refine .ite rfl ?_ (.pure (.refl _))
  refine .bind (same.readQuizAttempts shard query.user (perm.map _)) fun rows rowsOther attempts => ?_
  exact .pure ((attempts.filter _).map _)

theorem Quizzes.onShard_sameRows (query : Quizzes) (same : left.SameRows right)
    (ignores : ignored.Perm others) :
    Corresponds (SameRowsOn Listed.id shard) (query.onShard left ignored shard courses)
      (query.onShard right others shard courses) := by
  refine .bind (same.readQuizzes shard courses) fun rows rowsOther read => ?_
  have tests : query.isCandidate others = query.isCandidate ignored := by
    funext row
    simp only [isCandidate, ignores.contains_eq]
  have candidates := read.filter (query.isCandidate ignored)
  simp only [tests]
  refine .ite candidates.perm.isEmpty_eq (.pure .nil) ?_
  refine .bind (same.readOverrides shard query.user (candidates.perm.map _))
    fun overrides overridesOther dates => ?_
  refine .bind (query.completed_sameRows same candidates.perm) fun done doneOther finished => ?_
  have items (row : Quiz) : query.item? right.now overridesOther doneOther row =
      query.item? left.now overrides done row := by
    simp only [item?, dates, same.now, finished.contains_eq]
  simp only [items]
  refine .pure (candidates.filterMap fun row item made => ?_)
  change item.quiz.id.global = row.id.global
  rw [query.quiz_of_item? made]

theorem Reviews.onShard_sameRows (query : Reviews) (same : left.SameRows right)
    (ignores : ignored.Perm others) (incompleteOnly : Bool) :
    Corresponds (SameRowsOn Listed.id shard)
      (query.onShard left incompleteOnly ignored shard courses)
      (query.onShard right incompleteOnly others shard courses) := by
  refine .bind (same.readPeerReviews shard query.user courses incompleteOnly)
    fun rows rowsOther read => ?_
  have requests := read.filter fun row => !ignored.contains row.id.global
  simp only [← ignores.contains_eq]
  refine .ite requests.perm.isEmpty_eq (.pure .nil) ?_
  refine .bind (same.readAssignments shard _) fun assignments assignmentsOther stored => ?_
  simp only [← (stored.filter (·.peerReviews)).indexBy_eq]
  refine .bind (same.readSubmissions shard (.refl _) _) fun sent sentOther work => ?_
  simp only [← (work.filter Submission.isActive).indexBy_eq]
  refine .bind (same.readEnrollments shard courses) fun enrollments enrollmentsOther roster => ?_
  have enrolled (course : CourseId) (user : UserId) :
      isEnrolled enrollmentsOther course user = isEnrolled enrollments course user :=
    roster.symm.any_eq
  simp only [item?, enrolled]
  refine .pure (requests.filterMap fun request item made => ?_)
  change item.request.id.global = request.id.global
  rw [query.request_of_item? made]

end OnShard

section Lists

variable {left right : Deployment} (same : left.SameRows right)

include same

theorem list_sameRows_of {κ ι : Type} [Listed ι] {partition : ShardPartition κ}
    (distinct : (partition.parts.map (·.1)).Nodup) {user : UserId} {kind : ObjectKind}
    {purpose : Purpose} {options : NeedsOptions}
    {step other : List GlobalId → ShardId → List κ → Metered (List ι)}
    (alike : ∀ {ignored others : List GlobalId} {shard : ShardId} {ids : List κ},
      ignored.Perm others →
        Corresponds (SameRowsOn Listed.id shard) (step ignored shard ids) (other others shard ids)) :
    (ignoredIds left user kind purpose options >>= fun ignored => gather partition (step ignored)) =
      ignoredIds right user kind purpose options >>= fun ignored =>
        gather partition (other ignored) :=
  (same.ignoredIds user kind purpose options).bind_eq fun _ _ ignores =>
    gather_sameRows (fun _ _ => alike ignores) distinct

theorem Moderation.list_sameRows (query : Moderation) {scope : Scope}
    (distinct : (scope.courses.parts.map (·.1)).Nodup) (cap : Option Nat) :
    query.list left scope cap = query.list right scope cap := by
  have candidates : query.candidates left scope = query.candidates right scope :=
    list_sameRows_of same distinct (query.onShard_sameRows same)
  have checks : left.checkOne = right.checkOne := by
    funext user context permission
    exact same.checkOne user context permission
  simp only [list, candidates, checks]

theorem Reviews.list_sameRows (query : Reviews) {scope : Scope}
    (distinct : (scope.courses.parts.map (·.1)).Nodup) (incompleteOnly : Bool) :
    query.list left scope incompleteOnly = query.list right scope incompleteOnly :=
  list_sameRows_of same distinct fun ignores => query.onShard_sameRows same ignores incompleteOnly

namespace Viewing

variable (query : Viewing) (scope : Scope)

theorem topics_sameRows : query.topics left scope = query.topics right scope := by
  refine list_sameRows_of same (ShardPartition.nodup_ofList _) ?_
  intro ignored others shard contexts ignores
  have tests : query.listsTopic right.now others = query.listsTopic left.now ignored := by
    funext topic
    simp only [listsTopic, same.now, ignores.contains_eq]
  rw [tests]
  exact .bind (same.readTopics shard contexts) fun _ _ read => .pure (read.filter _)

theorem pages_sameRows : query.pages left scope = query.pages right scope := by
  refine list_sameRows_of same (ShardPartition.nodup_ofList _) ?_
  intro ignored others shard contexts ignores
  have tests : query.listsPage others = query.listsPage ignored := by
    funext page
    simp only [listsPage, ignores.contains_eq]
  rw [tests]
  exact .bind (same.readPages shard contexts) fun _ _ read => .pure (read.filter _)

end Viewing

namespace NeedsQuery

variable (query : NeedsQuery) (user : UserId) (options : NeedsOptions)

theorem list_sameRows {scope : Scope} (distinct : (scope.courses.parts.map (·.1)).Nodup) :
    query.list left user options scope = query.list right user options scope := by
  cases query with
  | submitting kind choice =>
      exact list_sameRows_of same distinct (Submitting.onShard_sameRows _ same)
  | grading kind => exact list_sameRows_of same distinct (Grading.onShard_sameRows _ same)
  | moderation => exact Moderation.list_sameRows same _ distinct none
  | quizzes choice => exact list_sameRows_of same distinct (Quizzes.onShard_sameRows _ same)
  | reviews => exact Reviews.list_sameRows same _ distinct false
  | topics => exact Viewing.topics_sameRows same _ scope
  | pages => exact Viewing.pages_sameRows same _ scope

theorem firstItems_sameRows {scope : Scope} (distinct : (scope.courses.parts.map (·.1)).Nodup) :
    query.firstItems left user options scope = query.firstItems right user options scope := by
  have cut {ι : Type} {listed others : Metered (List ι)} (lists : listed = others) :
      (listed >>= fun items => (pure (options.truncate items) : Metered (List ι))) =
        others >>= fun items => pure (options.truncate items) := by
    rw [lists]
  have lists := query.list_sameRows same user options distinct
  cases query with
  | moderation => exact Moderation.list_sameRows same _ distinct options.limit
  | reviews => exact cut (Reviews.list_sameRows same _ distinct true)
  | _ => exact cut lists

theorem scope_sameRows : query.scope left user options = query.scope right user options :=
  same.resolve user _

omit same in
theorem distinct_of_scope {deployment : Deployment} {scope : Scope}
    (resolved : (query.scope deployment user options).outcome = .ok scope) :
    (scope.courses.parts.map (·.1)).Nodup := by
  obtain ⟨courses, groups, rfl⟩ := Scope.spread_of_resolve resolved
  exact ShardPartition.nodup_ofList courses

theorem run_sameRows : query.run left user options = query.run right user options := by
  simp only [run, same.config, query.scope_sameRows same]
  split
  · rfl
  · exact Metered.bind_congr fun scope resolved =>
      query.list_sameRows same user options (query.distinct_of_scope user options resolved)

theorem runCached_sameRows :
    query.runCached left user options = query.runCached right user options := by
  simp only [runCached, same.config, query.scope_sameRows same]
  split
  · rfl
  · refine Metered.session_bind_congr fun scope resolved => ?_
    rw [query.firstItems_sameRows same user options (query.distinct_of_scope user options resolved),
      same.fetch]

end NeedsQuery

end Lists

end Agenda
