import Agenda.Proofs.Needs.Criteria
import Agenda.Proofs.Needs.Unrestricted
import Agenda.Proofs.World.Source

/-!
The list of a reviewer, told from the tables alone: each request stands on it once whose assignment,
submission and author are found on the shard of its course. Read through the cache it has no request
that was finished when it was computed.
-/

namespace Agenda

def Tables.Reviewed (tables : Tables) (scope : Scope) (shard : ShardId) (id : AssignmentId) : Prop :=
  ∃ row ∈ tables.assignments, row.id = id ∧ row.id.shard = shard ∧ scope.Offers row ∧
    row.peerReviews ∧ row.isSubAssignment = false

instance (tables : Tables) (scope : Scope) (shard : ShardId) (id : AssignmentId) :
    Decidable (tables.Reviewed scope shard id) :=
  inferInstanceAs (Decidable (∃ row ∈ tables.assignments, _))

structure PeerReviewTodo.Describes (item : PeerReviewTodo) (tables : Tables) : Prop where
  title : ∃ row ∈ tables.assignments, row.id = item.request.assignment ∧
    row.title = item.assignmentTitle
  due : ∃ row ∈ tables.submissions, row.id = item.request.submission ∧ row.due = item.due

namespace Reviews

/-- A request of a scope that is listed for a reviewer, whatever its state. -/
@[mk_iff]
structure Lists (query : Reviews) (tables : Tables) (scope : Scope) (request : PeerReview) : Prop where
  mine : request.assessor = query.user
  held : scope.Holds (.course request.course) request.id.shard
  wanted : query.options.includeIgnored ∨
    ¬tables.Ignores query.user ⟨.assessmentRequest, request.id.global⟩ .reviewing
  reviewed : tables.Reviewed scope request.course.shard request.assignment
  submitted : ∃ row ∈ tables.submissions, row.id = request.submission ∧
    row.id.shard = request.course.shard ∧ row.isActive ∧
    tables.Reviewed scope request.course.shard row.assignment ∧ query.options.withinWindow row.due
  enrolled : ∃ row ∈ tables.enrollments, row.course = request.course ∧ row.user = request.user ∧
    row.state.isTerminated = false

instance (query : Reviews) (tables : Tables) (scope : Scope) (request : PeerReview) :
    Decidable (query.Lists tables scope request) :=
  decidable_of_iff _ (lists_iff query tables scope request).symm

variable {query : Reviews} {deployment : Deployment} {courses : List CourseId}
  {groups : ShardPartition GroupId} {part : ShardId × List CourseId}

theorem isEnrolled_iff {shard : ShardId} {asked : List CourseId} {course : CourseId} {user : UserId}
    (member : course ∈ asked) (home : course.shard = shard) :
    isEnrolled (deployment.tables.enrollmentsOn shard asked) course user = true ↔
      ∃ row ∈ deployment.tables.enrollments, row.course = course ∧ row.user = user ∧
        row.state.isTerminated = false := by
  simp only [isEnrolled, Tables.enrollmentsOn, List.any_eq_true, List.mem_filter, Bool.and_eq_true,
    Bool.not_eq_true', decide_eq_true_eq, List.contains_eq_mem]
  constructor
  · rintro ⟨row, ⟨stored, -⟩, ⟨lasts, named⟩, own⟩
    exact ⟨row, stored, named, own, lasts⟩
  · rintro ⟨row, stored, rfl, own, lasts⟩
    exact ⟨row, ⟨stored, home, member⟩, ⟨lasts, rfl⟩, own⟩

theorem item?_eq_some {shard : ShardId} {asked : List CourseId} {enrollments : List Enrollment}
    {request : PeerReview} {item : PeerReviewTodo} :
    query.item? (reviewedOn deployment shard asked) (activeOn deployment shard asked) enrollments
        request = some item ↔
      ∃ assignment ∈ reviewedOn deployment shard asked, assignment.id = request.assignment ∧
        ∃ work ∈ activeOn deployment shard asked, work.id = request.submission ∧
          isEnrolled enrollments request.course request.user ∧
          query.options.withinWindow work.due ∧ item = ⟨request, assignment.title, work.due⟩ := by
  have assigned {row : Assignment} : (reviewedOn deployment shard asked).find?
      (fun row => row.id = request.assignment) = some row ↔
        row ∈ reviewedOn deployment shard asked ∧ row.id = request.assignment :=
    find?_key_eq_some (Ranked.nodup_map_indexBy _)
  have submitted {row : Submission} : (activeOn deployment shard asked).find?
      (fun row => row.id = request.submission) = some row ↔
        row ∈ activeOn deployment shard asked ∧ row.id = request.submission :=
    find?_key_eq_some (Ranked.nodup_map_indexBy _)
  simp only [item?, Option.bind_eq_bind, Option.bind_eq_some_iff, assigned, submitted,
    Option.ite_none_right_eq_some, Bool.and_eq_true, Option.some.injEq, eq_comm (a := item), and_assoc]

theorem describes_of_mem_found {ignored : List GlobalId} {shard : ShardId} {asked : List CourseId}
    {item : PeerReviewTodo} (listed : item ∈ query.found deployment ignored shard asked) :
    item.Describes deployment.tables := by
  obtain ⟨request, -, made⟩ := List.mem_filterMap.mp listed
  obtain ⟨assignment, reviewed, other, work, submitted, named, -, -, rfl⟩ := item?_eq_some.mp made
  have stored : work ∈ deployment.tables.submissions :=
    (List.mem_filter.mp (List.mem_filter.mp
      (List.mem_filter.mp (Ranked.mem_of_mem_indexBy submitted)).1).1).1
  exact ⟨⟨assignment, mem_of_reviewedOn reviewed, other, rfl⟩, work, stored, named, rfl⟩

section Shard

variable (groups) (distinct : deployment.tables.DistinctIds)
  (isPart : part ∈ (ShardPartition.ofList courses).parts)
include distinct isPart

theorem mem_reviewedOn_iff {row : Assignment} :
    row ∈ reviewedOn deployment part.1 part.2 ↔ row ∈ deployment.tables.assignments ∧
      row.id.shard = part.1 ∧ Scope.Offers ⟨.ofList courses, groups⟩ row ∧ row.peerReviews ∧
      row.isSubAssignment = false := by
  rw [reviewedOn, Ranked.mem_indexBy_of_nodup (distinct.assignmentsOn ..)]
  simp only [Tables.assignmentsOn, List.mem_filter, AssignmentQuery.admits, Bool.and_eq_true,
    decide_eq_true_eq, List.contains_eq_mem, beq_iff_eq,
    (ShardPartition.wellFormed_ofList _).mem_part_iff isPart]
  constructor
  · rintro ⟨⟨stored, here, ⟨⟨⟨covered, home⟩, published⟩, whole⟩, -⟩, reviewed⟩
    exact ⟨stored, here, ⟨covered, here.trans home.symm, published⟩, reviewed, whole⟩
  · rintro ⟨stored, here, offered, reviewed, whole⟩
    exact ⟨⟨stored, here, ⟨⟨⟨offered.covered, offered.home.symm.trans here⟩, offered.published⟩, whole⟩,
      rfl⟩, reviewed⟩

theorem mem_map_reviewedOn_iff {id : AssignmentId} :
    id ∈ (reviewedOn deployment part.1 part.2).map (·.id) ↔
      deployment.tables.Reviewed ⟨.ofList courses, groups⟩ part.1 id := by
  simp only [List.mem_map, mem_reviewedOn_iff groups distinct isPart, Tables.Reviewed]
  constructor
  · rintro ⟨row, ⟨stored, offered⟩, named⟩
    exact ⟨row, stored, named, offered⟩
  · rintro ⟨row, stored, named, offered⟩
    exact ⟨row, ⟨stored, offered⟩, named⟩

theorem mem_activeOn_iff {row : Submission} :
    row ∈ activeOn deployment part.1 part.2 ↔ row ∈ deployment.tables.submissions ∧
      row.id.shard = part.1 ∧ row.isActive ∧
      deployment.tables.Reviewed ⟨.ofList courses, groups⟩ part.1 row.assignment := by
  have once : ((((deployment.tables.submissionsOn part.1 none).filter fun row =>
      ((reviewedOn deployment part.1 part.2).map (·.id)).contains row.assignment).filter
        Submission.isActive).map (·.id)).Nodup :=
    distinct.submissions.sublist
      ((List.filter_sublist.trans (List.filter_sublist.trans List.filter_sublist)).map _)
  rw [activeOn, Ranked.mem_indexBy_of_nodup once]
  simp only [Tables.submissionsOn, List.mem_filter, Bool.and_eq_true, decide_eq_true_eq,
    Option.all_none, and_true, List.contains_eq_mem,
    mem_map_reviewedOn_iff groups distinct isPart]
  constructor
  · rintro ⟨⟨⟨stored, here⟩, reviewed⟩, active⟩
    exact ⟨stored, here, active, reviewed⟩
  · rintro ⟨stored, here, active, reviewed⟩
    exact ⟨⟨⟨stored, here⟩, reviewed⟩, active⟩

theorem lists_iff_item? {request : PeerReview} (asked : request.course ∈ part.2) :
    query.Lists deployment.tables ⟨.ofList courses, groups⟩ request ↔
      (request.assessor = query.user ∧ request.id.shard = part.1 ∧
        (deployment.ignored query.user .assessmentRequest .reviewing query.options).contains
          request.id.global = false) ∧
      (query.item? (reviewedOn deployment part.1 part.2) (activeOn deployment part.1 part.2)
        (deployment.tables.enrollmentsOn part.1 part.2) request).isSome := by
  obtain ⟨covered, home⟩ := ((ShardPartition.wellFormed_ofList _).mem_part_iff isPart).mp asked
  have same : request.course.shard = part.1 := home
  rw [lists_iff, Deployment.contains_ignored, Option.isSome_iff_exists, same]
  constructor
  · rintro ⟨mine, ⟨-, here⟩, wanted, reviewed, ⟨work, stored, named, onShard, active, own, due⟩, enrolled⟩
    obtain ⟨assignment, found, other⟩ :=
      List.mem_map.mp ((mem_map_reviewedOn_iff groups distinct isPart).mpr reviewed)
    refine ⟨⟨mine, here.trans same, wanted⟩, _, item?_eq_some.mpr ⟨assignment, found, other, work,
      (mem_activeOn_iff groups distinct isPart).mpr ⟨stored, onShard, active, own⟩, named,
      (isEnrolled_iff asked same).mpr enrolled, due, rfl⟩⟩
  · rintro ⟨⟨mine, here, wanted⟩, item, made⟩
    obtain ⟨assignment, found, other, work, submitted, named, enrolled, due, -⟩ := item?_eq_some.mp made
    obtain ⟨stored, onShard, active, own⟩ := (mem_activeOn_iff groups distinct isPart).mp submitted
    exact ⟨mine, ⟨covered, here.trans same.symm⟩, wanted,
      (mem_map_reviewedOn_iff groups distinct isPart).mp (List.mem_map.mpr ⟨assignment, found, other⟩),
      ⟨work, stored, named, onShard, active, own, due⟩, (isEnrolled_iff asked same).mp enrolled⟩

theorem map_request_found :
    (query.found deployment
        (deployment.ignored query.user .assessmentRequest .reviewing query.options) part.1 part.2).map
          (·.request) =
      deployment.tables.peerReviews.filter fun request => part.2.contains request.course &&
        query.Lists deployment.tables ⟨.ofList courses, groups⟩ request := by
  let made := query.item? (reviewedOn deployment part.1 part.2) (activeOn deployment part.1 part.2)
    (deployment.tables.enrollmentsOn part.1 part.2)
  have own (request : PeerReview) : (made request).map (·.request) =
      Option.guard (fun request => (made request).isSome) request := by
    cases item : made request with
    | none => simp [Option.guard, item]
    | some todo => simp [Option.guard, item, request_of_item? query item]
  have kept := funext own
  rw [found, List.map_filterMap, kept, List.filterMap_eq_filter, requested, List.filter_filter,
    List.filter_filter]
  refine List.filter_congr fun request _ => ?_
  by_cases asked : request.course ∈ part.2
  swap
  · simp [asked]
  rw [Bool.eq_iff_iff]
  simp only [Bool.and_eq_true, decide_eq_true_eq, List.contains_eq_mem, asked, true_and, and_true, made,
    Bool.not_eq_true', Bool.not_false, Bool.true_or, lists_iff_item? groups distinct isPart asked]
  constructor
  · rintro ⟨⟨item, wanted⟩, here, mine⟩
    exact ⟨⟨mine, here, wanted⟩, item⟩
  · rintro ⟨⟨mine, here, wanted⟩, item⟩
    exact ⟨⟨item, wanted⟩, here, mine⟩

end Shard

theorem flatMap_found_perm (distinct : deployment.tables.DistinctIds) :
    (((ShardPartition.ofList courses).parts.flatMap fun part => query.found deployment
        (deployment.ignored query.user .assessmentRequest .reviewing query.options) part.1 part.2).map
          (·.request)).Perm
      (deployment.tables.peerReviews.filter fun request =>
        query.Lists deployment.tables ⟨.ofList courses, groups⟩ request) := by
  rw [List.map_flatMap, List.flatMap_congr fun part isPart => map_request_found groups distinct isPart]
  refine ShardPartition.flatMap_filter_perm PeerReview.course fun request _ listed => ?_
  exact ShardPartition.mem_toList_ofList.mp (of_decide_eq_true listed).held.covered

end Reviews

theorem NeedsQuery.leftIn_of_firstItems {query : NeedsQuery} {deployment : Deployment} {user : UserId}
    {options : NeedsOptions} {scope : Scope} {items : List query.Item}
    (listed : (query.firstItems deployment user options scope).outcome = .ok items)
    {keep : query.Item → Bool} (left : keep ∈ query.leftIn) : ∀ item ∈ items, keep item = true := by
  intro item member
  have kept := (sublist_of_firstItems listed).subset member
  rw [keepAll_eq_filter, List.mem_filter] at kept
  exact List.all_eq_true.mp kept.2 keep left

theorem Lookup.leftIn_of_answered {later : Lookup} {history : List Event}
    (explained : later.memory.cache.ExplainedBy history)
    (free : Sha256.CollisionFree ((history ++ [Event.lookup later]).flatMap Event.hashedTexts))
    {items : List later.query.Item} (answered : later.result.1 = .ok items)
    {keep : later.query.Item → Bool} (left : keep ∈ later.query.leftIn) :
    ∀ item ∈ items, keep item = true := by
  rcases asks_or_empty answered with ⟨scope, asks⟩ | rfl
  · obtain ⟨place, deployment, memory, area, -, misses, -⟩ := source explained free asks answered
    exact NeedsQuery.leftIn_of_firstItems misses.computed left
  · exact fun _ member => nomatch member

theorem World.leftIn_of_mem_trace {tables : Tables} {grants : List PermissionGrant} {now : Instant}
    {config : Config} {steps : List Step} (queried : ∀ step ∈ steps, step.writesByHand = false)
    (free : Sha256.CollisionFree
      (((start tables grants now config).trace steps).flatMap Event.hashedTexts))
    {later : Lookup} (called : .lookup later ∈ (start tables grants now config).trace steps)
    {items : List later.query.Item} (answered : later.result.1 = .ok items)
    {keep : later.query.Item → Bool} (left : keep ∈ later.query.leftIn) :
    ∀ item ∈ items, keep item = true := by
  obtain ⟨place, called⟩ := List.mem_iff_getElem?.mp called
  have explained := (start_explained tables grants now config queried).2 place later called
  refine Lookup.leftIn_of_answered explained (free.subset ?_) answered left
  intro text member
  obtain ⟨event, among, hashed⟩ := List.mem_flatMap.mp member
  refine List.mem_flatMap.mpr ⟨event, ?_, hashed⟩
  rcases List.mem_append.mp among with before | now
  · exact List.mem_of_mem_take before
  · rw [List.mem_singleton.mp now]
    exact List.mem_of_getElem? called

namespace NeedsQuery

/-- With no shard offline, each request that the tables list for the reviewer is listed once whatever
its state, in ascending order and with the title and the due date of what it is about. With no outage
there is a scope. Read through the cache the list begins with the requests that are not finished, and
in any run of a world no cached answer has another. -/
theorem reviews_list (deployment : Deployment) (user : UserId) (options : NeedsOptions)
    (distinct : deployment.tables.DistinctIds) (online : deployment.offline = []) :
    (deployment.outages = [] →
      ∃ scope, (NeedsQuery.reviews.scope deployment user options).outcome = .ok scope) ∧
    (∀ scope, (NeedsQuery.reviews.scope deployment user options).outcome = .ok scope →
      ∃ items : List PeerReviewTodo,
        (NeedsQuery.reviews.load deployment user options [] none).outcome = .ok items ∧
        items.Pairwise (fun earlier later => Listed.noLater earlier later) ∧
        (items.map (·.request)).Perm (deployment.tables.peerReviews.filter fun request =>
          Reviews.Lists ⟨user, options⟩ deployment.tables scope request) ∧
        (∀ item ∈ items, item.Describes deployment.tables) ∧
        ∀ memory, NeedsQuery.reviews.Comparable deployment user options memory →
          (NeedsQuery.reviews.runCached deployment user options memory).1 =
            .ok (options.truncate (items.filter fun item => item.request.state = .assigned))) ∧
    ∀ (tables : Tables) (grants : List PermissionGrant) (now : Instant) (config : Config)
      (steps : List World.Step), (∀ step ∈ steps, step.writesByHand = false) →
      Sha256.CollisionFree
        (((World.start tables grants now config).trace steps).flatMap Event.hashedTexts) →
      ∀ memory, .lookup ⟨deployment, memory, .reviews, user, options⟩ ∈
          (World.start tables grants now config).trace steps →
        ∀ items : List PeerReviewTodo,
          (NeedsQuery.reviews.runCached deployment user options memory).1 = .ok items →
          ∀ item ∈ items, item.request.state = .assigned := by
  refine ⟨fun working => Scope.outcome_resolve_served working user _, fun scope resolved => ?_, ?_⟩
  · obtain ⟨courses, groups, rfl⟩ := Scope.spread_of_resolve resolved
    let query : Reviews := ⟨user, options⟩
    let found : List PeerReviewTodo := (ShardPartition.ofList courses).parts.flatMap fun part =>
      query.found deployment (deployment.ignored user .assessmentRequest .reviewing options) part.1
        part.2
    have loaded : (NeedsQuery.reviews.load deployment user options [] none).outcome =
        .ok (Listed.sort found) := outcome_load_of_scope online rfl resolved
    have sorted : (Listed.sort found).Perm found := List.mergeSort_perm found Listed.noLater
    refine ⟨_, loaded, Listed.sort_sorted found, (sorted.map _).trans (query.flatMap_found_perm distinct),
      fun item listed => ?_, fun memory comparable => ?_⟩
    · obtain ⟨part, -, member⟩ := List.mem_flatMap.mp (sorted.mem_iff.mp listed)
      exact Reviews.describes_of_mem_found member
    · have begun : (NeedsQuery.reviews.load deployment user options NeedsQuery.reviews.leftIn
          options.limit).outcome =
          (NeedsQuery.reviews.load deployment user options [] none).outcome.map fun items =>
            options.truncate (keepAll [Reviews.isUnfinished] items) := by
        simp only [outcome_load, truncate_eq_elim]
        cases (NeedsQuery.reviews.run deployment user options).outcome <;> rfl
      rw [runCached_eq_load comparable, begun, loaded]
      rfl
  · intro tables grants now config steps queried free memory called items answered item member
    have unfinished : Reviews.isUnfinished item = true :=
      World.leftIn_of_mem_trace queried free called answered List.mem_cons_self item member
    exact of_decide_eq_true unfinished

/-- Of three requests of a reviewer one is finished, one is ignored, and the author of the last has left
the course. -/
theorem reviews_list_exchange :
    let reviewer : UserId := ⟨⟨7, by decide⟩⟩
    let author : UserId := ⟨⟨8, by decide⟩⟩
    let leaver : UserId := ⟨⟨9, by decide⟩⟩
    let physics : CourseId := ⟨⟨1, by decide⟩⟩
    let today : Instant := ⟨⟨2026, 1, 11, by decide⟩, 43200, 0, by decide, by decide⟩
    let motion :=
      { essayFor ⟨⟨10, by decide⟩⟩ physics today with title := "Motion", peerReviews := true }
    let work : Submission := ⟨⟨⟨11, by decide⟩⟩, motion.id, author, .submitted, some .onlineTextEntry,
      false, false, false, some today⟩
    let finished : PeerReview :=
      ⟨⟨⟨20, by decide⟩⟩, reviewer, author, work.id, motion.id, physics, .completed, today⟩
    let ignored : PeerReview := { finished with id := ⟨⟨21, by decide⟩⟩, state := .assigned }
    let dropped : PeerReview :=
      { finished with id := ⟨⟨22, by decide⟩⟩, user := leaver, submission := ⟨⟨12, by decide⟩⟩ }
    let deployment : Deployment := {
      tables := {
        memberships := [⟨reviewer, [⟨physics, .student, .active, false⟩], []⟩]
        assignments := [motion]
        submissions := [work, { work with id := ⟨⟨12, by decide⟩⟩, user := leaver }]
        enrollments := [⟨author, physics, ⟨⟨1, by decide⟩⟩, .student, .active, false⟩,
          ⟨leaver, physics, ⟨⟨1, by decide⟩⟩, .student, .completed, false⟩]
        peerReviews := [dropped, ignored, finished]
        ignores := [⟨reviewer, ⟨.assessmentRequest, ⟨21, by decide⟩⟩, .reviewing, false⟩] }
      grants := []
      offline := []
      outages := []
      now := today
      config := {} }
    (NeedsQuery.reviews.load deployment reviewer {} [] none).outcome =
        .ok [(⟨finished, "Motion", some today⟩ : PeerReviewTodo)] ∧
      (NeedsQuery.reviews.runCached deployment reviewer {} .empty).1 =
        .ok ([] : List PeerReviewTodo) := by
  intro reviewer author leaver physics today motion work finished ignored dropped deployment
  let scope : Scope := ⟨.ofList [physics], .empty⟩
  have distinct : deployment.tables.DistinctIds := ⟨by decide, by decide⟩
  obtain ⟨-, listed, -⟩ := reviews_list deployment reviewer {} distinct rfl
  obtain ⟨items, loaded, -, perm, describes, cached⟩ := listed scope rfl
  let lists := Reviews.Lists ⟨reviewer, {}⟩ deployment.tables scope
  have left : ¬lists dropped := by decide +kernel
  have unwanted : ¬lists ignored := by decide +kernel
  have stays : lists finished := by decide +kernel
  have one : (items.map (·.request)).Perm [finished] := by
    refine perm.trans (.of_eq ?_)
    change [dropped, ignored, finished].filter (fun request => lists request) = [finished]
    simp [left, unwanted, stays]
  obtain ⟨⟨request, name, date⟩, rfl, asked⟩ := List.map_eq_singleton_iff.mp (List.perm_singleton.mp one)
  obtain ⟨⟨row, stored, -, title⟩, other, submitted, named, due⟩ :=
    describes _ (List.mem_singleton_self _)
  obtain rfl : request = finished := asked
  obtain rfl : row = motion := List.mem_singleton.mp stored
  obtain rfl : other = work := by
    rcases List.mem_cons.mp submitted with same | later
    · exact same
    · rw [List.mem_singleton.mp later] at named
      cases named
  obtain rfl : "Motion" = name := title
  obtain rfl : some today = date := due
  have comparable : NeedsQuery.reviews.Comparable deployment reviewer {} .empty :=
    ⟨by decide, by rintro scope - entry ⟨⟩, by decide, fun _ _ _ => .inr (by decide)⟩
  rw [loaded, cached .empty comparable]
  exact ⟨rfl, rfl⟩

end NeedsQuery

end Agenda
