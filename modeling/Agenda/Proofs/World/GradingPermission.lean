import Agenda.Proofs.Scope
import Agenda.Proofs.World.Source

/-!
Who sees a grading list. The items of a grading query belong to courses of the user, and unless the
options cover every membership the user may manage the grades of these courses. A result read from
the cache is no exception, for the key tells the contexts that are covered now.
-/

namespace Agenda

namespace Deployment

variable {deployment : Deployment}

/-- A course of the user, and one where the user may manage grades unless the options cover every
membership. -/
structure MayGrade (deployment : Deployment) (user : UserId) (options : NeedsOptions)
    (course : CourseId) : Prop where
  enrolled : ∃ membership ∈ deployment.memberships user, membership.course = course
  granted : options.includeConcluded = false →
    deployment.allows user (.course course) .manageGrades = true

end Deployment

namespace Scope

variable {deployment : Deployment} {user : UserId}

theorem mayGrade_of_defaultCourses {options : NeedsOptions} {ids : List CourseId}
    (listed : (defaultCourses deployment user
      (options.scopeRequest (.grant .manageGrades))).outcome = .ok ids)
    {id : CourseId} (member : id ∈ ids) : deployment.MayGrade user options id := by
  refine ⟨enrolled_of_defaultCourses listed member, fun limited => ?_⟩
  obtain ⟨memberships, -, chosen⟩ := Metered.outcome_bind_eq_ok.mp listed
  simp only [NeedsOptions.scopeRequest, limited, Bool.false_eq_true, if_false] at chosen
  exact (granted_of_grantedCourses chosen member).2

theorem mayGrade_of_resolve {options : NeedsOptions} {scope : Scope}
    (resolved : (resolve deployment user (options.scopeRequest (.grant .manageGrades))).outcome =
      .ok scope) {id : CourseId} (member : .course id ∈ scope.contexts) :
    deployment.MayGrade user options id := by
  obtain ⟨ids, listed, among⟩ := mem_of_side (sides_of_resolve resolved).1
    (mem_contexts_course.mp member)
  exact mayGrade_of_defaultCourses listed among

end Scope

namespace NeedsQuery

variable {kind : AssignmentKind} {deployment : Deployment} {user : UserId} {options : NeedsOptions}

theorem mayGrade_of_run {items : List AssignmentTodo}
    (listed : ((NeedsQuery.grading kind).run deployment user options).outcome = .ok items) :
    ∀ item ∈ items, deployment.MayGrade user options item.assignment.course := by
  intro item member
  obtain ⟨scope, resolved, covered⟩ := inScope_of_run listed member
  exact Scope.mayGrade_of_resolve resolved covered

theorem mayGrade_of_misses {earlier : Deployment} {memory : Memory} {area scope : Scope}
    {items : List AssignmentTodo}
    (misses : (⟨earlier, memory, .grading kind, user, options⟩ : Lookup).Misses area items)
    (contexts : ∀ context, context ∈ area.contexts ↔ context ∈ scope.contexts)
    (resolved : ((NeedsQuery.grading kind).scope deployment user options).outcome = .ok scope) :
    ∀ item ∈ items, deployment.MayGrade user options item.assignment.course := by
  intro item member
  have covered := context_of_found (Lookup.found_of_misses misses member)
  exact Scope.mayGrade_of_resolve resolved ((contexts _).mp covered)

/-- What a grading query lists belongs to courses where the user may grade: the whole list, the first
items when the cache is empty, and the first items at any point of a run. -/
theorem grading_within_permission (kind : AssignmentKind) (user : UserId) (options : NeedsOptions) :
    (∀ (deployment : Deployment) (items : List AssignmentTodo),
      ((NeedsQuery.grading kind).run deployment user options).outcome = .ok items →
      ∀ item ∈ items, deployment.MayGrade user options item.assignment.course) ∧
    (∀ (deployment : Deployment) (memory : Memory) (items : List AssignmentTodo),
      (∀ key, memory.cache.entries key = none) →
      ((NeedsQuery.grading kind).runCached deployment user options memory).1 = .ok items →
      ∀ item ∈ items, deployment.MayGrade user options item.assignment.course) ∧
    (∀ (tables : Tables) (grants : List PermissionGrant) (now : Instant) (config : Config)
      (steps : List World.Step) (items : List AssignmentTodo),
      let start := World.start tables grants now config
      (∀ step ∈ steps, step.writesByHand = false) →
      Sha256.CollisionFree
        ((start.trace (steps ++ [.cached (.grading kind) user options])).flatMap Event.hashedTexts) →
      ((NeedsQuery.grading kind).runCached (start.run steps).deployment user options
        (start.run steps).memory).1 = .ok items →
      ∀ item ∈ items,
        (start.run steps).deployment.MayGrade user options item.assignment.course) := by
  refine ⟨fun deployment items listed => mayGrade_of_run listed, ?_, ?_⟩
  · intro deployment memory items empty answered
    let call : Lookup := ⟨deployment, memory, .grading kind, user, options⟩
    rcases call.asks_or_empty answered with ⟨scope, asks⟩ | rfl
    · rcases (Lookup.answer_cases asks answered).2 with misses | found
      · exact mayGrade_of_misses misses (fun context => Iff.rfl) asks.resolved
      · obtain ⟨entry, stored, -⟩ :=
          ((call.request scope).found?_eq_some deployment memory).mp found
        rw [empty] at stored
        cases stored
    · intro item member
      cases member
  · intro tables grants now config steps items start queried free answered
    let call : Lookup :=
      ⟨(start.run steps).deployment, (start.run steps).memory, .grading kind, user, options⟩
    rcases call.asks_or_empty answered with ⟨scope, asks⟩ | rfl
    · have explained := (World.start_explained tables grants now config queried).1
      rw [World.trace_append] at free
      obtain ⟨_, earlier, memory, area, -, misses, contexts, -⟩ :=
        call.source explained free asks answered
      exact mayGrade_of_misses misses contexts asks.resolved
    · intro item member
      cases member

end NeedsQuery

def sampleId (number : Nat) : GlobalId where
  value := number % 1000
  inRange := by omega

def lecture : CourseId :=
  ⟨sampleId 1⟩

def classUser : UserId :=
  ⟨sampleId 9⟩

def classNoon : Instant :=
  World.practice.deployment.now

def essay : Assignment where
  id := ⟨sampleId 10⟩
  course := lecture
  title := "Essay"
  state := .published
  submissionTypes := [.onlineTextEntry]
  due := none
  unlock := none
  lock := none
  updated := classNoon
  audience := none
  suppressed := false
  moderated := false
  finalGrader := none
  gradesPublished := false
  peerReviews := false
  hasSubAssignments := false
  parent := none

def classroom (membership : Membership) (grants : List PermissionGrant) : World :=
  let student : UserId := ⟨sampleId 7⟩
  .start {
      memberships := [⟨classUser, [membership], []⟩]
      assignments := [essay]
      submissions := [⟨⟨sampleId 100⟩, essay.id, student, .submitted, some .onlineTextEntry, false,
        false, false, none⟩]
      enrollments := [⟨student, lecture, ⟨sampleId 3⟩, .student, .active, false⟩] }
    grants classNoon {}

def essayItem : AssignmentTodo :=
  ⟨essay, none, some 1⟩

theorem essay_listed (membership : Membership) (grants : List PermissionGrant) (concluded : Bool) :
    ((NeedsQuery.grading .assignment).list (classroom membership grants).deployment classUser
      { limit := some 100, includeConcluded := concluded }
      ⟨.ofList [lecture], .empty⟩).outcome = .ok [essayItem] := by
  have sorted : Listed.sort [essayItem] = [essayItem] := List.mergeSort_singleton _
  have found : (NeedsQuery.grading .assignment).found (classroom membership grants).deployment classUser
      { limit := some 100, includeConcluded := concluded } ⟨.ofList [lecture], .empty⟩ [] =
        [essayItem] := rfl
  rw [NeedsQuery.outcome_list, NeedsQuery.sorted]
  change Except.ok (Listed.sort ((NeedsQuery.grading .assignment).found
    (classroom membership grants).deployment classUser
      { limit := some 100, includeConcluded := concluded } ⟨.ofList [lecture], .empty⟩ [])) = _
  rw [found]
  exact congrArg Except.ok sorted

def hundred : NeedsOptions :=
  { limit := some 100 }

theorem params_grading (kind : AssignmentKind) :
    ((NeedsQuery.grading kind).params hundred).canonical.text =
    "\x7b\"options\":\x7b\"contexts\":null,\"course_ids\":null,\"due_after\":null," ++
    "\"due_before\":null,\"group_ids\":null,\"include_concluded\":false," ++
    "\"include_ignored\":false,\"limit\":100\x7d\x7d" := by
  have options : JsonFormat.encode hundred = .object
      [("limit", .natural 100), ("due_after", .null), ("due_before", .null),
        ("include_ignored", .boolean false), ("include_concluded", .boolean false),
        ("course_ids", .null), ("group_ids", .null), ("contexts", .null)] := rfl
  simp only [NeedsQuery.params, options, Json.canonical, Json.canonicalMembers,
    Json.sortMembers, Json.natural, Json.integer]
  simp [List.mergeSort, List.MergeSort.Internal.splitInTwo]
  decide +kernel

def gradedClass : World :=
  classroom ⟨lecture, .designer, .active, false⟩ [⟨classUser, .course lecture, .manageGrades⟩]

def gradingCall : Lookup :=
  ⟨gradedClass.deployment, gradedClass.memory, .grading .assignment, classUser, hundred⟩

def gradingScope : Scope :=
  ⟨.ofList [lecture], .empty⟩

theorem gradingCall_misses : gradingCall.Misses gradingScope [essayItem] where
  enabled := rfl
  resolved := rfl
  inside := rfl
  reached := rfl
  missing := rfl
  computed := (NeedsQuery.outcome_firstItems (.grading .assignment) gradedClass.deployment classUser
    hundred rfl gradingScope).trans (congrArg (Except.map _) (essay_listed _ _ false))

theorem gradingCall_collisionFree : Sha256.CollisionFree gradingCall.hashedTexts := by
  rw [Lookup.hashedTexts_of_asks gradingCall_misses.toAsks rfl]
  let request := gradingCall.request gradingScope
  have distinct : ([contextText request.contexts, request.params.canonical.text,
      (request.parts .zero).material].map Sha256.ofText).Nodup := by
    simp only [request, CacheRequest.parts, Lookup.request, NeedsQuery.cacheRequest,
      CacheKeyParts.material, Json.digest, gradingCall, params_grading]
    decide +kernel
  exact Sha256.CollisionFree.of_nodup distinct

theorem grading_within_permission_class :
    gradedClass.deployment.MayGrade classUser hundred essay.course ∧
      gradedClass.deployment.MayGrade classUser hundred essay.course ∧
      (gradedClass.run [.cached (.grading .assignment) classUser hundred]).deployment.MayGrade classUser
        hundred essay.course := by
  have expires : ∃ expiry, gradedClass.deployment.now.add?
      (gradingCall.request gradingScope).lifetime = some expiry ∧
        gradedClass.deployment.now < expiry := by
    have later : ((gradedClass.deployment.now.add? (gradingCall.request gradingScope).lifetime).any
        fun expiry => decide (gradedClass.deployment.now < expiry)) = true := by decide +kernel
    obtain ⟨expiry, representable, fresh⟩ := (Option.any_eq_true _ _).mp later
    exact ⟨expiry, representable, of_decide_eq_true fresh⟩
  obtain ⟨expiry, representable, fresh⟩ := expires
  have listed : ((NeedsQuery.grading .assignment).run gradedClass.deployment classUser hundred).outcome =
      .ok [essayItem] := by
    have resolved : ((NeedsQuery.grading .assignment).scope gradedClass.deployment classUser
        hundred).outcome = .ok gradingScope := gradingCall_misses.resolved
    rw [NeedsQuery.outcome_run_enabled rfl, resolved]
    exact essay_listed _ _ false
  have first : gradingCall.result.1 = .ok [essayItem] :=
    Lookup.answered_of_misses gradingCall_misses rfl rfl fun missing =>
      nomatch representable.symm.trans missing
  let again := gradingCall.elsewhere gradedClass.deployment gradingCall.result.2
  have second : again.result.1 = .ok [essayItem] :=
    Lookup.served_again gradingCall_misses rfl rfl representable fresh
  have texts : again.hashedTexts = gradingCall.hashedTexts := by
    have asks : again.Asks gradingScope := ⟨rfl, rfl, rfl⟩
    have tokens : again.token = gradingCall.token :=
      congrFun gradingCall.cache_after.1 gradingCall.user
    rw [Lookup.hashedTexts_of_asks asks rfl, tokens,
      Lookup.hashedTexts_of_asks gradingCall_misses.toAsks rfl]
    rfl
  have within : [Event.lookup gradingCall, .lookup again].flatMap Event.hashedTexts ⊆
      gradingCall.hashedTexts := by
    simp [Event.hashedTexts, texts]
  have bound := NeedsQuery.grading_within_permission .assignment classUser hundred
  have member : essayItem ∈ [essayItem] := List.mem_singleton_self _
  refine ⟨bound.1 _ _ listed essayItem member, bound.2.1 _ gradedClass.memory [essayItem]
    (fun key => rfl) first essayItem member, ?_⟩
  exact bound.2.2 _ _ _ _ [.cached (.grading .assignment) classUser hundred] [essayItem]
    (by simp [World.Step.writesByHand]) (gradingCall_collisionFree.subset within) second essayItem
    member

/-- A student whose membership is over sees, with concluded courses covered, what waits for a grade
without a permission to grade. -/
theorem grading_without_permission :
    let former := classroom ⟨lecture, .student, .completed, true⟩ []
    let options : NeedsOptions := { limit := some 100, includeConcluded := true }
    ((NeedsQuery.grading .assignment).run former.deployment classUser options).outcome =
        .ok [essayItem] ∧
      ((NeedsQuery.grading .assignment).runCached former.deployment classUser options
        former.memory).1 = .ok [essayItem] ∧
      former.deployment.allows classUser (.course essayItem.assignment.course) .manageGrades = false := by
  intro former options
  have listed : ((NeedsQuery.grading .assignment).run former.deployment classUser options).outcome =
      .ok [essayItem] := by
    have resolved : ((NeedsQuery.grading .assignment).scope former.deployment classUser
        options).outcome = .ok gradingScope := rfl
    rw [NeedsQuery.outcome_run_enabled rfl, resolved]
    exact essay_listed _ _ true
  have comparable : (NeedsQuery.grading .assignment).Comparable former.deployment classUser options
      former.memory := by
    refine ⟨by decide, ?_, by decide, ?_⟩
    · rintro scope - entry ⟨⟩
    · exact fun scope _ _ => .inr (by decide)
  refine ⟨listed, ?_, by decide⟩
  rw [NeedsQuery.runCached_eq_load comparable, NeedsQuery.outcome_load, listed]
  rfl

end Agenda
