import Agenda.Proofs.Dashboard.Calls
import Agenda.Proofs.Needs.GradingCount
import Agenda.Proofs.Needs.SubmittingList

/-!
Checkpoints and their parents. The two halves of a query list different assignments, and where a
checkpoint is listed its parent is not; so a dashboard that merges the halves never shows both.
-/

namespace Agenda

namespace AssignmentKind

variable {row : Assignment} {checkpoints : List CourseId}

theorem admits_assignment_iff : admits .assignment row checkpoints = true ↔
    row.isSubAssignment = false ∧ ¬(row.course ∈ checkpoints ∧ row.hasSubAssignments) := by
  simp only [admits, Bool.and_eq_true, Bool.not_eq_true', ← Bool.not_eq_true, List.contains_eq_mem,
    decide_eq_true_eq]

theorem admits_subAssignment_iff : admits .subAssignment row checkpoints = true ↔
    row.isSubAssignment = true ∧ row.course ∈ checkpoints := by
  simp only [admits, Bool.and_eq_true, List.contains_eq_mem, decide_eq_true_eq]

theorem kind_of_admits {kind : AssignmentKind} (admitted : kind.admits row checkpoints = true) :
    kind = if row.isSubAssignment then .subAssignment else .assignment := by
  have half := half_of_admits admitted
  cases kind <;> simp [half]

end AssignmentKind

namespace Tables

/-- The parent of every checkpoint is an assignment of its course that has checkpoints and is none. -/
def CheckpointsCoherent (tables : Tables) : Prop :=
  ∀ part ∈ tables.assignments, ∀ id, part.parent = some id →
    ∃ parent ∈ tables.assignments, parent.id = id ∧ parent.course = part.course ∧
      parent.hasSubAssignments ∧ parent.isSubAssignment = false

structure Half (tables : Tables) (kind : AssignmentKind) (items : List AssignmentTodo) : Prop where
  once : (items.map (·.assignment.id)).Nodup
  stored : ∀ item ∈ items, item.assignment ∈ tables.assignments
  admitted : ∀ item ∈ items, kind.admits item.assignment tables.checkpointed = true

/-- Items of assignments, with no assignment twice and none together with its parent. -/
structure Exclusive (tables : Tables) (items : List AssignmentTodo) : Prop where
  once : (items.map (·.assignment.id)).Nodup
  stored : ∀ item ∈ items, item.assignment ∈ tables.assignments
  apart : ∀ parent ∈ items, ∀ part ∈ items, part.assignment.parent ≠ some parent.assignment.id

variable {tables : Tables} {kind : AssignmentKind} {items others : List AssignmentTodo}

theorem Half.subperm (half : tables.Half kind items) (among : others.Subperm items) :
    tables.Half kind others := by
  have within := among.subset
  obtain ⟨some, perm, sublist⟩ := among
  exact ⟨(perm.map _).nodup_iff.mp (half.once.sublist (sublist.map _)),
    fun item member => half.stored item (within member),
    fun item member => half.admitted item (within member)⟩

theorem Exclusive.subperm (exclusive : tables.Exclusive items) (among : others.Subperm items) :
    tables.Exclusive others := by
  have within := among.subset
  obtain ⟨some, perm, sublist⟩ := among
  exact ⟨(perm.map _).nodup_iff.mp (exclusive.once.sublist (sublist.map _)),
    fun item member => exclusive.stored item (within member),
    fun parent isParent part isPart =>
      exclusive.apart parent (within isParent) part (within isPart)⟩

variable (distinct : (tables.assignments.map (·.id)).Nodup)
include distinct

theorem not_admits_parent (coherent : tables.CheckpointsCoherent) {parent part : Assignment}
    (parentStored : parent ∈ tables.assignments) (partStored : part ∈ tables.assignments)
    (own : part.parent = some parent.id) {other : AssignmentKind}
    (listed : other.admits part tables.checkpointed = true) :
    kind.admits parent tables.checkpointed = false := by
  obtain ⟨row, stored, named, course, splits, whole⟩ := coherent part partStored parent.id own
  obtain rfl := List.inj_on_of_nodup_map distinct stored parentStored named
  have isPart : part.isSubAssignment = true := by rw [Assignment.isSubAssignment, own]; rfl
  obtain rfl : other = .subAssignment := by
    simpa [isPart] using AssignmentKind.kind_of_admits listed
  have checkpointed := (AssignmentKind.admits_subAssignment_iff.mp listed).2
  rw [← Bool.not_eq_true]
  intro admitted
  obtain rfl : kind = .assignment := by
    simpa [whole] using AssignmentKind.kind_of_admits admitted
  exact (AssignmentKind.admits_assignment_iff.mp admitted).2 ⟨course ▸ checkpointed, splits⟩

theorem Half.append (coherent : tables.CheckpointsCoherent) {plain checkpoints : List AssignmentTodo}
    (first : tables.Half .assignment plain) (second : tables.Half .subAssignment checkpoints) :
    tables.Exclusive (plain ++ checkpoints) := by
  have listed : ∀ item ∈ plain ++ checkpoints, item.assignment ∈ tables.assignments ∧
      ∃ kind : AssignmentKind, kind.admits item.assignment tables.checkpointed = true := by
    intro item member
    rcases List.mem_append.mp member with isPlain | isCheckpoint
    · exact ⟨first.stored item isPlain, _, first.admitted item isPlain⟩
    · exact ⟨second.stored item isCheckpoint, _, second.admitted item isCheckpoint⟩
  refine ⟨?_, fun item member => (listed item member).1, fun parent isParent part isPart own => ?_⟩
  · rw [List.map_append]
    refine List.nodup_append.mpr ⟨first.once, second.once, ?_⟩
    rintro id inPlain other inCheckpoints rfl
    obtain ⟨item, isPlain, rfl⟩ := List.mem_map.mp inPlain
    obtain ⟨further, isCheckpoint, same⟩ := List.mem_map.mp inCheckpoints
    have sameRow := List.inj_on_of_nodup_map distinct (second.stored further isCheckpoint)
      (first.stored item isPlain) same
    have whole := (AssignmentKind.admits_assignment_iff.mp (first.admitted item isPlain)).1
    have isPart := (AssignmentKind.admits_subAssignment_iff.mp (second.admitted further isCheckpoint)).1
    rw [sameRow, whole] at isPart
    cases isPart
  · obtain ⟨parentStored, _, admitted⟩ := listed parent isParent
    obtain ⟨partStored, _, also⟩ := listed part isPart
    rw [not_admits_parent distinct coherent parentStored partStored own also] at admitted
    cases admitted

end Tables

namespace NeedsQuery

def ListsHalf (tables : Tables) : (query : NeedsQuery) → List query.Item → Prop
  | .submitting kind _, items => tables.Half kind items
  | .grading kind, items => tables.Half kind items
  | _, _ => True

variable {deployment : Deployment} {user : UserId} {options : NeedsOptions} {kind : AssignmentKind}
  {scope : Scope} {items : List AssignmentTodo}
  (distinct : (deployment.tables.assignments.map (·.id)).Nodup)
include distinct

theorem half_of_sorted_submitting {choice : SubmittingOptions}
    (resolved : ((NeedsQuery.submitting kind choice).scope deployment user options).outcome = .ok scope)
    (sublist : items.Sublist ((NeedsQuery.submitting kind choice).sorted deployment user options scope)) :
    deployment.tables.Half kind items := by
  obtain ⟨courses, groups, rfl⟩ := Scope.spread_of_resolve resolved
  let query : Submitting := ⟨kind, choice, user, options⟩
  let listed := deployment.tables.assignments.filter fun row =>
    query.Lists deployment.tables ⟨.ofList courses, .ofList groups⟩ deployment.now row
  have half : deployment.tables.Half kind
      (listed.map fun row => ⟨row, (deployment.tables.datesFor user row).due, none⟩) := by
    refine ⟨?_, fun item member => ?_, fun item member => ?_⟩
    · rw [List.map_map]
      exact distinct.sublist (List.filter_sublist.map _)
    · obtain ⟨row, among, rfl⟩ := List.mem_map.mp member
      exact (List.mem_filter.mp among).1
    · obtain ⟨row, among, rfl⟩ := List.mem_map.mp member
      exact (of_decide_eq_true (List.mem_filter.mp among).2).admitted
  refine half.subperm (sublist.subperm.trans (List.Perm.subperm ?_))
  exact (List.mergeSort_perm _ Listed.noLater).trans query.flatMap_found_perm

theorem half_of_sorted_grading
    (resolved : ((NeedsQuery.grading kind).scope deployment user options).outcome = .ok scope)
    (sublist : items.Sublist ((NeedsQuery.grading kind).sorted deployment user options scope)) :
    deployment.tables.Half kind items := by
  obtain ⟨courses, groups, rfl⟩ := Scope.spread_of_resolve resolved
  let found : List AssignmentTodo := (NeedsQuery.grading kind).found deployment user options
    ⟨.ofList courses, .ofList groups⟩ (deployment.ignored user kind.objectKind .grading options)
  have half : deployment.tables.Half kind found := by
    refine ⟨?_, fun item member => ?_, fun item member => ?_⟩
    · refine (nodup_found_grading _).map_on fun first firstFound second secondFound same => ?_
      obtain ⟨firstLists, firstMade⟩ := (mem_found_grading distinct).mp firstFound
      obtain ⟨secondLists, secondMade⟩ := (mem_found_grading distinct).mp secondFound
      have sameRow := List.inj_on_of_nodup_map distinct firstLists.stored secondLists.stored same
      rw [firstMade, secondMade, sameRow]
    · exact ((mem_found_grading distinct).mp member).1.stored
    · exact ((mem_found_grading distinct).mp member).1.admitted
  exact half.subperm (sublist.subperm.trans (List.mergeSort_perm found Listed.noLater).subperm)

variable {query : NeedsQuery} {chosen : List query.Item}

theorem listsHalf_of_sublist
    (taken : chosen = [] ∨ ∃ scope, (query.scope deployment user options).outcome = .ok scope ∧
      chosen.Sublist (query.sorted deployment user options scope)) :
    query.ListsHalf deployment.tables chosen := by
  have half {kind : AssignmentKind} : deployment.tables.Half kind [] :=
    ⟨List.nodup_nil, by simp, by simp⟩
  cases query with
  | submitting kind choice =>
      rcases taken with rfl | ⟨scope, resolved, sublist⟩
      · exact half
      · exact half_of_sorted_submitting distinct resolved sublist
  | grading kind =>
      rcases taken with rfl | ⟨scope, resolved, sublist⟩
      · exact half
      · exact half_of_sorted_grading distinct resolved sublist
  | _ => trivial

theorem listsHalf_of_load
    (loaded : (query.load deployment user options [] none).outcome = .ok chosen) :
    query.ListsHalf deployment.tables chosen := by
  rw [outcome_load] at loaded
  obtain ⟨items, listed, rfl⟩ := map_eq_ok.mp loaded
  exact listsHalf_of_sublist distinct (sublist_of_run listed)

end NeedsQuery

theorem Lookup.sublist_of_mem_lookups {deployment : Deployment} {user : UserId} {options : NeedsOptions}
    {queries : List NeedsQuery} {memory : Memory} (distinct : queries.Nodup)
    (free : Sha256.CollisionFree
      ((lookups deployment user options queries memory).flatMap Event.hashedTexts))
    (empty : ∀ key, memory.cache.entries key = none) {call : Lookup}
    (member : .lookup call ∈ lookups deployment user options queries memory)
    {items : List call.query.Item} (answered : call.result.1 = .ok items) :
    items = [] ∨ ∃ scope, (call.query.scope deployment user options).outcome = .ok scope ∧
      items.Sublist (call.query.sorted deployment user options scope) := by
  rcases asks_or_empty answered with ⟨scope, asks⟩ | nothing
  swap
  · exact .inl nothing
  obtain ⟨reached, misses | found⟩ := answer_cases asks answered
  · obtain ⟨query, -, start, -, same⟩ := of_mem_lookups member
    obtain rfl := Event.lookup.inj same
    refine .inr ⟨scope, asks.resolved, (NeedsQuery.sublist_of_firstItems misses.computed).trans ?_⟩
    rw [keepAll_eq_filter]
    exact List.filter_sublist
  · obtain ⟨entry, stored, -⟩ :=
      ((call.request scope).found?_eq_some call.deployment call.memory).mp found
    have works : deployment.failure? .readToken = none := by
      obtain ⟨query, -, start, -, same⟩ := of_mem_lookups member
      obtain rfl := Event.lookup.inj same
      exact reached
    have unstored := unstored_of_mem_lookups distinct free (List.Subset.refl _)
      (fun key entry stored => by simp [empty] at stored) member asks works
    exact nomatch unstored.symm.trans stored

namespace TodoList

/-- No two entries of a category have the same id, and no entry is a checkpoint of another. -/
structure ExclusiveIn (list : TodoList) (tables : Tables) (category : TodoCategory) : Prop where
  once : ((list.entries category).map (·.id)).Nodup
  apart : ∀ parent ∈ list.entries category, ∀ part ∈ list.entries category,
    ∀ row ∈ tables.assignments, row.id.global = part.id → row.parent ≠ some ⟨parent.id⟩

variable {tables : Tables} {list : TodoList} {category : TodoCategory}

theorem exclusiveIn_of_items (distinct : (tables.assignments.map (·.id)).Nodup)
    {items : List AssignmentTodo} (exclusive : tables.Exclusive items) {purpose : Purpose}
    {nameOf : Context → String}
    (shown : list.entries category = items.map (TodoEntry.ofAssignment purpose nameOf)) :
    list.ExclusiveIn tables category := by
  refine ⟨?_, fun parent isParent part isPart row stored named own => ?_⟩
  · have ids : (list.entries category).map (·.id) =
        (items.map (·.assignment.id)).map Id.global := by
      rw [shown, List.map_map, List.map_map]
      rfl
    rw [ids]
    exact exclusive.once.map fun first second same => congrArg Id.mk same
  · rw [shown] at isParent isPart
    obtain ⟨parentItem, parentListed, rfl⟩ := List.mem_map.mp isParent
    obtain ⟨partItem, partListed, rfl⟩ := List.mem_map.mp isPart
    have sameRow := List.inj_on_of_nodup_map distinct stored (exclusive.stored partItem partListed)
      (congrArg Id.mk named)
    exact exclusive.apart parentItem parentListed partItem partListed (sameRow ▸ own)

theorem merge_subperm {options : NeedsOptions} (first second : List AssignmentTodo) :
    (merge options first second).Subperm (first ++ second) := by
  refine List.Subperm.trans ?_ (List.mergeSort_perm (first ++ second) Listed.noLater).subperm
  rw [merge, NeedsQuery.truncate_eq_elim]
  cases options.limit with
  | none => exact .refl _
  | some limit => exact (List.take_sublist limit _).subperm

theorem exclusiveIn_of_build {deployment : Deployment} {user : UserId} {limits : DashboardLimits}
    {memory : Memory} (distinct : (deployment.tables.assignments.map (·.id)).Nodup)
    (coherent : deployment.tables.CheckpointsCoherent) (empty : ∀ key, memory.cache.entries key = none)
    (free : Sha256.CollisionFree ((lookups deployment user { limit := some limits.fetch } queries
      memory).flatMap Event.hashedTexts))
    (built : (build deployment limits user memory).1 = .ok list) :
    list.ExclusiveIn deployment.tables .grading ∧ list.ExclusiveIn deployment.tables .submitting := by
  let expects (query : NeedsQuery) (outcome : Except Stop (List query.Item)) : Prop :=
    ∀ items, outcome = .ok items → query.ListsHalf deployment.tables items
  let holds (outcome : Except Stop TodoList) : Prop := ∀ list, outcome = .ok list →
    list.ExclusiveIn deployment.tables .grading ∧ list.ExclusiveIn deployment.tables .submitting
  have promised : (build deployment limits user).Promises deployment user
      { limit := some limits.fetch } expects queries holds := by
    refine build_promises ?_ fun query stop _ list stopped => nomatch stopped
    intro plainGrading checkpointGrading moderation plainSubmitting checkpointSubmitting reviewing
      first second _ fourth fifth _ memory list finished
    obtain ⟨matrix, courses, rfl⟩ := ofItems_of_finish finished
    have grading := Tables.Half.append distinct coherent (first _ rfl) (second _ rfl)
    have submitting := Tables.Half.append distinct coherent (fourth _ rfl) (fifth _ rfl)
    refine ⟨exclusiveIn_of_items distinct (grading.subperm ?_) rfl,
      exclusiveIn_of_items distinct (submitting.subperm (merge_subperm _ _)) rfl⟩
    exact (List.filter_sublist.subperm).trans (merge_subperm _ _)
  refine promised memory (fun call member items answered => ?_) list built
  exact NeedsQuery.listsHalf_of_sublist distinct
    (Lookup.sublist_of_mem_lookups (by decide) free empty member answered)

/-- The halves of the submitting query, of the grading query and of both on a dashboard are exclusive:
no assignment is on both, and where a parent is none of its checkpoints is. With no shard offline and no
outage all four halves come to a list. -/
theorem checkpoints_exclusive (deployment : Deployment)
    (distinct : (deployment.tables.assignments.map (·.id)).Nodup)
    (coherent : deployment.tables.CheckpointsCoherent) (online : deployment.offline = [])
    (user : UserId) (options : NeedsOptions) (choice : SubmittingOptions) :
    (deployment.outages = [] → ∀ kind,
      (∃ items : List AssignmentTodo, ((NeedsQuery.submitting kind choice).load deployment user options
        [] none).outcome = .ok items) ∧
      ∃ items : List AssignmentTodo,
        ((NeedsQuery.grading kind).load deployment user options [] none).outcome = .ok items) ∧
    (∀ plain checkpoints : List AssignmentTodo,
      ((NeedsQuery.submitting .assignment choice).load deployment user options [] none).outcome =
        .ok plain →
      ((NeedsQuery.submitting .subAssignment choice).load deployment user options [] none).outcome =
        .ok checkpoints →
      deployment.tables.Exclusive (plain ++ checkpoints)) ∧
    (∀ plain checkpoints : List AssignmentTodo,
      ((NeedsQuery.grading .assignment).load deployment user options [] none).outcome = .ok plain →
      ((NeedsQuery.grading .subAssignment).load deployment user options [] none).outcome =
        .ok checkpoints →
      deployment.tables.Exclusive (plain ++ checkpoints)) ∧
    ∀ (limits : DashboardLimits) (memory : Memory) (list : TodoList),
      (∀ key, memory.cache.entries key = none) →
      Sha256.CollisionFree ((lookups deployment user { limit := some limits.fetch } queries
        memory).flatMap Event.hashedTexts) →
      (build deployment limits user memory).1 = .ok list →
      list.ExclusiveIn deployment.tables .grading ∧ list.ExclusiveIn deployment.tables .submitting := by
  have served (working : deployment.outages = []) (query : NeedsQuery) :
      ∃ items, (query.load deployment user options [] none).outcome = .ok items := by
    obtain ⟨items, listed⟩ := NeedsQuery.outcome_run_served working online query user options
    exact ⟨items, by rw [NeedsQuery.outcome_load, listed]; rfl⟩
  refine ⟨fun working kind =>
      ⟨served working (.submitting kind choice), served working (.grading kind)⟩,
    fun plain checkpoints first second => ?_, fun plain checkpoints first second => ?_,
    fun limits memory list empty free built =>
      exclusiveIn_of_build distinct coherent empty free built⟩
  · exact Tables.Half.append distinct coherent (NeedsQuery.listsHalf_of_load distinct first)
      (NeedsQuery.listsHalf_of_load distinct second)
  · exact Tables.Half.append distinct coherent (NeedsQuery.listsHalf_of_load distinct first)
      (NeedsQuery.listsHalf_of_load distinct second)

/-- A discussion with a checkpoint, in a course that has a row with checkpoints and one without. A
student is shown the checkpoint and therefore not the discussion. -/
theorem checkpoints_exclusive_discussion :
    let student : UserId := ⟨⟨7, by decide⟩⟩
    let physics : CourseId := ⟨⟨1, by decide⟩⟩
    let today : Instant := ⟨⟨2026, 1, 11, by decide⟩, 43200, 0, by decide, by decide⟩
    let essay (id : AssignmentId) := NeedsQuery.essayFor id physics today
    let discussion := { essay ⟨⟨10, by decide⟩⟩ with hasSubAssignments := true }
    let reply := { essay ⟨⟨11, by decide⟩⟩ with parent := some discussion.id }
    let deployment : Deployment := {
      tables := {
        memberships := [⟨student, [⟨physics, .student, .active, false⟩], []⟩]
        courses := [⟨physics, ⟨⟨1, by decide⟩⟩, "Physics", .available, false⟩,
          ⟨physics, ⟨⟨1, by decide⟩⟩, "Physics", .available, true⟩]
        assignments := [discussion, reply] }
      grants := []
      offline := []
      outages := []
      now := today
      config := {} }
    ∃ plain checkpoints : List AssignmentTodo,
      ((NeedsQuery.submitting .assignment {}).load deployment student {} [] none).outcome = .ok plain ∧
      ((NeedsQuery.submitting .subAssignment {}).load deployment student {} [] none).outcome =
        .ok checkpoints ∧
      ⟨reply, none, none⟩ ∈ checkpoints ∧
      ∀ item ∈ plain ++ checkpoints, item.assignment.id ≠ discussion.id := by
  intro student physics today essay discussion reply deployment
  have coherent : deployment.tables.CheckpointsCoherent := by
    intro part stored id own
    rcases List.mem_cons.mp stored with rfl | later
    · cases own
    · obtain rfl := List.mem_singleton.mp later
      obtain rfl := Option.some.inj own
      exact ⟨discussion, List.mem_cons_self, rfl, rfl, rfl, rfl⟩
  obtain ⟨served, exclusive, -⟩ :=
    checkpoints_exclusive deployment (by decide) coherent rfl student {} {}
  obtain ⟨plain, first⟩ := (served rfl .assignment).1
  obtain ⟨checkpoints, second⟩ := (served rfl .subAssignment).1
  have shown : ⟨reply, none, none⟩ ∈ checkpoints := by
    let query : NeedsQuery := .submitting .subAssignment {}
    let scope : Scope := ⟨.ofList [physics], .empty⟩
    have resolved : (query.scope deployment student {}).outcome = .ok scope := rfl
    have loaded : (query.load deployment student {} [] none).outcome =
        .ok (query.sorted deployment student {} scope) :=
      NeedsQuery.outcome_load_of_scope rfl rfl resolved
    have found : query.found deployment student {} scope [] =
        [(⟨reply, none, none⟩ : AssignmentTodo)] := rfl
    obtain rfl : checkpoints = _ := Except.ok.inj (second.symm.trans loaded)
    refine (List.mergeSort_perm _ Listed.noLater).mem_iff.mpr ?_
    change _ ∈ query.found deployment student {} scope []
    rw [found]
    exact List.mem_singleton_self _
  refine ⟨plain, checkpoints, first, second, shown, fun item member same => ?_⟩
  exact (exclusive plain checkpoints first second).apart item member ⟨reply, none, none⟩
    (List.mem_append_right _ shown) (congrArg some same.symm)

end TodoList

end Agenda
