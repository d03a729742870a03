import Agenda.Proofs.Dashboard.Definition

/-!
Dismissing an entry works and removes nothing else. After an ignore no answer to its user lists what
was ignored while the row stays, for the bump separates the answer from all that was computed
before; and every other list stays as it was.
-/

namespace Agenda

namespace Ignore

def hides (row : Ignore) (user : UserId) (query : NeedsQuery) (item : query.Item) : Bool :=
  row.sameIdentity ⟨user, ⟨query.objectKind, Listed.id item⟩, query.purpose, row.permanent⟩

end Ignore

namespace NeedsQuery

variable {query : NeedsQuery} {deployment : Deployment} {user : UserId} {options : NeedsOptions}
  {scope : Scope}

theorem contains_ignored_upsert (row : Ignore) (limited : options.includeIgnored = false)
    (item : query.Item) :
    (query.ignored (deployment.withIgnores (row.upsert deployment.tables.ignores)) user
        options).contains (Listed.id item) =
      ((query.ignored deployment user options).contains (Listed.id item) ||
        row.hides user query item) := by
  rw [Bool.eq_iff_iff, Bool.or_eq_true, List.contains_iff_mem, List.contains_iff_mem, ignored, ignored,
    Deployment.mem_ignored _ limited row.permanent, Deployment.mem_ignored _ limited row.permanent]
  change ((row.upsert deployment.tables.ignores).any _ = true) ↔ _
  rw [Ignore.any_upsert, Bool.or_eq_true]
  rfl

theorem found_after_ignore (row : Ignore) (limited : options.includeIgnored = false)
    (distinct : query = .moderation → deployment.tables.PendingDistinct) :
    let edited := deployment.withIgnores (row.upsert deployment.tables.ignores)
    query.found edited user options scope (query.ignored edited user options) =
      (query.found deployment user options scope (query.ignored deployment user options)).filter
        fun item => !row.hides user query item := by
  intro edited
  have before := query.found_filter deployment user options scope (query.ignored deployment user options)
    distinct
  have after := query.found_filter deployment user options scope (query.ignored edited user options)
    distinct
  rw [found_withIgnores, after, before, List.filter_filter]
  refine List.filter_congr fun item _ => ?_
  rw [contains_ignored_upsert row limited item, Bool.not_or, Bool.and_comm]

theorem outcome_run_after_ignore (row : Ignore) (limited : options.includeIgnored = false)
    (distinct : query = .moderation → deployment.tables.PendingDistinct) {items : List query.Item}
    (listed : (query.run deployment user options).outcome = .ok items) :
    (query.run (deployment.withIgnores (row.upsert deployment.tables.ignores)) user options).outcome =
      .ok (items.filter fun item => !row.hides user query item) := by
  let edited := deployment.withIgnores (row.upsert deployment.tables.ignores)
  change (query.run edited user options).outcome = _
  cases disabled : query.isDisabled deployment.config with
  | true =>
      rw [outcome_run_disabled disabled] at listed
      cases listed
      exact outcome_run_disabled disabled
  | false =>
      have enabled : query.isDisabled edited.config = false := disabled
      rw [outcome_run_enabled disabled] at listed
      obtain ⟨scope, resolved, inScope⟩ := bind_eq_ok.mp listed
      rw [outcome_list] at inScope
      obtain ⟨readable, reached, chosen⟩ := bind_eq_ok.mp inScope
      rw [outcome_run_enabled enabled, scope_withIgnores, resolved, Except.bind, outcome_list,
        access_withIgnores, reached, Except.bind, choose_withIgnores, sorted,
        found_after_ignore row limited distinct, ← Listed.filter_sort]
      exact choose_filter _ chosen

end NeedsQuery

theorem Lookup.hidden_after_ignore {events : List Event} {row : Ignore} {bumped place : Nat}
    {call : Lookup} {items : List call.query.Item}
    (explained : ∀ (place : Nat) (call : Lookup), events[place]? = some (.lookup call) →
      call.memory.cache.ExplainedBy (events.take place))
    (free : Sha256.CollisionFree (events.flatMap Event.hashedTexts))
    (few : events.countP (Event.bumps row.user) < 2 ^ 64)
    (bump : events[bumped]? = some (.bump row.user))
    (stays : ∀ (place : Nat) (call : Lookup), bumped < place →
      events[place]? = some (.lookup call) →
        call.deployment.tables.ignores.any (·.sameIdentity row) = true)
    (called : events[place]? = some (.lookup call)) (after : bumped < place)
    (owner : call.user = row.user) (limited : call.options.includeIgnored = false)
    (answered : call.result.1 = .ok items) :
    ∀ item ∈ items, ¬(call.query.kindOf item = row.asset.kind ∧ call.query.purpose = row.purpose ∧
      Listed.id item = row.asset.id) := by
  rintro item member ⟨kinds, purposes, ids⟩
  rcases Lookup.asks_or_empty answered with ⟨scope, asks⟩ | rfl
  swap
  · cases member
  have history : events.take place ++ [Event.lookup call] = events.take (place + 1) := by
    rw [List.take_add_one, called]
    rfl
  have hashed : (events.take (place + 1)).flatMap Event.hashedTexts ⊆
      events.flatMap Event.hashedTexts := fun text hashed => by
    obtain ⟨event, taken, own⟩ := List.mem_flatMap.mp hashed
    exact List.mem_flatMap.mpr ⟨event, List.mem_of_mem_take taken, own⟩
  obtain ⟨first, deployment, memory, area, computed, misses, -, tokens⟩ :=
    Lookup.source (explained place call called) (history ▸ free.subset hashed) asks answered
  rw [history, List.getElem?_take] at computed
  split at computed
  swap
  · cases computed
  -- Had it been computed before the bump, its token would be another.
  have late : bumped < first := by
    by_contra early
    have isBump : Event.bumps row.user (.bump row.user) = true := by simp [Event.bumps]
    have more := countP_take_lt (not_lt.mp early) after bump isBump
    have bound (count : Nat) : (events.take count).countP (Event.bumps row.user) < 2 ^ 64 :=
      lt_of_le_of_lt (List.take_sublist count events).countP_le few
    have counts : BatchToken.ofCount ((events.take first).countP (Event.bumps row.user)) =
        .ofCount ((events.take place).countP (Event.bumps row.user)) := by
      rw [← owner, ← (explained first _ computed).tokens, ← (explained place call called).tokens]
      exact tokens
    have same := BatchToken.ofCount_injective (bound first) (bound place) counts
    omega
  have found : item ∈ call.query.found deployment call.user call.options area
      (call.query.ignored deployment call.user call.options) :=
    Lookup.found_of_misses misses member
  have own : row.hides call.user call.query item = true := by
    have sameKind := NeedsQuery.kindOf_found found
    exact Ignore.sameIdentity_iff.mpr
      ⟨owner.symm, by rw [← sameKind, kinds, ids], purposes.symm⟩
  obtain ⟨other, present, same⟩ := List.any_eq_true.mp (stays first _ late computed)
  have listed : Listed.id item ∈ call.query.ignored deployment call.user call.options := by
    refine (deployment.mem_ignored limited row.permanent).mpr
      (List.any_eq_true.mpr ⟨other, present, ?_⟩)
    rw [Ignore.sameIdentity_congr same]
    exact own
  exact NeedsQuery.not_ignored _ _ _ _ _ _ found listed

namespace World

variable (world : World)

theorem ignore_answered {row answer : Ignore} (answered : (World.ignore row world).1 = .ok answer) :
    (world.after (.ignore row)).deployment =
        world.deployment.withIgnores (row.upsert world.deployment.tables.ignores) ∧
      (Step.ignore row).events world = [.bump row.user] := by
  cases saves : world.deployment.failure? .saveIgnore with
  | some failure =>
      rw [world.ignore_refused saves] at answered
      cases answered
  | none =>
      let edited := world.withIgnores (row.upsert world.deployment.tables.ignores)
      cases touches : edited.deployment.failure? .advanceToken with
      | some failure =>
          rw [world.ignore_served saves, Action.bind, edited.touch_refused row.user touches]
            at answered
          cases answered
      | none =>
          have works : world.deployment.failure? .advanceToken = none := touches
          constructor
          · rw [world.after_ignore saves, touchAll_deployment]
            rfl
          · simp [Step.events, saves, bumps, works]

/-- What an ignore names is on no later dashboard of its user, as long as the row stays. -/
theorem never_shown_after_ignore {tables : Tables} {grants : List PermissionGrant} {now : Instant}
    {config : Config} {before later : List Step} {row answer : Ignore} {limits : DashboardLimits}
    (queried : ∀ step ∈ before ++ later, step.writesByHand = false)
    (answered : (World.ignore row ((start tables grants now config).run before)).1 = .ok answer)
    (free : Sha256.CollisionFree (((start tables grants now config).trace
      (before ++ .ignore row :: (later ++ [.dashboard row.user limits]))).flatMap Event.hashedTexts))
    (few : ((start tables grants now config).trace
      (before ++ .ignore row :: (later ++ [.dashboard row.user limits]))).countP
        (Event.bumps row.user) < 2 ^ 64)
    (stays : ∀ place ≤ later.length,
      ((((start tables grants now config).run before).after (.ignore row)).run
        (later.take place)).deployment.tables.ignores.any (·.sameIdentity row) = true)
    {list : TodoList} {final : World}
    (reached : (((start tables grants now config).run before).after (.ignore row)).run later = final)
    (built : (TodoList.build final.deployment limits row.user final.memory).1 = .ok list) :
    ∀ category, ∀ shown ∈ list.entries category,
      ¬(shown.kind = row.asset.kind ∧ shown.purpose = row.purpose ∧ shown.id = row.asset.id) := by
  let world := (start tables grants now config).run before
  let dismissed := world.after (.ignore row)
  let steps := later ++ [Step.dashboard row.user limits]
  let earlier := (start tables grants now config).trace before
  have steady : ∀ step ∈ before ++ .ignore row :: steps, step.writesByHand = false := by
    intro step member
    simp only [steps, List.mem_append, List.mem_cons, List.not_mem_nil, or_false] at member
    rcases member with first | rfl | second | rfl
    · exact queried step (List.mem_append_left _ first)
    · rfl
    · exact queried step (List.mem_append_right _ second)
    · rfl
  have events : (start tables grants now config).trace (before ++ .ignore row :: steps) =
      earlier ++ .bump row.user :: dismissed.trace steps := by
    rw [trace_append, trace, (ignore_answered world answered).2]
    rfl
  have explained := (start_explained tables grants now config steady).2
  rw [events] at free few explained
  have bump : (earlier ++ .bump row.user :: dismissed.trace steps)[earlier.length]? =
      some (.bump row.user) := by simp
  have afterwards {place : Nat} {event : Event} (late : earlier.length < place)
      (seen : (earlier ++ .bump row.user :: dismissed.trace steps)[place]? = some event) :
      event ∈ dismissed.trace steps := by
    obtain ⟨more, rfl⟩ := Nat.exists_eq_add_of_lt late
    rw [Nat.add_assoc, List.getElem?_append_right (Nat.le_add_right _ _), Nat.add_sub_cancel_left]
      at seen
    exact List.mem_of_getElem? (List.getElem?_cons_succ ▸ seen)
  have keeps (place : Nat) (call : Lookup) (late : earlier.length < place)
      (seen : (earlier ++ .bump row.user :: dismissed.trace steps)[place]? = some (.lookup call)) :
      call.deployment.tables.ignores.any (·.sameIdentity row) = true := by
    obtain ⟨count, bound, same⟩ := dismissed.deployment_of_mem_trace (afterwards late seen)
    have within : count ≤ later.length := by simpa [steps, Nat.lt_succ_iff] using bound
    rw [same, List.take_append_of_le_length within]
    exact stays count within
  let good (kind : ObjectKind) (purpose : Purpose) (id : GlobalId) : Prop :=
    ¬(kind = row.asset.kind ∧ purpose = row.purpose ∧ id = row.asset.id)
  have hidden (call : Lookup) (member : .lookup call ∈ lookups final.deployment row.user
      { limit := some limits.fetch } TodoList.queries final.memory) (items : List call.query.Item)
      (came : call.result.1 = .ok items) :
      ∀ item ∈ items, good (call.query.kindOf item) call.query.purpose (Listed.id item) := by
    obtain ⟨query, -, memory, -, same⟩ := of_mem_lookups member
    have origin := Event.lookup.inj same
    have last : .lookup call ∈ dismissed.trace steps := by
      rw [trace_append, trace, show dismissed.run later = final from reached]
      exact List.mem_append_right _ (List.mem_append_left _ member)
    obtain ⟨place, seen⟩ := List.mem_iff_getElem?.mp last
    have called : (earlier ++ .bump row.user :: dismissed.trace steps)[earlier.length + (place + 1)]? =
        some (.lookup call) := by
      rw [List.getElem?_append_right (Nat.le_add_right _ _), Nat.add_sub_cancel_left]
      exact seen
    exact Lookup.hidden_after_ignore explained free few bump keeps called (by omega)
      (by rw [origin]) (by rw [origin]) came
  have shownGood : ∀ category, ∀ shown ∈ list.entries category,
      good shown.kind shown.purpose shown.id := TodoList.entries_from_calls hidden built
  exact shownGood

/-- Dismissing an entry works and removes nothing else. After the ignore no dashboard of the user
shows what the entry named, while the row stays; and every list without ignored objects loses exactly
the items that the ignore hides. -/
theorem dismissal_exact (tables : Tables) (grants : List PermissionGrant) (now : Instant)
    (config : Config) (before : List Step) (entry : TodoEntry) (user : UserId) (permanent : Bool) :
    let row : Ignore := ⟨user, ⟨entry.kind, entry.id⟩, entry.purpose, permanent⟩
    let start := start tables grants now config
    let world := start.run before
    let dismissed := world.after (.ignore row)
    (World.ignore row world).1 = .ok row →
    (∀ (later : List Step) (limits : DashboardLimits) (list : TodoList),
      let events := start.trace (before ++ .ignore row :: (later ++ [.dashboard user limits]))
      let final := dismissed.run later
      (∀ step ∈ before ++ later, step.writesByHand = false) →
      Sha256.CollisionFree (events.flatMap Event.hashedTexts) →
      events.countP (Event.bumps user) < 2 ^ 64 →
      (∀ place ≤ later.length,
        (dismissed.run (later.take place)).deployment.tables.ignores.any (·.sameIdentity row) = true) →
      (TodoList.build final.deployment limits user final.memory).1 = .ok list →
      ∀ category, ∀ shown ∈ list.entries category,
        ¬(shown.kind = entry.kind ∧ shown.purpose = entry.purpose ∧ shown.id = entry.id)) ∧
    (∀ (query : NeedsQuery) (viewer : UserId) (options : NeedsOptions),
      options.includeIgnored = false →
      (query = .moderation → world.deployment.tables.PendingDistinct) →
      (∀ items, (query.run world.deployment viewer options).outcome = .ok items →
        (query.run dismissed.deployment viewer options).outcome =
          .ok (items.filter fun item => !row.hides viewer query item)) ∧
      (world.deployment.offline = [] → world.deployment.outages = [] →
        ∃ items, (query.run world.deployment viewer options).outcome = .ok items)) := by
  intro row start world dismissed answered
  constructor
  · intro later limits list events final queried free few stays built
    exact never_shown_after_ignore queried answered free few stays rfl built
  · intro query viewer options limited distinct
    refine ⟨fun items listed => ?_, fun online working =>
      NeedsQuery.outcome_run_served working online query viewer options⟩
    rw [show dismissed.deployment = _ from (world.ignore_answered answered).1]
    exact NeedsQuery.outcome_run_after_ignore row limited distinct listed

def essayIgnore : Ignore :=
  ⟨classUser, ⟨essayEntry.kind, essayEntry.id⟩, essayEntry.purpose, true⟩

def dismissedClass : World :=
  (gradedClass.run [.dashboard classUser {}]).after (.ignore essayIgnore)

def touchedClass : World :=
  dismissedClass.run [.touch classUser]

theorem touchedClass_deployment :
    touchedClass.deployment = gradedClass.deployment.withIgnores [essayIgnore] :=
  rfl

def classLookups (deployment : Deployment) (memory : Memory) : List Event :=
  lookups deployment classUser hundred TodoList.queries memory

theorem countP_classLookups (deployment : Deployment) (memory : Memory) :
    (classLookups deployment memory).countP (Event.bumps classUser) = 0 :=
  List.countP_eq_zero.mpr fun event member => by
    obtain ⟨query, -, reached, -, rfl⟩ := of_mem_lookups member
    simp [Event.bumps]

theorem touchedClass_trace :
    gradedClass.trace [.dashboard classUser {}, .ignore essayIgnore, .touch classUser] =
      classLookups gradedClass.deployment gradedClass.memory ++
        [.bump classUser, .bump classUser] := by
  change classLookups gradedClass.deployment gradedClass.memory ++
    ([.bump classUser] ++ ([.bump classUser] ++ [])) = _
  simp

theorem touchedClass_token : touchedClass.memory.cache.tokens classUser = .ofCount 2 := by
  have queried : ∀ step ∈ [Step.dashboard classUser {}, .ignore essayIgnore, .touch classUser],
      step.writesByHand = false := by simp [Step.writesByHand]
  have counted := (start_explained gradedClass.deployment.tables gradedClass.deployment.grants
    gradedClass.deployment.now gradedClass.deployment.config queried).1.tokens classUser
  change touchedClass.memory.cache.tokens classUser = .ofCount ((gradedClass.trace _).countP _)
    at counted
  rw [counted, touchedClass_trace, List.countP_append, countP_classLookups]
  simp [Event.bumps]

def touchedEvents : List Event :=
  classLookups gradedClass.deployment gradedClass.memory ++ [.bump classUser, .bump classUser] ++
    classLookups touchedClass.deployment touchedClass.memory

theorem touchedEvents_eq : gradedClass.trace ([.dashboard classUser {}] ++ .ignore essayIgnore ::
    ([.touch classUser] ++ [.dashboard classUser {}])) = touchedEvents := by
  have final : gradedClass.run [.dashboard classUser {}, .ignore essayIgnore, .touch classUser] =
    touchedClass := rfl
  have steps : [Step.dashboard classUser {}] ++ .ignore essayIgnore ::
      ([.touch classUser] ++ [.dashboard classUser {}]) =
        [.dashboard classUser {}, .ignore essayIgnore, .touch classUser] ++
          [.dashboard classUser {}] := rfl
  rw [steps, trace_append, touchedClass_trace, final, touchedEvents]
  change _ ++ (classLookups touchedClass.deployment touchedClass.memory ++ []) = _
  rw [List.append_nil]

theorem touchedEvents_collisionFree :
    Sha256.CollisionFree (touchedEvents.flatMap Event.hashedTexts) := by
  have first : (classLookups gradedClass.deployment gradedClass.memory).flatMap
      Event.hashedTexts ⊆ _ :=
    TodoList.lookups_hashedTexts (rfl : gradedClass.memory.cache.tokens classUser = _)
  have second : (classLookups touchedClass.deployment touchedClass.memory).flatMap
      Event.hashedTexts ⊆ _ :=
    TodoList.lookups_hashedTexts (rfl : touchedClass.memory.cache.tokens classUser = _)
  rw [show gradedClass.deployment = gradedClass.deployment.withIgnores [] from rfl, class_hashedTexts]
    at first
  rw [touchedClass_deployment, class_hashedTexts, touchedClass_token] at second
  refine class_collisionFree.subset ?_
  rw [touchedEvents, List.flatMap_append, List.flatMap_append]
  refine List.append_subset.mpr ⟨List.append_subset.mpr ⟨?_, List.nil_subset _⟩, ?_⟩
  · exact List.Subset.trans first (List.subset_append_left _ _)
  · exact List.Subset.trans second (List.subset_append_right _ _)

/-- A grader dismisses the essay, touches the cache and looks again. -/
theorem dismissal_exact_essay :
    (∃ list, (TodoList.build touchedClass.deployment {} classUser touchedClass.memory).1 = .ok list ∧
      ∀ category, ∀ shown ∈ list.entries category, ¬(shown.kind = essayEntry.kind ∧
        shown.purpose = essayEntry.purpose ∧ shown.id = essayEntry.id)) ∧
    ((NeedsQuery.grading .assignment).run dismissedClass.deployment classUser hundred).outcome =
      .ok [] ∧
    ∃ items, (NeedsQuery.reviews.run gradedClass.deployment classUser hundred).outcome = .ok items := by
  have exact := dismissal_exact _ _ _ _ [.dashboard classUser {}] essayEntry classUser true
    (rfl : (World.ignore essayIgnore (gradedClass.run [.dashboard classUser {}])).1 = .ok essayIgnore)
  have free := touchedEvents_collisionFree
  have few : touchedEvents.countP (Event.bumps classUser) < 2 ^ 64 := by
    rw [touchedEvents, List.countP_append, List.countP_append, countP_classLookups,
      countP_classLookups]
    simp [Event.bumps]
  rw [← touchedEvents_eq] at free few
  have stays (place : Nat) (bound : place ≤ 1) :
      (dismissedClass.run ([Step.touch classUser].take place)).deployment.tables.ignores.any
        (·.sameIdentity essayIgnore) = true := by
    interval_cases place <;> rfl
  have representable : touchedClass.deployment.now.add?
      (.ofSeconds touchedClass.deployment.config.cacheSeconds) ≠ none := by
    rw [touchedClass_deployment]
    decide +kernel
  have served : ∃ list,
      (TodoList.build touchedClass.deployment {} classUser touchedClass.memory).1 = .ok list :=
    TodoList.build_served (by rw [touchedClass_deployment]; rfl) (by rw [touchedClass_deployment]; rfl) representable
      {} classUser touchedClass.memory
  obtain ⟨list, built⟩ := served
  refine ⟨⟨list, built, ?_⟩, ?_, ?_⟩
  · exact exact.1 [.touch classUser] {} list (by simp [Step.writesByHand]) free few stays built
  · have listed : ((NeedsQuery.grading .assignment).run gradedClass.deployment classUser
        hundred).outcome = .ok [essayItem] := by
      have resolved : ((NeedsQuery.grading .assignment).scope gradedClass.deployment classUser
          hundred).outcome = .ok gradingScope := gradingCall_misses.resolved
      rw [NeedsQuery.outcome_run_enabled rfl, resolved]
      exact essay_listed _ _ false
    exact (exact.2 (.grading .assignment) classUser hundred rfl (fun same => by cases same)).1 _ listed
  · exact (exact.2 .reviews classUser hundred rfl (fun same => by cases same)).2 rfl rfl

def moderatedEssay (id : AssignmentId) : Assignment :=
  { essay with id := id, moderated := true, finalGrader := some classUser }

def firstEssay : AssignmentTodo :=
  ⟨moderatedEssay ⟨sampleId 10⟩, none, none⟩

def secondEssay : AssignmentTodo :=
  ⟨moderatedEssay ⟨sampleId 11⟩, none, none⟩

/-- A course where one submission id stands on rows of two assignments. -/
def doubledClass : World :=
  let submitted (assignment : AssignmentId) : Submission :=
    ⟨⟨sampleId 100⟩, assignment, ⟨sampleId 7⟩, .submitted, some .onlineTextEntry, false, false,
      false, none⟩
  .start {
      memberships := [⟨classUser, [⟨lecture, .teacher, .active, false⟩], []⟩]
      assignments := [firstEssay.assignment, secondEssay.assignment]
      submissions := [submitted secondEssay.assignment.id, submitted firstEssay.assignment.id]
      provisionalGrades := [⟨⟨sampleId 100⟩, ⟨sampleId 8⟩⟩] }
    [⟨classUser, .course lecture, .selectFinalGrade⟩] classNoon {}

def firstEntry : TodoEntry where
  kind := .assignment
  purpose := .moderation
  id := sampleId 10
  title := "Essay"
  context := .course lecture
  contextName := "course_1"
  due := none
  needsGradingCount := none

def firstIgnore : Ignore :=
  ⟨classUser, ⟨firstEntry.kind, firstEntry.id⟩, firstEntry.purpose, false⟩

theorem doubled_moderation (rows : List Ignore) {item : AssignmentTodo}
    (found : NeedsQuery.moderation.found (doubledClass.deployment.withIgnores rows) classUser .default
      gradingScope (NeedsQuery.moderation.ignored (doubledClass.deployment.withIgnores rows) classUser
        .default) = [item])
    (allowed : doubledClass.deployment.allows classUser (Listed.context item) .selectFinalGrade =
      true) :
    (NeedsQuery.moderation.run (doubledClass.deployment.withIgnores rows) classUser .default).outcome =
      .ok [item] := by
  let deployment := doubledClass.deployment.withIgnores rows
  have resolved : (NeedsQuery.moderation.scope deployment classUser .default).outcome =
    .ok gradingScope := rfl
  have online : deployment.offline = [] := rfl
  have sorted : NeedsQuery.moderation.sorted deployment classUser .default gradingScope = [item] :=
    (congrArg Listed.sort found).trans (List.mergeSort_singleton _)
  have works : deployment.failure? .checkOne = none := rfl
  have chosen : NeedsQuery.moderation.choose deployment classUser none [item] =
      .ok ([item].filter fun item => deployment.allows classUser (Listed.context item)
        .selectFinalGrade) :=
    outcome_keepPassing (fun item : AssignmentTodo => Deployment.outcome_use works
      { singleChecks := 1 } (deployment.allows classUser (Listed.context item) .selectFinalGrade))
        none [item]
  have kept : [item].filter (fun item => deployment.allows classUser (Listed.context item)
      .selectFinalGrade) = [item] :=
    List.filter_eq_self.mpr fun other member => by
      rw [List.mem_singleton.mp member]
      exact allowed
  rw [NeedsQuery.outcome_run_enabled rfl, resolved, Except.bind, NeedsQuery.outcome_list,
    NeedsQuery.access_online online, Except.bind, sorted]
  exact chosen.trans (congrArg Except.ok kept)

theorem doubled_before :
    (NeedsQuery.moderation.run doubledClass.deployment classUser .default).outcome =
      .ok [firstEssay] :=
  doubled_moderation [] rfl rfl

theorem doubled_after :
    (NeedsQuery.moderation.run (doubledClass.deployment.withIgnores [firstIgnore]) classUser
      .default).outcome = .ok [secondEssay] :=
  doubled_moderation [firstIgnore] rfl rfl

theorem doubled_collisionFree : Sha256.CollisionFree ((lookups doubledClass.deployment classUser hundred
    TodoList.queries doubledClass.memory).flatMap Event.hashedTexts) := by
  let call : Lookup :=
    ⟨doubledClass.deployment, doubledClass.memory, .moderation, classUser, hundred⟩
  let request := call.request gradingScope
  have own : call.hashedTexts = request.hashedTexts .zero :=
    Lookup.hashedTexts_of_asks (⟨rfl, rfl, rfl⟩ : call.Asks gradingScope) rfl
  have others (query : NeedsQuery) (other : query ∈ [.grading .assignment, .grading .subAssignment,
      .submitting .assignment {}, .submitting .subAssignment {}, .reviews]) : Lookup.hashedTexts
        ⟨doubledClass.deployment, doubledClass.memory, query, classUser, hundred⟩ = [] := by
    simp only [List.mem_cons, List.not_mem_nil, or_false] at other
    rcases other with rfl | rfl | rfl | rfl | rfl <;> rfl
  have hashed : TodoList.hashedTexts doubledClass.deployment doubledClass.memory classUser hundred ⊆
      request.hashedTexts .zero := by
    intro text member
    obtain ⟨query, listed, text⟩ := List.mem_flatMap.mp member
    by_cases moderation : query = .moderation
    · subst moderation
      rwa [← own]
    · rw [others query (by simpa [TodoList.queries, moderation] using listed)] at text
      cases text
  have params : request.params.canonical.text = _ := params_grading .assignment
  have distinct : ([contextText request.contexts, request.params.canonical.text,
      (request.parts .zero).material].map Sha256.ofText).Nodup := by
    simp only [CacheRequest.parts, CacheKeyParts.material, Json.digest, params]
    decide +kernel
  exact (Sha256.CollisionFree.of_nodup distinct).subset
    (List.Subset.trans (TodoList.lookups_hashedTexts rfl) hashed)

/-- Two moderated assignments share a submission id, and the dashboard shows the first. Once it is
ignored, the moderation list that had only the first has the second. -/
theorem dismissal_uncovers :
    let dismissed := doubledClass.after (.ignore firstIgnore)
    (∃ list, (TodoList.build doubledClass.deployment {} classUser doubledClass.memory).1 = .ok list ∧
      firstEntry ∈ list.entries .moderation) ∧
    (World.ignore firstIgnore doubledClass).1 = .ok firstIgnore ∧
    (NeedsQuery.moderation.run doubledClass.deployment classUser .default).outcome =
      .ok [firstEssay] ∧
    (NeedsQuery.moderation.run dismissed.deployment classUser .default).outcome =
      .ok [secondEssay] ∧
    [secondEssay] ≠ [firstEssay].filter fun item =>
      !firstIgnore.hides classUser .moderation item := by
  intro dismissed
  refine ⟨?_, rfl, doubled_before, doubled_after, ?_⟩
  · have representable : doubledClass.deployment.now.add?
        (.ofSeconds doubledClass.deployment.config.cacheSeconds) ≠ none := by decide +kernel
    have served (query : NeedsQuery) := NeedsQuery.outcome_run_served
      (rfl : doubledClass.deployment.outages = []) rfl query classUser .default
    obtain ⟨plainGrading, first⟩ := served (.grading .assignment)
    obtain ⟨checkpointGrading, second⟩ := served (.grading .subAssignment)
    obtain ⟨plainSubmitting, fourth⟩ := served (.submitting .assignment {})
    obtain ⟨checkpointSubmitting, fifth⟩ := served (.submitting .subAssignment {})
    obtain ⟨reviews, sixth⟩ := served .reviews
    have built : (TodoList.build doubledClass.deployment {} classUser doubledClass.memory).1 = _ :=
      TodoList.build_eq_ofLists rfl rfl representable (fun key => rfl) doubled_collisionFree first
        second doubled_before fourth fifth sixth
    have firstShown : firstEntry.ShowsAssignment [] .moderation firstEssay :=
      ⟨rfl, rfl, rfl, rfl, rfl, rfl, rfl, lecture_named⟩
    exact ⟨_, built, List.mem_singleton.mpr
      (firstShown.unique (TodoEntry.ofAssignment_shows [] .moderation firstEssay))⟩
  · have nothing : [firstEssay].filter (fun item => !firstIgnore.hides classUser .moderation item) =
        [] := rfl
    rw [nothing]
    exact List.cons_ne_nil _ _

end World

end Agenda
