import Agenda.Proofs.Needs.Criteria
import Agenda.Proofs.Scope.Resolution

/-!
What a user should look at, told from the tables alone: each row of a topic or page that passes stands
on its list once. Courses and groups share the shards of a scope and are never taken for each other.
-/

namespace Agenda

namespace Scope

variable {scope : Scope}

theorem mem_contexts_iff {context : Context} : context ∈ scope.contexts ↔ scope.Covers context := by
  cases context with
  | course id => exact mem_contexts_course
  | group id => exact mem_contexts_group

theorem mem_groups_of_resolve {deployment : Deployment} {user : UserId} {request : ScopeRequest}
    (resolved : (resolve deployment user request).outcome = .ok scope) {id : GroupId} :
    id ∈ scope.groups.toList ↔ request.AdmitsGroup id ∧ deployment.tables.Groups user id := by
  rcases side_cases (sides_of_resolve resolved).2 with ⟨nothing, empty⟩ | ⟨ids, listed, parted⟩
  · have refused : ¬request.AdmitsGroup id := by
      rw [← ScopeRequest.groupFilter_all, nothing]
      simp
    simp [empty, refused, ShardPartition.empty, ShardPartition.toList]
  · obtain rfl := Deployment.answer_of_use listed
    rw [parted, ShardPartition.mem_toList_ofList, List.mem_filter, Deployment.mem_groups,
      ScopeRequest.groupFilter_all, and_comm]

theorem flatMap_byShard_perm {ρ : Type} (context : ρ → Context) (home : ρ → ShardId) (test : ρ → Bool)
    (rows : List ρ) :
    (scope.byShard.parts.flatMap fun part =>
      (rows.filter fun row => home row = part.1 && part.2.contains (context row)).filter test).Perm
      (rows.filter fun row => scope.Holds (context row) (home row) && test row) := by
  have parts : ∀ part ∈ scope.byShard.parts,
      (rows.filter fun row => home row = part.1 && part.2.contains (context row)).filter test =
        rows.filter fun row => part.2.contains (context row) &&
          (scope.Holds (context row) (home row) && test row) := by
    intro part isPart
    rw [List.filter_filter]
    refine List.filter_congr fun row _ => ?_
    by_cases asked : context row ∈ part.2
    swap
    · simp [asked]
    have covered : scope.Covers (context row) :=
      mem_contexts_iff.mp (ShardPartition.mem_toList_ofList.mp (ShardPartition.mem_toList isPart asked))
    have owned : (context row).shard = part.1 := ShardPartition.shard_of_mem isPart asked
    simp [asked, holds_iff, covered, owned, Bool.and_comm]
  rw [List.flatMap_congr parts]
  refine ShardPartition.flatMap_filter_perm context fun row _ passes => ?_
  simp only [Bool.and_eq_true, decide_eq_true_eq] at passes
  exact mem_contexts_iff.mpr passes.1.covered

end Scope

namespace Viewing

def DueWithin (query : Viewing) (toDo : Option Instant) : Prop :=
  ∃ date, toDo = some date ∧ query.options.withinWindow (some date)

/-- A topic of a scope that a user should look at. -/
@[mk_iff]
structure ShowsTopic (query : Viewing) (tables : Tables) (scope : Scope) (now : Instant)
    (topic : DiscussionTopic) : Prop where
  held : scope.Holds topic.context topic.id.shard
  published : topic.state = .active ∨ topic.state = .locked
  visible : topic.isVisibleTo query.user
  due : query.DueWithin topic.toDo
  unlocked : ¬(topic.isAnnouncement ∧ ∃ lock, topic.lock = some lock ∧ lock ≤ now)
  wanted : query.options.includeIgnored ∨
    ¬tables.Ignores query.user ⟨.discussionTopic, topic.id.global⟩ .viewing

@[mk_iff]
structure ShowsPage (query : Viewing) (tables : Tables) (scope : Scope) (page : WikiPage) : Prop where
  held : scope.Holds page.context page.id.shard
  published : page.state = .active
  visible : page.isVisibleTo query.user
  due : query.DueWithin page.toDo
  wanted : query.options.includeIgnored ∨
    ¬tables.Ignores query.user ⟨.wikiPage, page.id.global⟩ .viewing

instance (query : Viewing) (toDo : Option Instant) : Decidable (query.DueWithin toDo) :=
  inferInstanceAs (Decidable (∃ date, toDo = some date ∧ _))

instance (query : Viewing) (tables : Tables) (scope : Scope) (now : Instant) (topic : DiscussionTopic) :
    Decidable (query.ShowsTopic tables scope now topic) :=
  decidable_of_iff _ (showsTopic_iff query tables scope now topic).symm

instance (query : Viewing) (tables : Tables) (scope : Scope) (page : WikiPage) :
    Decidable (query.ShowsPage tables scope page) :=
  decidable_of_iff _ (showsPage_iff query tables scope page).symm

variable {query : Viewing} {deployment : Deployment} {scope : Scope}

theorem isDue_iff {toDo : Option Instant} : query.isDue toDo = true ↔ query.DueWithin toDo := by
  cases toDo <;> simp [isDue, DueWithin]

theorem isLockedAnnouncement_iff {topic : DiscussionTopic} {now : Instant} :
    topic.isLockedAnnouncement now = false ↔
      ¬(topic.isAnnouncement ∧ ∃ lock, topic.lock = some lock ∧ lock ≤ now) := by
  simp only [← Bool.not_eq_true, DiscussionTopic.isLockedAnnouncement, Bool.and_eq_true,
    Option.any_eq_true, decide_eq_true_eq]

theorem showsTopic_iff_lists {topic : DiscussionTopic} :
    query.ShowsTopic deployment.tables scope deployment.now topic ↔
      scope.Holds topic.context topic.id.shard ∧ query.listsTopic deployment.now
        (deployment.ignored query.user .discussionTopic .viewing query.options) topic = true := by
  simp only [showsTopic_iff, listsTopic, DiscussionTopic.isPublished, Bool.and_eq_true, Bool.or_eq_true,
    Bool.not_eq_true', decide_eq_true_eq, isDue_iff, isLockedAnnouncement_iff,
    Deployment.contains_ignored, and_assoc]

theorem showsPage_iff_lists {page : WikiPage} :
    query.ShowsPage deployment.tables scope page ↔
      scope.Holds page.context page.id.shard ∧ query.listsPage
        (deployment.ignored query.user .wikiPage .viewing query.options) page = true := by
  simp only [showsPage_iff, listsPage, Bool.and_eq_true, Bool.not_eq_true', decide_eq_true_eq, isDue_iff,
    Deployment.contains_ignored, and_assoc]

theorem flatMap_foundTopics_perm :
    (scope.byShard.parts.flatMap fun part => query.foundTopics deployment
        (deployment.ignored query.user .discussionTopic .viewing query.options) part.1 part.2).Perm
      (deployment.tables.topics.filter fun topic =>
        query.ShowsTopic deployment.tables scope deployment.now topic) := by
  refine (Scope.flatMap_byShard_perm DiscussionTopic.context (·.id.shard) _ _).trans (.of_eq ?_)
  refine List.filter_congr fun topic _ => ?_
  rw [Bool.eq_iff_iff, Bool.and_eq_true, decide_eq_true_eq, decide_eq_true_eq, showsTopic_iff_lists]

theorem flatMap_foundPages_perm :
    (scope.byShard.parts.flatMap fun part => query.foundPages deployment
        (deployment.ignored query.user .wikiPage .viewing query.options) part.1 part.2).Perm
      (deployment.tables.pages.filter fun page => query.ShowsPage deployment.tables scope page) := by
  refine (Scope.flatMap_byShard_perm WikiPage.context (·.id.shard) _ _).trans (.of_eq ?_)
  refine List.filter_congr fun page _ => ?_
  rw [Bool.eq_iff_iff, Bool.and_eq_true, decide_eq_true_eq, decide_eq_true_eq, showsPage_iff_lists]

end Viewing

namespace NeedsQuery

/-- With no shard offline the topics of a resolved scope are listed that the tables show the user, once
for each row and ascending by to-do date and id, and so are the pages. The groups of the scope are all
that the user is in and the filters let pass, also for a user without courses. With no outage there is
such a scope. -/
theorem viewing_lists (deployment : Deployment) (user : UserId) (options : NeedsOptions)
    (online : deployment.offline = []) :
    let request := options.scopeRequest .participate
    (deployment.outages = [] →
      ∃ scope, (Scope.resolve deployment user request).outcome = .ok scope) ∧
    ∀ scope, (Scope.resolve deployment user request).outcome = .ok scope →
      (∃ topics : List DiscussionTopic,
        (NeedsQuery.topics.load deployment user options [] none).outcome = .ok topics ∧
        topics.Pairwise (fun earlier later => Listed.noLater earlier later) ∧
        topics.Perm (deployment.tables.topics.filter fun topic =>
          Viewing.ShowsTopic ⟨user, options⟩ deployment.tables scope deployment.now topic)) ∧
      (∃ pages : List WikiPage,
        (NeedsQuery.pages.load deployment user options [] none).outcome = .ok pages ∧
        pages.Pairwise (fun earlier later => Listed.noLater earlier later) ∧
        pages.Perm (deployment.tables.pages.filter fun page =>
          Viewing.ShowsPage ⟨user, options⟩ deployment.tables scope page)) ∧
      ∀ id, scope.Covers (.group id) ↔ request.AdmitsGroup id ∧ deployment.tables.Groups user id := by
  intro request
  refine ⟨fun working => Scope.outcome_resolve_served working user _, fun scope resolved => ?_⟩
  have inScope (query : NeedsQuery) (enabled : query.isDisabled deployment.config = false)
      (participates : query.permission = .participate) :
      (query.load deployment user options [] none).outcome =
        query.choose deployment user none (query.sorted deployment user options scope) :=
    outcome_load_of_scope online enabled (by rw [NeedsQuery.scope, participates, resolved])
  refine ⟨⟨_, inScope .topics rfl rfl, Listed.sort_sorted _, ?_⟩,
    ⟨_, inScope .pages rfl rfl, Listed.sort_sorted _, ?_⟩,
    fun id => Scope.mem_groups_of_resolve resolved⟩
  · exact (List.mergeSort_perm _ Listed.noLater).trans Viewing.flatMap_foundTopics_perm
  · exact (List.mergeSort_perm _ Listed.noLater).trans Viewing.flatMap_foundPages_perm

/-- A user of a club, and a course of the same number that the user is not in. Besides the topic that
is listed the club has an announcement that is locked by now and a topic on another shard. -/
theorem viewing_lists_club :
    let reader : UserId := ⟨⟨7, by decide⟩⟩
    let club : Context := .group ⟨⟨1, by decide⟩⟩
    let course : Context := .course ⟨⟨1, by decide⟩⟩
    let today : Instant := ⟨⟨2026, 1, 11, by decide⟩, 43200, 0, by decide, by decide⟩
    let tomorrow : Instant := ⟨⟨2026, 1, 12, by decide⟩, 43200, 0, by decide, by decide⟩
    let outing : DiscussionTopic :=
      ⟨⟨⟨10, by decide⟩⟩, club, "Outing", .locked, false, some tomorrow, some today, none, today⟩
    let notice : DiscussionTopic := { outing with id := ⟨⟨11, by decide⟩⟩, isAnnouncement := true }
    let abroad : DiscussionTopic := { outing with id := ⟨⟨10000000000010, by decide⟩⟩ }
    let lecture : DiscussionTopic := { outing with id := ⟨⟨12, by decide⟩⟩, context := course }
    let rules : WikiPage := ⟨⟨⟨10, by decide⟩⟩, club, "Rules", .active, some today, none, today⟩
    let syllabus : WikiPage := { rules with context := course }
    let deployment : Deployment := {
      tables := {
        memberships := [⟨reader, [], [⟨⟨1, by decide⟩⟩]⟩]
        topics := [notice, abroad, outing, lecture]
        pages := [syllabus, rules]
        ignores := [⟨reader, ⟨.wikiPage, ⟨10, by decide⟩⟩, .viewing, true⟩] }
      grants := []
      offline := []
      outages := []
      now := today
      config := {} }
    (NeedsQuery.topics.load deployment reader {} [] none).outcome = .ok [outing] ∧
      (NeedsQuery.pages.load deployment reader {} [] none).outcome = .ok ([] : List WikiPage) := by
  intro reader club course today tomorrow outing notice abroad lecture rules syllabus deployment
  obtain ⟨-, listed⟩ := viewing_lists deployment reader {} rfl
  let scope : Scope := ⟨.empty, .ofList [⟨⟨1, by decide⟩⟩]⟩
  obtain ⟨⟨topics, topicsLoaded, -, shown⟩, ⟨pages, pagesLoaded, -, others⟩, -⟩ := listed scope rfl
  let shows := Viewing.ShowsTopic ⟨reader, {}⟩ deployment.tables scope today
  have locked : ¬shows notice := by decide +kernel
  have elsewhere : ¬shows abroad := by decide +kernel
  have here : shows outing := by decide +kernel
  have foreign : ¬shows lecture := by decide +kernel
  have one : topics.Perm [outing] := by
    refine shown.trans (.of_eq ?_)
    change [notice, abroad, outing, lecture].filter (fun topic => shows topic) = [outing]
    simp [locked, elsewhere, here, foreign]
  have noPages : pages.Perm [] := by
    refine others.trans (.of_eq ?_)
    decide +kernel
  rw [topicsLoaded, pagesLoaded, List.perm_singleton.mp one, List.perm_nil.mp noPages]
  exact ⟨rfl, rfl⟩

end NeedsQuery

end Agenda
