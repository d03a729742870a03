import Agenda.Proofs.Needs.Found

/-!
What a query lists: what it finds on the shards of a scope, sorted, as far as the shards can be
reached, and of that what the limit and the permission to choose final grades let through. Ignores
only take items away.
-/

namespace Agenda

namespace Deployment

variable (deployment : Deployment)

def reach : List ShardId → Except Error Unit
  | [] => .ok ()
  | shard :: rest =>
      ((deployment.read shard).outcome.mapError (·.onShard shard)).bind fun _ => reach rest

def reachIgnores (user : UserId) (options : NeedsOptions) : Except Error Unit :=
  if options.includeIgnored then .ok () else (deployment.read user.shard).outcome.map fun _ => ()

def ignored (user : UserId) (kind : ObjectKind) (purpose : Purpose) (options : NeedsOptions) :
    List GlobalId :=
  if options.includeIgnored then []
  else ((deployment.tables.ignores.filter fun row => row.user = user && row.purpose = purpose).filter
    fun row => row.asset.kind = kind).map (·.asset.id)

end Deployment

section Gathering

variable {ι κ : Type} {deployment : Deployment} {step : ShardId → List κ → Metered (List ι)}
  {found : ShardId → List κ → List ι}
  (steps : ∀ shard ids,
    (step shard ids).outcome = (deployment.read shard).outcome.map fun _ => found shard ids)
include steps

theorem outcome_gatherParts (parts : List (ShardId × List κ)) :
    (gatherParts step parts).outcome = (deployment.reach (parts.map (·.1))).map fun _ =>
      parts.flatMap fun part => found part.1 part.2 := by
  induction parts with
  | nil => rfl
  | cons part rest ih =>
      obtain ⟨shard, ids⟩ := part
      simp only [gatherParts, Metered.outcome_bind, Metered.outcome_onShard, Metered.outcome_pure, ih,
        steps, List.map_cons, Deployment.reach, List.flatMap_cons]
      cases (deployment.read shard).outcome with
      | error error => rfl
      | ok tables => cases deployment.reach (rest.map (·.1)) <;> rfl

theorem outcome_gather [Listed ι] (partition : ShardPartition κ) :
    (gather partition step).outcome = (deployment.reach (partition.parts.map (·.1))).map fun _ =>
      Listed.sort (partition.parts.flatMap fun part => found part.1 part.2) := by
  rw [gather, Metered.outcome_bind, outcome_gatherParts steps]
  cases deployment.reach (partition.parts.map (·.1)) <;> rfl

end Gathering

theorem outcome_ignoredIds_eq (deployment : Deployment) (user : UserId) (kind : ObjectKind)
    (purpose : Purpose) (options : NeedsOptions) :
    (ignoredIds deployment user kind purpose options).outcome =
      (deployment.reachIgnores user options).map fun _ =>
        deployment.ignored user kind purpose options := by
  unfold ignoredIds Deployment.reachIgnores Deployment.ignored
  by_cases included : options.includeIgnored = true
  · simp [included, Except.map]
  · by_cases offline : user.shard ∈ deployment.offline
    · simp [included, Deployment.readIgnores, Deployment.outcome_read_offline offline, Except.bind,
        Except.map]
    · simp [included, Deployment.readIgnores, deployment.outcome_read offline, Except.bind, Except.map]

namespace NeedsQuery

variable (query : NeedsQuery) (deployment : Deployment) (user : UserId) (options : NeedsOptions)
  (scope : Scope)

def shards : List ShardId :=
  match query with
  | .topics => scope.byShard.parts.map (·.1)
  | .pages => scope.byShard.parts.map (·.1)
  | _ => scope.courses.parts.map (·.1)

def access : Except Error Unit :=
  (deployment.reachIgnores user options).bind fun _ => deployment.reach (query.shards scope)

def ignored : List GlobalId :=
  deployment.ignored user query.objectKind query.purpose options

/-- What the query finds when some ids are left out. -/
def found (ignored : List GlobalId) : (query : NeedsQuery) → List query.Item
  | .submitting kind choice => scope.courses.parts.flatMap fun part =>
      Submitting.found ⟨kind, choice, user, options⟩ deployment ignored part.1 part.2
  | .grading kind => scope.courses.parts.flatMap fun part =>
      Grading.found ⟨kind, user, options⟩ deployment ignored part.1 part.2
  | .moderation => scope.courses.parts.flatMap fun part =>
      Moderation.found ⟨user, options⟩ deployment ignored part.1 part.2
  | .quizzes choice => scope.courses.parts.flatMap fun part =>
      Quizzes.found ⟨choice, user, options⟩ deployment ignored part.1 part.2
  | .reviews => scope.courses.parts.flatMap fun part =>
      Reviews.found ⟨user, options⟩ deployment ignored part.1 part.2
  | .topics => scope.byShard.parts.flatMap fun part =>
      Viewing.foundTopics ⟨user, options⟩ deployment ignored part.1 part.2
  | .pages => scope.byShard.parts.flatMap fun part =>
      Viewing.foundPages ⟨user, options⟩ deployment ignored part.1 part.2

/-- What a query lists of the items it found: as many as the cap lets through, and in moderation
only those of courses where the user may choose final grades. -/
def choose (cap : Option Nat) : (query : NeedsQuery) → List query.Item → Except Error (List query.Item)
  | .moderation, items => (keepPassing (ι := AssignmentTodo)
      (fun item => deployment.checkOne user (Listed.context item) .selectFinalGrade) cap items).outcome
  | .submitting _ _, items => .ok (cap.elim items items.take)
  | .grading _, items => .ok (cap.elim items items.take)
  | .quizzes _, items => .ok (cap.elim items items.take)
  | .reviews, items => .ok (cap.elim items items.take)
  | .topics, items => .ok (cap.elim items items.take)
  | .pages, items => .ok (cap.elim items items.take)

def sorted : List query.Item :=
  Listed.sort (query.found deployment user options scope (query.ignored deployment user options))

variable {deployment user options} in
theorem outcome_ignoring {ι κ : Type} [Listed ι] {kind : ObjectKind} {purpose : Purpose}
    {step : List GlobalId → ShardId → List κ → Metered (List ι)}
    {found : List GlobalId → ShardId → List κ → List ι}
    (steps : ∀ ignored shard ids, (step ignored shard ids).outcome =
      (deployment.read shard).outcome.map fun _ => found ignored shard ids)
    (partition : ShardPartition κ) :
    (do
      let ignored ← ignoredIds deployment user kind purpose options
      gather partition (step ignored)).outcome =
      ((deployment.reachIgnores user options).bind fun _ =>
        deployment.reach (partition.parts.map (·.1))).bind fun _ =>
          .ok (Listed.sort (partition.parts.flatMap fun part =>
            found (deployment.ignored user kind purpose options) part.1 part.2)) := by
  rw [Metered.outcome_bind, outcome_ignoredIds_eq]
  cases deployment.reachIgnores user options with
  | error error => rfl
  | ok readable =>
      simp only [Except.map, Except.bind, outcome_gather (steps _)]

theorem outcome_moderation (cap : Option Nat) :
    (Moderation.list ⟨user, options⟩ deployment scope cap).outcome =
      (access .moderation deployment user options scope).bind fun _ =>
        choose deployment user cap .moderation (sorted .moderation deployment user options scope) := by
  have candidates : (Moderation.candidates ⟨user, options⟩ deployment scope).outcome = _ :=
    outcome_ignoring (Moderation.outcome_onShard ⟨user, options⟩ deployment) _
  rw [Moderation.list, Metered.outcome_bind, candidates]
  change (Except.bind (access .moderation deployment user options scope) _).bind _ = _
  cases access .moderation deployment user options scope <;> rfl

theorem outcome_list :
    (query.list deployment user options scope).outcome =
      (query.access deployment user options scope).bind fun _ =>
        query.choose deployment user none (query.sorted deployment user options scope) := by
  cases query with
  | submitting kind choice =>
      exact outcome_ignoring (Submitting.outcome_onShard ⟨kind, choice, user, options⟩ deployment) _
  | grading kind =>
      exact outcome_ignoring (Grading.outcome_onShard ⟨kind, user, options⟩ deployment) _
  | moderation => exact outcome_moderation deployment user options scope none
  | quizzes choice =>
      exact outcome_ignoring (Quizzes.outcome_onShard ⟨choice, user, options⟩ deployment) _
  | reviews => exact outcome_ignoring (Reviews.outcome_onShard ⟨user, options⟩ deployment) _
  | topics => exact outcome_ignoring (Viewing.outcome_topicsOnShard ⟨user, options⟩ deployment) _
  | pages => exact outcome_ignoring (Viewing.outcome_pagesOnShard ⟨user, options⟩ deployment) _

theorem outcome_firstItems_eq :
    (query.firstItems deployment user options scope).outcome =
      (query.access deployment user options scope).bind fun _ =>
        query.choose deployment user options.limit
          (keepAll query.leftIn (query.sorted deployment user options scope)) := by
  have truncated (other : NeedsQuery) (all : ∀ items : List other.Item,
      other.choose deployment user none items = .ok items) :
      (do
        let items ← other.list deployment user options scope
        return options.truncate items : Metered (List other.Item)).outcome =
        (other.access deployment user options scope).bind fun _ =>
          .ok (options.limit.elim (other.sorted deployment user options scope)
            (other.sorted deployment user options scope).take) := by
    rw [Metered.outcome_bind, other.outcome_list deployment user options scope]
    cases other.access deployment user options scope with
    | error error => rfl
    | ok readable => simp [Except.bind, all, truncate_eq_elim]
  cases query with
  | submitting kind choice => exact truncated (.submitting kind choice) fun _ => rfl
  | grading kind => exact truncated (.grading kind) fun _ => rfl
  | moderation => exact outcome_moderation deployment user options scope options.limit
  | quizzes choice => exact truncated (.quizzes choice) fun _ => rfl
  | reviews =>
      have whole : (Reviews.list ⟨user, options⟩ deployment scope false).outcome = _ :=
        outcome_list .reviews deployment user options scope
      change (do
        let items ← Reviews.list ⟨user, options⟩ deployment scope true
        return options.truncate items : Metered (List PeerReviewTodo)).outcome = _
      rw [Metered.outcome_bind, Reviews.outcome_list_incomplete, whole]
      cases access .reviews deployment user options scope with
      | error error => rfl
      | ok readable =>
          simp only [Except.bind, Except.map, choose, Option.elim_none, Metered.outcome_pure,
            truncate_eq_elim]
          rfl
  | topics => exact truncated .topics fun _ => rfl
  | pages => exact truncated .pages fun _ => rfl

end NeedsQuery

section Checks

variable {ι : Type} {check : ι → Metered Bool}

theorem keepPassing_cons {cap : Option Nat} {item : ι} {rest kept : List ι} (uncapped : cap ≠ some 0)
    (passed : (keepPassing check cap (item :: rest)).outcome = .ok kept) :
    (∃ others, (check item).outcome = .ok true ∧ kept = item :: others ∧
      (keepPassing check (cap.map fun count => count - 1) rest).outcome = .ok others) ∨
    ((check item).outcome = .ok false ∧ (keepPassing check cap rest).outcome = .ok kept) := by
  rw [keepPassing] at passed
  swap
  · exact uncapped
  obtain ⟨passes, answer, further⟩ := Metered.outcome_bind_eq_ok.mp passed
  cases passes with
  | true =>
      obtain ⟨others, later, all⟩ := Metered.outcome_bind_eq_ok.mp further
      cases all
      exact .inl ⟨others, answer, rfl, later⟩
  | false => exact .inr ⟨answer, further⟩

theorem keepPassing_sublist {cap : Option Nat} {items kept : List ι}
    (passed : (keepPassing check cap items).outcome = .ok kept) : kept.Sublist items := by
  induction items generalizing cap kept with
  | nil =>
      have none : (keepPassing check cap ([] : List ι)).outcome = .ok [] := by
        cases cap with
        | none => rfl
        | some count => cases count <;> rfl
      rw [none] at passed
      cases passed
      exact .slnil
  | cons item rest ih =>
      by_cases full : cap = some 0
      · subst full
        cases passed
        exact List.nil_sublist _
      · rcases keepPassing_cons full passed with ⟨others, -, rfl, later⟩ | ⟨-, later⟩
        · exact (ih later).cons_cons item
        · exact (ih later).cons item

theorem keepPassing_filter (keep : ι → Bool) {items kept : List ι}
    (passed : (keepPassing check none items).outcome = .ok kept) :
    (keepPassing check none (items.filter keep)).outcome = .ok (kept.filter keep) := by
  induction items generalizing kept with
  | nil =>
      cases passed
      rfl
  | cons item rest ih =>
      rcases keepPassing_cons (by simp) passed with ⟨others, answer, rfl, later⟩ | ⟨answer, later⟩
      · cases kept : keep item with
        | true => simp [kept, keepPassing, answer, ih later, Except.bind]
        | false => simp [kept, ih later]
      · cases kept : keep item with
        | true => simp [kept, keepPassing, answer, ih later, Except.bind]
        | false => simp [kept, ih later]

end Checks

namespace NeedsQuery

variable {query : NeedsQuery} {deployment : Deployment} {user : UserId} {options : NeedsOptions}
  {scope : Scope} {ignored : List GlobalId}

theorem choose_sublist {cap : Option Nat} {items kept : List query.Item}
    (chosen : query.choose deployment user cap items = .ok kept) : kept.Sublist items := by
  have cut {ι : Type} {found listed : List ι}
      (same : (Except.ok (cap.elim found found.take) : Except Error (List ι)) = .ok listed) :
      listed.Sublist found := by
    cases same
    cases cap with
    | none => exact .refl _
    | some count => exact List.take_sublist count _
  cases query with
  | moderation => exact keepPassing_sublist chosen
  | _ => exact cut chosen

theorem choose_filter (keep : query.Item → Bool) {items kept : List query.Item}
    (chosen : query.choose deployment user none items = .ok kept) :
    query.choose deployment user none (items.filter keep) = .ok (kept.filter keep) := by
  cases query with
  | moderation => exact keepPassing_filter keep chosen
  | _ =>
      cases chosen
      rfl

theorem choose_served (working : deployment.failure? .checkOne = none) (cap : Option Nat)
    (items : List query.Item) : ∃ kept, query.choose deployment user cap items = .ok kept := by
  cases query with
  | moderation =>
      exact ⟨_, outcome_keepPassing (fun item : AssignmentTodo =>
        Deployment.outcome_use working { singleChecks := 1 }
          (deployment.allows user (Listed.context item) .selectFinalGrade)) cap items⟩
  | _ => exact ⟨_, rfl⟩

theorem run_limit (query : NeedsQuery) (deployment : Deployment) (user : UserId)
    (options : NeedsOptions) (limit : Option Nat) :
    query.run deployment user { options with limit := limit } =
      query.run deployment user options := by
  cases query <;> rfl

theorem pairwise_of_run {items : List query.Item}
    (listed : (query.run deployment user options).outcome = .ok items) :
    items.Pairwise fun first second => Listed.noLater first second := by
  cases disabled : query.isDisabled deployment.config with
  | true =>
      rw [outcome_run_disabled disabled] at listed
      cases listed
      exact List.Pairwise.nil
  | false =>
      rw [outcome_run_enabled disabled] at listed
      obtain ⟨scope, -, inScope⟩ := bind_eq_ok.mp listed
      rw [outcome_list] at inScope
      obtain ⟨-, -, chosen⟩ := bind_eq_ok.mp inScope
      exact (Listed.sort_sorted _).sublist (choose_sublist chosen)

end NeedsQuery

section Online

variable {deployment : Deployment}

theorem Deployment.reach_reachable {shards : List ShardId}
    (online : ∀ shard ∈ shards, shard ∉ deployment.offline) : deployment.reach shards = .ok () := by
  induction shards with
  | nil => rfl
  | cons shard rest ih =>
      rw [reach, deployment.outcome_read (online shard List.mem_cons_self)]
      exact ih fun other member => online other (List.mem_cons_of_mem _ member)

theorem Deployment.reachIgnores_readable {user : UserId} {options : NeedsOptions}
    (readable : options.includeIgnored = true ∨ user.shard ∉ deployment.offline) :
    deployment.reachIgnores user options = .ok () := by
  unfold reachIgnores
  split
  · rfl
  · rename_i limited
    rw [deployment.outcome_read (readable.resolve_left limited)]
    rfl

theorem NeedsQuery.access_online (online : deployment.offline = []) (query : NeedsQuery)
    (user : UserId) (options : NeedsOptions) (scope : Scope) :
    query.access deployment user options scope = .ok () := by
  rw [access, Deployment.reachIgnores_readable (.inr (by simp [online])), Except.bind,
    Deployment.reach_reachable fun shard _ => by simp [online]]

theorem NeedsQuery.outcome_load_of_scope (online : deployment.offline = []) {query : NeedsQuery}
    {user : UserId} {options : NeedsOptions} (enabled : query.isDisabled deployment.config = false)
    {scope : Scope} (resolved : (query.scope deployment user options).outcome = .ok scope) :
    (query.load deployment user options [] none).outcome =
      query.choose deployment user none (query.sorted deployment user options scope) := by
  rw [outcome_load, outcome_run_enabled enabled, resolved, Except.bind, outcome_list,
    access_online online, Except.bind]
  cases query.choose deployment user none (query.sorted deployment user options scope) <;> rfl

end Online

theorem Scope.outcome_side_served {α : Type} [DecidableEq α] [Ranked α] [Sharded α]
    (filter : Option (List α)) {defaults : Metered (List α)}
    (served : ∃ ids, defaults.outcome = .ok ids) :
    ∃ partition, (side filter defaults).outcome = .ok partition := by
  obtain ⟨ids, listed⟩ := served
  unfold side
  split
  · exact ⟨_, rfl⟩
  · simp [listed, Except.bind]

section Served

variable {deployment : Deployment} (working : deployment.outages = [])
include working

theorem Deployment.failure?_eq_none (facility : Facility) : deployment.failure? facility = none := by
  simp [failure?, working]

theorem Deployment.use_served {α : Type} (facility : Facility) (effort : Effort) (answer : α) :
    deployment.use facility effort answer = ⟨.ok answer, effort⟩ := by
  rw [use, failure?_eq_none working]
  rfl

theorem Scope.outcome_defaultCourses_served (user : UserId) (request : ScopeRequest) :
    ∃ ids, (defaultCourses deployment user request).outcome = .ok ids := by
  have served := fun facility => Deployment.failure?_eq_none working facility
  simp only [defaultCourses, Metered.outcome_bind, Deployment.listCourses,
    Deployment.outcome_use (served .listCourses), Except.bind]
  split
  · exact ⟨_, rfl⟩
  · cases request.permission with
    | participate => exact ⟨_, rfl⟩
    | instruct => exact ⟨_, rfl⟩
    | grant permission =>
        simp only [grantedCourses]
        split
        · exact ⟨_, rfl⟩
        · simp [Deployment.checkMany, Deployment.outcome_use (served .checkMany), Except.bind]

theorem Scope.outcome_resolve_served (user : UserId) (request : ScopeRequest) :
    ∃ scope, (resolve deployment user request).outcome = .ok scope := by
  have listed : ∃ ids, (deployment.listGroups user).outcome = .ok ids :=
    ⟨_, Deployment.outcome_use (Deployment.failure?_eq_none working .listGroups) _ _⟩
  obtain ⟨courses, coursesChosen⟩ := outcome_side_served request.courseFilter
    (outcome_defaultCourses_served working user request)
  obtain ⟨groups, groupsChosen⟩ := outcome_side_served request.groupFilter listed
  simp [resolve, coursesChosen, groupsChosen, Except.bind]

theorem NeedsQuery.outcome_run_served (online : deployment.offline = []) (query : NeedsQuery)
    (user : UserId) (options : NeedsOptions) :
    ∃ items, (query.run deployment user options).outcome = .ok items := by
  cases disabled : query.isDisabled deployment.config with
  | true => exact ⟨[], outcome_run_disabled disabled⟩
  | false =>
      obtain ⟨scope, resolved⟩ := Scope.outcome_resolve_served working user
        (options.scopeRequest query.permission)
      change (query.scope deployment user options).outcome = .ok scope at resolved
      rw [outcome_run_enabled disabled, resolved, Except.bind, outcome_list,
        access_online online query user options scope]
      exact choose_served (Deployment.failure?_eq_none working .checkOne) none _

end Served

end Agenda
