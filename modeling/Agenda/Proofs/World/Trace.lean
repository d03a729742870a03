import Agenda.Proofs.Cache.Lookup
import Agenda.Proofs.Cache.Token
import Agenda.Proofs.Needs.IgnoreTable
import Agenda.World.Step

/-!
What happens to the cache of a world, step by step: calls of cached queries and bumps of tokens. A
dashboard is six calls, an ignore one bump, a change of an asset one bump for each user whose ignore
it ends.
-/

namespace Agenda

/-- Something that a step does to the cache. -/
inductive Event where
  | lookup (lookup : Lookup)
  | bump (user : UserId)

namespace Event

def hashedTexts : Event → List String
  | .lookup call => call.hashedTexts
  | .bump _ => []

def bumps (user : UserId) : Event → Bool
  | .lookup _ => false
  | .bump other => other = user

end Event

/-- A cache changes by events; between them entries may only disappear. -/
inductive Cache.Evolves : Cache → List Event → Cache → Prop
  | stays (cache : Cache) : Evolves cache [] cache
  | forgets {before after final : Cache} {events : List Event} : after.tokens = before.tokens →
      (∀ key entry, after.entries key = some entry → before.entries key = some entry) →
      Evolves after events final → Evolves before events final
  | lookup {lookup : Lookup} {events : List Event} {final : Cache} :
      Evolves lookup.result.2.cache events final →
      Evolves lookup.memory.cache (.lookup lookup :: events) final
  | bump {cache : Cache} {user : UserId} {events : List Event} {final : Cache} :
      Evolves (cache.advanceToken user).2 events final → Evolves cache (.bump user :: events) final

namespace Cache.Evolves

theorem trans {first second third : Cache} {events others : List Event}
    (evolves : Evolves first events second) (further : Evolves second others third) :
    Evolves first (events ++ others) third := by
  induction evolves with
  | stays cache => exact further
  | forgets tokens entries _ ih => exact .forgets tokens entries (ih further)
  | lookup _ ih => exact .lookup (ih further)
  | bump _ ih => exact .bump (ih further)

end Cache.Evolves

def lookups (deployment : Deployment) (user : UserId) (options : NeedsOptions) :
    List NeedsQuery → Memory → List Event
  | [], _ => []
  | query :: rest, memory =>
      let lookup : Lookup := ⟨deployment, memory, query, user, options⟩
      .lookup lookup ::
        match lookup.result with
        | (.ok _, after) => lookups deployment user options rest after
        | (.error _, _) => []

theorem of_mem_lookups {deployment : Deployment} {user : UserId} {options : NeedsOptions}
    {queries : List NeedsQuery} {memory : Memory} {event : Event}
    (member : event ∈ lookups deployment user options queries memory) :
    ∃ query ∈ queries, ∃ reached : Memory, reached.cache.tokens = memory.cache.tokens ∧
      event = .lookup ⟨deployment, reached, query, user, options⟩ := by
  induction queries generalizing memory with
  | nil => cases member
  | cons query rest ih =>
      let first : Lookup := ⟨deployment, memory, query, user, options⟩
      simp only [lookups, List.mem_cons] at member
      rcases member with rfl | later
      · exact ⟨query, List.mem_cons_self, memory, rfl, rfl⟩
      · split at later
        · rename_i items after result
          have answered : first.result = (.ok items, after) := result
          have kept : after.cache.tokens = memory.cache.tokens := by
            rw [← show first.result.2.cache.tokens = memory.cache.tokens from first.cache_after.1,
              answered]
          obtain ⟨other, listed, reached, tokens, same⟩ := ih later
          exact ⟨other, List.mem_cons_of_mem _ listed, reached, tokens.trans kept, same⟩
        · cases later

def TodoList.queries : List NeedsQuery :=
  [.grading .assignment, .grading .subAssignment, .moderation, .submitting .assignment {},
    .submitting .subAssignment {}, .reviews]

def bumps (deployment : Deployment) (users : List UserId) : List Event :=
  if (deployment.failure? .advanceToken).isSome then [] else users.map .bump

namespace World

namespace Step

def writesByHand : Step → Bool
  | .writeEntry _ _ _ => true
  | .fetch _ _ => true
  | .fetchIds _ _ => true
  | _ => false

def events (world : World) : Step → List Event
  | .cached query user options => [.lookup ⟨world.deployment, world.memory, query, user, options⟩]
  | .dashboard user limits =>
      lookups world.deployment user { limit := some limits.fetch } TodoList.queries world.memory
  | .touch user => bumps world.deployment [user]
  | .ignore row =>
      if (world.deployment.failure? .saveIgnore).isSome then []
      else bumps world.deployment [row.user]
  | .clearOnChange asset purpose =>
      if (world.deployment.failure? .clearIgnores).isSome then []
      else bumps world.deployment
        (Ignore.transientUsers asset purpose world.deployment.tables.ignores)
  | _ => []

end Step

def after (world : World) (step : Step) : World :=
  (step.perform world).2

def trace : World → List Step → List Event
  | _, [] => []
  | world, step :: rest => step.events world ++ trace (world.after step) rest

end World

section Sessions

open Cache

variable {deployment : Deployment} {user : UserId} {options : NeedsOptions} {α β : Type}

def Session.Calls (deployment : Deployment) (user : UserId) (options : NeedsOptions)
    (queries : List NeedsQuery) (session : Session α) : Prop :=
  ∀ memory : Memory, Evolves memory.cache (lookups deployment user options queries memory)
    (session memory).2.cache

theorem Session.bind_assoc {γ : Type} (first : Session α) (second : α → Session β)
    (third : β → Session γ) :
    (first >>= second) >>= third = first >>= fun value => second value >>= third := by
  funext memory
  change Session.bind (Session.bind first second) third memory =
    Session.bind first (fun value => Session.bind (second value) third) memory
  simp only [Session.bind]
  cases first memory with
  | mk outcome after => cases outcome <;> rfl

theorem Session.Calls.bind {query : NeedsQuery} {rest : List NeedsQuery}
    {next : List query.Item → Session α}
    (calls : ∀ items, (next items).Calls deployment user options rest) :
    (query.runCached deployment user options >>= next).Calls deployment user options
      (query :: rest) := by
  intro memory
  rcases result : query.runCached deployment user options memory with ⟨outcome, after⟩
  have called : (⟨deployment, memory, query, user, options⟩ : Lookup).result = (outcome, after) :=
    result
  change Evolves memory.cache (lookups deployment user options (query :: rest) memory)
    (Session.bind (query.runCached deployment user options) next memory).2.cache
  cases outcome with
  | error stop =>
      simp only [lookups, Session.bind, called, result]
      refine @Evolves.lookup ⟨deployment, memory, query, user, options⟩ _ _ ?_
      rw [called]
      exact .stays after.cache
  | ok items =>
      simp only [lookups, Session.bind, called, result]
      refine @Evolves.lookup ⟨deployment, memory, query, user, options⟩ _ _ ?_
      rw [called]
      exact calls items after

theorem Session.Calls.last {session : Session α}
    (unchanged : ∀ memory, (session memory).2.cache = memory.cache) :
    session.Calls deployment user options [] := by
  intro memory
  rw [unchanged memory]
  exact .stays memory.cache

theorem TodoList.fetchGrading_calls {next : List AssignmentTodo → Session α}
    {rest : List NeedsQuery} (calls : ∀ items, (next items).Calls deployment user options rest) :
    (fetchGrading deployment user options >>= next).Calls deployment user options
      (.grading .assignment :: .grading .subAssignment :: rest) := by
  rw [fetchGrading, Session.bind_assoc]
  apply Session.Calls.bind
  intro plain
  rw [Session.bind_assoc]
  apply Session.Calls.bind
  intro checkpoints
  exact calls (merge options plain checkpoints)

theorem TodoList.fetchSubmitting_calls {next : List AssignmentTodo → Session α}
    {rest : List NeedsQuery} (calls : ∀ items, (next items).Calls deployment user options rest) :
    (fetchSubmitting deployment user options >>= next).Calls deployment user options
      (.submitting .assignment {} :: .submitting .subAssignment {} :: rest) := by
  rw [fetchSubmitting, Session.bind_assoc]
  apply Session.Calls.bind
  intro plain
  rw [Session.bind_assoc]
  apply Session.Calls.bind
  intro checkpoints
  exact calls (merge options plain checkpoints)

theorem Session.ofMetered_bind_cache {computation : Metered α} {next : α → Session β}
    (unchanged : ∀ value memory, (next value memory).2.cache = memory.cache) (memory : Memory) :
    ((Session.ofMetered computation >>= next) memory).2.cache = memory.cache := by
  change (Session.bind (Session.ofMetered computation) next memory).2.cache = memory.cache
  simp only [Session.bind, Session.ofMetered]
  cases computation.outcome with
  | error error => rfl
  | ok value => exact unchanged value _

theorem TodoList.build_calls (limits : DashboardLimits) :
    (TodoList.build deployment limits user).Calls deployment user { limit := some limits.fetch }
      TodoList.queries := by
  unfold TodoList.build
  apply fetchGrading_calls
  intro grading
  apply Session.Calls.bind
  intro moderation
  apply fetchSubmitting_calls
  intro submitting
  apply Session.Calls.bind
  intro reviewing
  apply Session.Calls.last
  intro memory
  apply Session.ofMetered_bind_cache
  intro matrix memory
  apply Session.ofMetered_bind_cache
  intro courses memory
  rfl

end Sessions

namespace World

open Cache

variable (world : World)

theorem touch_refused {failure : ServiceFailure} (user : UserId)
    (broken : world.deployment.failure? .advanceToken = some failure) :
    touch user world = (.error (.failed failure.toError), world) := by
  simp only [touch, Action.ofSession, Session.touch, Session.useCache, broken]

theorem touch_served (user : UserId) (works : world.deployment.failure? .advanceToken = none) :
    touch user world = (.ok (world.memory.cache.advanceToken user).1,
      { world with memory :=
        { world.memory with cache := (world.memory.cache.advanceToken user).2 } }) := by
  simp only [touch, Action.ofSession, Session.touch, Session.useCache, works]

theorem touchAll_evolves (users : List UserId) :
    Evolves world.memory.cache (bumps world.deployment users)
      (touchAll users world).2.memory.cache := by
  induction users generalizing world with
  | nil =>
      have none : bumps world.deployment [] = [] := by simp [bumps]
      rw [none]
      exact .stays world.memory.cache
  | cons user rest ih =>
      change Evolves _ _ (Action.bind (touch user) (fun _ => touchAll rest) world).2.memory.cache
      cases works : world.deployment.failure? .advanceToken with
      | some failure =>
          simp only [Action.bind, world.touch_refused user works, bumps, works, Option.isSome_some,
            if_true]
          exact .stays world.memory.cache
      | none =>
          let touched : World := { world with memory :=
            { world.memory with cache := (world.memory.cache.advanceToken user).2 } }
          have later := ih touched
          simp only [Action.bind, world.touch_served user works]
          have first : bumps world.deployment (user :: rest) =
              .bump user :: bumps touched.deployment rest := by
            simp [bumps, touched, works]
          rw [first]
          exact .bump later

theorem touchAll_deployment (users : List UserId) :
    (touchAll users world).2.deployment = world.deployment := by
  induction users generalizing world with
  | nil => rfl
  | cons user rest ih =>
      change (Action.bind (touch user) (fun _ => touchAll rest) world).2.deployment = _
      cases works : world.deployment.failure? .advanceToken with
      | some failure => simp only [Action.bind, world.touch_refused user works]
      | none =>
          simp only [Action.bind, world.touch_served user works]
          exact ih _

theorem touchAll_entries (users : List UserId) :
    (touchAll users world).2.memory.cache.entries = world.memory.cache.entries := by
  induction users generalizing world with
  | nil => rfl
  | cons user rest ih =>
      change (Action.bind (touch user) (fun _ => touchAll rest) world).2.memory.cache.entries = _
      cases works : world.deployment.failure? .advanceToken with
      | some failure => simp only [Action.bind, world.touch_refused user works]
      | none =>
          simp only [Action.bind, world.touch_served user works]
          exact ih _

theorem bind_pure_world {α β : Type} (first : Action α) (answer : α → β) :
    (Action.bind first (fun value => Action.pure (answer value)) world).2 = (first world).2 := by
  simp only [Action.bind]
  rcases first world with ⟨outcome, after⟩
  cases outcome <;> rfl

theorem touchAll_single (user : UserId) : (touchAll [user] world).2 = (touch user world).2 :=
  world.bind_pure_world (touch user) fun _ => ()

def withIgnores (rows : List Ignore) : World :=
  { world with deployment := world.deployment.withIgnores rows }

theorem editIgnores_refused {α β : Type} {facility : Facility} {edit : List Ignore → α × List Ignore}
    {next : α → Action β} {failure : ServiceFailure}
    (broken : world.deployment.failure? facility = some failure) :
    Action.bind (.editIgnores facility edit) next world =
      (.error (.failed failure.toError), world) := by
  simp only [Action.bind, Action.editIgnores, broken]

theorem editIgnores_served {α β : Type} {facility : Facility} {edit : List Ignore → α × List Ignore}
    {next : α → Action β} (works : world.deployment.failure? facility = none) :
    Action.bind (.editIgnores facility edit) next world =
      next (edit world.deployment.tables.ignores).1
        (world.withIgnores (edit world.deployment.tables.ignores).2) := by
  simp only [Action.bind, Action.editIgnores, works]
  rfl

theorem ignore_refused {row : Ignore} {failure : ServiceFailure}
    (broken : world.deployment.failure? .saveIgnore = some failure) :
    ignore row world = (.error (.failed failure.toError), world) :=
  world.editIgnores_refused broken

theorem ignore_served {row : Ignore} (works : world.deployment.failure? .saveIgnore = none) :
    ignore row world = Action.bind (touch row.user) (fun _ => Action.pure row)
      (world.withIgnores (row.upsert world.deployment.tables.ignores)) :=
  world.editIgnores_served works

theorem after_ignore {row : Ignore} (works : world.deployment.failure? .saveIgnore = none) :
    world.after (.ignore row) = (touchAll [row.user]
      (world.withIgnores (row.upsert world.deployment.tables.ignores))).2 := by
  change (ignore row world).2 = _
  rw [world.ignore_served works, touchAll_single]
  exact bind_pure_world _ (touch row.user) fun _ => row

theorem after_clearOnChange {asset : Asset} {purpose : Purpose}
    (works : world.deployment.failure? .clearIgnores = none) :
    world.after (.clearOnChange asset purpose) =
      (touchAll (Ignore.transientUsers asset purpose world.deployment.tables.ignores)
        (world.withIgnores (Ignore.lasting asset purpose world.deployment.tables.ignores))).2 := by
  let users := Ignore.transientUsers asset purpose world.deployment.tables.ignores
  have served : clearOnChange asset purpose world = Action.bind (touchAll users)
      (fun _ => Action.pure users)
      (world.withIgnores (Ignore.lasting asset purpose world.deployment.tables.ignores)) :=
    world.editIgnores_served works
  change (clearOnChange asset purpose world).2 = _
  rw [served]
  exact bind_pure_world _ (touchAll users) fun _ => users

theorem after_clearOnChange_refused {asset : Asset} {purpose : Purpose} {failure : ServiceFailure}
    (broken : world.deployment.failure? .clearIgnores = some failure) :
    world.after (.clearOnChange asset purpose) = world :=
  congrArg Prod.snd (world.editIgnores_refused broken)

theorem ignore_effect (row : Ignore) :
    Evolves world.memory.cache ((Step.ignore row).events world)
      (world.after (.ignore row)).memory.cache ∧
    (world.after (.ignore row)).deployment.config = world.deployment.config := by
  cases works : world.deployment.failure? .saveIgnore with
  | some failure =>
      rw [show world.after (.ignore row) = world from congrArg Prod.snd (world.ignore_refused works)]
      simp only [Step.events, works, Option.isSome_some, if_true, and_true]
      exact .stays _
  | none =>
      rw [world.after_ignore works, touchAll_deployment]
      simp only [Step.events, works, Option.isSome_none, Bool.false_eq_true, if_false]
      let edited := world.withIgnores (row.upsert world.deployment.tables.ignores)
      exact ⟨edited.touchAll_evolves [row.user], rfl⟩

theorem clearOnChange_effect (asset : Asset) (purpose : Purpose) :
    Evolves world.memory.cache ((Step.clearOnChange asset purpose).events world)
      (world.after (.clearOnChange asset purpose)).memory.cache ∧
    (world.after (.clearOnChange asset purpose)).deployment.config = world.deployment.config := by
  cases works : world.deployment.failure? .clearIgnores with
  | some failure =>
      rw [world.after_clearOnChange_refused works]
      simp only [Step.events, works, Option.isSome_some, if_true, and_true]
      exact .stays _
  | none =>
      rw [world.after_clearOnChange works, touchAll_deployment]
      simp only [Step.events, works, Option.isSome_none, Bool.false_eq_true, if_false]
      let edited := world.withIgnores
        (Ignore.lasting asset purpose world.deployment.tables.ignores)
      exact ⟨edited.touchAll_evolves
        (Ignore.transientUsers asset purpose world.deployment.tables.ignores), rfl⟩

theorem after_listed {query : NeedsQuery} {user : UserId} {options : NeedsOptions}
    {keep : List (List GlobalId)} {limit : Option Nat} :
    (world.after (.listed query user options keep limit)).memory.cache = world.memory.cache ∧
      (world.after (.listed query user options keep limit)).deployment = world.deployment := by
  have same : world.after (.listed query user options keep limit) =
      (Action.ofMetered (fun deployment => query.run deployment user options) world).2 :=
    world.bind_pure_world _ _
  rw [same]
  exact ⟨rfl, rfl⟩

theorem after_anyListed {query : NeedsQuery} {user : UserId} {options : NeedsOptions}
    {keep : List (List GlobalId)} :
    (world.after (.anyListed query user options keep)).memory.cache = world.memory.cache ∧
      (world.after (.anyListed query user options keep)).deployment = world.deployment := by
  have same : world.after (.anyListed query user options keep) =
      (Action.ofMetered (fun deployment => query.run deployment user options) world).2 :=
    world.bind_pure_world _ _
  rw [same]
  exact ⟨rfl, rfl⟩

theorem after_advance (span : Duration) : ∃ now, world.after (.advance span) =
    { world with deployment := { world.deployment with now := now } } := by
  change ∃ now, (World.advance span world).2 = _
  simp only [World.advance]
  split
  · exact ⟨world.deployment.now, rfl⟩
  · exact ⟨_, rfl⟩

/-- A step changes the cache by its events. -/
theorem after_evolves (step : Step) (queried : step.writesByHand = false) :
    Evolves world.memory.cache (step.events world) (world.after step).memory.cache := by
  cases step with
  | cached query user options =>
      exact @Evolves.lookup ⟨world.deployment, world.memory, query, user, options⟩ [] _ (.stays _)
  | listed query user options keep limit =>
      rw [world.after_listed.1]
      exact .stays _
  | anyListed query user options keep =>
      rw [world.after_anyListed.1]
      exact .stays _
  | dashboard user limits => exact TodoList.build_calls limits world.memory
  | resolve user request => exact .stays _
  | ignore row => exact (world.ignore_effect row).1
  | clearOnChange asset purpose => exact (world.clearOnChange_effect asset purpose).1
  | touch user =>
      change Evolves _ _ (World.touch user world).2.memory.cache
      rw [← world.touchAll_single user]
      exact world.touchAll_evolves [user]
  | token user =>
      change Evolves _ [] (Session.readToken world.deployment user world.memory).2.cache
      simp only [Session.readToken, Session.useCache]
      cases world.deployment.failure? .readToken <;> exact .stays _
  | readEntry key =>
      change Evolves _ [] (Session.readEntry world.deployment key world.memory).2.cache
      simp only [Session.readEntry, Session.useCache]
      cases world.deployment.failure? .readEntry with
      | some failure => exact .stays _
      | none =>
          exact .forgets Cache.get_snd_tokens (fun other entry => Cache.entries_of_get_snd) (.stays _)
  | writeEntry key value lifetime => cases queried
  | fetch request result => cases queried
  | fetchIds request result => cases queried
  | advance span =>
      obtain ⟨now, moved⟩ := world.after_advance span
      rw [moved]
      exact .stays _
  | setClock instant => exact .stays _
  | takeOffline shard => exact .stays _
  | breakDown facility failure => exact .stays _
  | heal => exact .stays _
  | insert table row => exact .stays _
  | replace table rows => exact .stays _
  | readTable table => exact .stays _

theorem after_config (step : Step) :
    (world.after step).deployment.config = world.deployment.config := by
  cases step with
  | ignore row => exact (world.ignore_effect row).2
  | clearOnChange asset purpose => exact (world.clearOnChange_effect asset purpose).2
  | listed query user options keep limit => rw [world.after_listed.2]
  | anyListed query user options keep => rw [world.after_anyListed.2]
  | advance span =>
      obtain ⟨now, moved⟩ := world.after_advance span
      rw [moved]
  | _ => rfl

theorem step_of_mem_events {step : Step} {call : Lookup} (member : .lookup call ∈ step.events world) :
    (∃ query user options, step = .cached query user options ∧
      call = ⟨world.deployment, world.memory, query, user, options⟩) ∨
    ∃ user limits, step = .dashboard user limits ∧
      .lookup call ∈ lookups world.deployment user { limit := some limits.fetch } TodoList.queries
        world.memory := by
  have noBump (users : List UserId) : .lookup call ∉ bumps world.deployment users := by
    unfold bumps
    split <;> simp
  cases step with
  | cached query user options =>
      exact .inl ⟨query, user, options, rfl, Event.lookup.inj (List.mem_singleton.mp member)⟩
  | dashboard user limits => exact .inr ⟨user, limits, rfl, member⟩
  | touch user => exact absurd member (noBump _)
  | ignore row =>
      simp only [Step.events] at member
      split at member
      · cases member
      · exact absurd member (noBump _)
  | clearOnChange asset purpose =>
      simp only [Step.events] at member
      split at member
      · cases member
      · exact absurd member (noBump _)
  | _ => cases member

theorem deployment_of_mem_events {step : Step} {call : Lookup}
    (member : .lookup call ∈ step.events world) : call.deployment = world.deployment := by
  rcases world.step_of_mem_events member with ⟨query, user, options, -, rfl⟩ |
    ⟨user, limits, -, listed⟩
  · rfl
  · obtain ⟨query, -, reached, -, same⟩ := of_mem_lookups listed
    rw [Event.lookup.inj same]

def run (world : World) (steps : List Step) : World :=
  steps.foldl after world

theorem trace_evolves (steps : List Step) (queried : ∀ step ∈ steps, step.writesByHand = false) :
    Evolves world.memory.cache (world.trace steps) (world.run steps).memory.cache := by
  induction steps generalizing world with
  | nil => exact .stays _
  | cons step rest ih =>
      exact (world.after_evolves step (queried step List.mem_cons_self)).trans
        (ih (world.after step) fun later member => queried later (List.mem_cons_of_mem _ member))

theorem config_of_mem_trace {steps : List Step} {call : Lookup}
    (member : .lookup call ∈ world.trace steps) :
    call.deployment.config = world.deployment.config := by
  induction steps generalizing world with
  | nil => cases member
  | cons step rest ih =>
      rcases List.mem_append.mp member with now | later
      · rw [world.deployment_of_mem_events now]
      · rw [ih (world.after step) later, world.after_config]

theorem run_config (steps : List Step) :
    (world.run steps).deployment.config = world.deployment.config := by
  induction steps generalizing world with
  | nil => rfl
  | cons step rest ih => exact (ih (world.after step)).trans (world.after_config step)

end World

end Agenda
