import Agenda.Proofs.World.Task

/-!
Any number of tasks whose turns alternate in any order, while the deployment changes in between: the
clock, the tables, the outages.
-/

namespace Agenda

structure Cache.Forgets (before after : Cache) : Prop where
  tokens : after.tokens = before.tokens
  entries : ∀ key entry, after.entries key = some entry → before.entries key = some entry

namespace Cache

theorem forgets_of_eq {before after : Cache} (same : after = before) : Forgets before after := by
  subst same
  exact ⟨rfl, fun key entry stored => stored⟩

theorem forgets_get (cache : Cache) (now : Instant) (key : CacheKey) :
    cache.Forgets (cache.get now key).2 :=
  ⟨get_snd_tokens, fun _ _ left => entries_of_get_snd left⟩

theorem entries_of_put {cache written : Cache} {now : Instant} {key other : CacheKey}
    {value : CachedValue} {lifetime : Duration} {entry : CacheEntry}
    (put : cache.put now key value lifetime = .ok written)
    (stored : written.entries other = some entry) :
    cache.entries other = some entry ∨ other = key ∧ entry.value = value := by
  unfold Cache.put at put
  split at put
  · cases put
  · split at put
    · cases put
    · cases put
      change (cache.setEntry key _).entries other = some entry at stored
      rw [setEntry_entries] at stored
      split at stored
      · cases stored
        exact .inr ⟨‹_›, rfl⟩
      · exact .inl stored

theorem tokens_of_put {cache written : Cache} {now : Instant} {key : CacheKey} {value : CachedValue}
    {lifetime : Duration} (put : cache.put now key value lifetime = .ok written) :
    written.tokens = cache.tokens := by
  unfold Cache.put at put
  split at put
  · cases put
  · split at put
    · cases put
    · cases put
      rfl

end Cache

namespace Task

def rank : Task → Nat
  | .asked _ _ _ => 0
  | .resolved _ => 1
  | .keyed _ _ => 2
  | .missed _ _ => 3
  | .computing _ _ _ => 4
  | .storing _ _ _ => 5
  | .answered _ _ => 6
  | .ignoring _ => 0
  | .clearing _ _ => 0
  | .touching _ => 1
  | .finished _ => 6

def holdsToken : Task → Bool
  | .keyed _ _ => true
  | .missed _ _ => true
  | .computing _ _ _ => true
  | .storing _ _ _ => true
  | _ => false

/-- What a turn of a task can do to the cache. -/
inductive Takes (world : World) : Task → Deed × Task → World → Prop
  | quietly {task next : Task} {after : World} :
      world.memory.cache.Forgets after.memory.cache → task.rank ≤ next.rank →
      next.holdsToken = false → Takes world task (.nothing, next) after
  | readToken {ask : Ask} {after : World} : world.memory.cache.Forgets after.memory.cache →
      Takes world (.resolved ask) (.readToken ask (world.memory.cache.tokens ask.user),
        .keyed ask (world.memory.cache.tokens ask.user)) after
  | hit {ask : Ask} {token : BatchToken} {items : List ask.query.Item} {entry : CacheEntry}
      {after : World} : world.memory.cache.Forgets after.memory.cache →
      world.memory.cache.entries (ask.key token) = some entry →
      JsonFormat.ofJson entry.value.payload = .ok items →
      Takes world (.keyed ask token) (.answer ask items, .answered ask.query (.ok items)) after
  | miss {ask : Ask} {token : BatchToken} {after : World} :
      world.memory.cache.Forgets after.memory.cache →
      Takes world (.keyed ask token) (.nothing, .missed ask token) after
  | read {ask : Ask} {token : BatchToken} :
      Takes world (.missed ask token)
        (.read world.deployment, .computing ask token ⟨world.deployment, []⟩) world
  | compute {ask : Ask} {token : BatchToken} {survey : Survey} {items : List ask.query.Item}
      {after : World} : world.memory.cache.Forgets after.memory.cache →
      (ask.firstItems survey.view).outcome = .ok items →
      Takes world (.computing ask token survey)
        (.compute ask survey items, .storing ask token items) after
  | store {ask : Ask} {token : BatchToken} {items : List ask.query.Item} {after : World} :
      after.memory.cache.tokens = world.memory.cache.tokens →
      (∀ key entry, after.memory.cache.entries key = some entry →
        world.memory.cache.entries key = some entry ∨
          key = ask.key token ∧ entry.value = ⟨token, JsonFormat.encode items⟩) →
      Takes world (.storing ask token items)
        (.answer ask items, .answered ask.query (.ok items)) after
  | record {row : Ignore} {after : World} : world.memory.cache.Forgets after.memory.cache →
      Takes world (.ignoring row) (.record row, .touching [row.user]) after
  | clear {asset : Asset} {purpose : Purpose} {users : List UserId} {after : World} :
      world.memory.cache.Forgets after.memory.cache →
      Takes world (.clearing asset purpose) (.clear asset purpose, .touching users) after
  | bump {user : UserId} {rest : List UserId} {after : World} :
      after.memory.cache = (world.memory.cache.advanceToken user).2 →
      Takes world (.touching (user :: rest)) (.bump user, .touching rest) after

theorem takes_attempt {α : Type} {action : World.Action α} {stop : Stop → Task}
    {next : α → Deed × Task} {world : World} {task : Task}
    (stopped : ∀ reason after, action world = (.error reason, after) →
      Takes world task (.nothing, stop reason) after)
    (done : ∀ value after, action world = (.ok value, after) → Takes world task (next value) after) :
    Takes world task (Task.attempt action stop next world).1
      (Task.attempt action stop next world).2 := by
  unfold Task.attempt
  rcases result : action world with ⟨reason | value, after⟩
  · exact stopped reason after result
  · exact done value after result

theorem ofSession_useCache {α : Type} {facility : Facility}
    {action : Deployment → Cache → Except Stop α × Cache} {world after : World}
    {outcome : Except Stop α}
    (used : World.Action.ofSession (fun deployment =>
      Session.useCache deployment facility (action deployment)) world = (outcome, after)) :
    (∃ stop, outcome = .error stop) ∧ after = world ∨
      outcome = (action world.deployment world.memory.cache).1 ∧
        after.memory.cache = (action world.deployment world.memory.cache).2 := by
  unfold World.Action.ofSession Session.useCache at used
  cases works : world.deployment.failure? facility with
  | some failure =>
      simp only [works, Prod.mk.injEq] at used
      exact .inl ⟨⟨_, used.1.symm⟩, used.2.symm⟩
  | none =>
      simp only [works, Prod.mk.injEq] at used
      obtain ⟨rfl, rfl⟩ := used
      exact .inr ⟨rfl, rfl⟩

theorem ofMetered_eq {α : Type} {computation : Deployment → Metered α} {world after : World}
    {outcome : Except Stop α} (asked : World.Action.ofMetered computation world = (outcome, after)) :
    outcome = (computation world.deployment).outcome.mapError .failed ∧
      after.memory.cache = world.memory.cache := by
  cases asked
  exact ⟨rfl, rfl⟩

theorem memory_editIgnores {α : Type} {facility : Facility} {edit : List Ignore → α × List Ignore}
    {world after : World} {outcome : Except Stop α}
    (edited : World.Action.editIgnores facility edit world = (outcome, after)) :
    after.memory = world.memory := by
  unfold World.Action.editIgnores at edited
  split at edited <;> cases edited <;> rfl

variable {world : World}

theorem takes_asked (query : NeedsQuery) (user : UserId) (options : NeedsOptions) :
    Takes world (.asked query user options) ((asked query user options).take world).1
      ((asked query user options).take world).2 := by
  simp only [take]
  split
  · exact .quietly (Cache.forgets_of_eq rfl) (by simp [rank]) rfl
  · refine takes_attempt (fun reason after failed => ?_) fun scope after resolved => ?_
    · exact .quietly (Cache.forgets_of_eq (ofMetered_eq failed).2) (by simp [rank]) rfl
    · have unchanged := Cache.forgets_of_eq (ofMetered_eq resolved).2
      by_cases outside : query.isOutside scope = true
      · rw [if_pos outside]
        exact .quietly unchanged (by simp [rank]) rfl
      · rw [if_neg outside]
        exact .quietly unchanged (by simp [rank]) rfl

theorem takes_resolved (ask : Ask) :
    Takes world (.resolved ask) ((resolved ask).take world).1 ((resolved ask).take world).2 := by
  refine takes_attempt (fun reason after refused => ?_) fun token after known => ?_
  · rcases ofSession_useCache refused with ⟨-, rfl⟩ | ⟨impossible, -⟩
    · exact .quietly (Cache.forgets_of_eq rfl) (by simp [rank]) rfl
    · cases impossible
  · rcases ofSession_useCache known with ⟨⟨stop, impossible⟩, -⟩ | ⟨value, unchanged⟩
    · cases impossible
    · cases value
      exact .readToken (Cache.forgets_of_eq unchanged)

theorem takes_keyed (ask : Ask) (token : BatchToken) :
    Takes world (.keyed ask token) ((keyed ask token).take world).1
      ((keyed ask token).take world).2 := by
  refine takes_attempt (fun reason after refused => ?_) fun value after got => ?_
  · rcases ofSession_useCache refused with ⟨-, rfl⟩ | ⟨impossible, -⟩
    · exact .quietly (Cache.forgets_of_eq rfl) (by simp [rank]) rfl
    · cases impossible
  · rcases ofSession_useCache got with ⟨⟨stop, impossible⟩, -⟩ | ⟨read, left⟩
    · cases impossible
    · have forgets : world.memory.cache.Forgets after.memory.cache := by
        rw [left]
        exact Cache.forgets_get _ _ _
      cases found : ask.hit? token value with
      | none => exact .miss forgets
      | some items =>
          cases value with
          | none => cases found
          | some value =>
              obtain ⟨entry, stored, -, rfl⟩ := Cache.get_fst_eq_some.mp (Except.ok.inj read).symm
              exact .hit forgets stored (CacheRequest.hit?_eq_some.mp found).2

theorem takes_computing (ask : Ask) (token : BatchToken) (survey : Survey) :
    Takes world (.computing ask token survey) ((computing ask token survey).take world).1
      ((computing ask token survey).take world).2 := by
  refine takes_attempt (fun reason after failed => ?_) fun items after computed => ?_
  · exact .quietly (Cache.forgets_of_eq (ofMetered_eq failed).2) (by simp [rank]) rfl
  · obtain ⟨outcome, unchanged⟩ := ofMetered_eq computed
    refine .compute (Cache.forgets_of_eq unchanged) ?_
    cases known : (ask.firstItems survey.view).outcome with
    | error error => simp [known, Except.mapError] at outcome
    | ok value => simpa [known, Except.mapError] using outcome.symm

theorem takes_storing (ask : Ask) (token : BatchToken) (items : List ask.query.Item) :
    Takes world (.storing ask token items) ((storing ask token items).take world).1
      ((storing ask token items).take world).2 := by
  refine takes_attempt (fun reason after refused => ?_) fun value after written => ?_
  · rcases ofSession_useCache refused with ⟨-, rfl⟩ | ⟨outcome, left⟩
    · exact .quietly (Cache.forgets_of_eq rfl) (by simp [rank]) rfl
    · refine .quietly (Cache.forgets_of_eq ?_) (by simp [rank]) rfl
      rw [left]
      split at outcome
      · cases outcome
      · simp only [*]
      · simp only [*]
  · rcases ofSession_useCache written with ⟨⟨stop, impossible⟩, -⟩ | ⟨outcome, left⟩
    · cases impossible
    · split at outcome
      · rename_i cache put
        simp only [put] at left
        rw [← left] at put
        exact .store (Cache.tokens_of_put put) fun _ _ => Cache.entries_of_put put
      · cases outcome
      · cases outcome

theorem takes_editing {α : Type} {facility : Facility} {edit : List Ignore → α × List Ignore}
    {task : Task} {next : α → Deed × Task} (below : task.rank ≤ 6)
    (done : ∀ value after, world.memory.cache.Forgets after.memory.cache →
      Takes world task (next value) after) :
    Takes world task
      (Task.attempt (.editIgnores facility edit) (fun stop => .finished (.error stop)) next world).1
      (Task.attempt (.editIgnores facility edit) (fun stop => .finished (.error stop)) next world).2 := by
  refine takes_attempt (fun reason after refused => ?_) fun value after edited => ?_
  · exact .quietly (Cache.forgets_of_eq (congrArg Memory.cache (memory_editIgnores refused))) below rfl
  · exact done value after (Cache.forgets_of_eq (congrArg Memory.cache (memory_editIgnores edited)))

theorem takes_touching (user : UserId) (rest : List UserId) :
    Takes world (.touching (user :: rest)) ((touching (user :: rest)).take world).1
      ((touching (user :: rest)).take world).2 := by
  refine takes_attempt (fun reason after refused => ?_) fun token after touched => ?_
  · rcases ofSession_useCache refused with ⟨-, rfl⟩ | ⟨impossible, -⟩
    · exact .quietly (Cache.forgets_of_eq rfl) (by simp [rank]) rfl
    · cases impossible
  · rcases ofSession_useCache touched with ⟨⟨stop, impossible⟩, -⟩ | ⟨-, bumped⟩
    · cases impossible
    · exact .bump bumped

theorem takes_take (task : Task) (world : World) :
    Takes world task (task.take world).1 (task.take world).2 := by
  cases task with
  | asked query user options => exact takes_asked query user options
  | resolved ask => exact takes_resolved ask
  | keyed ask token => exact takes_keyed ask token
  | missed ask token => exact .read
  | computing ask token survey => exact takes_computing ask token survey
  | storing ask token items => exact takes_storing ask token items
  | answered query result => exact .quietly (Cache.forgets_of_eq rfl) le_rfl rfl
  | ignoring row => exact takes_editing (by simp [rank]) fun value after => .record
  | clearing asset purpose => exact takes_editing (by simp [rank]) fun value after => .clear
  | touching users =>
      cases users with
      | nil => exact .quietly (Cache.forgets_of_eq rfl) (by simp [rank]) rfl
      | cons user rest => exact takes_touching user rest
  | finished result => exact .quietly (Cache.forgets_of_eq rfl) le_rfl rfl

end Task

/-- Any number of tasks in one world. -/
structure System where
  world : World
  tasks : Nat → Task

inductive Turn where
  | take (id : Nat)
  | reread (id : Nat) (part : Part)
  | change (deployment : Deployment)

inductive Occurrence where
  | deed (id : Nat) (deed : Deed)
  | change

inductive Operation where
  | ask (query : NeedsQuery) (user : UserId) (options : NeedsOptions)
  | ignore (row : Ignore)
  | clear (asset : Asset) (purpose : Purpose)

namespace Operation

def task : Operation → Task
  | .ask query user options => .asked query user options
  | .ignore row => .ignoring row
  | .clear asset purpose => .clearing asset purpose

end Operation

namespace System

def start (world : World) (operations : Nat → Operation) : System where
  world := world
  tasks id := (operations id).task

def step (system : System) : Turn → Occurrence × System
  | .take id =>
      let taken := (system.tasks id).take system.world
      (.deed id taken.1.1, ⟨taken.2, Function.update system.tasks id taken.1.2⟩)
  | .reread id part =>
      let taken := (system.tasks id).reread part system.world.deployment
      (.deed id taken.1, { system with tasks := Function.update system.tasks id taken.2 })
  | .change deployment =>
      (.change, { system with world := { system.world with deployment := deployment } })

def log : System → List Turn → List Occurrence
  | _, [] => []
  | system, turn :: rest => (system.step turn).1 :: log (system.step turn).2 rest

def after : System → List Turn → System
  | system, [] => system
  | system, turn :: rest => after (system.step turn).2 rest

theorem log_append (system : System) (first second : List Turn) :
    system.log (first ++ second) = system.log first ++ (system.after first).log second := by
  induction first generalizing system with
  | nil => rfl
  | cons turn rest ih => exact congrArg ((system.step turn).1 :: ·) (ih (system.step turn).2)

theorem log_compute (ask : Ask) (token : BatchToken) (survey : Survey) {system : System} {id : Nat}
    {items : List ask.query.Item} {first rest : List Turn}
    (computing : (system.after first).tasks id = .computing ask token survey)
    (found : (ask.firstItems survey.view).outcome = .ok items) :
    system.log (first ++ .take id :: rest) = system.log first ++
      .deed id (.compute ask survey items) ::
        System.log ⟨((Task.computing ask token survey).take (system.after first).world).2,
          Function.update (system.after first).tasks id (.storing ask token items)⟩ rest := by
  have taken (world : World) : ((Task.computing ask token survey).take world).1 =
      (.compute ask survey items, .storing ask token items) :=
    congrArg Prod.fst (Task.attempt_ofMetered_ok (fun _ => ask.firstItems survey.view) found)
  rw [log_append]
  simp only [log, step, computing, taken]

theorem step_deed {system : System} {turn : Turn} {id : Nat} {deed : Deed}
    (happened : (system.step turn).1 = .deed id deed) :
    (∃ next after, Task.Takes system.world (system.tasks id) (deed, next) after) ∨
      (∃ ask token survey, system.tasks id = .computing ask token survey) ∧
        deed = .read system.world.deployment ∨
      deed = .nothing := by
  cases turn with
  | take other =>
      cases happened
      exact .inl ⟨_, _, Task.takes_take (system.tasks id) system.world⟩
  | reread other part =>
      cases happened
      right
      cases computing : system.tasks id with
      | computing ask token survey => exact .inl ⟨⟨ask, token, survey, rfl⟩, rfl⟩
      | _ => exact .inr rfl
  | change deployment => cases happened

end System

end Agenda
