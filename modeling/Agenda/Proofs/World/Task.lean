import Agenda.Proofs.Cache.Key
import Agenda.Proofs.Needs.Query
import Agenda.World

/-!
Cached queries, ignores and clears as tasks. A task takes turns, and in each of them it uses one
service once; between its turns anything else may happen in the world. A task that takes all its
turns in a row does what the query, the ignore or the clear does as a whole.
-/

namespace Agenda

inductive Part where
  | rows (table : TableName) (which : table.Row → Bool)
  | shard (id : ShardId)
  | grants (which : PermissionGrant → Bool)
  | outages
  | clock

namespace Part

def renewRows {ρ : Type} (which : ρ → Bool) (source rows : List ρ) : List ρ :=
  rows.filter (fun row => !which row) ++ source.filter which

def renew (source : Deployment) (deployment : Deployment) : Part → Deployment
  | .rows table which =>
      let rows := renewRows which (source.tables.rows table) (deployment.tables.rows table)
      { deployment with tables := deployment.tables.replace table rows }
  | .shard id =>
      let isIt := fun other => decide (other = id)
      { deployment with offline := renewRows isIt source.offline deployment.offline }
  | .grants which => { deployment with grants := renewRows which source.grants deployment.grants }
  | .outages => { deployment with outages := source.outages }
  | .clock => { deployment with now := source.now }

end Part

/-- What a computation has read so far: everything at first, and then some parts again, the last of
them in front, when the first time was too early for them. -/
structure Survey where
  first : Deployment
  again : List (Part × Deployment)

namespace Survey

def view (survey : Survey) : Deployment :=
  survey.again.foldr (fun piece seen => piece.1.renew piece.2 seen) survey.first

def sources (survey : Survey) : List Deployment :=
  survey.first :: survey.again.map (·.2)

def more (survey : Survey) (part : Part) (source : Deployment) : Survey :=
  { survey with again := (part, source) :: survey.again }

theorem mem_sources_more {survey : Survey} {part : Part} {source other : Deployment} :
    other ∈ (survey.more part source).sources ↔ other ∈ source :: survey.sources := by
  simp only [sources, more, List.map_cons, List.mem_cons]
  exact or_left_comm

end Survey

structure Ask where
  query : NeedsQuery
  user : UserId
  options : NeedsOptions
  config : Config
  scope : Scope

namespace Ask

def request (ask : Ask) : CacheRequest :=
  ask.query.cacheRequest ask.config ask.user ask.options ask.scope

def key (ask : Ask) (token : BatchToken) : CacheKey :=
  ask.request.key token

def firstItems (ask : Ask) (deployment : Deployment) : Metered (List ask.query.Item) :=
  ask.query.firstItems deployment ask.user ask.options ask.scope

def hit? (ask : Ask) (token : BatchToken) (value : Option CachedValue) :
    Option (List ask.query.Item) :=
  CacheRequest.hit? token value

def resume (ask : Ask) (deployment : Deployment) (token : BatchToken) (value : Option CachedValue) :
    Session (List ask.query.Item) :=
  ask.request.resume deployment (ask.firstItems deployment) token (ask.hit? token value)

def about (ask : Ask) (config : Config) (scope : Scope) : Ask :=
  { ask with config := config, scope := scope }

end Ask

/-- What a task still has to do. -/
inductive Task where
  | asked (query : NeedsQuery) (user : UserId) (options : NeedsOptions)
  | resolved (ask : Ask)
  | keyed (ask : Ask) (token : BatchToken)
  | missed (ask : Ask) (token : BatchToken)
  | computing (ask : Ask) (token : BatchToken) (survey : Survey)
  | storing (ask : Ask) (token : BatchToken) (items : List ask.query.Item)
  | answered (query : NeedsQuery) (result : Except Stop (List query.Item))
  | ignoring (row : Ignore)
  | clearing (asset : Asset) (purpose : Purpose)
  | touching (users : List UserId)
  | finished (result : Except Stop Unit)

inductive Deed where
  | nothing
  | readToken (ask : Ask) (token : BatchToken)
  | read (source : Deployment)
  | compute (ask : Ask) (survey : Survey) (items : List ask.query.Item)
  | answer (ask : Ask) (items : List ask.query.Item)
  | record (row : Ignore)
  | clear (asset : Asset) (purpose : Purpose)
  | bump (user : UserId)

namespace Task

def attempt {α : Type} (action : World.Action α) (stop : Stop → Task) (next : α → Deed × Task)
    (world : World) : (Deed × Task) × World :=
  match action world with
  | (.error reason, after) => ((.nothing, stop reason), after)
  | (.ok value, after) => (next value, after)

def take : Task → World → (Deed × Task) × World
  | .asked query user options, world =>
      if query.isDisabled world.deployment.config then
        ((.nothing, .answered query (.ok [])), world)
      else
        Task.attempt (.ofMetered fun deployment => query.scope deployment user options)
          (fun stop => .answered query (.error stop))
          (fun scope =>
            if query.isOutside scope then (.nothing, .answered query (.ok []))
            else (.nothing, .resolved ⟨query, user, options, world.deployment.config, scope⟩))
          world
  | .resolved ask, world =>
      Task.attempt (.ofSession fun deployment => .readToken deployment ask.user)
        (fun stop => .answered ask.query (.error stop))
        (fun token => (.readToken ask token, .keyed ask token))
        world
  | .keyed ask token, world =>
      Task.attempt (.ofSession fun deployment => .readEntry deployment (ask.key token))
        (fun stop => .answered ask.query (.error stop))
        (fun value =>
          match ask.hit? token value with
          | some items => (.answer ask items, .answered ask.query (.ok items))
          | none => (.nothing, .missed ask token))
        world
  | .missed ask token, world =>
      ((.read world.deployment, .computing ask token ⟨world.deployment, []⟩), world)
  | .computing ask token survey, world =>
      Task.attempt (.ofMetered fun _ => ask.firstItems survey.view)
        (fun stop => .answered ask.query (.error stop))
        (fun items => (.compute ask survey items, .storing ask token items))
        world
  | .storing ask token items, world =>
      Task.attempt
        (.ofSession fun deployment => .writeEntry deployment (ask.key token)
          ⟨token, JsonFormat.encode items⟩ ask.request.lifetime)
        (fun stop => .answered ask.query (.error stop))
        (fun _ => (.answer ask items, .answered ask.query (.ok items)))
        world
  | .ignoring row, world =>
      Task.attempt (.editIgnores .saveIgnore fun rows => ((), row.upsert rows))
        (fun stop => .finished (.error stop))
        (fun _ => (.record row, .touching [row.user]))
        world
  | .clearing asset purpose, world =>
      Task.attempt
        (.editIgnores .clearIgnores fun rows =>
          (Ignore.transientUsers asset purpose rows, Ignore.lasting asset purpose rows))
        (fun stop => .finished (.error stop))
        (fun users => (.clear asset purpose, .touching users))
        world
  | .touching [], world => ((.nothing, .finished (.ok ())), world)
  | .touching (user :: rest), world =>
      Task.attempt (World.touch user)
        (fun stop => .finished (.error stop))
        (fun _ => (.bump user, .touching rest))
        world
  | .answered query result, world => ((.nothing, .answered query result), world)
  | .finished result, world => ((.nothing, .finished result), world)

def reread (part : Part) (source : Deployment) : Task → Deed × Task
  | .computing ask token survey =>
      (.read source, .computing ask token (survey.more part source))
  | other => (.nothing, other)

def alone : Nat → Task → World → Task × World
  | 0, task, world => (task, world)
  | count + 1, task, world =>
      let taken := task.take world
      alone count taken.1.2 taken.2

/-- So many turns in a row come to the same as an action. -/
def Ends {α : Type} (ended : Except Stop α → Task) (count : Nat) (task : Task)
    (action : World.Action α) : Prop :=
  ∀ world, task.alone count world = (ended (action world).1, (action world).2)

theorem alone_answered (count : Nat) (query : NeedsQuery) (result : Except Stop (List query.Item))
    (world : World) : (answered query result).alone count world = (answered query result, world) := by
  induction count with
  | zero => rfl
  | succ count ih => exact ih

theorem alone_finished (count : Nat) (result : Except Stop Unit) (world : World) :
    (finished result).alone count world = (finished result, world) := by
  induction count with
  | zero => rfl
  | succ count ih => exact ih

end Task

namespace World.Action

variable {α β γ : Type}

theorem bind_assoc (first : Action α) (second : α → Action β) (third : β → Action γ) :
    (first >>= second) >>= third = first >>= fun value => second value >>= third := by
  funext world
  change Action.bind (Action.bind first second) third world =
    Action.bind first (fun value => Action.bind (second value) third) world
  simp only [Action.bind]
  rcases first world with ⟨stop | value, after⟩ <;> rfl

theorem bind_unit (action : Action Unit) : (action >>= fun _ => pure ()) = action := by
  funext world
  change Action.bind action _ world = action world
  simp only [Action.bind]
  rcases action world with ⟨stop | value, after⟩ <;> rfl

theorem ofSession_bind (first : Deployment → Session α) (next : Deployment → α → Session β) :
    (ofSession fun deployment => first deployment >>= next deployment) =
      ofSession first >>= fun value => ofSession fun deployment => next deployment value := by
  funext world
  change ofSession (fun deployment => Session.bind (first deployment) (next deployment)) world =
    Action.bind (ofSession first) _ world
  simp only [ofSession, Session.bind, Action.bind]
  cases first world.deployment world.memory with
  | mk outcome after => cases outcome <;> rfl

end World.Action

namespace Task

section Attempts

variable {α : Type} (computation : Deployment → Metered α) {stop : Stop → Task}
  {next : α → Deed × Task} {deployment : Deployment} {memory : Memory}

theorem attempt_ofMetered_error {error : Error}
    (failed : (computation deployment).outcome = .error error) :
    Task.attempt (.ofMetered computation) stop next ⟨deployment, memory⟩ =
      ((.nothing, stop (.failed error)),
        ⟨deployment, { memory with effort := memory.effort + (computation deployment).effort }⟩) := by
  simp only [Task.attempt, World.Action.ofMetered, World.Action.ofSession, Session.ofMetered, failed,
    Except.mapError]

theorem attempt_ofMetered_ok {value : α} (succeeded : (computation deployment).outcome = .ok value) :
    Task.attempt (.ofMetered computation) stop next ⟨deployment, memory⟩ =
      (next value,
        ⟨deployment, { memory with effort := memory.effort + (computation deployment).effort }⟩) := by
  simp only [Task.attempt, World.Action.ofMetered, World.Action.ofSession, Session.ofMetered,
    succeeded, Except.mapError]

end Attempts

variable {α β : Type} {ended : Except Stop β → Task} {count : Nat} {task : Task}

theorem Ends.attempt {action : World.Action α} {next : α → Deed × Task} {rest : α → World.Action β}
    (takes : ∀ world, task.take world = Task.attempt action (fun stop => ended (.error stop)) next world)
    (stays : ∀ result world, (ended result).alone count world = (ended result, world))
    (follows : ∀ value, Ends ended count (next value).2 (rest value)) :
    Ends ended (count + 1) task (action >>= rest) := by
  intro world
  change alone count (task.take world).1.2 (task.take world).2 =
    (ended (World.Action.bind action rest world).1, (World.Action.bind action rest world).2)
  rw [takes world]
  simp only [Task.attempt, World.Action.bind]
  rcases action world with ⟨stop | value, after⟩
  · exact stays (.error stop) after
  · exact follows value after

theorem ends_keyed (ask : Ask) (token : BatchToken) :
    Ends (.answered ask.query) 4 (.keyed ask token) (.ofSession fun deployment =>
      Session.readEntry deployment (ask.key token) >>= ask.resume deployment token) := by
  have stays (count : Nat) := alone_answered count ask.query
  rw [World.Action.ofSession_bind]
  refine Ends.attempt (fun world => rfl) (stays 3) fun value => ?_
  simp only [Ask.resume]
  cases ask.hit? token value with
  | some items => exact fun world => stays 3 (.ok items) world
  | none =>
      let write (items : List ask.query.Item) : World.Action (List ask.query.Item) :=
        World.Action.ofSession (fun deployment => Session.writeEntry deployment (ask.key token)
          ⟨token, JsonFormat.encode items⟩ ask.request.lifetime) >>= fun _ => pure items
      have stores (items : List ask.query.Item) : Ends (.answered ask.query) 1
          (.storing ask token items) (write items) :=
        Ends.attempt (fun world => rfl) (stays 0) fun _ world => rfl
      have computes (survey : Survey) : Ends (.answered ask.query) 2 (.computing ask token survey)
          (World.Action.ofMetered (fun _ => ask.firstItems survey.view) >>= write) :=
        Ends.attempt (fun world => rfl) (stays 1) stores
      have whole : World.Action.ofSession (fun deployment =>
          ask.request.resume deployment (ask.firstItems deployment) token none) =
            World.Action.ofMetered ask.firstItems >>= write := by
        refine (World.Action.ofSession_bind (fun deployment => Session.ofMetered
          (ask.firstItems deployment)) _).trans ?_
        exact congrArg (World.Action.ofMetered ask.firstItems >>= ·)
          (funext fun items => World.Action.ofSession_bind _ fun _ _ => pure items)
      intro world
      change alone 2 (.computing ask token ⟨world.deployment, []⟩) world = _
      rw [computes, whole]
      rfl

theorem ends_asked (query : NeedsQuery) (user : UserId) (options : NeedsOptions) :
    Ends (.answered query) 6 (.asked query user options)
      (.ofSession fun deployment => query.runCached deployment user options) := by
  have stays (count : Nat) := alone_answered count query
  have looks (ask : Ask) : Ends (.answered ask.query) 5 (.resolved ask)
      (.ofSession fun deployment => ask.request.fetch deployment (ask.firstItems deployment)) := by
    simp only [CacheRequest.fetch_eq]
    rw [World.Action.ofSession_bind]
    exact Ends.attempt (fun world => rfl) (alone_answered 4 ask.query) (ends_keyed ask)
  rintro ⟨deployment, memory⟩
  have first (count : Nat) : (asked query user options).alone (count + 1) ⟨deployment, memory⟩ =
      alone count ((asked query user options).take ⟨deployment, memory⟩).1.2
        ((asked query user options).take ⟨deployment, memory⟩).2 :=
    rfl
  rw [first]
  cases enabled : query.isDisabled deployment.config with
  | true =>
      simp only [take, enabled, if_true, World.Action.ofSession, NeedsQuery.runCached_disabled enabled]
      exact stays 5 _ _
  | false =>
      cases resolved : (query.scope deployment user options).outcome with
      | error error =>
          simp only [take, enabled, Bool.false_eq_true, if_false,
            attempt_ofMetered_error (query.scope · user options) resolved,
            World.Action.ofSession, NeedsQuery.runCached_unresolved enabled resolved]
          exact stays 5 _ _
      | ok scope =>
          simp only [take, enabled, Bool.false_eq_true, if_false,
            attempt_ofMetered_ok (query.scope · user options) resolved]
          cases outside : query.isOutside scope with
          | true =>
              simp only [World.Action.ofSession, NeedsQuery.runCached_outside enabled resolved outside]
              exact stays 5 _ _
          | false =>
              simp only [World.Action.ofSession, NeedsQuery.runCached_inside enabled resolved outside]
              exact looks ⟨query, user, options, deployment.config, scope⟩ _

theorem ends_touching (users : List UserId) :
    Ends .finished (users.length + 1) (.touching users) (World.touchAll users) := by
  induction users with
  | nil => exact fun world => rfl
  | cons user rest ih =>
      exact Ends.attempt (fun world => rfl) (alone_finished _) fun token => ih

theorem ends_ignoring (row : Ignore) :
    Ends .finished 3 (.ignoring row) (World.ignore row >>= fun _ => pure ()) := by
  have ends : Ends .finished 3 (.ignoring row)
      (World.Action.editIgnores .saveIgnore (fun rows => ((), row.upsert rows)) >>= fun _ =>
        World.touchAll [row.user]) :=
    Ends.attempt (fun world => rfl) (alone_finished 2) fun _ => ends_touching [row.user]
  have same : (World.ignore row >>= fun _ => pure ()) =
      World.Action.editIgnores .saveIgnore (fun rows => ((), row.upsert rows)) >>= fun _ =>
        World.touchAll [row.user] := by
    simp only [World.ignore, World.touchAll, World.Action.bind_assoc]
    rfl
  rw [same]
  exact ends

theorem ends_clearing (asset : Asset) (purpose : Purpose) (world : World) :
    let users := Ignore.transientUsers asset purpose world.deployment.tables.ignores
    let action := World.clearOnChange asset purpose >>= fun _ => pure ()
    (clearing asset purpose).alone (users.length + 2) world =
      (.finished (action world).1, (action world).2) := by
  intro users action
  have same : action = World.Action.editIgnores .clearIgnores (fun rows =>
      (Ignore.transientUsers asset purpose rows, Ignore.lasting asset purpose rows)) >>=
        World.touchAll := by
    have drop (users : List UserId) : (World.touchAll users >>= fun _ => pure users) >>=
        (fun _ => pure ()) = World.touchAll users := by
      rw [World.Action.bind_assoc]
      exact World.Action.bind_unit (World.touchAll users)
    change (_ >>= fun users => World.touchAll users >>= fun _ => pure users) >>= _ = _
    rw [World.Action.bind_assoc]
    exact congrArg _ (funext drop)
  rw [same]
  change alone (users.length + 1) ((clearing asset purpose).take world).1.2
    ((clearing asset purpose).take world).2 =
      (.finished (World.Action.bind _ World.touchAll world).1,
        (World.Action.bind _ World.touchAll world).2)
  simp only [take, attempt, World.Action.bind, World.Action.editIgnores]
  cases works : world.deployment.failure? .clearIgnores with
  | some failure => exact alone_finished (users.length + 1) _ world
  | none => exact ends_touching users _

end Task

end Agenda
