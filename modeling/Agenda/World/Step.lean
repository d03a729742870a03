import Agenda.World

/-!
The steps that can be taken in a world, and what each of them answers.
-/

namespace Agenda

namespace World

inductive Step where
  | cached (query : NeedsQuery) (user : UserId) (options : NeedsOptions)
  | listed (query : NeedsQuery) (user : UserId) (options : NeedsOptions)
      (keep : List (List GlobalId)) (limit : Option Nat)
  | anyListed (query : NeedsQuery) (user : UserId) (options : NeedsOptions)
      (keep : List (List GlobalId))
  | dashboard (user : UserId) (limits : DashboardLimits)
  | resolve (user : UserId) (request : ScopeRequest)
  | ignore (row : Ignore)
  | clearOnChange (asset : Asset) (purpose : Purpose)
  | touch (user : UserId)
  | token (user : UserId)
  | readEntry (key : CacheKey)
  | writeEntry (key : CacheKey) (value : CachedValue) (lifetime : Duration)
  | fetch (request : CacheRequest) (result : Except Error Json)
  | fetchIds (request : CacheRequest) (result : Except Error (List GlobalId))
  | advance (span : Duration)
  | setClock (instant : Instant)
  | takeOffline (shard : ShardId)
  | breakDown (facility : Facility) (failure : ServiceFailure)
  /-- Ends all outages; shards that are offline stay so. -/
  | heal
  | insert (table : TableName) (row : table.Row)
  | replace (table : TableName) (rows : List table.Row)
  | readTable (table : TableName)

namespace Step

def Answer : Step → Type
  | .cached query _ _ => List query.Item
  | .listed query _ _ _ _ => List query.Item
  | .anyListed _ _ _ _ => Bool
  | .dashboard _ _ => TodoList
  | .resolve _ _ => Scope
  | .ignore _ => Ignore
  | .clearOnChange _ _ => List UserId
  | .touch _ => BatchToken
  | .token _ => BatchToken
  | .readEntry _ => Option CachedValue
  | .writeEntry _ _ _ => Unit
  | .fetch _ _ => Json
  | .fetchIds _ _ => List GlobalId
  | .advance _ => Unit
  | .setClock _ => Unit
  | .takeOffline _ => Unit
  | .breakDown _ _ => Unit
  | .heal => Unit
  | .insert _ _ => Unit
  | .replace _ _ => Unit
  | .readTable table => List table.Row

def keepIds {ι : Type} [Listed ι] (keep : List (List GlobalId)) (items : List ι) : List ι :=
  keepAll (keep.map fun ids item => ids.contains (Listed.id item)) items

def perform : (step : Step) → Action step.Answer
  | .cached query user options => .ofSession fun deployment =>
      query.runCached deployment user options
  | .listed query user options keep limit => do
      let items ← .ofMetered fun deployment => query.run deployment user options
      let kept := keepIds keep items
      return limit.elim kept kept.take
  | .anyListed query user options keep => do
      let items ← .ofMetered fun deployment => query.run deployment user options
      return !(keepIds keep items).isEmpty
  | .dashboard user limits => .ofSession fun deployment => TodoList.build deployment limits user
  | .resolve user request => .ofMetered fun deployment => Scope.resolve deployment user request
  | .ignore row => World.ignore row
  | .clearOnChange asset purpose => World.clearOnChange asset purpose
  | .touch user => World.touch user
  | .token user => .ofSession fun deployment => .readToken deployment user
  | .readEntry key => .ofSession fun deployment => .readEntry deployment key
  | .writeEntry key value lifetime => .ofSession fun deployment =>
      .writeEntry deployment key value lifetime
  | .fetch request result => .ofSession fun deployment =>
      request.fetch (α := Json) deployment (.spend { computations := 1 } result)
  | .fetchIds request result => .ofSession fun deployment =>
      request.fetch (α := List GlobalId) deployment (.spend { computations := 1 } result)
  | .advance span => World.advance span
  | .setClock instant => .change fun deployment => { deployment with now := instant }
  | .takeOffline shard => .change fun deployment =>
      { deployment with offline := shard :: deployment.offline }
  | .breakDown facility failure => .change fun deployment =>
      { deployment with outages := (facility, failure) :: deployment.outages }
  | .heal => .change fun deployment => { deployment with outages := [] }
  | .insert table row => .change fun deployment =>
      { deployment with tables := deployment.tables.insert table row }
  | .replace table rows => .change fun deployment =>
      { deployment with tables := deployment.tables.replace table rows }
  | .readTable table => fun world => (.ok (world.deployment.tables.rows table), world)

end Step

end World

end Agenda
