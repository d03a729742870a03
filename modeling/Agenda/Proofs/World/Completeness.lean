import Agenda.Proofs.Cache.Stored
import Agenda.Proofs.Dashboard.Calls
import Agenda.Proofs.Effort
import Agenda.Proofs.Scope
import Agenda.Proofs.World.Soundness
import Agenda.Proofs.World.Source

/-!
What a miss stores is there for the next call: until it expires, the same query of the same user for
the same contexts is answered from the entry under the same token, whatever else happens.
-/

namespace Agenda

section Lookups

variable {deployment : Deployment} {user : UserId} {options : NeedsOptions} {α : Type}

def afterLookups (deployment : Deployment) (user : UserId) (options : NeedsOptions) :
    List NeedsQuery → Memory → Memory
  | [], memory => memory
  | query :: rest, memory =>
      match (⟨deployment, memory, query, user, options⟩ : Lookup).result with
      | (.ok _, after) => afterLookups deployment user options rest after
      | (.error _, after) => after

def Session.Leaves (deployment : Deployment) (user : UserId) (options : NeedsOptions)
    (queries : List NeedsQuery) (session : Session α) : Prop :=
  ∀ memory : Memory, (session memory).2 = afterLookups deployment user options queries memory

theorem Session.Leaves.bind {query : NeedsQuery} {rest : List NeedsQuery}
    {next : List query.Item → Session α}
    (goes : ∀ items, (next items).Leaves deployment user options rest) :
    (query.runCached deployment user options >>= next).Leaves deployment user options
      (query :: rest) := by
  intro memory
  rcases result : query.runCached deployment user options memory with ⟨outcome, after⟩
  have called : (⟨deployment, memory, query, user, options⟩ : Lookup).result = (outcome, after) :=
    result
  change (Session.bind (query.runCached deployment user options) next memory).2 = _
  cases outcome with
  | error stop => simp only [Session.bind, result, afterLookups, called]
  | ok items =>
      simp only [Session.bind, result, afterLookups, called]
      exact goes items after

namespace TodoList

theorem fetch_leaves :
    (fetch deployment user options).Leaves deployment user options queries := by
  rw [fetch, fetchGrading, Session.bind_assoc]
  refine .bind fun plainGrading => ?_
  rw [Session.bind_assoc]
  refine .bind fun checkpointGrading => ?_
  change (NeedsQuery.moderation.runCached deployment user options >>= _).Leaves _ _ _ _
  refine .bind fun moderation => ?_
  rw [fetchSubmitting, Session.bind_assoc]
  refine .bind fun plainSubmitting => ?_
  rw [Session.bind_assoc]
  refine .bind fun checkpointSubmitting => ?_
  change (NeedsQuery.reviews.runCached deployment user options >>= _).Leaves _ _ _ _
  exact .bind fun reviewing memory => rfl

theorem build_leaves (limits : DashboardLimits) (memory : Memory) :
    (build deployment limits user memory).2.cache =
      (afterLookups deployment user { limit := some limits.fetch } queries memory).cache := by
  rw [build_eq_fetch, ← fetch_leaves]
  rcases called : fetch deployment user { limit := some limits.fetch } memory with ⟨outcome, after⟩
  cases outcome with
  | error stop => simp only [bind, Session.bind, called]
  | ok fetched =>
      simp only [bind, Session.bind, called]
      exact finish_cache after

end TodoList

variable {key : CacheKey} {entry : CacheEntry} {earlier : Lookup} {queries : List NeedsQuery}
  {memory : Memory}

theorem held_through_lookups (stores : earlier.Stores key entry)
    (held : memory.cache.entries key = some entry) (fresh : deployment.now < entry.expiry)
    (free : Sha256.CollisionFree (earlier.hashedTexts ++
      (lookups deployment user options queries memory).flatMap Event.hashedTexts)) :
    (afterLookups deployment user options queries memory).cache.entries key = some entry ∧
      ∀ call : Lookup, .lookup call ∈ lookups deployment user options queries memory →
        call.memory.cache.entries key = some entry := by
  induction queries generalizing memory with
  | nil => exact ⟨held, fun call member => nomatch member⟩
  | cons query rest ih =>
      let first : Lookup := ⟨deployment, memory, query, user, options⟩
      rw [lookups, List.flatMap_cons] at free
      have kept : first.result.2.cache.entries key = some entry :=
        Lookup.keeps_stored stores held fresh free.without_last
      rw [afterLookups, lookups]
      rcases result : (⟨deployment, memory, query, user, options⟩ : Lookup).result with
        ⟨outcome, after⟩
      rw [show first.result = (outcome, after) from result] at kept
      rw [result] at free
      cases outcome with
      | error stop =>
          refine ⟨kept, fun call member => ?_⟩
          obtain rfl := Event.lookup.inj (List.mem_singleton.mp member)
          exact held
      | ok items =>
          obtain ⟨left, met⟩ := ih kept free.without_second
          refine ⟨left, fun call member => ?_⟩
          rcases List.mem_cons.mp member with same | later
          · obtain rfl := Event.lookup.inj same
            exact held
          · exact met call later

theorem stored_through_lookups {call : Lookup} {scope : Scope} {items : List call.query.Item}
    {expiry : Instant} (misses : call.Misses scope items) (answered : call.result.1 = .ok items)
    (representable : call.deployment.now.add? (call.request scope).lifetime = some expiry)
    (fresh : deployment.now < expiry)
    (member : .lookup call ∈ lookups deployment user options queries memory)
    (free : Sha256.CollisionFree
      ((lookups deployment user options queries memory).flatMap Event.hashedTexts)) :
    (afterLookups deployment user options queries memory).cache.entries
      ((call.request scope).key call.token) =
        some ⟨⟨call.token, JsonFormat.encode items⟩, expiry⟩ := by
  induction queries generalizing memory with
  | nil => cases member
  | cons query rest ih =>
      rcases result : (⟨deployment, memory, query, user, options⟩ : Lookup).result with
        ⟨outcome, after⟩
      rw [lookups, result] at member free
      rw [afterLookups, result]
      rw [List.flatMap_cons] at free
      rcases List.mem_cons.mp member with same | later
      · obtain rfl := Event.lookup.inj same
        have stored := Lookup.stored_of_misses misses answered representable
        rw [result] at answered stored
        cases answered
        exact (held_through_lookups ⟨scope, items, expiry, misses, representable, rfl, rfl⟩ stored fresh
          free).1
      · cases outcome with
        | error stop => cases later
        | ok answer => exact ih later (free.subset (List.subset_append_right _ _))

end Lookups

namespace World

variable (world : World)

def NeverBack : World → List Step → Prop
  | _, [] => True
  | world, step :: rest =>
      world.deployment.now ≤ (world.after step).deployment.now ∧ NeverBack (world.after step) rest

instance NeverBack.decidable : (world : World) → (steps : List Step) →
    Decidable (world.NeverBack steps)
  | _, [] => isTrue trivial
  | world, step :: rest => @instDecidableAnd _ _ _ (decidable (world.after step) rest)

variable {world}

theorem NeverBack.le_run {steps : List Step} (forward : world.NeverBack steps) :
    world.deployment.now ≤ (world.run steps).deployment.now := by
  induction steps generalizing world with
  | nil => exact Int.le_refl _
  | cons step rest ih => exact Int.le_trans forward.1 (ih forward.2)

theorem held_after {step : Step} (queried : step.writesByHand = false) {key : CacheKey}
    {entry : CacheEntry} {earlier : Lookup} (stores : earlier.Stores key entry)
    (held : world.memory.cache.entries key = some entry)
    (fresh : world.deployment.now < entry.expiry)
    (free : Sha256.CollisionFree
      (earlier.hashedTexts ++ (step.events world).flatMap Event.hashedTexts)) :
    (world.after step).memory.cache.entries key = some entry := by
  cases step with
  | cached query user options =>
      let own : Lookup := ⟨world.deployment, world.memory, query, user, options⟩
      have texts : ([.lookup own] : List Event).flatMap Event.hashedTexts = own.hashedTexts :=
        List.append_nil _
      have kept : own.result.2.cache.entries key = some entry :=
        Lookup.keeps_stored stores held fresh (texts ▸ free)
      exact kept
  | listed query user options keep limit =>
      rw [world.after_listed.1]
      exact held
  | anyListed query user options keep =>
      rw [world.after_anyListed.1]
      exact held
  | dashboard user limits =>
      change (TodoList.build world.deployment limits user world.memory).2.cache.entries key = _
      rw [TodoList.build_leaves limits world.memory]
      exact (held_through_lookups stores held fresh free).1
  | ignore row =>
      cases works : world.deployment.failure? .saveIgnore with
      | some failure =>
          rw [show world.after (.ignore row) = world from
            congrArg Prod.snd (world.ignore_refused works)]
          exact held
      | none =>
          rw [world.after_ignore works, touchAll_entries]
          exact held
  | clearOnChange asset purpose =>
      cases works : world.deployment.failure? .clearIgnores with
      | some failure =>
          rw [world.after_clearOnChange_refused works]
          exact held
      | none =>
          rw [world.after_clearOnChange works, touchAll_entries]
          exact held
  | touch user =>
      rw [show world.after (.touch user) = _ from (world.touchAll_single user).symm, touchAll_entries]
      exact held
  | token user =>
      change (Session.readToken world.deployment user world.memory).2.cache.entries key = _
      simp only [Session.readToken, Session.useCache]
      cases world.deployment.failure? .readToken <;> exact held
  | readEntry other =>
      change (Session.readEntry world.deployment other world.memory).2.cache.entries key = _
      simp only [Session.readEntry, Session.useCache]
      cases world.deployment.failure? .readEntry with
      | some failure => exact held
      | none => exact Cache.get_keeps held fresh other
  | writeEntry other value lifetime => cases queried
  | fetch request result => cases queried
  | fetchIds request result => cases queried
  | advance span =>
      obtain ⟨now, moved⟩ := world.after_advance span
      rw [moved]
      exact held
  | _ => exact held

theorem held_in_step {step : Step} {call : Lookup} (called : .lookup call ∈ step.events world)
    {key : CacheKey} {entry : CacheEntry} {earlier : Lookup} (stores : earlier.Stores key entry)
    (held : world.memory.cache.entries key = some entry)
    (fresh : world.deployment.now < entry.expiry)
    (free : Sha256.CollisionFree
      (earlier.hashedTexts ++ (step.events world).flatMap Event.hashedTexts)) :
    call.memory.cache.entries key = some entry := by
  rcases world.step_of_mem_events called with ⟨query, user, options, -, rfl⟩ |
    ⟨user, limits, rfl, listed⟩
  · exact held
  · exact (held_through_lookups stores held fresh free).2 call listed

theorem stored_after {step : Step} {call : Lookup} {area : Scope} {items : List call.query.Item}
    {expiry : Instant} (called : .lookup call ∈ step.events world) (misses : call.Misses area items)
    (answered : call.result.1 = .ok items)
    (representable : call.deployment.now.add? (call.request area).lifetime = some expiry)
    (fresh : world.deployment.now < expiry)
    (free : Sha256.CollisionFree ((step.events world).flatMap Event.hashedTexts)) :
    (world.after step).memory.cache.entries ((call.request area).key call.token) =
      some ⟨⟨call.token, JsonFormat.encode items⟩, expiry⟩ := by
  rcases world.step_of_mem_events called with ⟨query, user, options, rfl, rfl⟩ |
    ⟨user, limits, rfl, listed⟩
  · exact Lookup.stored_of_misses misses answered representable
  · change (TodoList.build world.deployment limits user world.memory).2.cache.entries _ = _
    rw [TodoList.build_leaves limits world.memory]
    exact stored_through_lookups misses answered representable fresh listed free

/-- A run leaves an entry where it is as long as the entry is fresh. -/
theorem held_after_run {steps : List Step} (queried : ∀ step ∈ steps, step.writesByHand = false)
    {key : CacheKey} {entry : CacheEntry} {earlier : Lookup} (stores : earlier.Stores key entry)
    (held : world.memory.cache.entries key = some entry) (forward : world.NeverBack steps)
    (fresh : (world.run steps).deployment.now < entry.expiry)
    (free : Sha256.CollisionFree
      (earlier.hashedTexts ++ (world.trace steps).flatMap Event.hashedTexts)) :
    (world.run steps).memory.cache.entries key = some entry := by
  induction steps generalizing world with
  | nil => exact held
  | cons step rest ih =>
      rw [trace, List.flatMap_append] at free
      have now : world.deployment.now < entry.expiry :=
        Int.lt_of_le_of_lt forward.le_run fresh
      have kept := held_after (queried step List.mem_cons_self) stores held now
        free.without_last
      exact ih (fun later member => queried later (List.mem_cons_of_mem _ member)) kept forward.2 fresh
        free.without_second

/-- What a call of a cached query computed and stored answers the same call at any later step before
it expires, if the clock never went back, the user has the same token and the call is about the same
contexts. Nothing is read, written or checked then, whatever happened in between. -/
theorem served_until_expiry {storing asking : Step} {between : List Step} {call : Lookup}
    {area scope : Scope} {items : List call.query.Item} {expiry : Instant} {final : World}
    {deployment : Deployment} {memory : Memory}
    (called : .lookup call ∈ storing.events world) (misses : call.Misses area items)
    (answered : call.result.1 = .ok items)
    (representable :
      call.deployment.now.add? (.ofSeconds call.deployment.config.cacheSeconds) = some expiry)
    (queried : ∀ step ∈ between, step.writesByHand = false)
    (forward : world.NeverBack (storing :: between)) (reached : world.run (storing :: between) = final)
    (fresh : final.deployment.now < expiry)
    (free : Sha256.CollisionFree
      ((world.trace (storing :: between ++ [asking])).flatMap Event.hashedTexts))
    (asked : .lookup (call.elsewhere deployment memory) ∈ asking.events final)
    (readToken : final.deployment.failure? .readToken = none)
    (readEntry : final.deployment.failure? .readEntry = none)
    (tokens : memory.cache.tokens call.user = call.token)
    (resolved : (call.elsewhere deployment memory).scope = .ok scope)
    (contexts : ∀ context, context ∈ scope.contexts ↔ context ∈ area.contexts) :
    let later := (call.elsewhere deployment memory).result
    later.1 = .ok items ∧ later.2.cache = memory.cache ∧
      later.2.effort.reads = memory.effort.reads ∧
      later.2.effort.singleChecks = memory.effort.singleChecks := by
  subst reached
  have start : world.deployment.now < expiry := Int.lt_of_le_of_lt forward.le_run fresh
  rw [List.cons_append, trace, trace_append, trace, trace, List.append_nil, List.flatMap_append,
    List.flatMap_append] at free
  have stores : call.Stores ((call.request area).key call.token)
      ⟨⟨call.token, JsonFormat.encode items⟩, expiry⟩ :=
    ⟨area, items, expiry, misses, representable, rfl, rfl⟩
  have stored := stored_after called misses answered representable start
    (free.subset (List.subset_append_left _ _))
  have own : call.hashedTexts ⊆ (storing.events world).flatMap Event.hashedTexts :=
    fun text hashed => List.mem_flatMap.mpr ⟨.lookup call, called, hashed⟩
  have hashing := free.subset (List.append_subset.mpr
    ⟨fun text hashed => List.mem_append_left _ (own hashed), List.subset_append_right _ _⟩)
  have kept : (world.run (storing :: between)).memory.cache.entries _ = _ :=
    held_after_run queried stores stored forward.2 fresh hashing.without_last
  have held : memory.cache.entries ((call.request area).key call.token) = _ :=
    held_in_step asked stores kept fresh hashing.without_second
  have place : deployment = (world.run (storing :: between)).deployment :=
    deployment_of_mem_events _ asked
  have asks : (call.elsewhere deployment memory).Asks scope := by
    refine ⟨?_, resolved, ?_⟩
    · have before := misses.enabled
      rw [deployment_of_mem_events _ called] at before
      change call.query.isDisabled deployment.config = false
      rw [place, run_config, before]
    · rw [← misses.inside]
      exact call.query.isOutside_congr resolved misses.resolved contexts
  have result := Lookup.result_of_stored held (place ▸ fresh) tokens asks contexts
    (place ▸ readToken) (place ▸ readEntry)
  have cost := Scope.effort_resolve deployment call.user
    (call.options.scopeRequest call.query.permission)
  simp only [result]
  refine ⟨trivial, rfl, ?_, ?_⟩
  · exact congrArg (memory.effort.reads + ·) cost.reads
  · exact congrArg (memory.effort.singleChecks + ·) cost.singleChecks

def afterPractice : List Step :=
  [.takeOffline practiceCall.user.shard, .replace .quizzes [], .advance (.ofSeconds 3600)]

def practiceAsking : Step :=
  .cached (.quizzes {}) practiceCall.user .default

/-- The quiz is still listed. -/
theorem served_until_expiry_practice :
    let final := practice.run (practiceAsking :: afterPractice)
    let later := (practiceCall.elsewhere final.deployment final.memory).result
    later.1 = .ok practiceItems ∧ later.2.cache = final.memory.cache ∧
      later.2.effort.reads = final.memory.effort.reads ∧
      later.2.effort.singleChecks = final.memory.effort.singleChecks := by
  intro final
  have expires : ((practice.deployment.now.add? (practiceCall.request practiceScope).lifetime).any
      fun expiry => decide (practice.deployment.now ≤ final.deployment.now ∧
        final.deployment.now < expiry)) = true := by
    decide +kernel
  obtain ⟨expiry, representable, times⟩ := (Option.any_eq_true _ _).mp expires
  obtain ⟨forward, unexpired⟩ := of_decide_eq_true times
  obtain ⟨now, moved⟩ := World.after_advance
    (practice.run [practiceAsking, .takeOffline practiceCall.user.shard, .replace .quizzes []]) (.ofSeconds 3600)
  have kept : final.memory = practiceCall.result.2 := congrArg World.memory moved
  have edited : final.deployment =
      { practice.deployment with
        offline := [practiceCall.user.shard]
        tables := practice.deployment.tables.replace .quizzes []
        now := now } :=
    congrArg World.deployment moved
  have resolved : (practiceCall.elsewhere final.deployment final.memory).scope =
      .ok practiceScope := by
    change ((NeedsQuery.quizzes {}).scope final.deployment practiceCall.user .default).outcome = _
    rw [edited]
    rfl
  have working (facility : Facility) : final.deployment.failure? facility = none := by
    rw [edited]
    rfl
  have tokens : final.memory.cache.tokens practiceCall.user = practiceCall.token := by
    rw [kept]
    exact congrFun practiceCall.cache_after.1 practiceCall.user
  have answered : practiceCall.result.1 = .ok practiceItems :=
    Lookup.answered_of_misses practice_misses rfl rfl
      (Option.ne_none_iff_exists'.mpr ⟨expiry, representable⟩)
  have texts := practice_texts ⟨rfl, resolved, rfl⟩
    (working .readToken) tokens
  have within : (practice.trace (practiceAsking :: afterPractice ++ [practiceAsking])).flatMap
      Event.hashedTexts ⊆ practiceCall.hashedTexts := by
    have events : practice.trace (practiceAsking :: afterPractice ++ [practiceAsking]) =
        [.lookup practiceCall, .lookup (practiceCall.elsewhere final.deployment final.memory)] := rfl
    rw [events]
    simp [Event.hashedTexts, texts]
  have clock : practice.NeverBack (practiceAsking :: afterPractice) :=
    ⟨Int.le_refl _, Int.le_refl _, Int.le_refl _, forward, trivial⟩
  exact served_until_expiry (List.mem_singleton_self _) practice_misses answered representable
    (by decide) clock rfl unexpired (practice_free.subset within) (List.mem_singleton_self _) (working _)
    (working _) tokens resolved fun context => Iff.rfl

end World

end Agenda
