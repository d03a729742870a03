import Agenda.Proofs.Cache.Key
import Agenda.Proofs.Needs.Payload
import Agenda.Proofs.Needs.Query

/-!
Calls of cached queries, each with the deployment and memory it is made in: what it looks up, what
it stores, and where an answer comes from.
-/

namespace Agenda

/-- A call of a cached query. -/
structure Lookup where
  deployment : Deployment
  memory : Memory
  query : NeedsQuery
  user : UserId
  options : NeedsOptions

namespace Lookup

variable (lookup : Lookup)

def result : Except Stop (List lookup.query.Item) × Memory :=
  lookup.query.runCached lookup.deployment lookup.user lookup.options lookup.memory

def token : BatchToken :=
  lookup.memory.cache.tokens lookup.user

def scope : Except Error Scope :=
  (lookup.query.scope lookup.deployment lookup.user lookup.options).outcome

def request (scope : Scope) : CacheRequest :=
  lookup.query.cacheRequest lookup.deployment.config lookup.user lookup.options scope

def compute (scope : Scope) : Except Error (List lookup.query.Item) :=
  (lookup.query.firstItems lookup.deployment lookup.user lookup.options scope).outcome

def found? (scope : Scope) : Option (List lookup.query.Item) :=
  (lookup.request scope).found? lookup.deployment lookup.memory

structure Asks (scope : Scope) : Prop where
  enabled : lookup.query.isDisabled lookup.deployment.config = false
  resolved : lookup.scope = .ok scope
  inside : lookup.query.isOutside scope = false

structure Misses (scope : Scope) (items : List lookup.query.Item) : Prop
    extends lookup.Asks scope where
  reached : lookup.deployment.failure? .readToken = none
  missing : lookup.found? scope = none
  computed : lookup.compute scope = .ok items

def Stores (key : CacheKey) (entry : CacheEntry) : Prop :=
  ∃ scope items expiry, lookup.Misses scope items ∧
    lookup.deployment.now.add? (lookup.request scope).lifetime = some expiry ∧
    key = (lookup.request scope).key lookup.token ∧
    entry = ⟨⟨lookup.token, JsonFormat.encode items⟩, expiry⟩

/-- The texts that the call hashes: those of a key, if it gets as far as deriving one. -/
def hashedTexts : List String :=
  match lookup.scope with
  | .error _ => []
  | .ok scope =>
      if lookup.query.isDisabled lookup.deployment.config || lookup.query.isOutside scope ||
          (lookup.deployment.failure? .readToken).isSome then []
      else (lookup.request scope).hashedTexts lookup.token

variable {lookup}

theorem hashedTexts_of_asks {scope : Scope} (asks : lookup.Asks scope)
    (reached : lookup.deployment.failure? .readToken = none) :
    lookup.hashedTexts = (lookup.request scope).hashedTexts lookup.token := by
  simp [hashedTexts, asks.resolved, asks.enabled, asks.inside, reached]

theorem result_of_asks {scope : Scope} (asks : lookup.Asks scope) :
    lookup.result = (lookup.request scope).fetch lookup.deployment
      (lookup.query.firstItems lookup.deployment lookup.user lookup.options scope)
      (lookup.query.afterScope lookup.deployment lookup.user lookup.options lookup.memory) :=
  NeedsQuery.runCached_inside asks.enabled asks.resolved asks.inside

theorem fetched_of_asks {scope : Scope} (asks : lookup.Asks scope) :
    CacheRequest.Fetched (lookup.request scope) lookup.deployment
      (lookup.query.firstItems lookup.deployment lookup.user lookup.options scope)
      (lookup.query.afterScope lookup.deployment lookup.user lookup.options lookup.memory)
      lookup.result := by
  rw [result_of_asks asks]
  exact CacheRequest.fetch_cases ..

theorem Misses.not_found {scope : Scope} {items : List lookup.query.Item}
    (misses : lookup.Misses scope items) :
    (lookup.request scope).found? (α := List lookup.query.Item) lookup.deployment
      (lookup.query.afterScope lookup.deployment lookup.user lookup.options lookup.memory) = none :=
  misses.missing

theorem answer_cases {scope : Scope} {items : List lookup.query.Item} (asks : lookup.Asks scope)
    (answered : lookup.result.1 = .ok items) :
    lookup.deployment.failure? .readToken = none ∧
      (lookup.Misses scope items ∨ lookup.found? scope = some items) := by
  have call := fetched_of_asks asks
  generalize lookup.result = reached at answered call
  cases call with
  | refused failure broken => cases answered
  | hit result reached found =>
      cases answered
      exact ⟨reached, .inr found⟩
  | failed error reached missing outcome => cases answered
  | unwritten result stop reached missing outcome unwritten => cases answered
  | missed result expiry reached missing outcome representable =>
      cases answered
      exact ⟨reached, .inl ⟨asks, reached, missing, outcome⟩⟩

theorem asks_or_idle (lookup : Lookup) :
    (∃ scope, lookup.Asks scope) ∨ (lookup.result.2.cache = lookup.memory.cache ∧
      ∀ items, lookup.result.1 = .ok items → items = []) := by
  cases enabled : lookup.query.isDisabled lookup.deployment.config with
  | true =>
      right
      rw [result, NeedsQuery.runCached_disabled enabled]
      exact ⟨rfl, fun items answered => (Except.ok.inj answered).symm⟩
  | false =>
      cases resolved : lookup.scope with
      | error error =>
          right
          rw [result, NeedsQuery.runCached_unresolved enabled resolved]
          exact ⟨rfl, fun items answered => by cases answered⟩
      | ok scope =>
          cases outside : lookup.query.isOutside scope with
          | true =>
              right
              rw [result, NeedsQuery.runCached_outside enabled resolved outside]
              exact ⟨rfl, fun items answered => (Except.ok.inj answered).symm⟩
          | false => exact .inl ⟨scope, enabled, resolved, outside⟩

theorem cache_after (lookup : Lookup) :
    lookup.result.2.cache.tokens = lookup.memory.cache.tokens ∧
      ∀ key entry, lookup.result.2.cache.entries key = some entry →
        lookup.memory.cache.entries key = some entry ∨ lookup.Stores key entry := by
  rcases asks_or_idle lookup with ⟨scope, asks⟩ | ⟨unchanged, -⟩
  · have call := fetched_of_asks asks
    generalize lookup.result = reached at call ⊢
    cases call with
    | refused failure broken => exact ⟨rfl, fun key entry stored => .inl stored⟩
    | hit result reached found => exact ⟨rfl, fun key entry stored => .inl stored⟩
    | failed error reached missing outcome =>
        exact ⟨Cache.get_snd_tokens, fun key entry stored => .inl (Cache.entries_of_get_snd stored)⟩
    | unwritten result stop reached missing outcome unwritten =>
        exact ⟨Cache.get_snd_tokens, fun key entry stored => .inl (Cache.entries_of_get_snd stored)⟩
    | missed result expiry reached missing outcome representable =>
        refine ⟨Cache.get_snd_tokens, fun key entry stored => ?_⟩
        rcases CacheRequest.entries_afterStore _ _ _ _ stored with ⟨same, own⟩ | before
        · exact .inr ⟨scope, result, expiry, ⟨asks, reached, missing, outcome⟩, representable,
            same, own⟩
        · exact .inl before
  · rw [unchanged]
    exact ⟨rfl, fun key entry stored => .inl stored⟩

def elsewhere (lookup : Lookup) (deployment : Deployment) (memory : Memory) : Lookup :=
  { lookup with deployment := deployment, memory := memory }

/-- An entry under the key of a call was stored by the same query, called under the same token for
the same contexts, and what is read from it was computed then. -/
theorem source_of_stored {earlier later : Lookup} {scope : Scope} {entry : CacheEntry}
    {items : List later.query.Item}
    (stored : earlier.Stores ((later.request scope).key later.token) entry)
    (asks : later.Asks scope) (reached : later.deployment.failure? .readToken = none)
    (free : Sha256.CollisionFree (earlier.hashedTexts ++ later.hashedTexts))
    (read : JsonFormat.ofJson entry.value.payload = .ok items) :
    ∃ deployment memory area, earlier = later.elsewhere deployment memory ∧
      (later.elsewhere deployment memory).Misses area items ∧
      (∀ context, context ∈ area.contexts ↔ context ∈ scope.contexts) ∧
      memory.cache.tokens later.user = later.token ∧
      deployment.now.add? (.ofSeconds deployment.config.cacheSeconds) = some entry.expiry := by
  obtain ⟨deployment, memory, query, user, options⟩ := earlier
  obtain ⟨area, computed, expiry, misses, representable, keys, rfl⟩ := stored
  rw [hashedTexts_of_asks misses.toAsks misses.reached, hashedTexts_of_asks asks reached] at free
  obtain ⟨queries, users, choices, contexts, tokens⟩ := NeedsQuery.eq_of_key_eq free keys.symm
  change query = later.query at queries
  change user = later.user at users
  change options = later.options at choices
  subst queries users choices
  have same : computed = items := by
    rw [JsonFormat.ofJson_encode] at read
    exact Except.ok.inj read
  subst same
  exact ⟨deployment, memory, area, rfl, misses, contexts, tokens, representable⟩

theorem query_eq_of_stores {earlier later : Lookup} {scope : Scope} {entry : CacheEntry}
    (stored : earlier.Stores ((later.request scope).key later.token) entry)
    (asks : later.Asks scope) (reached : later.deployment.failure? .readToken = none)
    (free : Sha256.CollisionFree (earlier.hashedTexts ++ later.hashedTexts)) :
    earlier.query = later.query := by
  obtain ⟨area, items, expiry, misses, -, keys, -⟩ := stored
  rw [hashedTexts_of_asks misses.toAsks misses.reached, hashedTexts_of_asks asks reached] at free
  exact (NeedsQuery.eq_of_key_eq free keys.symm).1

theorem served_again {lookup : Lookup} {scope : Scope} {items : List lookup.query.Item}
    {expiry : Instant} (misses : lookup.Misses scope items)
    (readEntry : lookup.deployment.failure? .readEntry = none)
    (writeEntry : lookup.deployment.failure? .writeEntry = none)
    (representable : lookup.deployment.now.add? (lookup.request scope).lifetime = some expiry)
    (fresh : lookup.deployment.now < expiry) :
    (lookup.elsewhere lookup.deployment lookup.result.2).result.1 = .ok items := by
  have asks : (lookup.elsewhere lookup.deployment lookup.result.2).Asks scope :=
    ⟨misses.enabled, misses.resolved, misses.inside⟩
  have found := CacheRequest.found?_after_fetch misses.reached readEntry writeEntry
    misses.not_found misses.computed representable fresh
  rw [result_of_asks asks]
  refine CacheRequest.fetch_fst_of_found misses.reached readEntry ?_
  rw [result_of_asks misses.toAsks]
  exact found

end Lookup

end Agenda
