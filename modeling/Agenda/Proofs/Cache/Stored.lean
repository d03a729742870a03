import Agenda.Proofs.Cache.Alike
import Agenda.Proofs.Cache.Lookup

/-!
What a call stores: it is under the key of the call, every later call leaves it there until it
expires, and the same call is answered from it.
-/

namespace Agenda

theorem Cache.get_keeps {cache : Cache} {now : Instant} {key : CacheKey} {entry : CacheEntry}
    (held : cache.entries key = some entry) (fresh : now < entry.expiry) (other : CacheKey) :
    (cache.get now other).2.entries key = some entry := by
  have isFresh : entry.isFresh now = true := decide_eq_true fresh
  rw [get_snd_entries]
  split
  · rename_i same
    rw [← same, held]
    simp [Option.filter, isFresh]
  · exact held

theorem CacheRequest.key_congr {request other : CacheRequest} (users : request.user = other.user)
    (kinds : request.kind = other.kind) (purposes : request.purpose = other.purpose)
    (contexts : ∀ context, context ∈ request.contexts ↔ context ∈ other.contexts)
    (params : request.params = other.params) (token : BatchToken) :
    request.key token = other.key token := by
  have digests : contextDigest request.contexts = contextDigest other.contexts :=
    congrArg Sha256.ofText (contextText_eq_iff.mpr contexts)
  simp only [key, CacheKey.ofParts, CacheKeyParts.material, users, kinds, purposes, params, digests]

namespace Lookup

variable {lookup : Lookup}

theorem stored_of_misses {scope : Scope} {items : List lookup.query.Item} {expiry : Instant}
    (misses : lookup.Misses scope items) (answered : lookup.result.1 = .ok items)
    (representable : lookup.deployment.now.add? (lookup.request scope).lifetime = some expiry) :
    lookup.result.2.cache.entries ((lookup.request scope).key lookup.token) =
      some ⟨⟨lookup.token, JsonFormat.encode items⟩, expiry⟩ := by
  have computed : (lookup.query.firstItems lookup.deployment lookup.user lookup.options scope).outcome =
      .ok items := misses.computed
  have call := fetched_of_asks misses.toAsks
  generalize lookup.result = reached at answered call ⊢
  cases call with
  | refused failure broken => cases answered
  | hit result works found =>
      rw [misses.not_found] at found
      cases found
  | failed error works missing outcome => cases answered
  | unwritten result stop works missing outcome unwritten => cases answered
  | missed result instant works missing outcome also =>
      rw [representable] at also
      cases also
      cases answered
      exact if_pos rfl

/-- A call leaves a fresh entry where it is, also if it looks the entry up. -/
theorem keeps_stored {earlier : Lookup} {key : CacheKey} {entry : CacheEntry}
    (stores : earlier.Stores key entry) (held : lookup.memory.cache.entries key = some entry)
    (fresh : lookup.deployment.now < entry.expiry)
    (free : Sha256.CollisionFree (earlier.hashedTexts ++ lookup.hashedTexts)) :
    lookup.result.2.cache.entries key = some entry := by
  rcases lookup.asks_or_idle with ⟨scope, asks⟩ | ⟨unchanged, -⟩
  swap
  · rw [unchanged]
    exact held
  have call := fetched_of_asks asks
  generalize lookup.result = reached at call ⊢
  cases call with
  | refused failure broken => exact held
  | hit result works found => exact held
  | failed error works missing outcome => exact Cache.get_keeps held fresh _
  | unwritten result stop works missing outcome unwritten => exact Cache.get_keeps held fresh _
  | missed result expiry works missing outcome representable =>
      have elsewhere : key ≠ (lookup.request scope).key lookup.token := by
        rintro rfl
        obtain ⟨deployment, memory, query, user, options⟩ := earlier
        obtain ⟨area, items, instant, misses, -, keys, rfl⟩ := stores
        rw [hashedTexts_of_asks misses.toAsks misses.reached, hashedTexts_of_asks asks works] at free
        obtain ⟨queries, -, -, -, tokens⟩ := NeedsQuery.eq_of_key_eq free keys.symm
        change query = lookup.query at queries
        subst queries
        have found : lookup.found? scope = some items :=
          ((lookup.request scope).found?_eq_some lookup.deployment lookup.memory).mpr
            ⟨_, held, decide_eq_true fresh, tokens, JsonFormat.ofJson_encode items⟩
        have nothing : lookup.found? scope = none := missing
        rw [found] at nothing
        cases nothing
      exact (if_neg elsewhere).trans (Cache.get_keeps held fresh _)

theorem result_of_stored {deployment : Deployment} {memory : Memory} {area scope : Scope}
    {items : List lookup.query.Item} {expiry : Instant}
    (held : memory.cache.entries ((lookup.request area).key lookup.token) =
      some ⟨⟨lookup.token, JsonFormat.encode items⟩, expiry⟩)
    (fresh : deployment.now < expiry) (tokens : memory.cache.tokens lookup.user = lookup.token)
    (asks : (lookup.elsewhere deployment memory).Asks scope)
    (contexts : ∀ context, context ∈ scope.contexts ↔ context ∈ area.contexts)
    (readToken : deployment.failure? .readToken = none)
    (readEntry : deployment.failure? .readEntry = none) :
    (lookup.elsewhere deployment memory).result =
      (.ok items, lookup.query.afterScope deployment lookup.user lookup.options memory) := by
  let later := lookup.elsewhere deployment memory
  have same : (later.request scope).key lookup.token = (lookup.request area).key lookup.token :=
    @CacheRequest.key_congr (later.request scope) (lookup.request area) rfl rfl rfl contexts rfl _
  have keys : (later.request scope).currentKey memory = (lookup.request area).key lookup.token := by
    rw [CacheRequest.currentKey, show (later.request scope).user = lookup.user from rfl, tokens, same]
  have found : (later.request scope).found? deployment
      (lookup.query.afterScope deployment lookup.user lookup.options memory) = some items :=
    ((later.request scope).found?_eq_some deployment memory).mpr
      ⟨⟨⟨lookup.token, JsonFormat.encode items⟩, expiry⟩, keys ▸ held, decide_eq_true fresh,
        tokens.symm, JsonFormat.ofJson_encode items⟩
  rw [result_of_asks asks]
  exact CacheRequest.fetch_of_found readToken readEntry found

end Lookup

end Agenda
