import Agenda.Proofs.Cache.Stored
import Agenda.Proofs.Tables
import Agenda.Proofs.World.Source

/-!
What is kept as JSON is read back as it was: the tables, the lists that the cache keeps, and
therefore the answers that come from the cache.
-/

namespace Agenda

open JsonFormat

theorem NeedsQuery.ofText_items {query : NeedsQuery} {items : List query.Item}
    (fits : ∀ item ∈ items, query.CountFits item) :
    (JsonFormat.ofText (encode items).text : Except Fault (List query.Item)) = .ok items :=
  JsonFormat.ofText_text (query.legible_items fits) (by decide)

namespace Lookup

variable {call : Lookup}

theorem answered_alike {scope area : Scope} {items : List call.query.Item} {expiry : Instant}
    (misses : call.Misses scope items) (answered : call.result.1 = .ok items)
    (representable : call.deployment.now.add? (call.request scope).lifetime = some expiry)
    {deployment : Deployment} {memory : Memory}
    (kept : memory.cache.entries ((call.request scope).key call.token) =
      call.result.2.cache.entries ((call.request scope).key call.token))
    (fresh : deployment.now < expiry) (tokens : memory.cache.tokens call.user = call.token)
    (asks : (call.elsewhere deployment memory).Asks area)
    (contexts : ∀ context, context ∈ area.contexts ↔ context ∈ scope.contexts)
    (readToken : deployment.failure? .readToken = none)
    (readEntry : deployment.failure? .readEntry = none) :
    (call.elsewhere deployment memory).result.1 = .ok items := by
  have held := kept.trans (stored_of_misses misses answered representable)
  rw [result_of_stored held fresh tokens asks contexts readToken readEntry]

theorem readable_of_stores {earlier : Lookup} {scope : Scope} {entry : CacheEntry}
    (stores : earlier.Stores ((call.request scope).key call.token) entry) (asks : call.Asks scope)
    (reached : call.deployment.failure? .readToken = none)
    (free : Sha256.CollisionFree (earlier.hashedTexts ++ call.hashedTexts)) :
    ∃ deployment memory area items, earlier = call.elsewhere deployment memory ∧
      (call.elsewhere deployment memory).Misses area items ∧
      (∀ context, context ∈ area.contexts ↔ context ∈ scope.contexts) ∧
      (deployment.failure? .readEntry = none → deployment.failure? .writeEntry = none →
        (call.elsewhere deployment memory).result.1 = .ok items) ∧
      entry.value.token = call.token ∧ ofJson entry.value.payload = .ok items := by
  have queries := query_eq_of_stores stores asks reached free
  have readable : ∃ items : List call.query.Item, ofJson entry.value.payload = .ok items := by
    obtain ⟨area, items, expiry, -, -, -, rfl⟩ := stores
    rw [← queries]
    exact ⟨items, ofJson_encode items⟩
  obtain ⟨items, read⟩ := readable
  obtain ⟨deployment, memory, area, rfl, misses, contexts, tokens, representable⟩ :=
    source_of_stored stores asks reached free read
  have works : deployment.now.add? ((call.elsewhere deployment memory).request area).lifetime ≠ none := by
    change deployment.now.add? (.ofSeconds deployment.config.cacheSeconds) ≠ none
    rw [representable]
    exact Option.some_ne_none _
  obtain ⟨_, _, _, _, _, _, rfl⟩ := stores
  exact ⟨deployment, memory, area, items, rfl, misses, contexts,
    fun readEntry writeEntry => answered_of_misses misses readEntry writeEntry works, tokens, read⟩

theorem result_of_fresh {scope : Scope} {items : List call.query.Item} {entry : CacheEntry}
    (asks : call.Asks scope)
    (stored : call.memory.cache.entries ((call.request scope).key call.token) = some entry)
    (fresh : call.deployment.now < entry.expiry) (tokens : entry.value.token = call.token)
    (read : ofJson entry.value.payload = .ok items)
    (readToken : call.deployment.failure? .readToken = none)
    (readEntry : call.deployment.failure? .readEntry = none) : call.result.1 = .ok items := by
  have found : (call.request scope).found? call.deployment
      (call.query.afterScope call.deployment call.user call.options call.memory) = some items :=
    ((call.request scope).found?_eq_some call.deployment call.memory).mpr
      ⟨entry, stored, decide_eq_true fresh, tokens, read⟩
  rw [result_of_asks asks]
  exact CacheRequest.fetch_fst_of_found readToken readEntry found

end Lookup

theorem Event.hashedTexts_subset {events : List Event} {place : Nat} {call : Lookup}
    (called : events[place]? = some (.lookup call)) :
    call.hashedTexts ⊆ events.flatMap hashedTexts := fun _ hashed =>
  List.mem_flatMap.mpr ⟨.lookup call, List.mem_of_getElem? called, hashed⟩

namespace World

theorem stored_before {tables : Tables} {grants : List PermissionGrant} {now : Instant}
    {config : Config} {steps : List Step} (queried : ∀ step ∈ steps, step.writesByHand = false)
    {events : List Event} (ran : (start tables grants now config).trace steps = events) {last : Nat}
    {later : Lookup} (called : events[last]? = some (.lookup later)) {key : CacheKey}
    {entry : CacheEntry} (held : later.memory.cache.entries key = some entry) :
    ∃ first < last, ∃ earlier : Lookup, events[first]? = some (.lookup earlier) ∧
      earlier.Stores key entry := by
  have explained := (start_explained tables grants now config queried).2
  rw [ran] at explained
  obtain ⟨first, earlier, taken, stores⟩ := (explained last later called).entries _ _ held
  have before : first < last := by
    by_contra notBefore
    rw [List.getElem?_take, if_neg notBefore] at taken
    cases taken
  rw [List.getElem?_take_of_lt before] at taken
  exact ⟨first, before, earlier, taken, stores⟩

/-- Tables, and lists of items of every query, are read back as they were written. A call that finds
the entry of a miss answers what the miss answered, and in a run of queries every entry that matches
a call is one that it can read. -/
theorem stored_reads_back :
    (∀ tables : Tables, ofJson (encode tables) = .ok tables ∧
      ofText (encode tables).text = .ok tables) ∧
    (∀ (query : NeedsQuery) (items : List query.Item), ofJson (encode items) = .ok items ∧
      ((∀ item ∈ items, query.CountFits item) → ofText (encode items).text = .ok items)) ∧
    (∀ (call : Lookup) (scope : Scope) (items : List call.query.Item) (expiry : Instant),
      call.Misses scope items → call.result.1 = .ok items →
      call.deployment.now.add? (call.request scope).lifetime = some expiry →
      ∀ (deployment : Deployment) (memory : Memory) (area : Scope),
        memory.cache.entries ((call.request scope).key call.token) =
          call.result.2.cache.entries ((call.request scope).key call.token) →
        deployment.now < expiry → memory.cache.tokens call.user = call.token →
        (call.elsewhere deployment memory).Asks area →
        (∀ context, context ∈ area.contexts ↔ context ∈ scope.contexts) →
        deployment.failure? .readToken = none → deployment.failure? .readEntry = none →
        (call.elsewhere deployment memory).result.1 = .ok items) ∧
    ∀ (tables : Tables) (grants : List PermissionGrant) (now : Instant) (config : Config)
      (steps : List Step), (∀ step ∈ steps, step.writesByHand = false) →
      ∀ events, (start tables grants now config).trace steps = events →
      Sha256.CollisionFree (events.flatMap Event.hashedTexts) →
      ∀ (last : Nat) (later : Lookup) (scope : Scope) (entry : CacheEntry),
        events[last]? = some (.lookup later) → later.Asks scope →
        later.deployment.failure? .readToken = none →
        later.memory.cache.entries ((later.request scope).key later.token) = some entry →
        ∃ first < last, ∃ deployment memory area items,
          events[first]? = some (.lookup (later.elsewhere deployment memory)) ∧
          (later.elsewhere deployment memory).Misses area items ∧
          (∀ context, context ∈ area.contexts ↔ context ∈ scope.contexts) ∧
          (deployment.failure? .readEntry = none → deployment.failure? .writeEntry = none →
            (later.elsewhere deployment memory).result.1 = .ok items) ∧
          entry.value.token = later.token ∧ ofJson entry.value.payload = .ok items ∧
          (later.deployment.now < entry.expiry → later.deployment.failure? .readEntry = none →
            later.result.1 = .ok items) := by
  refine ⟨fun tables => ⟨tables.ofJson_encode, tables.ofText_text⟩,
    fun query items => ⟨ofJson_encode items, NeedsQuery.ofText_items⟩, ?_, ?_⟩
  · intro call scope items expiry misses answered representable deployment memory area kept fresh
      tokens asks contexts readToken readEntry
    exact Lookup.answered_alike misses answered representable kept fresh tokens asks contexts
      readToken readEntry
  · intro tables grants now config steps queried events ran free last later scope entry called asks
      readToken stored
    obtain ⟨first, before, earlier, place, stores⟩ := stored_before queried ran called stored
    have hashed : earlier.hashedTexts ++ later.hashedTexts ⊆ events.flatMap Event.hashedTexts :=
      List.append_subset.mpr ⟨Event.hashedTexts_subset place, Event.hashedTexts_subset called⟩
    obtain ⟨deployment, memory, area, items, rfl, misses, contexts, returned, tokens, read⟩ :=
      Lookup.readable_of_stores stores asks readToken (free.subset hashed)
    exact ⟨first, before, deployment, memory, area, items, place, misses, contexts, returned, tokens,
      read, fun fresh readEntry =>
        Lookup.result_of_fresh asks stored fresh tokens read readToken readEntry⟩

theorem stored_reads_back_practice :
    let again := practiceCall.elsewhere practice.deployment practiceCall.result.2
    ofText (encode practice.deployment.tables).text = .ok practice.deployment.tables ∧
    ofText (encode practiceItems).text = .ok practiceItems ∧
    again.result.1 = .ok practiceItems ∧
    ∃ deployment memory area items, (practiceCall.elsewhere deployment memory).Misses area items ∧
      again.result.1 = .ok items := by
  intro again
  obtain ⟨tables, lists, calls, runs⟩ := stored_reads_back
  have expires : (practice.deployment.now.add? (practiceCall.request practiceScope).lifetime).any
      (fun expiry => decide (practice.deployment.now < expiry)) = true := by
    decide +kernel
  obtain ⟨expiry, representable, later⟩ := (Option.any_eq_true _ _).mp expires
  have fresh : practice.deployment.now < expiry := of_decide_eq_true later
  have answered : practiceCall.result.1 = .ok practiceItems :=
    Lookup.answered_of_misses practice_misses rfl rfl
      (Option.ne_none_iff_exists'.mpr ⟨expiry, representable⟩)
  have asks : again.Asks practiceScope := ⟨rfl, rfl, rfl⟩
  have tokens : practiceCall.result.2.cache.tokens practiceCall.user = practiceCall.token :=
    congrFun practiceCall.cache_after.1 practiceCall.user
  have texts := practice_texts asks rfl tokens
  have within : [Event.lookup practiceCall, .lookup again].flatMap Event.hashedTexts ⊆
      practiceCall.hashedTexts := by
    simp [Event.hashedTexts, again, texts]
  have held : again.memory.cache.entries ((again.request practiceScope).key again.token) =
      some ⟨⟨practiceCall.token, encode practiceItems⟩, expiry⟩ := by
    rw [show again.token = practiceCall.token from tokens]
    exact Lookup.stored_of_misses practice_misses answered representable
  obtain ⟨first, -, deployment, memory, area, items, -, misses, -, -, -, -, served⟩ :=
    runs _ _ _ _ [.cached (.quizzes {}) practiceCall.user .default,
      .cached (.quizzes {}) practiceCall.user .default] (by simp [Step.writesByHand])
      [.lookup practiceCall, .lookup again] rfl (practice_free.subset within) 1 again practiceScope _
      rfl asks rfl held
  exact ⟨(tables _).2, (lists (.quizzes {}) practiceItems).2 fun _ _ => trivial,
    calls practiceCall practiceScope practiceItems expiry practice_misses answered representable
      practice.deployment practiceCall.result.2 practiceScope rfl fresh tokens asks
      (fun context => Iff.rfl) rfl rfl,
    deployment, memory, area, items, misses, served fresh rfl⟩

end World

end Agenda
