import Agenda.Proofs.World.Source
import Agenda.Settings

/-!
When a computed result gets an expiry. A lifetime that is no span of time is refused with an error; one
that leads past the last instant stops the call instead.
-/

namespace Agenda

def Error.lifetimeOutOfRange : Error where
  code := .internalError
  message := "todo cache serialisation failed: " ++
    "ttl out of range: Source duration value is out of range for the target type"
  details := none

namespace Cache

variable {cache : Cache} {now : Instant} {key : CacheKey} {value : CachedValue} {lifetime : Duration}

theorem put_of_long (long : longestLifetime < lifetime) :
    cache.put now key value lifetime = .error .lifetimeOutOfRange := by
  rw [put, if_pos long]

theorem put_of_late (inRange : lifetime ≤ longestLifetime) (late : now.add? lifetime = none) :
    cache.put now key value lifetime = .error .beyondLastInstant := by
  rw [put, if_neg (Duration.not_lt.mpr inRange), late]

theorem put_of_expiry {expiry : Instant} (representable : now.add? lifetime = some expiry) :
    cache.put now key value lifetime = .ok { cache.setEntry key (some ⟨value, expiry⟩) with
      writes := cache.writes + 1 } := by
  by_cases long : longestLifetime < lifetime
  · rw [Instant.add?_eq_none long] at representable
    cases representable
  · rw [put, if_neg long, representable]

end Cache

namespace Session

variable {deployment : Deployment} {memory : Memory} {key : CacheKey} {value : CachedValue}
  {lifetime : Duration}

theorem readToken_served (works : deployment.failure? .readToken = none) (user : UserId) :
    readToken deployment user memory = (.ok (memory.cache.tokens user), memory) := by
  simp only [readToken, useCache, works]

theorem readEntry_served (works : deployment.failure? .readEntry = none) :
    readEntry deployment key memory = (.ok (memory.cache.get deployment.now key).1,
      { memory with cache := (memory.cache.get deployment.now key).2 }) := by
  simp only [readEntry, useCache, works]

section Write

variable (works : deployment.failure? .writeEntry = none)
include works

theorem writeEntry_of_expiry {expiry : Instant}
    (representable : deployment.now.add? lifetime = some expiry) :
    writeEntry deployment key value lifetime memory = (.ok (), { memory with
      cache := { memory.cache.setEntry key (some ⟨value, expiry⟩) with
        writes := memory.cache.writes + 1 } }) := by
  simp only [writeEntry, useCache, works, Cache.put_of_expiry representable]

theorem writeEntry_of_long (long : Cache.longestLifetime < lifetime) :
    writeEntry deployment key value lifetime memory =
      (.error (.failed .lifetimeOutOfRange), memory) := by
  simp only [writeEntry, useCache, works, Cache.put_of_long long]
  rfl

theorem writeEntry_of_late (inRange : lifetime ≤ Cache.longestLifetime)
    (late : deployment.now.add? lifetime = none) :
    writeEntry deployment key value lifetime memory = (.error .timeOverflow, memory) := by
  simp only [writeEntry, useCache, works, Cache.put_of_late inRange late]

theorem writeEntry_refused (late : deployment.now.add? lifetime = none) :
    (writeEntry deployment key value lifetime memory).2 = memory := by
  by_cases long : Cache.longestLifetime < lifetime
  · rw [writeEntry_of_long works long]
  · rw [writeEntry_of_late works (Duration.not_lt.mp long) late]

end Write

end Session

namespace CacheRequest

variable {α : Type} [JsonFormat α] {request : CacheRequest} {deployment : Deployment}
  {compute : Metered α} {memory : Memory}

theorem fetch_of_unread {failure : ServiceFailure}
    (broken : deployment.failure? .readEntry = some failure) :
    ∃ error, (request.fetch deployment compute memory).1 = .error (.failed error) := by
  cases readToken : deployment.failure? .readToken with
  | some failure =>
      refine ⟨failure.toError, ?_⟩
      simp only [fetch_eq, bind, Session.bind, Session.readToken, Session.useCache, readToken]
  | none =>
      refine ⟨failure.toError, ?_⟩
      simp only [fetch_eq, bind, Session.bind, Session.readToken, Session.useCache, readToken,
        Session.readEntry, broken]

theorem fetch_of_computed (readToken : deployment.failure? .readToken = none)
    (readEntry : deployment.failure? .readEntry = none)
    (missing : request.found? (α := α) deployment memory = none) {result : α}
    (computed : compute.outcome = .ok result) :
    request.fetch deployment compute memory =
      (Session.writeEntry deployment (request.currentKey memory)
        ⟨memory.cache.tokens request.user, JsonFormat.encode result⟩ request.lifetime >>= fun _ =>
          Session.pure result) (request.afterCompute deployment compute memory) := by
  simp only [fetch_eq, bind, Session.bind, Session.readToken_served readToken,
    Session.readEntry_served readEntry]
  change request.resume deployment compute (memory.cache.tokens request.user)
    (request.found? deployment memory)
    ⟨(memory.cache.get deployment.now (request.currentKey memory)).2, memory.effort⟩ = _
  rw [missing]
  simp only [resume, Option.elim_none, bind, Session.bind, Session.ofMetered, computed]
  rfl

theorem fetch_of_unwritten (readToken : deployment.failure? .readToken = none)
    (readEntry : deployment.failure? .readEntry = none)
    (missing : request.found? (α := α) deployment memory = none) {result : α}
    (computed : compute.outcome = .ok result) {failure : ServiceFailure}
    (broken : deployment.failure? .writeEntry = some failure) :
    (request.fetch deployment compute memory).1 = .error (.failed failure.toError) := by
  rw [fetch_of_computed readToken readEntry missing computed]
  simp only [bind, Session.bind, Session.writeEntry, Session.useCache, broken]

section Computed

variable (readToken : deployment.failure? .readToken = none)
  (readEntry : deployment.failure? .readEntry = none)
  (writeEntry : deployment.failure? .writeEntry = none)
  (missing : request.found? (α := α) deployment memory = none) {result : α}
  (computed : compute.outcome = .ok result)
include readToken readEntry writeEntry missing computed

theorem fetch_of_long (long : Cache.longestLifetime < request.lifetime) :
    request.fetch deployment compute memory =
      (.error (.failed .lifetimeOutOfRange), request.afterCompute deployment compute memory) := by
  rw [fetch_of_computed readToken readEntry missing computed]
  simp only [bind, Session.bind, Session.writeEntry_of_long writeEntry long]

theorem fetch_of_late (inRange : request.lifetime ≤ Cache.longestLifetime)
    (late : deployment.now.add? request.lifetime = none) :
    request.fetch deployment compute memory =
      (.error .timeOverflow, request.afterCompute deployment compute memory) := by
  rw [fetch_of_computed readToken readEntry missing computed]
  simp only [bind, Session.bind, Session.writeEntry_of_late writeEntry inRange late]

theorem fetch_of_expiry {expiry : Instant}
    (representable : deployment.now.add? request.lifetime = some expiry) :
    request.fetch deployment compute memory =
      (.ok result, request.afterStore deployment compute memory result expiry) := by
  rw [fetch_of_computed readToken readEntry missing computed]
  simp only [bind, Session.bind, Session.writeEntry_of_expiry writeEntry representable]
  rfl

end Computed

theorem fetch_overflows (stopped : (request.fetch deployment compute memory).1 = .error .timeOverflow) :
    deployment.failure? .readToken = none ∧ deployment.failure? .readEntry = none ∧
      deployment.failure? .writeEntry = none ∧ request.found? (α := α) deployment memory = none ∧
      (∃ result, compute.outcome = .ok result) ∧ request.lifetime ≤ Cache.longestLifetime ∧
      deployment.now.add? request.lifetime = none := by
  have computing : deployment.failure? .readToken = none ∧
      request.found? (α := α) deployment memory = none ∧ ∃ result, compute.outcome = .ok result := by
    have call := fetch_cases request deployment compute memory
    generalize request.fetch deployment compute memory = reached at call stopped
    cases call with
    | refused failure broken => cases stopped
    | hit result readToken found => cases stopped
    | failed error readToken missing outcome => cases stopped
    | unwritten result stop readToken missing outcome unwritten =>
        exact ⟨readToken, missing, result, outcome⟩
    | missed result expiry readToken missing outcome representable => cases stopped
  obtain ⟨readToken, missing, result, computed⟩ := computing
  cases readEntry : deployment.failure? .readEntry with
  | some failure =>
      have unread : ∃ error, (request.fetch deployment compute memory).1 = .error (.failed error) :=
        fetch_of_unread readEntry
      obtain ⟨error, refused⟩ := unread
      rw [refused] at stopped
      cases stopped
  | none =>
      cases writeEntry : deployment.failure? .writeEntry with
      | some failure =>
          rw [fetch_of_unwritten readToken readEntry missing computed writeEntry] at stopped
          cases stopped
      | none =>
          by_cases long : Cache.longestLifetime < request.lifetime
          · rw [fetch_of_long readToken readEntry writeEntry missing computed long] at stopped
            cases stopped
          · cases expiry : deployment.now.add? request.lifetime with
            | some instant =>
                rw [fetch_of_expiry readToken readEntry writeEntry missing computed expiry] at stopped
                cases stopped
            | none =>
                exact ⟨readToken, rfl, rfl, missing, ⟨result, computed⟩, Duration.not_lt.mp long, rfl⟩

end CacheRequest

namespace Lookup

variable {call : Lookup}

theorem asks_of_overflow (stopped : call.result.1 = .error .timeOverflow) :
    ∃ scope, call.Asks scope := by
  cases enabled : call.query.isDisabled call.deployment.config with
  | true =>
      rw [result, NeedsQuery.runCached_disabled enabled] at stopped
      cases stopped
  | false =>
      cases resolved : call.scope with
      | error error =>
          rw [result, NeedsQuery.runCached_unresolved enabled resolved] at stopped
          cases stopped
      | ok scope =>
          cases outside : call.query.isOutside scope with
          | true =>
              rw [result, NeedsQuery.runCached_outside enabled resolved outside] at stopped
              cases stopped
          | false => exact ⟨scope, enabled, resolved, outside⟩

def lifetime (call : Lookup) : Duration :=
  .ofSeconds call.deployment.config.cacheSeconds

def looked (call : Lookup) (scope : Scope) : Cache :=
  (call.memory.cache.get call.deployment.now ((call.request scope).key call.token)).2

theorem effort_of_missing {scope : Scope} (asks : call.Asks scope)
    (readToken : call.deployment.failure? .readToken = none)
    (readEntry : call.deployment.failure? .readEntry = none) (missing : call.found? scope = none) :
    call.result.2.effort =
      call.memory.effort + (call.query.scope call.deployment call.user call.options).effort +
        (call.query.firstItems call.deployment call.user call.options scope).effort := by
  have unseen : (call.request scope).found? (α := List call.query.Item) call.deployment
      (call.query.afterScope call.deployment call.user call.options call.memory) = none := missing
  rw [result_of_asks asks, CacheRequest.effort_of_missing readToken readEntry unseen]
  rfl

section Computed

variable {scope : Scope} {items : List call.query.Item} (misses : call.Misses scope items)
  (readEntry : call.deployment.failure? .readEntry = none)
  (writeEntry : call.deployment.failure? .writeEntry = none)
include misses readEntry writeEntry

theorem result_of_long (long : Cache.longestLifetime < call.lifetime) :
    call.result.1 = .error (.failed .lifetimeOutOfRange) ∧ call.result.2.cache = call.looked scope := by
  rw [result_of_asks misses.toAsks, CacheRequest.fetch_of_long misses.reached readEntry writeEntry
    misses.not_found misses.computed long]
  exact ⟨rfl, rfl⟩

theorem result_of_late (inRange : call.lifetime ≤ Cache.longestLifetime)
    (late : call.deployment.now.add? call.lifetime = none) :
    call.result.1 = .error .timeOverflow ∧ call.result.2.cache = call.looked scope := by
  rw [result_of_asks misses.toAsks, CacheRequest.fetch_of_late misses.reached readEntry writeEntry
    misses.not_found misses.computed inRange late]
  exact ⟨rfl, rfl⟩

end Computed

/-- A call stops beyond the last instant just if it has to store a result that its lifetime, a span of
time, takes there; every other call comes to an answer or an error. Of calls that store what they
computed, one answers it if it gets an expiry, and one with a lifetime that is no span of time fails with
that. Without an expiry nothing is stored. -/
theorem overflows_iff (call : Lookup) :
    (call.result.1 = .error .timeOverflow ↔
      ∃ scope items, call.Misses scope items ∧ call.deployment.failure? .readEntry = none ∧
        call.deployment.failure? .writeEntry = none ∧ call.lifetime ≤ Cache.longestLifetime ∧
        call.deployment.now.add? call.lifetime = none) ∧
    ∀ scope items, call.Misses scope items → call.deployment.failure? .readEntry = none →
      call.deployment.failure? .writeEntry = none →
      (∀ expiry, call.deployment.now.add? call.lifetime = some expiry → call.result.1 = .ok items) ∧
      (call.deployment.now.add? call.lifetime = none → call.result.2.cache = call.looked scope) ∧
      (Cache.longestLifetime < call.lifetime →
        call.result.1 = .error (.failed .lifetimeOutOfRange)) := by
  refine ⟨⟨fun stopped => ?_, ?_⟩, fun scope items misses readEntry writeEntry => ⟨?_, ?_, ?_⟩⟩
  · obtain ⟨scope, asks⟩ := asks_of_overflow stopped
    rw [result_of_asks asks] at stopped
    obtain ⟨readToken, readEntry, writeEntry, missing, ⟨items, computed⟩, inRange, late⟩ :=
      CacheRequest.fetch_overflows stopped
    exact ⟨scope, items, ⟨asks, readToken, missing, computed⟩, readEntry, writeEntry, inRange, late⟩
  · rintro ⟨scope, items, misses, readEntry, writeEntry, inRange, late⟩
    exact (result_of_late misses readEntry writeEntry inRange late).1
  · intro expiry representable
    exact answered_of_misses misses readEntry writeEntry
      (Option.ne_none_iff_exists'.mpr ⟨expiry, representable⟩)
  · intro late
    by_cases long : Cache.longestLifetime < call.lifetime
    · exact (result_of_long misses readEntry writeEntry long).2
    · exact (result_of_late misses readEntry writeEntry (Duration.not_lt.mp long) late).2
  · intro long
    exact (result_of_long misses readEntry writeEntry long).1

end Lookup

namespace World

def keptFor (seconds : Nat) : Lookup :=
  let settings : Settings := { cacheSeconds := some seconds }
  { practiceCall with deployment := { practice.deployment with config := settings.config } }

theorem keptFor_misses (seconds : Nat) : (keptFor seconds).Misses practiceScope practiceItems where
  enabled := rfl
  resolved := rfl
  inside := rfl
  reached := rfl
  missing := rfl
  computed := practice_misses.computed

/-- Two hours are a lifetime; the greatest number of 64 bits is not. -/
theorem overflows_iff_extremes :
    (keptFor 7200).result.1 = .ok practiceItems ∧
      (keptFor 18446744073709551615).result.1 = .error (.failed .lifetimeOutOfRange) := by
  have expires : ((keptFor 7200).deployment.now.add? (keptFor 7200).lifetime).isSome = true := by
    decide +kernel
  obtain ⟨expiry, representable⟩ := Option.isSome_iff_exists.mp expires
  constructor
  · exact ((keptFor 7200).overflows_iff.2 _ _ (keptFor_misses _) rfl rfl).1 expiry representable
  · refine ((keptFor 18446744073709551615).overflows_iff.2 _ _ (keptFor_misses _) rfl rfl).2.2 ?_
    decide

/-- The longest lifetime in whole seconds that is a span of time takes the student past the last
instant. -/
theorem longest_lifetime_overflows :
    (keptFor 9223372036854775).Misses practiceScope practiceItems ∧
      (keptFor 9223372036854775).result.1 = .error .timeOverflow := by
  let call := keptFor 9223372036854775
  have late : call.deployment.now.add? call.lifetime = none := by decide +kernel
  have misses : call.Misses practiceScope practiceItems := keptFor_misses _
  exact ⟨misses, (Lookup.result_of_late misses rfl rfl (by decide) late).1⟩

end World

end Agenda
