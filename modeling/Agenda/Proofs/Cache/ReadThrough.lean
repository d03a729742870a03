import Agenda.Cache.ReadThrough
import Agenda.Proofs.Json.RoundTrip
import Agenda.Proofs.Metered
import Agenda.Proofs.Time.Instant

/-!
What reading through the cache can do. A call is refused, answers from an entry, fails to compute,
cannot store what it computed, or stores and answers it.
-/

namespace Agenda

namespace Cache

variable {cache : Cache} {now : Instant} {key other : CacheKey}

@[simp] theorem setEntry_tokens (entry : Option CacheEntry) :
    (cache.setEntry key entry).tokens = cache.tokens :=
  rfl

theorem setEntry_entries (entry : Option CacheEntry) :
    (cache.setEntry key entry).entries other = if other = key then entry else cache.entries other :=
  rfl

theorem get_fst_eq_some {value : CachedValue} :
    (cache.get now key).1 = some value ↔
      ∃ entry, cache.entries key = some entry ∧ entry.isFresh now = true ∧ entry.value = value := by
  unfold get
  cases stored : cache.entries key with
  | none => simp
  | some entry =>
      by_cases fresh : entry.isFresh now = true
      · simp [fresh]
      · simp [fresh]

theorem get_snd_of_fresh {value : CachedValue} (found : (cache.get now key).1 = some value) :
    (cache.get now key).2 = cache := by
  obtain ⟨entry, stored, fresh, -⟩ := get_fst_eq_some.mp found
  simp [get, stored, fresh]

@[simp] theorem get_snd_tokens : (cache.get now key).2.tokens = cache.tokens := by
  unfold get
  split
  · rfl
  · split <;> rfl

theorem entries_of_get_snd {entry : CacheEntry}
    (left : (cache.get now key).2.entries other = some entry) :
    cache.entries other = some entry := by
  unfold get at left
  split at left
  · exact left
  · split at left
    · exact left
    · rw [setEntry_entries] at left
      split at left
      · cases left
      · exact left

end Cache

namespace CacheRequest

theorem hit?_eq_some {α : Type} [JsonFormat α] {token : BatchToken} {value : CachedValue}
    {result : α} :
    hit? token (some value) = some result ↔
      value.token = token ∧ JsonFormat.ofJson value.payload = .ok result := by
  unfold hit?
  by_cases current : value.token = token
  · cases read : JsonFormat.ofJson (α := α) value.payload <;>
      simp [current, read, Except.toOption]
  · simp [current]

variable {α : Type} [JsonFormat α] (request : CacheRequest) (deployment : Deployment)
  (compute : Metered α) (memory : Memory)

def currentKey : CacheKey :=
  request.key (memory.cache.tokens request.user)

def found? : Option α :=
  hit? (memory.cache.tokens request.user)
    (memory.cache.get deployment.now (request.currentKey memory)).1

theorem found?_eq_some {result : α} :
    request.found? deployment memory = some result ↔
      ∃ entry, memory.cache.entries (request.currentKey memory) = some entry ∧
        entry.isFresh deployment.now = true ∧
        entry.value.token = memory.cache.tokens request.user ∧
        JsonFormat.ofJson entry.value.payload = .ok result := by
  unfold found?
  constructor
  · intro found
    cases value : (memory.cache.get deployment.now (request.currentKey memory)).1 with
    | none => simp [value, hit?] at found
    | some value' =>
        obtain ⟨entry, stored, fresh, rfl⟩ := Cache.get_fst_eq_some.mp value
        rw [value] at found
        exact ⟨entry, stored, fresh, hit?_eq_some.mp found⟩
  · rintro ⟨entry, stored, fresh, readable⟩
    rw [Cache.get_fst_eq_some.mpr ⟨entry, stored, fresh, rfl⟩]
    exact hit?_eq_some.mpr readable

theorem get_snd_of_found {result : α} (found : request.found? deployment memory = some result) :
    (memory.cache.get deployment.now (request.currentKey memory)).2 = memory.cache := by
  obtain ⟨entry, stored, fresh, -⟩ := (request.found?_eq_some deployment memory).mp found
  exact Cache.get_snd_of_fresh (Cache.get_fst_eq_some.mpr ⟨entry, stored, fresh, rfl⟩)

def afterCompute : Memory where
  cache := (memory.cache.get deployment.now (request.currentKey memory)).2
  effort := memory.effort + compute.effort

def entryOf (result : α) (expiry : Instant) : CacheEntry :=
  ⟨⟨memory.cache.tokens request.user, JsonFormat.encode result⟩, expiry⟩

def afterStore (result : α) (expiry : Instant) : Memory :=
  let computed := request.afterCompute deployment compute memory
  let written := computed.cache.setEntry (request.currentKey memory)
    (some (request.entryOf memory result expiry))
  { computed with cache := { written with writes := computed.cache.writes + 1 } }

theorem entries_afterStore {result : α} {expiry : Instant} {key : CacheKey} {entry : CacheEntry}
    (stored : (request.afterStore deployment compute memory result expiry).cache.entries key =
      some entry) :
    key = request.currentKey memory ∧ entry = request.entryOf memory result expiry ∨
      memory.cache.entries key = some entry := by
  change ((request.afterCompute deployment compute memory).cache.setEntry _ _).entries key = _
    at stored
  rw [Cache.setEntry_entries] at stored
  split at stored
  · rename_i same
    exact .inl ⟨same, (Option.some.inj stored).symm⟩
  · exact .inr (Cache.entries_of_get_snd stored)

def resume (token : BatchToken) (found : Option α) : Session α :=
  found.elim
    (do
      let result ← Session.ofMetered compute
      Session.writeEntry deployment (request.key token) ⟨token, JsonFormat.encode result⟩
        request.lifetime
      return result)
    Session.pure

theorem fetch_eq :
    request.fetch deployment compute = Session.readToken deployment request.user >>= fun token =>
      Session.readEntry deployment (request.key token) >>= fun value =>
        request.resume deployment compute token (hit? token value) := by
  unfold fetch
  refine congrArg (Session.readToken deployment request.user >>= ·) (funext fun token => ?_)
  refine congrArg (Session.readEntry deployment (request.key token) >>= ·) (funext fun value => ?_)
  cases hit? (α := α) token value <;> rfl

/-- What a call can come to, with the memory it leaves behind. -/
inductive Fetched : Except Stop α × Memory → Prop
  | refused (failure : ServiceFailure) :
      deployment.failure? .readToken = some failure ∨
        deployment.failure? .readEntry = some failure →
      Fetched (.error (.failed failure.toError), memory)
  | hit (result : α) : deployment.failure? .readToken = none →
      request.found? deployment memory = some result → Fetched (.ok result, memory)
  | failed (error : Error) : deployment.failure? .readToken = none →
      request.found? (α := α) deployment memory = none → compute.outcome = .error error →
      Fetched (.error (.failed error), request.afterCompute deployment compute memory)
  | unwritten (result : α) (stop : Stop) : deployment.failure? .readToken = none →
      request.found? (α := α) deployment memory = none → compute.outcome = .ok result →
      deployment.failure? .writeEntry ≠ none ∨ deployment.now.add? request.lifetime = none →
      Fetched (.error stop, request.afterCompute deployment compute memory)
  | missed (result : α) (expiry : Instant) : deployment.failure? .readToken = none →
      request.found? (α := α) deployment memory = none → compute.outcome = .ok result →
      deployment.now.add? request.lifetime = some expiry →
      Fetched (.ok result, request.afterStore deployment compute memory result expiry)

theorem fetch_cases :
    Fetched request deployment compute memory (request.fetch deployment compute memory) := by
  simp only [fetch_eq, bind, Session.bind, Session.readToken, Session.useCache]
  cases readToken : deployment.failure? .readToken with
  | some failure => exact .refused failure (.inl readToken)
  | none =>
      simp only [Session.readEntry, Session.useCache]
      cases readEntry : deployment.failure? .readEntry with
      | some failure => exact .refused failure (.inr readEntry)
      | none =>
          change Fetched request deployment compute memory
            (request.resume deployment compute (memory.cache.tokens request.user)
              (request.found? deployment memory)
              ⟨(memory.cache.get deployment.now (request.currentKey memory)).2, memory.effort⟩)
          cases found : request.found? (α := α) deployment memory with
          | some result =>
              have unchanged := request.get_snd_of_found deployment memory found
              simp only [resume, Option.elim_some, Session.pure, unchanged]
              exact .hit result readToken found
          | none =>
              simp only [resume, Option.elim_none, bind, Session.bind, Session.ofMetered]
              cases outcome : compute.outcome with
              | error error => exact .failed error readToken found outcome
              | ok result =>
                  simp only [Except.mapError, Session.writeEntry, Session.useCache]
                  cases writeEntry : deployment.failure? .writeEntry with
                  | some failure =>
                      exact .unwritten result _ readToken found outcome (.inl (by simp [writeEntry]))
                  | none =>
                      simp only [Cache.put]
                      by_cases long : Cache.longestLifetime < request.lifetime
                      · simp only [long, if_true]
                        exact .unwritten result _ readToken found outcome
                          (.inr (Instant.add?_eq_none long))
                      · simp only [long, if_false]
                        cases expiry : deployment.now.add? request.lifetime with
                        | none => exact .unwritten result _ readToken found outcome (.inr expiry)
                        | some instant => exact .missed result instant readToken found outcome expiry

variable {request deployment compute memory}

theorem found?_eq_none_of_unexpired
    (unexpired : ∀ entry, memory.cache.entries (request.currentKey memory) = some entry →
      entry.isFresh deployment.now = false) : request.found? (α := α) deployment memory = none := by
  rw [Option.eq_none_iff_forall_ne_some]
  intro result found
  obtain ⟨entry, stored, fresh, -⟩ := (request.found?_eq_some deployment memory).mp found
  rw [unexpired entry stored] at fresh
  cases fresh

theorem fetch_fst_of_missing (readToken : deployment.failure? .readToken = none)
    (readEntry : deployment.failure? .readEntry = none)
    (writeEntry : deployment.failure? .writeEntry = none)
    (missing : request.found? (α := α) deployment memory = none)
    (representable : deployment.now.add? request.lifetime ≠ none) :
    (request.fetch deployment compute memory).1 = compute.outcome.mapError .failed := by
  have call := fetch_cases request deployment compute memory
  generalize request.fetch deployment compute memory = reached at call ⊢
  cases call with
  | refused failure broken => simp [readToken, readEntry] at broken
  | hit result _ found => rw [missing] at found; cases found
  | failed error _ _ outcome => rw [outcome]; rfl
  | unwritten result stop _ _ _ unwritten =>
      rcases unwritten with broken | unrepresentable
      · exact absurd writeEntry broken
      · exact absurd unrepresentable representable
  | missed result expiry _ _ outcome _ => rw [outcome]; rfl

theorem effort_of_missing (readToken : deployment.failure? .readToken = none)
    (readEntry : deployment.failure? .readEntry = none)
    (missing : request.found? (α := α) deployment memory = none) :
    (request.fetch deployment compute memory).2.effort = memory.effort + compute.effort := by
  have call := fetch_cases request deployment compute memory
  generalize request.fetch deployment compute memory = reached at call ⊢
  cases call with
  | refused failure broken => simp [readToken, readEntry] at broken
  | hit result _ found => rw [missing] at found; cases found
  | failed error _ _ _ => rfl
  | unwritten result stop _ _ _ _ => rfl
  | missed result expiry _ _ _ _ => rfl

theorem fetch_of_found (readToken : deployment.failure? .readToken = none)
    (readEntry : deployment.failure? .readEntry = none) {result : α}
    (found : request.found? deployment memory = some result) :
    request.fetch deployment compute memory = (.ok result, memory) := by
  have call := fetch_cases request deployment compute memory
  generalize request.fetch deployment compute memory = reached at call ⊢
  cases call with
  | refused failure broken => simp [readToken, readEntry] at broken
  | hit other _ also => rw [found] at also; cases also; rfl
  | failed error _ missing _ => rw [found] at missing; cases missing
  | unwritten result stop _ missing _ _ => rw [found] at missing; cases missing
  | missed result expiry _ missing _ _ => rw [found] at missing; cases missing

theorem fetch_fst_of_found (readToken : deployment.failure? .readToken = none)
    (readEntry : deployment.failure? .readEntry = none) {result : α}
    (found : request.found? deployment memory = some result) :
    (request.fetch deployment compute memory).1 = .ok result := by
  rw [fetch_of_found readToken readEntry found]

theorem found?_after_fetch [JsonFormat.Lawful α] (readToken : deployment.failure? .readToken = none)
    (readEntry : deployment.failure? .readEntry = none)
    (writeEntry : deployment.failure? .writeEntry = none)
    (missing : request.found? (α := α) deployment memory = none) {result : α}
    (computed : compute.outcome = .ok result) {expiry : Instant}
    (representable : deployment.now.add? request.lifetime = some expiry)
    (fresh : deployment.now < expiry) :
    request.found? deployment (request.fetch deployment compute memory).2 = some result := by
  have call := fetch_cases request deployment compute memory
  generalize request.fetch deployment compute memory = reached at call ⊢
  cases call with
  | refused failure broken => simp [readToken, readEntry] at broken
  | hit other _ found => rw [missing] at found; cases found
  | failed error _ _ outcome => rw [computed] at outcome; cases outcome
  | unwritten other stop _ _ _ unwritten =>
      rcases unwritten with broken | unrepresentable
      · exact absurd writeEntry broken
      · rw [representable] at unrepresentable; cases unrepresentable
  | missed other instant _ _ outcome also =>
      rw [computed] at outcome
      rw [representable] at also
      cases outcome
      cases also
      have tokens : (request.afterStore deployment compute memory result expiry).cache.tokens =
          memory.cache.tokens := Cache.get_snd_tokens
      have keys : request.currentKey (request.afterStore deployment compute memory result expiry) =
          request.currentKey memory := by
        rw [currentKey, currentKey, tokens]
      rw [found?_eq_some, keys, tokens]
      exact ⟨request.entryOf memory result expiry, if_pos rfl, decide_eq_true fresh, rfl,
        JsonFormat.ofJson_encode result⟩

end CacheRequest

end Agenda
