import Agenda.Proofs.Cache.Key
import Agenda.Proofs.Cache.ReadThrough
import Agenda.Proofs.Cache.Token

/-!
Caches that are alike for one user: they have the same token of the user, and the same entries under
the keys that requests of the user look up. What somebody else does leaves a cache alike, and two
alike caches answer a request of the user alike.
-/

namespace Agenda

/-- The same for requests of a user that hash only some texts. -/
structure Cache.AlikeFor (user : UserId) (texts : List String) (first second : Cache) : Prop where
  tokens : first.tokens user = second.tokens user
  entries : ∀ (request : CacheRequest) (token : BatchToken), request.user = user →
    request.hashedTexts token ⊆ texts →
      first.entries (request.key token) = second.entries (request.key token)

namespace Cache

theorem get_fst_eq (cache : Cache) (now : Instant) (key : CacheKey) :
    (cache.get now key).1 = ((cache.entries key).filter (·.isFresh now)).map (·.value) := by
  unfold get
  cases cache.entries key with
  | none => rfl
  | some entry => by_cases fresh : entry.isFresh now = true <;> simp [fresh, Option.filter]

theorem get_snd_entries (cache : Cache) (now : Instant) (key other : CacheKey) :
    (cache.get now key).2.entries other =
      if other = key then (cache.entries key).filter (·.isFresh now) else cache.entries other := by
  unfold get
  cases stored : cache.entries key with
  | none =>
      by_cases same : other = key
      · simp [same, stored]
      · simp [same]
  | some entry =>
      by_cases fresh : entry.isFresh now = true
      · by_cases same : other = key
        · simp [same, stored, fresh, Option.filter]
        · simp [same, fresh]
      · by_cases same : other = key <;> simp [same, fresh, Option.filter, setEntry_entries]

namespace AlikeFor

variable {user : UserId} {texts : List String} {first second third : Cache}

theorem refl (cache : Cache) : cache.AlikeFor user texts cache where
  tokens := rfl
  entries _ _ _ _ := rfl

theorem trans (alike : first.AlikeFor user texts second) (further : second.AlikeFor user texts third) :
    first.AlikeFor user texts third where
  tokens := alike.tokens.trans further.tokens
  entries request token own hashed :=
    (alike.entries request token own hashed).trans (further.entries request token own hashed)

theorem get (alike : first.AlikeFor user texts second) (now : Instant) (key : CacheKey) :
    (first.get now key).2.AlikeFor user texts (second.get now key).2 where
  tokens := by rw [get_snd_tokens, get_snd_tokens, alike.tokens]
  entries request token own hashed := by
    have same := alike.entries request token own hashed
    rw [get_snd_entries, get_snd_entries]
    split
    · rename_i here
      rw [← here, same]
    · exact same

theorem setEntry (alike : first.AlikeFor user texts second) (key : CacheKey)
    (entry : Option CacheEntry) :
    (first.setEntry key entry).AlikeFor user texts (second.setEntry key entry) where
  tokens := alike.tokens
  entries request token own hashed := by
    rw [setEntry_entries, setEntry_entries, alike.entries request token own hashed]

theorem advanceToken (alike : first.AlikeFor user texts second) (other : UserId) :
    (first.advanceToken other).2.AlikeFor user texts (second.advanceToken other).2 where
  tokens := by
    rw [advanceToken_tokens, advanceToken_tokens]
    split
    · rename_i same
      rw [← same, alike.tokens]
    · exact alike.tokens
  entries := alike.entries

theorem of_advanceToken (cache : Cache) {other : UserId} (foreign : other ≠ user) :
    (cache.advanceToken other).2.AlikeFor user texts cache where
  tokens := if_neg (Ne.symm foreign)
  entries _ _ _ _ := rfl

theorem of_eq_elsewhere {key : CacheKey} (tokens : first.tokens = second.tokens)
    (entries : ∀ other, other ≠ key → first.entries other = second.entries other)
    (foreign : ∀ (request : CacheRequest) (token : BatchToken), request.user = user →
      request.hashedTexts token ⊆ texts → request.key token ≠ key) :
    first.AlikeFor user texts second where
  tokens := by rw [tokens]
  entries request token own hashed := entries _ (foreign request token own hashed)

end AlikeFor

end Cache

namespace Session

variable {user : UserId} {texts : List String} {α β : Type}

def Matches (user : UserId) (texts : List String) (first second : Session α) : Prop :=
  ∀ memory other : Memory, memory.cache.AlikeFor user texts other.cache →
    (first memory).1 = (second other).1 ∧
      (first memory).2.cache.AlikeFor user texts (second other).2.cache

namespace Matches

theorem pure (value : α) : Matches user texts (Session.pure value) (Session.pure value) :=
  fun _ _ alike => ⟨rfl, alike⟩

theorem bind {first second : Session α} {next further : α → Session β}
    (starts : Matches user texts first second)
    (goes : ∀ value, Matches user texts (next value) (further value)) :
    Matches user texts (first >>= next) (second >>= further) := by
  intro memory other alike
  obtain ⟨outcomes, caches⟩ := starts memory other alike
  change (Session.bind first next memory).1 = (Session.bind second further other).1 ∧
    (Session.bind first next memory).2.cache.AlikeFor user texts
      (Session.bind second further other).2.cache
  rcases ran : first memory with ⟨outcome, after⟩
  rcases ranOther : second other with ⟨same, afterOther⟩
  rw [ran, ranOther] at outcomes caches
  cases outcomes
  simp only [Session.bind, ran, ranOther]
  cases outcome with
  | error stop => exact ⟨rfl, caches⟩
  | ok value => exact goes value after afterOther caches

theorem ofMetered {first second : Metered α} (same : first.outcome = second.outcome) :
    Matches user texts (.ofMetered first) (.ofMetered second) :=
  fun _ _ alike => ⟨congrArg (Except.mapError Stop.failed) same, alike⟩

variable {deployment edited : Deployment} (outages : edited.outages = deployment.outages)
include outages

theorem useCache {facility : Facility} {action change : Cache → Except Stop α × Cache}
    (acts : ∀ cache other : Cache, cache.AlikeFor user texts other →
      (action cache).1 = (change other).1 ∧ (action cache).2.AlikeFor user texts (change other).2) :
    Matches user texts (.useCache deployment facility action) (.useCache edited facility change) := by
  intro memory other alike
  have same : edited.failure? facility = deployment.failure? facility := by
    simp only [Deployment.failure?, outages]
  simp only [Session.useCache, same]
  cases deployment.failure? facility with
  | some failure => exact ⟨rfl, alike⟩
  | none => exact acts memory.cache other.cache alike

theorem touch : Matches user texts (.touch deployment user) (.touch edited user) :=
  useCache outages fun cache other alike =>
    ⟨by simp only [Cache.advanceToken, alike.tokens], alike.advanceToken user⟩

theorem readToken : Matches user texts (.readToken deployment user) (.readToken edited user) :=
  useCache outages fun cache other alike => ⟨by rw [alike.tokens], alike⟩

variable (clock : edited.now = deployment.now)
include clock

theorem writeEntry (key : CacheKey) (value : CachedValue) (lifetime : Duration) :
    Matches user texts (.writeEntry deployment key value lifetime)
      (.writeEntry edited key value lifetime) := by
  refine useCache outages fun cache other alike => ?_
  simp only [Cache.put, clock]
  by_cases long : Cache.longestLifetime < lifetime
  · simp only [long, if_true]
    exact ⟨trivial, alike⟩
  · simp only [long, if_false]
    cases deployment.now.add? lifetime with
    | none => exact ⟨rfl, alike⟩
    | some expiry => exact ⟨rfl, alike.tokens, (alike.setEntry key _).entries⟩

theorem readEntry {request : CacheRequest} {token : BatchToken} (own : request.user = user)
    (hashed : request.hashedTexts token ⊆ texts) :
    Matches user texts (.readEntry deployment (request.key token))
      (.readEntry edited (request.key token)) := by
  refine useCache outages fun cache other alike => ⟨?_, ?_⟩
  · simp only [Cache.get_fst_eq, clock, alike.entries request token own hashed]
  · rw [clock]
    exact alike.get deployment.now (request.key token)

theorem readEntry_cache (key : CacheKey) {memory other : Memory}
    (alike : memory.cache.AlikeFor user texts other.cache) :
    (Session.readEntry deployment key memory).2.cache.AlikeFor user texts
      (Session.readEntry edited key other).2.cache := by
  have same : edited.failure? .readEntry = deployment.failure? .readEntry := by
    simp only [Deployment.failure?, outages]
  simp only [Session.readEntry, Session.useCache, same, clock]
  cases deployment.failure? .readEntry with
  | some failure => exact alike
  | none => exact alike.get deployment.now key

end Matches

end Session

namespace CacheRequest

variable {user : UserId} {texts : List String}

theorem key_ne_of_user_ne (free : Sha256.CollisionFree texts) {request other : CacheRequest}
    {token mark : BatchToken} (hashed : request.hashedTexts token ⊆ texts)
    (others : other.hashedTexts mark ⊆ texts) (foreign : request.user ≠ other.user) :
    request.key token ≠ other.key mark := fun same =>
  foreign (sameResult_of_key_eq (free.subset (List.append_subset.mpr ⟨hashed, others⟩)) same).user

variable {α : Type} [JsonFormat α]

theorem fetch_spares (free : Sha256.CollisionFree texts) {request : CacheRequest}
    {deployment : Deployment} {compute : Metered α} {memory : Memory} (foreign : request.user ≠ user)
    (hashed : deployment.failure? .readToken = none →
      request.hashedTexts (memory.cache.tokens request.user) ⊆ texts) :
    (request.fetch deployment compute memory).2.cache.AlikeFor user texts memory.cache := by
  have call := fetch_cases request deployment compute memory
  generalize request.fetch deployment compute memory = reached at call ⊢
  have absent (works : deployment.failure? .readToken = none) (asked : CacheRequest)
      (token : BatchToken) (own : asked.user = user) (others : asked.hashedTexts token ⊆ texts) :
      asked.key token ≠ request.currentKey memory :=
    key_ne_of_user_ne free others (hashed works) fun same => foreign (same.symm.trans own)
  have dropped (works : deployment.failure? .readToken = none) :
      (request.afterCompute deployment compute memory).cache.AlikeFor user texts memory.cache :=
    .of_eq_elsewhere Cache.get_snd_tokens
      (fun other elsewhere => by
        change (memory.cache.get _ _).2.entries other = _
        rw [Cache.get_snd_entries, if_neg elsewhere]) (absent works)
  cases call with
  | refused failure broken => exact .refl _
  | hit result works found => exact .refl _
  | failed error works missing outcome => exact dropped works
  | unwritten result stop works missing outcome unwritten => exact dropped works
  | missed result expiry works missing outcome representable =>
      have written : (request.afterStore deployment compute memory result expiry).cache.AlikeFor user
          texts (request.afterCompute deployment compute memory).cache :=
        .of_eq_elsewhere rfl (fun other elsewhere => if_neg elsewhere) (absent works)
      exact written.trans (dropped works)

/-- Two alike caches answer a request of the user alike. -/
theorem fetch_alike {request : CacheRequest} {deployment edited : Deployment}
    (outages : edited.outages = deployment.outages) (clock : edited.now = deployment.now)
    {compute recompute : Metered α} (same : compute.outcome = recompute.outcome)
    {memory other : Memory} (alike : memory.cache.AlikeFor request.user texts other.cache)
    (hashed : deployment.failure? .readToken = none →
      request.hashedTexts (memory.cache.tokens request.user) ⊆ texts) :
    (request.fetch deployment compute memory).1 = (request.fetch edited recompute other).1 ∧
      (request.fetch deployment compute memory).2.cache.AlikeFor request.user texts
        (request.fetch edited recompute other).2.cache := by
  have failures : edited.failure? .readToken = deployment.failure? .readToken := by
    simp only [Deployment.failure?, outages]
  rw [fetch_eq, fetch_eq]
  simp only [bind, Session.bind, Session.readToken, Session.useCache, failures]
  cases works : deployment.failure? .readToken with
  | some failure => exact ⟨rfl, alike⟩
  | none =>
      simp only [← alike.tokens]
      refine Session.Matches.bind (Session.Matches.readEntry outages clock rfl (hashed works))
        (fun value => ?_) memory other alike
      cases hit? (α := α) (memory.cache.tokens request.user) value with
      | some result => exact .pure result
      | none =>
          exact .bind (.ofMetered same) fun result =>
            .bind (.writeEntry outages clock _ _ _) fun _ => .pure result

end CacheRequest

end Agenda
