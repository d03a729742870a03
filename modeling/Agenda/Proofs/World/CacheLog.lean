import Agenda.Proofs.World.Expiry

/-!
A log of the calls of a cache: the puts, the bumps and the time. Unlike the cache it never loses a put.
What it answers to a call depends on the calls that matter to it alone.
-/

namespace Agenda

namespace World

structure CachePut where
  key : CacheKey
  value : CachedValue
  time : Instant
  lifetime : Duration

def CachePut.stored? (put : CachePut) : Option CacheEntry :=
  (put.time.add? put.lifetime).map fun expiry => ⟨put.value, expiry⟩

/-- The puts and bumps so far, the latest first, and the time. -/
structure CacheLog where
  now : Instant
  puts : List CachePut
  bumps : List UserId

inductive CacheCall where
  | put (key : CacheKey) (value : CachedValue) (lifetime : Duration)
  | get (key : CacheKey)
  | token (user : UserId)
  | bump (user : UserId)
  | advance (span : Duration)
  | setClock (instant : Instant)

namespace CacheCall

def step : CacheCall → Step
  | put key value lifetime => .writeEntry key value lifetime
  | get key => .readEntry key
  | token user => .token user
  | bump user => .touch user
  | advance span => .advance span
  | setClock instant => .setClock instant

def clock (now : Instant) : CacheCall → Instant
  | advance span => (now.add? span).getD now
  | setClock instant => instant
  | _ => now

def lookedUp? : CacheCall → Option CacheKey
  | get key => some key
  | _ => none

def counted? : CacheCall → Option UserId
  | token user => some user
  | bump user => some user
  | _ => none

/-- Whether the answer to a later call may depend on a call: on a put if that key is looked up, on a
bump if bumps of that user are counted, and on all that sets the clock. -/
def matters (asked : CacheCall) : CacheCall → Bool
  | put key _ _ => asked.lookedUp? = some key
  | get _ => false
  | token _ => false
  | bump user => asked.counted? = some user
  | advance _ => true
  | setClock _ => true

theorem clock_of_idle {asked call : CacheCall} (idle : asked.matters call = false) (now : Instant) :
    call.clock now = now := by
  cases call with
  | advance span => cases idle
  | setClock instant => cases idle
  | _ => rfl

end CacheCall

namespace CacheLog

def begun (now : Instant) : CacheLog :=
  ⟨now, [], []⟩

def lastPut? (log : CacheLog) (key : CacheKey) : Option CachePut :=
  log.puts.find? fun put => put.key = key

def stored? (log : CacheLog) (key : CacheKey) : Option CacheEntry :=
  (log.lastPut? key).bind CachePut.stored?

def value? (log : CacheLog) (key : CacheKey) : Option CachedValue :=
  ((log.stored? key).filter (·.isFresh log.now)).map (·.value)

def record (log : CacheLog) : CacheCall → CacheLog
  | .put key value lifetime =>
      if (log.now.add? lifetime).isSome then
        { log with puts := ⟨key, value, log.now, lifetime⟩ :: log.puts }
      else log
  | .bump user => { log with bumps := user :: log.bumps }
  | call => { log with now := call.clock log.now }

def answer (log : CacheLog) : (call : CacheCall) → Except Stop call.step.Answer
  | .put _ _ lifetime =>
      if Cache.longestLifetime < lifetime then .error (.failed .lifetimeOutOfRange)
      else (log.now.add? lifetime).elim (.error .timeOverflow) fun _ => .ok ()
  | .get key => .ok (log.value? key)
  | .token user => .ok (BatchToken.ofCount (log.bumps.count user))
  | .bump user => .ok (BatchToken.ofCount (log.bumps.count user + 1))
  | .advance span =>
      (log.now.add? span).elim (.error .timeOverflow) fun _ => .ok ()
  | .setClock _ => .ok ()

variable {log : CacheLog}

theorem value?_eq_some {key : CacheKey} {value : CachedValue} :
    log.value? key = some value ↔
      ∃ put expiry, log.lastPut? key = some put ∧ put.value = value ∧
        put.time.add? put.lifetime = some expiry ∧ log.now < expiry := by
  simp only [value?, stored?]
  cases last : log.lastPut? key with
  | none => simp
  | some put =>
      simp only [Option.bind_some, CachePut.stored?]
      cases expiry : put.time.add? put.lifetime with
      | none => simp [expiry]
      | some instant =>
          by_cases fresh : log.now < instant
          · simp [Option.filter, CacheEntry.isFresh, expiry, fresh]
          · simp [Option.filter, CacheEntry.isFresh, expiry, fresh]

theorem record_put {key : CacheKey} {value : CachedValue} {lifetime : Duration} {expiry : Instant}
    (representable : log.now.add? lifetime = some expiry) :
    log.record (.put key value lifetime) =
      { log with puts := ⟨key, value, log.now, lifetime⟩ :: log.puts } :=
  if_pos (representable ▸ rfl)

theorem record_put_refused {key : CacheKey} {value : CachedValue} {lifetime : Duration}
    (late : log.now.add? lifetime = none) : log.record (.put key value lifetime) = log :=
  if_neg (by simp [late])

theorem stored?_cons {put : CachePut} {expiry : Instant}
    (representable : put.time.add? put.lifetime = some expiry) (key : CacheKey) :
    { log with puts := put :: log.puts }.stored? key =
      if key = put.key then some ⟨put.value, expiry⟩ else log.stored? key := by
  simp only [stored?, lastPut?, List.find?_cons]
  by_cases same : put.key = key
  · simp [same, CachePut.stored?, representable]
  · have different : ¬key = put.key := fun equal => same equal.symm
    simp [same, different]

@[simp] theorem record_now (log : CacheLog) (call : CacheCall) :
    (log.record call).now = call.clock log.now := by
  cases call with
  | put key value lifetime =>
      cases expiry : log.now.add? lifetime with
      | none => rw [record_put_refused expiry]; rfl
      | some instant => rw [record_put expiry]; rfl
  | _ => rfl

structure AlikeFor (asked : CacheCall) (first second : CacheLog) : Prop where
  now : first.now = second.now
  last : ∀ key, asked.lookedUp? = some key → first.lastPut? key = second.lastPut? key
  count : ∀ user, asked.counted? = some user → first.bumps.count user = second.bumps.count user

namespace AlikeFor

variable {asked call : CacheCall} {first second : CacheLog}

theorem answer_eq (alike : first.AlikeFor asked second) : first.answer asked = second.answer asked := by
  obtain ⟨now, last, count⟩ := alike
  cases asked <;> simp_all [answer, value?, stored?, CacheCall.lookedUp?, CacheCall.counted?]

theorem record (alike : first.AlikeFor asked second) (call : CacheCall) :
    (first.record call).AlikeFor asked (second.record call) := by
  obtain ⟨now, last, count⟩ := alike
  have later : (first.record call).now = (second.record call).now := by
    rw [record_now, record_now, now]
  cases call with
  | put key value lifetime =>
      cases expiry : first.now.add? lifetime with
      | none =>
          rw [record_put_refused expiry, record_put_refused (now ▸ expiry)]
          exact ⟨now, last, count⟩
      | some instant =>
          rw [record_put expiry, record_put (now ▸ expiry), now]
          refine ⟨rfl, fun other lookedUp => ?_, count⟩
          have before : first.puts.find? (fun put => put.key = other) =
              second.puts.find? fun put => put.key = other := last other lookedUp
          simp only [lastPut?, List.find?_cons, before]
  | bump user =>
      refine ⟨later, last, fun other counted => ?_⟩
      change (user :: first.bumps).count other = (user :: second.bumps).count other
      rw [List.count_cons, List.count_cons, count other counted]
  | _ => exact ⟨later, last, count⟩

theorem record_left (alike : first.AlikeFor asked second) (idle : asked.matters call = false) :
    (first.record call).AlikeFor asked second := by
  obtain ⟨now, last, count⟩ := alike
  cases call with
  | put key value lifetime =>
      have other : asked.lookedUp? ≠ some key := of_decide_eq_false idle
      cases expiry : first.now.add? lifetime with
      | none =>
          rw [record_put_refused expiry]
          exact ⟨now, last, count⟩
      | some instant =>
          rw [record_put expiry]
          refine ⟨now, fun searched lookedUp => ?_, count⟩
          have different : key ≠ searched := fun same => other (same ▸ lookedUp)
          refine Eq.trans ?_ (last searched lookedUp)
          exact List.find?_cons_of_neg (by simpa using different)
  | bump user =>
      have other : asked.counted? ≠ some user := of_decide_eq_false idle
      refine ⟨now, last, fun counting counted => ?_⟩
      have different : user ≠ counting := fun same => other (same ▸ counted)
      exact (List.count_cons_of_ne different).trans (count counting counted)
  | get key => exact ⟨now, last, count⟩
  | token user => exact ⟨now, last, count⟩
  | advance span => cases idle
  | setClock instant => cases idle

theorem foldl_filter (alike : first.AlikeFor asked second) (calls : List CacheCall) :
    (calls.foldl CacheLog.record first).AlikeFor asked
      ((calls.filter asked.matters).foldl CacheLog.record second) := by
  induction calls generalizing first second with
  | nil => exact alike
  | cons call rest ih =>
      cases matters : asked.matters call with
      | false =>
          rw [List.filter_cons_of_neg (by simp [matters])]
          exact ih (alike.record_left matters)
      | true =>
          rw [List.filter_cons_of_pos matters]
          exact ih (alike.record call)

end AlikeFor

end CacheLog

end World

end Agenda
