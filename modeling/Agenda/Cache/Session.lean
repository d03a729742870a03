import Agenda.Cache
import Agenda.Deployment

/-!
Sessions: computations that use the cache and count their effort. A session stops with an error, or
because an instant would be beyond the last one.
-/

namespace Agenda

structure Memory where
  cache : Cache
  effort : Effort

namespace Memory

def empty : Memory :=
  ⟨.empty, .zero⟩

end Memory

inductive Stop where
  | failed (error : Error)
  | timeOverflow

def Session (α : Type) : Type :=
  Memory → Except Stop α × Memory

namespace Session

variable {α β : Type}

def pure (value : α) : Session α :=
  fun memory => (.ok value, memory)

def bind (first : Session α) (next : α → Session β) : Session β :=
  fun memory =>
    match first memory with
    | (.error stop, after) => (.error stop, after)
    | (.ok value, after) => next value after

instance : Monad Session where
  pure := pure
  bind := bind

def ofMetered (computation : Metered α) : Session α :=
  fun memory =>
    (computation.outcome.mapError .failed,
      { memory with effort := memory.effort + computation.effort })

def useCache (deployment : Deployment) (facility : Facility)
    (action : Cache → Except Stop α × Cache) : Session α :=
  fun memory =>
    match deployment.failure? facility with
    | some failure => (.error (.failed failure.toError), memory)
    | none =>
        let (outcome, cache) := action memory.cache
        (outcome, { memory with cache := cache })

def readToken (deployment : Deployment) (user : UserId) : Session BatchToken :=
  useCache deployment .readToken fun cache => (.ok (cache.tokens user), cache)

def readEntry (deployment : Deployment) (key : CacheKey) : Session (Option CachedValue) :=
  useCache deployment .readEntry fun cache =>
    let (value, cache) := cache.get deployment.now key
    (.ok value, cache)

def lifetimeMessage : String :=
  "ttl out of range: Source duration value is out of range for the target type"

def writeEntry (deployment : Deployment) (key : CacheKey) (value : CachedValue)
    (lifetime : Duration) : Session Unit :=
  useCache deployment .writeEntry fun cache =>
    match cache.put deployment.now key value lifetime with
    | .ok written => (.ok (), written)
    | .error .lifetimeOutOfRange =>
        (.error (.failed (ServiceFailure.cacheSerialization lifetimeMessage).toError), cache)
    | .error .beyondLastInstant => (.error .timeOverflow, cache)

def touch (deployment : Deployment) (user : UserId) : Session BatchToken :=
  useCache deployment .advanceToken fun cache =>
    let (token, cache) := cache.advanceToken user
    (.ok token, cache)

end Session

end Agenda
