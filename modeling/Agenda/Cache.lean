import Agenda.Cache.Key
import Agenda.Json.Record
import Agenda.Time.Instant

/-!
The cache: entries by key, each with the instant from which it is gone, and the batch token of each
user.
-/

namespace Agenda

structure CachedValue where
  token : BatchToken
  payload : Json

namespace CachedValue

def format : RecordFormat CachedValue CachedValue :=
  CachedValue.mk
    <$> .field "batch_token" token .required
    <*> .field "payload" payload .required

instance : JsonFormat CachedValue := format.jsonFormat

end CachedValue

structure CacheEntry where
  value : CachedValue
  expiry : Instant

namespace CacheEntry

def isFresh (entry : CacheEntry) (now : Instant) : Bool :=
  now < entry.expiry

end CacheEntry

structure Cache where
  entries : CacheKey → Option CacheEntry
  tokens : UserId → BatchToken
  writes : Nat

inductive WriteFault where
  | lifetimeOutOfRange
  | beyondLastInstant
deriving DecidableEq, Repr

namespace Cache

def empty : Cache where
  entries _ := none
  tokens _ := .zero
  writes := 0

def setEntry (cache : Cache) (key : CacheKey) (entry : Option CacheEntry) : Cache :=
  { cache with entries := fun other => if other = key then entry else cache.entries other }

/-- The value under a key, unless it is gone at that instant; an entry that is gone is removed. -/
def get (cache : Cache) (now : Instant) (key : CacheKey) : Option CachedValue × Cache :=
  match cache.entries key with
  | none => (none, cache)
  | some entry =>
      if entry.isFresh now then (some entry.value, cache) else (none, cache.setEntry key none)

def longestLifetime : Duration :=
  .ofMilliseconds 9223372036854775807

def put (cache : Cache) (now : Instant) (key : CacheKey) (value : CachedValue)
    (lifetime : Duration) : Except WriteFault Cache :=
  if longestLifetime < lifetime then .error .lifetimeOutOfRange
  else
    match now.add? lifetime with
    | none => .error .beyondLastInstant
    | some expiry =>
        let written := cache.setEntry key (some ⟨value, expiry⟩)
        .ok { written with writes := cache.writes + 1 }

def advanceToken (cache : Cache) (user : UserId) : BatchToken × Cache :=
  let token := (cache.tokens user).next
  (token, { cache with
    tokens := fun other => if other = user then token else cache.tokens other })

end Cache

end Agenda
