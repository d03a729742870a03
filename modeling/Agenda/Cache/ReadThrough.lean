import Agenda.Cache.Session

/-!
Reading through the cache: the entry of the user's token if there is a fresh one that can be read,
and otherwise the result of a computation, which is stored under the token read before it.
-/

namespace Agenda

structure CacheRequest where
  user : UserId
  kind : ObjectKind
  purpose : Purpose
  contexts : List Context
  params : Json
  lifetime : Duration

namespace CacheRequest

def key (request : CacheRequest) (token : BatchToken) : CacheKey :=
  .ofParts {
    user := request.user
    kind := request.kind
    purpose := request.purpose
    contexts := request.contexts
    params := request.params
    token := token }

/-- The result in an entry of that token. A payload of another shape is no result. -/
def hit? {α : Type} [JsonFormat α] (token : BatchToken) : Option CachedValue → Option α
  | none => none
  | some value =>
      if value.token = token then (JsonFormat.ofJson value.payload).toOption else none

def fetch {α : Type} [JsonFormat α] (request : CacheRequest) (deployment : Deployment)
    (compute : Metered α) : Session α := do
  let token ← Session.readToken deployment request.user
  let key := request.key token
  let entry ← Session.readEntry deployment key
  match hit? token entry with
  | some result => return result
  | none =>
      let result ← Session.ofMetered compute
      Session.writeEntry deployment key ⟨token, JsonFormat.encode result⟩ request.lifetime
      return result

end CacheRequest

end Agenda
