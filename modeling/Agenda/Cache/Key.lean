import Agenda.Context
import Agenda.Hash.Sha256
import Agenda.Json.Text
import Agenda.Purpose
import Agenda.Text.Blank

/-!
Cache keys. A key is the digest of everything that can change a result: the user, the kind and
purpose, the set of contexts, the parameters up to the order of members, and the batch token.
-/

namespace Agenda

/-- The tag that all entries of a user share; a new one makes them stale. It wraps around. -/
structure BatchToken where
  value : UInt64
deriving DecidableEq, Repr

namespace BatchToken

def zero : BatchToken :=
  ⟨0⟩

def next (token : BatchToken) : BatchToken :=
  ⟨token.value + 1⟩

def text (token : BatchToken) : String :=
  toString token.value.toNat

instance : JsonFormat BatchToken where
  encode token := Json.natural token.value.toNat
  decode document := do
    let value ← document.natural
    if value < 18446744073709551616 then .ok ⟨value.toUInt64⟩ else .error .misshapen

end BatchToken

def Json.digest (value : Json) : Sha256 :=
  Sha256.ofText value.canonical.text

/-- The digest of a set of contexts; order and repetition do not count. -/
def contextDigest (contexts : List Context) : Sha256 :=
  Sha256.ofText (",".intercalate ((sortedDistinct contexts).map Context.assetText))

structure CacheKey where
  text : String
deriving DecidableEq, Repr

inductive CacheKeyFault where
  | empty
  | containsWhitespace
  | missingNamespace
deriving DecidableEq, Repr

namespace CacheKeyFault

def message : CacheKeyFault → String
  | .empty => "todo cache key must not be empty"
  | .containsWhitespace => "todo cache key must not contain surrounding whitespace"
  | .missingNamespace => "todo cache key must start with \x60todo:v1:\x60"

end CacheKeyFault

structure CacheKeyParts where
  user : UserId
  kind : ObjectKind
  purpose : Purpose
  contexts : List Context
  params : Json
  token : BatchToken

namespace CacheKeyParts

def material (parts : CacheKeyParts) : String :=
  "/".intercalate [parts.user.text, parts.kind.namespaceText parts.purpose,
    (contextDigest parts.contexts).hex, parts.params.digest.hex, parts.token.text]

end CacheKeyParts

namespace CacheKey

def namespaceText : String := "todo:v1:"

def ofDigest (hex : String) : CacheKey :=
  ⟨namespaceText ++ hex⟩

/-- A key written by somebody else: not blank, without blanks around it, in the namespace. -/
def ofText (text : String) : Except CacheKeyFault CacheKey :=
  if Text.isBlankText text then .error .empty
  else if !Text.isTrimmed text then .error .containsWhitespace
  else if !namespaceText.toList.isPrefixOf text.toList then .error .missingNamespace
  else .ok ⟨text⟩

def ofParts (parts : CacheKeyParts) : CacheKey :=
  ofDigest (Sha256.ofText parts.material).hex

end CacheKey

end Agenda
