import Agenda.Json.Record
import Agenda.Shard
import Agenda.Text.Blank

/-!
Errors that queries end with: a code, a message and perhaps details. Services fail with causes of
their own, which become errors where they meet a query.
-/

namespace Agenda

inductive ErrorCode where
  | invalidRequest
  | serviceUnavailable
  | internalError
deriving DecidableEq, Repr

instance : Vocabulary ErrorCode where
  all := [.invalidRequest, .serviceUnavailable, .internalError]
  name
    | .invalidRequest => "invalid_request"
    | .serviceUnavailable => "service_unavailable"
    | .internalError => "internal_error"

structure Error where
  code : ErrorCode
  message : String
  details : Option Json
deriving Repr

namespace Error

def make? (code : ErrorCode) (message : String) : Option Error :=
  if Text.isBlankText message then none else some ⟨code, message, none⟩

def emptyMessage : String := "error message must not be empty"

def withDetails (error : Error) (details : Json) : Error :=
  { error with details := some details }

/-- Names the shard that failed, unless the error has details already. -/
def onShard (error : Error) (shard : ShardId) : Error :=
  match error.details with
  | some _ => error
  | none => error.withDetails (.object [("shard", JsonFormat.encode shard)])

def format : RecordFormat Error Error :=
  Error.mk
    <$> .field "code" code .required
    <*> .field "message" message .required
    <*> .fieldIfAny "details" details .optional

instance : JsonFormat Error where
  encode := format.encode
  decode document := do
    let error ← format.decode document
    if Text.isBlankText error.message then .error .misshapen else .ok error

end Error

inductive ServiceFailure where
  | cacheBackend (message : String)
  | cacheSerialization (message : String)
  | storeConnection (shard : ShardId) (message : String)
  | storeQuery (message : String)
  | directoryConnection (message : String)
  | directoryQuery (message : String)
  | permissionUnavailable (message : String)
  | ignoreConnection (message : String)
  | ignoreWrite (message : String)
deriving DecidableEq, Repr

namespace ServiceFailure

def message : ServiceFailure → String
  | .cacheBackend message => "todo cache backend failure: " ++ message
  | .cacheSerialization message => "todo cache serialisation failed: " ++ message
  | .storeConnection shard message =>
      "learning store connection to " ++ shard.text ++ " failed: " ++ message
  | .storeQuery message => "learning store query failed: " ++ message
  | .directoryConnection message => "membership directory connection failed: " ++ message
  | .directoryQuery message => "membership directory query failed: " ++ message
  | .permissionUnavailable message => "permission engine unavailable: " ++ message
  | .ignoreConnection message => "ignore repository connection failed: " ++ message
  | .ignoreWrite message => "ignore repository write failed: " ++ message

/-- A service that was not reached is unavailable; one that was and failed is an internal error. -/
def code : ServiceFailure → ErrorCode
  | .cacheBackend _ => .serviceUnavailable
  | .cacheSerialization _ => .internalError
  | .storeConnection _ _ => .serviceUnavailable
  | .storeQuery _ => .internalError
  | .directoryConnection _ => .serviceUnavailable
  | .directoryQuery _ => .internalError
  | .permissionUnavailable _ => .serviceUnavailable
  | .ignoreConnection _ => .serviceUnavailable
  | .ignoreWrite _ => .internalError

def toError (failure : ServiceFailure) : Error :=
  ⟨failure.code, failure.message, none⟩

end ServiceFailure

end Agenda
