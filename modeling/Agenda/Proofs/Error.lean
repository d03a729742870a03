import Agenda.Error
import Agenda.Proofs.Json.Plain

/-!
Errors written as JSON and read back. However an error is amended after it was made, it is read back
as it was, unless its details are `null`: such details are written, and read as no details.
-/

namespace Agenda

def ShardId.details (shard : ShardId) : Json :=
  .object [("shard", .natural shard.number)]

theorem ShardId.proper_details (shard : ShardId) : shard.details.Proper := by
  refine .object (List.nodup_singleton _) fun member found => ?_
  rw [List.mem_singleton.mp found]
  exact .number _

namespace Error

open JsonFormat RecordFormat

section Format

def readDetails : Json → Option Json
  | .null => none
  | details => some details.settled

theorem readDetails_of_ne_null {details : Json} (notNull : details ≠ .null) :
    readDetails details = some details.settled := by
  cases details with
  | null => exact absurd rfl notNull
  | _ => rfl

theorem decode_details (details : Json) :
    decode (encode details).document = Except.ok (readDetails details) := by
  by_cases isNull : details = .null
  · rw [isNull]
    rfl
  · change Document.optional Document.value details.document = _
    rw [optional_document Document.value isNull, Json.value_document, readDetails_of_ne_null isNull]
    rfl

theorem format_reads : format.Reads ["code", "message", "details"] fun error =>
    { error with details := error.details.bind readDetails } := by
  have first : (Error.mk <$> field "code" code .required <*>
      field "message" message .required).Reads ["code", "message"] fun error =>
        Error.mk error.code error.message :=
    ((Reads.field _ _ _).map Error.mk).seq (Reads.field _ _ _) (by decide)
  refine first.seq (Reads.fieldIfAny _ _ _ ?_ ?_) (by decide)
  · intro error missing
    rw [missing]
    rfl
  · intro error details given
    rw [given]
    exact decode_details details

end Format

/-- The message is not blank, and no object in the details repeats a name. -/
structure IsSound (error : Error) : Prop where
  worded : Text.isBlankText error.message = false
  proper : ∀ details ∈ error.details, details.Proper

namespace IsSound

variable {error : Error} (sound : error.IsSound)
include sound

theorem ofJson_encode :
    ofJson (encode error) = .ok { error with details := error.details.bind readDetails } := by
  change (format.decode (format.encode error).document).bind _ = _
  rw [format_reads.decode_encode error]
  exact if_neg (Bool.eq_false_iff.mp sound.worded)

theorem ofJson_encode_of_ne_null (notNull : error.details ≠ some .null) :
    ofJson (encode error) = .ok error := by
  have kept : error.details.bind readDetails = error.details := by
    cases given : error.details with
    | none => rfl
    | some details =>
        have present : details ≠ .null := fun isNull => notNull (given.trans (congrArg some isNull))
        rw [Option.bind_some, readDetails_of_ne_null present,
          (sound.proper details given).settled_eq_self]
  rw [sound.ofJson_encode, kept]

theorem ofJson_encode_of_null (isNull : error.details = some .null) :
    ofJson (encode error) = .ok { error with details := none } := by
  rw [sound.ofJson_encode, isNull]
  rfl

theorem ofJson_encode_iff : ofJson (encode error) = .ok error ↔ error.details ≠ some .null := by
  refine ⟨fun same isNull => ?_, sound.ofJson_encode_of_ne_null⟩
  rw [sound.ofJson_encode_of_null isNull] at same
  have missing : none = error.details := congrArg Error.details (Except.ok.inj same)
  rw [isNull] at missing
  cases missing

theorem onShard_ofJson_encode_iff (shard : ShardId) :
    (ofJson (encode error)).map (fun read : Error => read.onShard shard) =
        .ok (error.onShard shard) ↔ error.details ≠ some .null := by
  constructor
  · intro same isNull
    have kept : error.onShard shard = error := by rw [onShard, isNull]
    rw [sound.ofJson_encode_of_null isNull, kept] at same
    have named := congrArg Error.details (Except.ok.inj same)
    rw [isNull] at named
    cases named
  · intro notNull
    rw [sound.ofJson_encode_of_ne_null notNull]
    rfl

end IsSound

inductive Amendment where
  | onShard (shard : ShardId)
  | withDetails (details : Json)
deriving Repr

namespace Amendment

def apply (error : Error) : Amendment → Error
  | .onShard shard => error.onShard shard
  | .withDetails details => error.withDetails details

def shard? : Amendment → Option ShardId
  | .onShard shard => some shard
  | .withDetails _ => none

def details? : Amendment → Option Json
  | .onShard _ => none
  | .withDetails details => some details

end Amendment

def amend (error : Error) (amendments : List Amendment) : Error :=
  amendments.foldl Amendment.apply error

def lastStated (amendments : List Amendment) : Option Json :=
  amendments.reverse.findSome? Amendment.details?

def firstShard (amendments : List Amendment) : Option Json :=
  (amendments.findSome? Amendment.shard?).map ShardId.details

section Amendments

variable (amendment : Amendment) (rest : List Amendment)

theorem lastStated_cons :
    lastStated (amendment :: rest) = (lastStated rest).or amendment.details? := by
  simp [lastStated, List.findSome?_append]

theorem firstShard_cons :
    firstShard (amendment :: rest) = (amendment.shard?.map ShardId.details).or (firstShard rest) := by
  cases amendment <;> rfl

end Amendments

theorem onShard_eq (error : Error) (shard : ShardId) : error.onShard shard =
    { error with details := error.details.or (some shard.details) } := by
  obtain ⟨code, message, details⟩ := error
  cases details <;> rfl

theorem apply_eq (error : Error) (amendment : Amendment) : amendment.apply error =
    { error with
      details := amendment.details?.or (error.details.or (amendment.shard?.map ShardId.details)) } := by
  cases amendment with
  | onShard shard => exact onShard_eq error shard
  | withDetails details => rfl

/-- Only the details change: they are those stated last; if none are stated, those that the error
had; if it had none, the shard named first. -/
theorem amend_eq (error : Error) (amendments : List Amendment) : error.amend amendments =
    { error with
      details := (lastStated amendments).or (error.details.or (firstShard amendments)) } := by
  induction amendments generalizing error with
  | nil => simp [amend, lastStated, firstShard]
  | cons amendment rest ih =>
      have step : error.amend (amendment :: rest) = (amendment.apply error).amend rest := rfl
      rw [step, ih, apply_eq]
      simp only [lastStated_cons, firstShard_cons, Option.or_assoc]

theorem details_amend_eq_null_iff {error : Error} (bare : error.details = none)
    (amendments : List Amendment) :
    (error.amend amendments).details = some .null ↔ lastStated amendments = some .null := by
  rw [amend_eq, bare]
  change (lastStated amendments).or (firstShard amendments) = some .null ↔ _
  cases lastStated amendments with
  | some details => rfl
  | none =>
      refine ⟨fun named => ?_, fun stated => nomatch stated⟩
      obtain ⟨shard, -, isNull⟩ := Option.map_eq_some_iff.mp named
      cases isNull

namespace IsSound

variable {error : Error} (sound : error.IsSound)
include sound

theorem apply {amendment : Amendment} (proper : ∀ details ∈ amendment.details?, details.Proper) :
    (amendment.apply error).IsSound := by
  rw [apply_eq]
  refine ⟨sound.worded, fun details given => ?_⟩
  rcases Option.or_eq_some_iff.mp given with stated | ⟨-, kept⟩
  · exact proper details stated
  rcases Option.or_eq_some_iff.mp kept with held | ⟨-, named⟩
  · exact sound.proper details held
  · obtain ⟨shard, -, rfl⟩ := Option.map_eq_some_iff.mp named
    exact shard.proper_details

theorem amend {amendments : List Amendment}
    (proper : ∀ amendment ∈ amendments, ∀ details ∈ amendment.details?, details.Proper) :
    (error.amend amendments).IsSound := by
  induction amendments generalizing error with
  | nil => exact sound
  | cons amendment rest ih =>
      exact ih (sound.apply (proper amendment List.mem_cons_self))
        fun other among => proper other (List.mem_cons_of_mem _ among)

end IsSound

theorem make?_eq_some {code : ErrorCode} {message : String} {error : Error} :
    make? code message = some error ↔
      Text.isBlankText message = false ∧ error = ⟨code, message, none⟩ := by
  unfold make?
  cases Text.isBlankText message <;> simp [eq_comm]

/-- Let an error be made and then amended, with details in which no object repeats a name. It is read
back as it was, and what was read takes a shard named later as the error takes it, exactly when the
details stated last are not `null`. After `null` the error is read as it was made. -/
theorem read_back_iff {code : ErrorCode} {message : String} {error : Error}
    (made : make? code message = some error) {amendments : List Amendment}
    (proper : ∀ amendment ∈ amendments, ∀ details ∈ amendment.details?, details.Proper) :
    (ofJson (encode (error.amend amendments)) = .ok (error.amend amendments) ↔
      lastStated amendments ≠ some .null) ∧
    (∀ shard, (ofJson (encode (error.amend amendments))).map
        (fun read : Error => read.onShard shard) = .ok ((error.amend amendments).onShard shard) ↔
      lastStated amendments ≠ some .null) ∧
    (lastStated amendments = some .null →
      ofJson (encode (error.amend amendments)) = .ok error) := by
  obtain ⟨worded, made⟩ := make?_eq_some.mp made
  have bare : error.details = none := congrArg Error.details made
  have start : error.IsSound := ⟨made ▸ worded, fun details given => nomatch bare.symm.trans given⟩
  have sound := start.amend proper
  have isNull := details_amend_eq_null_iff bare amendments
  refine ⟨?_, fun shard => ?_, fun stated => ?_⟩
  · rw [sound.ofJson_encode_iff, ne_eq, isNull]
  · rw [sound.onShard_ofJson_encode_iff, ne_eq, isNull]
  · rw [sound.ofJson_encode_of_null (isNull.mpr stated), amend_eq, ← bare]

def cacheOffline : Error :=
  ⟨.serviceUnavailable, "cache offline", none⟩

def failedAttempts : Json :=
  .object [("attempts", .array [.null, ShardId.details ⟨2, by decide⟩]), ("cause", .null)]

theorem failedAttempts_proper : failedAttempts.Proper := by
  refine .object (by decide) fun member found => ?_
  rcases List.mem_pair.mp found with rfl | rfl
  · refine .array fun item among => ?_
    rcases List.mem_pair.mp among with rfl | rfl
    · exact .null
    · exact ShardId.proper_details _
  · exact .null

/-- Details with `null` inside are read back. Those that are `null` are lost, so that a shard named
later takes their place. -/
theorem read_back_iff_offline :
    let detailed := cacheOffline.amend
      [.onShard ⟨3, by decide⟩, .withDetails failedAttempts, .onShard ⟨4, by decide⟩]
    let emptied := cacheOffline.amend [.withDetails failedAttempts, .withDetails .null]
    make? .serviceUnavailable "cache offline" = some cacheOffline ∧ failedAttempts.Proper ∧
      detailed.details = some failedAttempts ∧ ofJson (encode detailed) = .ok detailed ∧
      ofJson (encode emptied) = .ok cacheOffline ∧
      ∀ shard, (ofJson (encode emptied)).map (fun read : Error => read.onShard shard) ≠
        .ok (emptied.onShard shard) := by
  intro detailed emptied
  have made : make? .serviceUnavailable "cache offline" = some cacheOffline :=
    make?_eq_some.mpr ⟨by decide, rfl⟩
  obtain ⟨kept, -, -⟩ := @read_back_iff _ _ _ made
    [.onShard ⟨3, by decide⟩, .withDetails failedAttempts, .onShard ⟨4, by decide⟩]
    (by simpa [Amendment.details?] using failedAttempts_proper)
  obtain ⟨-, told, lost⟩ := @read_back_iff _ _ _ made
    [.withDetails failedAttempts, .withDetails .null]
    (by simpa [Amendment.details?] using ⟨failedAttempts_proper, .null⟩)
  refine ⟨made, failedAttempts_proper, rfl, kept.mpr ?_, lost rfl, fun shard same => ?_⟩
  · exact fun isNull => nomatch isNull
  · exact (told shard).mp same rfl

/-- What an error with the details `null` is written as reads as an error without details. -/
theorem null_details_lost : ∃ error, make? .internalError "boom" = some error ∧
    ofJson (encode (error.withDetails .null)) = .ok error ∧ error ≠ error.withDetails .null ∧
    ∀ shard, error.onShard shard ≠ (error.withDetails .null).onShard shard := by
  refine ⟨⟨.internalError, "boom", none⟩, rfl, rfl, fun same => ?_, fun shard same => ?_⟩
  · cases congrArg Error.details same
  · cases congrArg Error.details same

end Error

end Agenda
