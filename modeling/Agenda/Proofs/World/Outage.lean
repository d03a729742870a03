import Agenda.Proofs.Cache.Alike
import Agenda.Proofs.Error
import Agenda.Proofs.Scope
import Agenda.Proofs.World.Source

/-!
Shards that are offline. A cached query that has to compute fails with the home shard of the user, if
it needs the ignores, and otherwise with the first shard of its scope that is offline. A call that
fails stores nothing.
-/

namespace Agenda

def ShardId.unreachable (shard : ShardId) (details : Option Json) : Error where
  code := .serviceUnavailable
  message := "learning store connection to shard-" ++ toString shard.number ++
    " failed: shard offline"
  details := details

namespace Deployment

variable {deployment : Deployment}

theorem outcome_read_unreachable {shard : ShardId} (offline : shard ∈ deployment.offline) :
    (deployment.read shard).outcome = .error (shard.unreachable none) := by
  have spelled (digits : String) :
      "learning store connection to " ++ ("shard-" ++ digits) ++ " failed: " ++ "shard offline" =
        "learning store connection to shard-" ++ digits ++ " failed: shard offline" := by
    have front : "learning store connection to shard-" =
        "learning store connection to " ++ "shard-" := by decide
    have back : " failed: shard offline" = " failed: " ++ "shard offline" := by decide
    rw [front, back]
    simp only [String.append_assoc]
  have message : (ServiceFailure.storeConnection shard "shard offline").message =
      (shard.unreachable none).message := spelled _
  rw [outcome_read_offline offline, ServiceFailure.toError, message]
  rfl

theorem reach_unreachable {shards : List ShardId} (ascending : Ranked.Ascending shards)
    (offline : ∃ shard ∈ shards, shard ∈ deployment.offline) :
    ∃ shard ∈ shards, shard ∈ deployment.offline ∧
      (∀ other ∈ shards, other ∈ deployment.offline → shard.number ≤ other.number) ∧
      deployment.reach shards = .error (shard.unreachable (some shard.details)) := by
  induction shards with
  | nil => simp at offline
  | cons first rest ih =>
      obtain ⟨least, further⟩ := List.pairwise_cons.mp ascending
      by_cases unreachable : first ∈ deployment.offline
      · refine ⟨first, List.mem_cons_self, unreachable, fun other member _ => ?_, ?_⟩
        · rcases List.mem_cons.mp member with rfl | later
          · exact Nat.le_refl _
          · have before := least other later
            simp only [Ranked.before, Ranked.rank, Int.lt_irrefl, decide_false, Bool.and_false,
              Bool.or_false, decide_eq_true_eq, Int.ofNat_lt] at before
            exact before.le
        · rw [reach, outcome_read_unreachable unreachable]
          rfl
      · have elsewhere : ∃ shard ∈ rest, shard ∈ deployment.offline := by
          obtain ⟨shard, member, down⟩ := offline
          rcases List.mem_cons.mp member with rfl | later
          · exact absurd down unreachable
          · exact ⟨shard, later, down⟩
        obtain ⟨shard, member, down, smallest, reached⟩ := ih further elsewhere
        refine ⟨shard, List.mem_cons_of_mem _ member, down, fun other among gone => ?_, ?_⟩
        · rcases List.mem_cons.mp among with rfl | later
          · exact absurd gone unreachable
          · exact smallest other later gone
        · rw [reach, deployment.outcome_read unreachable]
          exact reached

end Deployment

namespace NeedsQuery

variable {deployment : Deployment} {user : UserId} {options : NeedsOptions}
  {scope : Scope}

theorem ascending_shards (query : NeedsQuery)
    (resolved : (query.scope deployment user options).outcome = .ok scope) :
    Ranked.Ascending (query.shards scope) := by
  obtain ⟨courses, groups, rfl⟩ := Scope.spread_of_resolve resolved
  cases query <;> exact ShardPartition.ascending_ofList _

end NeedsQuery

/-- The same cache, except that an entry under one key may be gone if it has expired. -/
structure Cache.KeptBut (before : Cache) (now : Instant) (key : CacheKey) (after : Cache) : Prop where
  writes : after.writes = before.writes
  tokens : after.tokens = before.tokens
  entries : ∀ other, after.entries other = before.entries other ∨
    other = key ∧ after.entries other = none ∧
      ∃ entry, before.entries other = some entry ∧ entry.isFresh now = false

namespace Cache.KeptBut

variable {now : Instant} {key : CacheKey}

theorem refl (cache : Cache) : cache.KeptBut now key cache :=
  ⟨rfl, rfl, fun _ => .inl rfl⟩

theorem get (cache : Cache) : cache.KeptBut now key (cache.get now key).2 where
  writes := by
    unfold Cache.get
    split
    · rfl
    · split <;> rfl
  tokens := Cache.get_snd_tokens
  entries other := by
    rw [Cache.get_snd_entries]
    split
    · rename_i same
      subst same
      cases held : cache.entries other with
      | none => exact .inl rfl
      | some entry =>
          cases fresh : entry.isFresh now with
          | true => exact .inl (by simp [Option.filter, fresh])
          | false => exact .inr ⟨rfl, by simp [Option.filter, fresh], entry, rfl, fresh⟩
    · exact .inl rfl

end Cache.KeptBut

theorem Lookup.kept_of_failed {lookup : Lookup} {scope : Scope} (asks : lookup.Asks scope)
    {stop : Stop} (failed : lookup.result.1 = .error stop) :
    lookup.memory.cache.KeptBut lookup.deployment.now ((lookup.request scope).key lookup.token)
      lookup.result.2.cache := by
  have call := fetched_of_asks asks
  generalize lookup.result = reached at failed call ⊢
  cases call with
  | refused failure broken => exact .refl _
  | hit result works found => cases failed
  | failed error works missing outcome => exact .get _
  | unwritten result stop works missing outcome unwritten => exact .get _
  | missed result expiry works missing outcome representable => cases failed

namespace World

/-- A cached query of a user that has to compute, while nothing but shards is out of order. If the
home shard of the user is offline and ignores count, it fails with that shard and no details. Failing
that it fails with the least shard of the scope that is offline, named in the details, and if there
is none it answers. When it fails nothing is written or stored, and nothing is edited. -/
theorem outage_named (world : World) (query : NeedsQuery) (user : UserId) (options : NeedsOptions)
    {scope : Scope} {call : Lookup} {after : World}
    (called : call = ⟨world.deployment, world.memory, query, user, options⟩)
    (stepped : after = world.after (.cached query user options))
    (working : world.deployment.outages = []) (asks : call.Asks scope)
    (missing : call.found? scope = none)
    (representable :
      world.deployment.now.add? (.ofSeconds world.deployment.config.cacheSeconds) ≠ none) :
    let offline := world.deployment.offline
    let needsHome := options.includeIgnored = false ∧ user.shard ∈ offline
    (needsHome → call.result.1 = .error (.failed (user.shard.unreachable none))) ∧
    (¬needsHome → (∃ shard ∈ query.shards scope, shard ∈ offline) →
      ∃ shard ∈ query.shards scope, shard ∈ offline ∧
        (∀ other ∈ query.shards scope, other ∈ offline → shard.number ≤ other.number) ∧
        call.result.1 = .error (.failed (shard.unreachable (some shard.details)))) ∧
    (¬needsHome → (∀ shard ∈ query.shards scope, shard ∉ offline) →
      ∃ items, call.result.1 = .ok items) ∧
    (∀ stop, call.result.1 = .error stop →
      after.deployment = world.deployment ∧
      world.memory.cache.KeptBut world.deployment.now ((call.request scope).key call.token)
        after.memory.cache) := by
  subst called stepped
  have served (facility : Facility) := Deployment.failure?_eq_none working facility
  have answer : (Lookup.result ⟨world.deployment, world.memory, query, user, options⟩).1 =
      (((world.deployment.reachIgnores user options).bind fun _ =>
        world.deployment.reach (query.shards scope)).bind fun _ =>
          query.choose world.deployment user options.limit
            (keepAll query.leftIn (query.sorted world.deployment user options scope))).mapError
              .failed := by
    rw [Lookup.result_of_asks asks, ← NeedsQuery.access, ← NeedsQuery.outcome_firstItems_eq]
    exact CacheRequest.fetch_fst_of_missing (served _) (served _) (served _) missing representable
  have readable (reads : ¬(options.includeIgnored = false ∧ user.shard ∈ world.deployment.offline)) :
      world.deployment.reachIgnores user options = .ok () :=
    Deployment.reachIgnores_readable (by
      rw [not_and_or, Bool.not_eq_false] at reads
      exact reads)
  refine ⟨?_, ?_, ?_, ?_⟩
  · rintro ⟨limited, offline⟩
    rw [answer, Deployment.reachIgnores, limited, Deployment.outcome_read_unreachable offline]
    rfl
  · intro reads down
    obtain ⟨shard, member, offline, least, reached⟩ :=
      Deployment.reach_unreachable (query.ascending_shards asks.resolved) down
    refine ⟨shard, member, offline, least, ?_⟩
    rw [answer, readable reads, reached]
    rfl
  · intro reads online
    obtain ⟨kept, chosen⟩ := NeedsQuery.choose_served (served .checkOne) options.limit
      (keepAll query.leftIn (query.sorted world.deployment user options scope))
    refine ⟨kept, ?_⟩
    rw [answer, readable reads, Deployment.reach_reachable online, Except.bind, Except.bind, chosen]
    rfl
  · intro stop failed
    exact ⟨rfl, Lookup.kept_of_failed asks failed⟩

def nearCourse : CourseId :=
  ⟨⟨10000000000001, by decide⟩⟩

def farCourse : CourseId :=
  ⟨⟨20000000000001, by decide⟩⟩

def stranded : World :=
  (start {
      memberships := [⟨practiceCall.user, [⟨farCourse, .student, .active, false⟩,
        ⟨nearCourse, .student, .active, false⟩], []⟩] } [] practice.deployment.now {}).run
    [.takeOffline nearCourse.shard, .takeOffline farCourse.shard]

def strandedCall : Lookup :=
  ⟨stranded.deployment, stranded.memory, .quizzes {}, practiceCall.user, .default⟩

def strandedScope : Scope :=
  ⟨.ofList [nearCourse, farCourse], .empty⟩

/-- The first of the two shards is named. -/
theorem outage_named_stranded :
    strandedCall.result.1 = .error (.failed (nearCourse.shard.unreachable
      (some (.object [("shard", .natural 1)])))) := by
  have asks : strandedCall.Asks strandedScope := ⟨rfl, rfl, rfl⟩
  have representable : stranded.deployment.now.add?
      (.ofSeconds stranded.deployment.config.cacheSeconds) ≠ none := by
    decide +kernel
  obtain ⟨-, named, -⟩ := stranded.outage_named (.quizzes {}) strandedCall.user .default rfl rfl rfl
    asks rfl representable
  obtain ⟨shard, member, -, least, failed⟩ :=
    named (by decide) ⟨nearCourse.shard, by decide, by decide⟩
  have among : shard ∈ [nearCourse.shard, farCourse.shard] := member
  have first : shard = nearCourse.shard := by
    rcases List.mem_pair.mp among with same | rfl
    · exact same
    · exact absurd (least nearCourse.shard (by decide) (by decide)) (by decide)
  rw [first] at failed
  exact failed

end World

end Agenda
