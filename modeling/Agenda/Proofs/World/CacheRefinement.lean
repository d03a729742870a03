import Agenda.Proofs.World.CacheLog
import Agenda.Proofs.World.Completeness

/-!
The cache refines its log. The cache removes entries when they are looked up too late, which the log
does not; as long as the clock never goes back nobody can tell them apart.
-/

namespace Agenda

theorem CacheEntry.isFresh_of_le {entry : CacheEntry} {now later : Instant} (ahead : now ≤ later)
    (fresh : entry.isFresh later = true) : entry.isFresh now = true :=
  decide_eq_true (Int.lt_of_le_of_lt ahead (of_decide_eq_true fresh))

namespace Cache

variable (cache : Cache) {now later : Instant}

theorem get_fst (key : CacheKey) :
    (cache.get now key).1 = ((cache.entries key).filter (·.isFresh now)).map (·.value) := by
  unfold get
  cases cache.entries key with
  | none => rfl
  | some entry => cases fresh : entry.isFresh now <;> simp [Option.filter, fresh]

theorem fresh_after_get (ahead : now ≤ later) (key other : CacheKey) :
    ((cache.get now key).2.entries other).filter (·.isFresh later) =
      (cache.entries other).filter (·.isFresh later) := by
  rw [get_snd_entries]
  split
  · rename_i same
    rw [same, Option.filter_filter]
    congr 1
    funext entry
    cases fresh : entry.isFresh later with
    | false => exact Bool.and_false _
    | true => simp [CacheEntry.isFresh_of_le ahead fresh]
  · rfl

end Cache

namespace World

variable {world : World} {log : CacheLog}

theorem advance_eq (span : Duration) : World.advance span world =
    (world.deployment.now.add? span).elim (.error .timeOverflow, world) fun now =>
      (.ok (), { world with deployment := { world.deployment with now := now } }) := by
  unfold advance
  by_cases long : Cache.longestLifetime < span
  · simp only [if_pos long, Instant.add?_eq_none long, Option.elim_none]
  · simp only [if_neg long]
    cases world.deployment.now.add? span <;> rfl

theorem deployment_after_call (call : CacheCall) (world : World) :
    (world.after call.step).deployment =
      { world.deployment with now := call.clock world.deployment.now } := by
  cases call with
  | put key value lifetime => rfl
  | get key => rfl
  | token user => rfl
  | bump user => rfl
  | advance span =>
      change (World.advance span world).2.deployment = { world.deployment with
        now := (world.deployment.now.add? span).getD world.deployment.now }
      rw [advance_eq]
      cases world.deployment.now.add? span <;> rfl
  | setClock instant => rfl

namespace CacheLog

/-- A log of the past of a world. What is or will be found in the cache is what the log says; an entry
that is gone may be in one of them only. -/
structure Describes (log : CacheLog) (world : World) : Prop where
  works : ∀ facility, world.deployment.failure? facility = none
  clock : world.deployment.now = log.now
  entries : ∀ key later, log.now ≤ later →
    (world.memory.cache.entries key).filter (·.isFresh later) =
      (log.stored? key).filter (·.isFresh later)
  tokens : ∀ user, world.memory.cache.tokens user = .ofCount (log.bumps.count user)

theorem describes_start (tables : Tables) (grants : List PermissionGrant) (now : Instant)
    (config : Config) : (begun now).Describes (start tables grants now config) where
  works _ := rfl
  clock := rfl
  entries _ _ _ := rfl
  tokens _ := rfl

theorem Describes.answers (describes : log.Describes world) (call : CacheCall) :
    (call.step.perform world).1 = log.answer call := by
  obtain ⟨works, clock, entries, tokens⟩ := describes
  cases call with
  | put key value lifetime =>
      change (Session.writeEntry world.deployment key value lifetime world.memory).1 =
        if Cache.longestLifetime < lifetime then .error (.failed .lifetimeOutOfRange)
        else (log.now.add? lifetime).elim (.error .timeOverflow) fun _ => .ok ()
      by_cases long : Cache.longestLifetime < lifetime
      · rw [Session.writeEntry_of_long (works _) long, if_pos long]
      · rw [if_neg long, ← clock]
        cases expiry : world.deployment.now.add? lifetime with
        | none => rw [Session.writeEntry_of_late (works _) (Duration.not_lt.mp long) expiry]; rfl
        | some instant => rw [Session.writeEntry_of_expiry (works _) expiry]; rfl
  | get key =>
      change (Session.readEntry world.deployment key world.memory).1 = _
      rw [Session.readEntry_served (works _), Cache.get_fst, clock, entries key log.now (Int.le_refl _)]
      rfl
  | token user =>
      change (Session.readToken world.deployment user world.memory).1 = _
      rw [Session.readToken_served (works _), tokens]
      rfl
  | bump user =>
      change (touch user world).1 = _
      rw [world.touch_served user (works _)]
      change Except.ok (world.memory.cache.tokens user).next = Except.ok (.ofCount _)
      rw [tokens, BatchToken.next_ofCount]
  | advance span =>
      change (World.advance span world).1 = (log.now.add? span).elim _ _
      rw [advance_eq, clock]
      cases log.now.add? span <;> rfl
  | setClock instant => rfl

section Record

variable (describes : log.Describes world)
include describes

theorem Describes.entries_after (call : CacheCall) (key : CacheKey) {later : Instant}
    (past : log.now ≤ later) (ahead : call.clock log.now ≤ later) :
    ((world.after call.step).memory.cache.entries key).filter (·.isFresh later) =
      ((log.record call).stored? key).filter (·.isFresh later) := by
  obtain ⟨works, clock, entries, -⟩ := describes
  cases call with
  | put other value lifetime =>
      change ((Session.writeEntry world.deployment other value lifetime world.memory).2.cache.entries
        key).filter _ = _
      cases expiry : log.now.add? lifetime with
      | none =>
          rw [Session.writeEntry_refused (works _) (by rw [clock, expiry]), record_put_refused expiry]
          exact entries key later past
      | some instant =>
          rw [Session.writeEntry_of_expiry (works _) (by rw [clock, expiry]), record_put expiry,
            stored?_cons expiry]
          change ((world.memory.cache.setEntry other (some ⟨value, instant⟩)).entries key).filter _ = _
          rw [Cache.setEntry_entries]
          split
          · rfl
          · exact entries key later past
  | get other =>
      change ((Session.readEntry world.deployment other world.memory).2.cache.entries key).filter _ = _
      rw [Session.readEntry_served (works _), clock]
      exact (world.memory.cache.fresh_after_get past other key).trans (entries key later past)
  | bump user =>
      change ((touch user world).2.memory.cache.entries key).filter _ = _
      rw [world.touch_served user (works _)]
      exact entries key later past
  | advance span =>
      obtain ⟨now, moved⟩ := world.after_advance span
      change ((world.after (.advance span)).memory.cache.entries key).filter _ = _
      rw [moved]
      exact entries key later past
  | token user =>
      change ((Session.readToken world.deployment user world.memory).2.cache.entries key).filter _ = _
      rw [Session.readToken_served (works _)]
      exact entries key later past
  | setClock instant => exact entries key later past

theorem Describes.tokens_after (call : CacheCall) (user : UserId) :
    (world.after call.step).memory.cache.tokens user =
      .ofCount ((log.record call).bumps.count user) := by
  obtain ⟨works, clock, -, tokens⟩ := describes
  cases call with
  | put key value lifetime =>
      change (Session.writeEntry world.deployment key value lifetime
        world.memory).2.cache.tokens user = _
      cases expiry : log.now.add? lifetime with
      | none =>
          rw [Session.writeEntry_refused (works _) (by rw [clock, expiry]), record_put_refused expiry]
          exact tokens user
      | some instant =>
          rw [Session.writeEntry_of_expiry (works _) (by rw [clock, expiry]), record_put expiry]
          exact tokens user
  | get key =>
      change (Session.readEntry world.deployment key world.memory).2.cache.tokens user = _
      rw [Session.readEntry_served (works _)]
      exact (congrFun Cache.get_snd_tokens user).trans (tokens user)
  | token other =>
      change (Session.readToken world.deployment other world.memory).2.cache.tokens user = _
      rw [Session.readToken_served (works _)]
      exact tokens user
  | bump other =>
      change (touch other world).2.memory.cache.tokens user = .ofCount ((other :: log.bumps).count user)
      rw [world.touch_served other (works _), List.count_cons]
      change (world.memory.cache.advanceToken other).2.tokens user = _
      rw [Cache.advanceToken_tokens, tokens, tokens, BatchToken.next_ofCount]
      by_cases same : user = other
      · simp [same]
      · have different : ¬other = user := fun equal => same equal.symm
        simp [same, different]
  | advance span =>
      obtain ⟨now, moved⟩ := world.after_advance span
      change (world.after (.advance span)).memory.cache.tokens user = _
      rw [moved]
      exact tokens user
  | setClock instant => exact tokens user

theorem Describes.record {call : CacheCall}
    (forward : world.deployment.now ≤ (world.after call.step).deployment.now) :
    (log.record call).Describes (world.after call.step) := by
  rw [deployment_after_call, describes.clock] at forward
  refine ⟨fun facility => ?_, ?_, fun key later ahead => ?_, describes.tokens_after call⟩
  · rw [deployment_after_call]
    exact describes.works facility
  · rw [deployment_after_call, record_now, describes.clock]
  · rw [record_now] at ahead
    exact describes.entries_after call key (Int.le_trans forward ahead) ahead

theorem Describes.run {calls : List CacheCall}
    (forward : world.NeverBack (calls.map CacheCall.step)) :
    (calls.foldl CacheLog.record log).Describes (world.run (calls.map CacheCall.step)) := by
  induction calls generalizing world log with
  | nil => exact describes
  | cons call rest ih => exact ih (describes.record forward.1) forward.2

end Record

end CacheLog

theorem NeverBack.filter {asked : CacheCall} {calls : List CacheCall} {first second : World}
    (same : first.deployment.now = second.deployment.now)
    (forward : first.NeverBack (calls.map CacheCall.step)) :
    second.NeverBack ((calls.filter asked.matters).map CacheCall.step) := by
  induction calls generalizing first second with
  | nil => trivial
  | cons call rest ih =>
      obtain ⟨now, later⟩ := forward
      have clock : (first.after call.step).deployment.now = call.clock first.deployment.now := by
        rw [deployment_after_call]
      cases matters : asked.matters call with
      | false =>
          rw [List.filter_cons_of_neg (by simp [matters])]
          refine ih ?_ later
          rw [clock, CacheCall.clock_of_idle matters, same]
      | true =>
          rw [List.filter_cons_of_pos matters]
          have also : (second.after call.step).deployment.now = call.clock first.deployment.now := by
            rw [deployment_after_call, same]
          refine ⟨?_, ih (clock.trans also.symm) later⟩
          rw [also, ← same, ← clock]
          exact now

/-- The cache refines its log. From an empty cache, by calls that do not take the clock back, a key is
found just if its last put that was not refused has not expired, and the token of a user numbers the
bumps so far. A put with a lifetime that is no span of time is refused and changes nothing. No answer
depends on the gets before it, nor one about a key or a user on what happened to others. -/
theorem cache_refines_log (tables : Tables) (grants : List PermissionGrant) (now : Instant)
    (config : Config) (calls : List CacheCall)
    (forward : (start tables grants now config).NeverBack (calls.map CacheCall.step)) :
    let log := calls.foldl CacheLog.record (.begun now)
    let reached := (start tables grants now config).run (calls.map CacheCall.step)
    reached.deployment.now = log.now ∧
    (∀ call : CacheCall, (call.step.perform reached).1 = log.answer call) ∧
    (∀ key value, ((Step.readEntry key).perform reached).1 = .ok (some value) ↔
      ∃ put expiry, log.lastPut? key = some put ∧ put.value = value ∧
        put.time.add? put.lifetime = some expiry ∧ reached.deployment.now < expiry) ∧
    (∀ user, ∃ token : BatchToken, ((Step.token user).perform reached).1 = .ok token ∧
      token.value.toNat = log.bumps.count user % 2 ^ 64) ∧
    (∀ key value lifetime, Cache.longestLifetime < lifetime →
      (Step.writeEntry key value lifetime).perform reached =
        (.error (.failed .lifetimeOutOfRange), reached)) ∧
    ∀ asked : CacheCall, (asked.step.perform reached).1 = (asked.step.perform
      ((start tables grants now config).run ((calls.filter asked.matters).map CacheCall.step))).1 := by
  intro log reached
  have describes : log.Describes reached :=
    (CacheLog.describes_start tables grants now config).run forward
  refine ⟨describes.clock, describes.answers, fun key value => ?_, fun user => ?_,
    fun key value lifetime long => ?_, fun asked => ?_⟩
  · have found : ((Step.readEntry key).perform reached).1 = .ok (log.value? key) :=
      describes.answers (.get key)
    rw [describes.clock, ← CacheLog.value?_eq_some, found]
    exact ⟨Except.ok.inj, congrArg _⟩
  · exact ⟨_, describes.answers (.token user), BatchToken.toNat_ofCount _⟩
  · change Action.ofSession (fun deployment => .writeEntry deployment key value lifetime) reached = _
    simp only [Action.ofSession, Session.writeEntry_of_long (describes.works _) long]
    rfl
  · have still : (start tables grants now config).NeverBack
        ((calls.filter asked.matters).map CacheCall.step) := forward.filter rfl
    have fewer := (CacheLog.describes_start tables grants now config).run still
    have alike : (CacheLog.begun now).AlikeFor asked (.begun now) :=
      ⟨rfl, fun _ _ => rfl, fun _ _ => rfl⟩
    rw [describes.answers asked, fewer.answers asked]
    exact (alike.foldl_filter calls).answer_eq

def practiceKey : CacheKey :=
  ⟨"todo:v1:practice"⟩

def otherKey : CacheKey :=
  ⟨"todo:v1:other"⟩

def minuteValue : CachedValue :=
  ⟨.zero, .string "for a minute"⟩

def secondValue : CachedValue :=
  ⟨.zero, .string "for a second"⟩

def overwriting : List CacheCall :=
  [.put practiceKey minuteValue (.ofSeconds 60), .put otherKey minuteValue (.ofSeconds 60),
    .put practiceKey secondValue (.ofSeconds 1),
    .put practiceKey minuteValue ⟨Cache.longestLifetime.nanoseconds + 1⟩,
    .bump practiceCall.user, .advance ⟨999999999⟩]

def overwritten : List CacheCall :=
  overwriting ++ [.get practiceKey, .advance ⟨1⟩]

/-- The value of the second put is found until the second is over, and nothing from then on. The other
key keeps its value, and the token of the user has been bumped once. -/
theorem cache_refines_log_overwritten :
    let before := practice.run (overwriting.map CacheCall.step)
    let after := practice.run (overwritten.map CacheCall.step)
    ((Step.readEntry practiceKey).perform before).1 = .ok (some secondValue) ∧
    ((Step.readEntry practiceKey).perform after).1 = .ok none ∧
    ((Step.readEntry otherKey).perform after).1 = .ok (some minuteValue) ∧
    ((Step.token practiceCall.user).perform after).1 = .ok ⟨1⟩ := by
  intro before after
  have refines (calls : List CacheCall) := cache_refines_log practice.deployment.tables []
    practice.deployment.now {} calls
  obtain ⟨-, -, found, -⟩ := refines overwriting (by decide +kernel)
  obtain ⟨-, answers, later, -⟩ := refines overwritten (by decide +kernel)
  have expires : ((practice.deployment.now.add? (.ofSeconds 1)).any fun expiry =>
        decide (before.deployment.now < expiry)) = true ∧
      ((practice.deployment.now.add? (.ofSeconds 60)).any fun expiry =>
        decide (after.deployment.now < expiry)) = true := by
    decide +kernel
  obtain ⟨second, afterSecond, inSecond⟩ := (Option.any_eq_true _ _).mp expires.1
  obtain ⟨minute, afterMinute, inMinute⟩ := (Option.any_eq_true _ _).mp expires.2
  exact ⟨(found _ _).mpr ⟨_, second, rfl, rfl, afterSecond, of_decide_eq_true inSecond⟩,
    answers (.get practiceKey),
    (later _ _).mpr ⟨_, minute, rfl, rfl, afterMinute, of_decide_eq_true inMinute⟩,
    answers (.token practiceCall.user)⟩

end World

end Agenda
