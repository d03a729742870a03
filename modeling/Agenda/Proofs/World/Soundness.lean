import Agenda.Proofs.Needs.Forms
import Agenda.Proofs.World.Trace

/-!
Every answer of a cached query in a run of a world was computed in that run, by the same query for
the same contexts, under the token that the user still has, and not longer ago than results are
kept.
-/

namespace Agenda

/-- A cache that came about by the events of a history: a token counts the bumps of its user, and
every entry was stored by a call. -/
structure Cache.ExplainedBy (cache : Cache) (history : List Event) : Prop where
  tokens : ∀ user, cache.tokens user = .ofCount (history.countP (Event.bumps user))
  entries : ∀ key entry, cache.entries key = some entry →
    ∃ (place : Nat) (call : Lookup), history[place]? = some (.lookup call) ∧ call.Stores key entry

namespace Cache.ExplainedBy

variable {cache : Cache} {history : List Event}

theorem empty : Cache.empty.ExplainedBy [] where
  tokens _ := rfl
  entries _ _ stored := nomatch stored

theorem forgets {after : Cache} (explained : cache.ExplainedBy history)
    (tokens : after.tokens = cache.tokens)
    (entries : ∀ key entry, after.entries key = some entry → cache.entries key = some entry) :
    after.ExplainedBy history where
  tokens user := by rw [tokens, explained.tokens]
  entries key entry stored := explained.entries key entry (entries key entry stored)

theorem lookup {call : Lookup} (explained : call.memory.cache.ExplainedBy history) :
    call.result.2.cache.ExplainedBy (history ++ [.lookup call]) where
  tokens user := by
    rw [call.cache_after.1, explained.tokens, List.countP_append]
    simp [Event.bumps]
  entries key entry stored := by
    rcases call.cache_after.2 key entry stored with before | now
    · obtain ⟨place, source, found, stores⟩ := explained.entries key entry before
      refine ⟨place, source, ?_, stores⟩
      rw [List.getElem?_append_left (List.getElem?_eq_some_iff.mp found).1, found]
    · exact ⟨history.length, call, by simp, now⟩

theorem bump (explained : cache.ExplainedBy history) (user : UserId) :
    (cache.advanceToken user).2.ExplainedBy (history ++ [.bump user]) where
  tokens := cache.tokens_bump user explained.tokens fun other => rfl
  entries key entry stored := by
    obtain ⟨place, source, found, stores⟩ := explained.entries key entry stored
    refine ⟨place, source, ?_, stores⟩
    rw [List.getElem?_append_left (List.getElem?_eq_some_iff.mp found).1, found]

end Cache.ExplainedBy

theorem Cache.Evolves.explained {before after : Cache} {events : List Event}
    (evolves : Evolves before events after) {history : List Event}
    (explained : before.ExplainedBy history) :
    after.ExplainedBy (history ++ events) ∧
      ∀ (place : Nat) (call : Lookup), events[place]? = some (.lookup call) →
        call.memory.cache.ExplainedBy (history ++ events.take place) := by
  induction evolves generalizing history with
  | stays cache => exact ⟨by simpa using explained, fun place call found => nomatch found⟩
  | forgets tokens entries _ ih => exact ih (explained.forgets tokens entries)
  | @lookup call events final _ ih =>
      obtain ⟨whole, calls⟩ := ih explained.lookup
      refine ⟨by simpa using whole, fun place other found => ?_⟩
      cases place with
      | zero =>
          obtain rfl : call = other := by simpa using found
          simpa using explained
      | succ place => simpa using calls place other (by simpa using found)
  | @bump cache user events final _ ih =>
      obtain ⟨whole, calls⟩ := ih (explained.bump user)
      refine ⟨by simpa using whole, fun place other found => ?_⟩
      cases place with
      | zero => simp at found
      | succ place => simpa using calls place other (by simpa using found)

theorem countP_take_lt {α : Type} {test : α → Bool} {list : List α} {first place last : Nat}
    {element : α} (before : first ≤ place) (after : place < last)
    (found : list[place]? = some element) (passes : test element = true) :
    (list.take first).countP test < (list.take last).countP test := by
  have lower : (list.take first).countP test ≤ (list.take place).countP test :=
    (List.take_sublist_take_left before).countP_le
  have upper : (list.take (place + 1)).countP test ≤ (list.take last).countP test :=
    (List.take_sublist_take_left after).countP_le
  rw [List.take_add_one, found, Option.toList_some, List.countP_append,
    List.countP_singleton, if_pos passes] at upper
  omega

namespace World

/-- An answer about a scope with something to look at comes from a miss of the same query in the
run, now or earlier: for the same contexts, under the same token, with no bump of the user since
then, and before its result expires. -/
theorem answer_has_source (tables : Tables) (grants : List PermissionGrant) (now : Instant)
    (config : Config) (steps : List Step) (grading : config.gradingDisabled = false)
    (queried : ∀ step ∈ steps, step.writesByHand = false) {events : List Event}
    (ran : (start tables grants now config).trace steps = events)
    (free : Sha256.CollisionFree (events.flatMap Event.hashedTexts))
    (few : ∀ user, events.countP (Event.bumps user) < 2 ^ 64)
    {last : Nat} {later : Lookup} {scope : Scope} {items : List later.query.Item}
    (called : events[last]? = some (.lookup later)) (resolved : later.scope = .ok scope)
    (inside : later.query.isOutside scope = false) (answered : later.result.1 = .ok items) :
    ∃ first ≤ last, ∃ deployment memory area,
      events[first]? = some (.lookup (later.elsewhere deployment memory)) ∧
      (later.elsewhere deployment memory).Misses area items ∧
      (∀ context, context ∈ area.contexts ↔ context ∈ scope.contexts) ∧
      (later.elsewhere deployment memory).token = later.token ∧
      (∀ place, first < place → place < last → events[place]? ≠ some (.bump later.user)) ∧
      (first < last → ∃ expiry, deployment.now.add? (.ofSeconds config.cacheSeconds) = some expiry ∧
        later.deployment.now < expiry) := by
  have explained := ((start tables grants now config).trace_evolves steps queried |>.explained
    Cache.ExplainedBy.empty).2
  rw [ran] at explained
  have sameConfig (call : Lookup) (member : .lookup call ∈ events) :
      call.deployment.config = config :=
    (start tables grants now config).config_of_mem_trace (ran ▸ member)
  have enabled : later.query.isDisabled later.deployment.config = false := by
    rw [sameConfig later (List.mem_of_getElem? called)]
    exact later.query.isDisabled_eq_false grading
  have asks : later.Asks scope := ⟨enabled, resolved, inside⟩
  obtain ⟨reached, misses | found⟩ := Lookup.answer_cases asks answered
  · exact ⟨last, Nat.le_refl last, later.deployment, later.memory, scope, called, misses,
      fun context => Iff.rfl, rfl, fun place after before => absurd after (by omega),
      fun before => absurd before (by omega)⟩
  · obtain ⟨entry, stored, fresh, -, read⟩ :=
      ((later.request scope).found?_eq_some later.deployment later.memory).mp found
    have met := explained last later called
    rw [List.nil_append] at met
    obtain ⟨first, earlier, taken, stores⟩ := met.entries _ _ stored
    have before : first < last := by
      by_contra notBefore
      rw [List.getElem?_take, if_neg notBefore] at taken
      cases taken
    have place : events[first]? = some (.lookup earlier) := by
      rwa [List.getElem?_take_of_lt before] at taken
    have metFirst := explained first earlier place
    rw [List.nil_append] at metFirst
    have hashed {call : Lookup} {index : Nat} (position : events[index]? = some (.lookup call)) :
        call.hashedTexts ⊆ events.flatMap Event.hashedTexts := fun text member =>
      List.mem_flatMap.mpr ⟨.lookup call, List.mem_of_getElem? position, member⟩
    obtain ⟨deployment, memory, area, rfl, misses, contexts, tokens, expiry⟩ :=
      Lookup.source_of_stored stores asks reached
        (free.subset (List.append_subset.mpr ⟨hashed place, hashed called⟩)) read
    refine ⟨first, before.le, deployment, memory, area, place, misses, contexts, tokens, ?_,
      fun _ => ⟨entry.expiry, ?_, ?_⟩⟩
    · -- A bump between the two calls would have given them different tokens.
      intro middle after soon bumped
      have isBump : Event.bumps later.user (.bump later.user) = true := by simp [Event.bumps]
      have more := countP_take_lt after.le soon bumped isBump
      have bound (count : Nat) : (events.take count).countP (Event.bumps later.user) < 2 ^ 64 :=
        lt_of_le_of_lt (List.take_sublist count events).countP_le (few later.user)
      have counts : BatchToken.ofCount ((events.take first).countP (Event.bumps later.user)) =
          .ofCount ((events.take last).countP (Event.bumps later.user)) := by
        rw [← met.tokens, ← metFirst.tokens]
        exact tokens
      have same := BatchToken.ofCount_injective (bound first) (bound last) counts
      omega
    · have configured := sameConfig _ (List.mem_of_getElem? place)
      change deployment.config = config at configured
      rw [← configured]
      exact expiry
    · simpa [CacheEntry.isFresh] using fresh

def practiceQuiz : QuizId :=
  ⟨⟨5, by decide⟩⟩

def practice : World :=
  let noon : Instant := ⟨⟨2026, 1, 11, by decide⟩, 43200, 0, by decide, by decide⟩
  start {
      memberships := [⟨⟨⟨7, by decide⟩⟩, [⟨⟨⟨1, by decide⟩⟩, .student, .active, false⟩], []⟩]
      quizzes := [⟨practiceQuiz, ⟨⟨1, by decide⟩⟩, "Warm-up", .available, .practice, .none, noon,
        none⟩] } [] noon {}

def practiceCall : Lookup :=
  ⟨practice.deployment, practice.memory, .quizzes {}, ⟨⟨7, by decide⟩⟩, .default⟩

def practiceScope : Scope :=
  ⟨.ofList [⟨⟨1, by decide⟩⟩], .empty⟩

def practiceItems : List QuizTodo :=
  practice.deployment.tables.quizzes.map fun quiz => ⟨quiz, none⟩

theorem practice_list :
    (Quizzes.list ⟨{}, practiceCall.user, .default⟩ practice.deployment practiceScope).outcome =
      .ok practiceItems := by
  have sorted : Listed.sort practiceItems = practiceItems := List.mergeSort_singleton _
  have found : (gatherParts (Quizzes.onShard ⟨{}, practiceCall.user, .default⟩ practice.deployment [])
      practiceScope.courses.parts).outcome = .ok practiceItems := rfl
  rw [Quizzes.outcome_list rfl found, sorted]

theorem practice_misses : practiceCall.Misses practiceScope practiceItems where
  enabled := rfl
  resolved := rfl
  inside := rfl
  reached := rfl
  missing := rfl
  computed := (NeedsQuery.outcome_firstItems (.quizzes {}) practice.deployment practiceCall.user .default
    rfl practiceScope).trans (congrArg (Except.map _) practice_list)

theorem practice_params : ((NeedsQuery.quizzes {}).params .default).canonical.text =
    "\x7b\"options\":\x7b\"contexts\":null,\"course_ids\":null,\"due_after\":null," ++
    "\"due_before\":null,\"group_ids\":null,\"include_concluded\":false," ++
    "\"include_ignored\":false,\"limit\":15\x7d,\"quiz\":\x7b\"needing_submission_only\":false\x7d\x7d" := by
  have options : JsonFormat.encode NeedsOptions.default = .object
      [("limit", .natural 15), ("due_after", .null), ("due_before", .null),
        ("include_ignored", .boolean false), ("include_concluded", .boolean false),
        ("course_ids", .null), ("group_ids", .null), ("contexts", .null)] := rfl
  have choice : JsonFormat.encode ({} : QuizOptions) =
      .object [("needing_submission_only", .boolean false)] := rfl
  simp only [NeedsQuery.params, options, choice, Json.canonical, Json.canonicalMembers,
    Json.sortMembers, Json.natural, Json.integer]
  simp [List.mergeSort, List.MergeSort.Internal.splitInTwo]
  decide +kernel

theorem practice_collisionFree : Sha256.CollisionFree
    ((practiceCall.request practiceScope).hashedTexts .zero ++
      (practiceCall.request practiceScope).hashedTexts (.next .zero)) := by
  let request := practiceCall.request practiceScope
  have distinct : ([(request.parts .zero).material, (request.parts (.next .zero)).material,
      contextText request.contexts, request.params.canonical.text].map Sha256.ofText).Nodup := by
    simp only [request, CacheRequest.parts, Lookup.request, NeedsQuery.cacheRequest,
      CacheKeyParts.material, Json.digest, practiceCall, practice_params]
    decide +kernel
  refine (Sha256.CollisionFree.of_nodup distinct).subset ?_
  simp [CacheRequest.hashedTexts, CacheKeyParts.hashedTexts, request, CacheRequest.parts]

theorem practice_free : Sha256.CollisionFree practiceCall.hashedTexts := by
  rw [Lookup.hashedTexts_of_asks practice_misses.toAsks rfl]
  exact practice_collisionFree.subset (List.subset_append_left _ _)

theorem practice_texts {deployment : Deployment} {memory : Memory}
    (asks : (practiceCall.elsewhere deployment memory).Asks practiceScope)
    (reached : deployment.failure? .readToken = none)
    (tokens : memory.cache.tokens practiceCall.user = practiceCall.token) :
    (practiceCall.elsewhere deployment memory).hashedTexts = practiceCall.hashedTexts := by
  have same : (practiceCall.elsewhere deployment memory).token = practiceCall.token := tokens
  rw [Lookup.hashedTexts_of_asks asks reached, same,
    Lookup.hashedTexts_of_asks practice_misses.toAsks rfl]
  simp only [CacheRequest.hashedTexts, CacheRequest.parts, Lookup.request, NeedsQuery.cacheRequest,
    Lookup.elsewhere]

theorem answer_has_source_practice :
    ∃ first ≤ 1, ∃ deployment memory area,
      [Event.lookup practiceCall,
        .lookup (practiceCall.elsewhere practice.deployment practiceCall.result.2)][first]? =
          some (.lookup (practiceCall.elsewhere deployment memory)) ∧
      (practiceCall.elsewhere deployment memory).Misses area
        practiceItems := by
  let again := practiceCall.elsewhere practice.deployment practiceCall.result.2
  have expires : ∃ expiry, practice.deployment.now.add?
      (practiceCall.request practiceScope).lifetime = some expiry ∧
        practice.deployment.now < expiry := by
    have later : ((practice.deployment.now.add? (practiceCall.request practiceScope).lifetime).any
        fun expiry => decide (practice.deployment.now < expiry)) = true := by decide +kernel
    obtain ⟨expiry, representable, fresh⟩ := (Option.any_eq_true _ _).mp later
    exact ⟨expiry, representable, of_decide_eq_true fresh⟩
  obtain ⟨expiry, representable, fresh⟩ := expires
  have answered : again.result.1 =
      .ok practiceItems :=
    Lookup.served_again practice_misses rfl rfl representable fresh
  have texts : again.hashedTexts = practiceCall.hashedTexts := by
    have asks : again.Asks practiceScope := ⟨rfl, rfl, rfl⟩
    have tokens : again.token = practiceCall.token :=
      congrFun practiceCall.cache_after.1 practiceCall.user
    rw [Lookup.hashedTexts_of_asks asks rfl, tokens,
      Lookup.hashedTexts_of_asks practice_misses.toAsks rfl]
    rfl
  have free : Sha256.CollisionFree practiceCall.hashedTexts := by
    rw [Lookup.hashedTexts_of_asks practice_misses.toAsks rfl]
    exact practice_collisionFree.subset (List.subset_append_left _ _)
  have within : [Event.lookup practiceCall, .lookup again].flatMap Event.hashedTexts ⊆
      practiceCall.hashedTexts := by
    simp [Event.hashedTexts, texts]
  obtain ⟨first, early, deployment, memory, area, called, misses, -⟩ :=
    answer_has_source _ _ _ _ [.cached (.quizzes {}) practiceCall.user .default,
      .cached (.quizzes {}) practiceCall.user .default] rfl (by simp [Step.writesByHand])
      (rfl : practice.trace _ = [Event.lookup practiceCall, .lookup again]) (free.subset within)
      (fun user => by simp [Event.bumps])
      (rfl : [Event.lookup practiceCall, .lookup again][1]? = some (.lookup again))
      (rfl : again.scope = .ok practiceScope) rfl answered
  exact ⟨first, early, deployment, memory, area, called, misses⟩

end World

end Agenda
